import Mathlib.Data.Finset.Basic
import Mathlib.Data.List.Lex
import Mathlib.Data.List.Sort
import PulsarVerifier.Lib.Table
import PulsarVerifier.Store.Record

/-!
# Provider availability

The messages by which validators tell each other who holds which proof, their validation, and the index of known
providers.  Encoding and decoding of messages and peer identifiers is done by `prost` and `libp2p`, outside this
development: it is the parameter `AvailabilityWire`.
-/

namespace PulsarVerifier

def queryIdLen : Nat := 16

/-- Correlates one broadcast availability query with provider responses. -/
structure QueryId where
  bytes : FixedBytes queryIdLen
  deriving DecidableEq

/-! ### The order of bytes -/

namespace Bytes

def Le (a b : Bytes) : Prop := a.map UInt8.toNat ≤ b.map UInt8.toNat

instance : DecidableRel Le := fun a b => inferInstanceAs (Decidable (a.map UInt8.toNat ≤ b.map UInt8.toNat))

theorem Le.total (a b : Bytes) : Le a b ∨ Le b a := le_total (a.map UInt8.toNat) (b.map UInt8.toNat)

theorem Le.trans {a b c : Bytes} (hab : Le a b) (hbc : Le b c) : Le a c := le_trans hab hbc

theorem Le.antisymm {a b : Bytes} (hab : Le a b) (hba : Le b a) : a = b := by
  have hinj : Function.Injective UInt8.toNat := fun _ _ h => UInt8.toNat_inj.1 h
  exact List.map_injective_iff.2 hinj (le_antisymm hab hba)

instance : Std.Total Le := ⟨Le.total⟩

instance : IsTrans Bytes Le := ⟨fun _ _ _ => Le.trans⟩

instance : Std.Antisymm Le := ⟨fun _ _ => Le.antisymm⟩

end Bytes

/-! ### Peer identifiers -/

namespace PeerId

private def base58Alphabet : List Char := "123456789ABCDEFGHJKLMNPQRSTUVWXYZabcdefghijkmnopqrstuvwxyz".toList

private def base58Digits : Nat → Nat → List Char → List Char
  | 0, _, digits => digits
  | fuel + 1, n, digits =>
    if n = 0 then digits else base58Digits fuel (n / 58) (base58Alphabet.getD (n % 58) '1' :: digits)

/-- The base-58 form that `Display` prints. -/
def toBase58 (peer : PeerId) : String :=
  let zeros := peer.toBytes.takeWhile (· == 0)
  let value := peer.toBytes.foldl (fun n byte => 256 * n + byte.toNat) 0
  String.ofList (zeros.map (fun _ => '1') ++ base58Digits (2 * peer.toBytes.length) value [])

/-- The order of `sort_by_key(|peer| peer.to_bytes())`. -/
def BytesLe (p q : PeerId) : Prop := Bytes.Le p.toBytes q.toBytes

instance : DecidableRel BytesLe := fun p q => inferInstanceAs (Decidable (Bytes.Le p.toBytes q.toBytes))

instance : Std.Total BytesLe := ⟨fun _ _ => Bytes.Le.total _ _⟩

instance : IsTrans PeerId BytesLe := ⟨fun _ _ _ => Bytes.Le.trans⟩

instance : Std.Antisymm BytesLe := ⟨fun _ _ hpq hqp => congrArg PeerId.mk (Bytes.Le.antisymm hpq hqp)⟩

/-- The elements of a set of peers, sorted by their bytes. -/
def sortByBytes (peers : Finset PeerId) : List PeerId :=
  Quot.liftOn peers.val (List.insertionSort BytesLe) fun a b h => by
    have hperm : (List.insertionSort BytesLe a).Perm (List.insertionSort BytesLe b) :=
      (List.perm_insertionSort _ a).trans (h.trans (List.perm_insertionSort _ b).symm)
    exact hperm.eq_of_pairwise' (List.pairwise_insertionSort _ a) (List.pairwise_insertionSort _ b)

@[simp] theorem mem_sortByBytes {peers : Finset PeerId} {peer : PeerId} : peer ∈ sortByBytes peers ↔ peer ∈ peers := by
  obtain ⟨⟨l⟩, h⟩ := peers
  exact (List.perm_insertionSort BytesLe l).mem_iff

end PeerId

/-! ### The index -/

/-- The providers known for each verification identifier. -/
structure AvailabilityIndex where
  entries : AList fun _ : VerificationId => Finset PeerId

namespace AvailabilityIndex

def empty : AvailabilityIndex := ⟨∅⟩

def providerSet (index : AvailabilityIndex) (id : VerificationId) : Finset PeerId :=
  (index.entries.lookup id).getD ∅

def add (index : AvailabilityIndex) (id : VerificationId) (peer : PeerId) : AvailabilityIndex :=
  ⟨index.entries.insert id (insert peer (index.providerSet id))⟩

def providers (index : AvailabilityIndex) (id : VerificationId) : List PeerId :=
  PeerId.sortByBytes (index.providerSet id)

def removeProvider (index : AvailabilityIndex) (id : VerificationId) (peer : PeerId) : AvailabilityIndex :=
  match index.entries.lookup id with
  | none => index
  | some peers =>
    if peers.erase peer = ∅ then ⟨index.entries.erase id⟩ else ⟨index.entries.insert id (peers.erase peer)⟩

def removePeer (index : AvailabilityIndex) (peer : PeerId) : AvailabilityIndex :=
  ⟨index.entries.retain fun _ peers => if peers.erase peer = ∅ then none else some (peers.erase peer)⟩

/-- `ids` are the elements of a `HashSet`, in any order. -/
def replaceProviderProofs (index : AvailabilityIndex) (peer : PeerId) (ids : List VerificationId) :
    AvailabilityIndex :=
  ids.foldl (fun index id => index.add id peer) (index.removePeer peer)

variable {index : AvailabilityIndex} {id id' : VerificationId} {peer peer' : PeerId}

theorem mem_providers : peer ∈ index.providers id ↔ peer ∈ index.providerSet id := PeerId.mem_sortByBytes

@[simp] theorem providerSet_empty : empty.providerSet id = ∅ := rfl

@[simp] theorem mem_providerSet_add :
    peer' ∈ (index.add id peer).providerSet id' ↔ (id' = id ∧ peer' = peer) ∨ peer' ∈ index.providerSet id' := by
  unfold add providerSet
  by_cases h : id' = id
  · subst h
    simp
  · simp [AList.lookup_insert_ne h, h]

@[simp] theorem mem_providerSet_removeProvider :
    peer' ∈ (index.removeProvider id peer).providerSet id' ↔
      peer' ∈ index.providerSet id' ∧ ¬ (id' = id ∧ peer' = peer) := by
  unfold removeProvider
  cases hl : index.entries.lookup id with
  | none =>
    have hnone : index.providerSet id = ∅ := by simp [providerSet, hl]
    refine (and_iff_left_of_imp ?_).symm
    rintro hmem ⟨rfl, -⟩
    rw [hnone] at hmem
    exact Finset.notMem_empty _ hmem
  | some peers =>
    simp only
    by_cases h : id' = id
    · subst h
      split
      · rename_i he
        have : peer' ∉ peers.erase peer := by simp [he]
        simp only [providerSet, AList.lookup_erase, hl, Option.getD_none, Option.getD_some, Finset.notMem_empty,
          false_iff]
        rw [Finset.mem_erase] at this
        tauto
      · simp [providerSet, hl, and_comm]
    · split
      · simp [providerSet, AList.lookup_erase_ne h, h]
      · simp [providerSet, AList.lookup_insert_ne h, h]

@[simp] theorem mem_providerSet_removePeer :
    peer' ∈ (index.removePeer peer).providerSet id ↔ peer' ∈ index.providerSet id ∧ peer' ≠ peer := by
  unfold removePeer providerSet
  rw [AList.lookup_retain]
  cases index.entries.lookup id with
  | none => simp
  | some peers =>
    simp only [Option.bind_some, Option.getD_some]
    by_cases he : peers.erase peer = ∅
    · have : peer' ∉ peers.erase peer := by simp [he]
      rw [Finset.mem_erase] at this
      simp only [he, if_true, Option.getD_none, Finset.notMem_empty, false_iff]
      tauto
    · simp [he, and_comm]

@[simp] theorem mem_providerSet_replaceProviderProofs {ids : List VerificationId} :
    peer' ∈ (index.replaceProviderProofs peer ids).providerSet id ↔
      (peer' = peer ∧ id ∈ ids) ∨ (peer' ≠ peer ∧ peer' ∈ index.providerSet id) := by
  have hfold : ∀ (ids : List VerificationId) (index : AvailabilityIndex),
      peer' ∈ (ids.foldl (fun index id => index.add id peer) index).providerSet id ↔
        (peer' = peer ∧ id ∈ ids) ∨ peer' ∈ index.providerSet id := by
    intro ids
    induction ids with
    | nil => simp
    | cons i ids ih =>
      intro index
      rw [List.foldl_cons, ih, mem_providerSet_add, List.mem_cons]
      tauto
  unfold replaceProviderProofs
  rw [hfold, mem_providerSet_removePeer]
  tauto

theorem mem_providerSet_addAll {peers : List PeerId} :
    peer ∈ (peers.foldl (fun index peer => index.add id peer) index).providerSet id' ↔
      (id' = id ∧ peer ∈ peers) ∨ peer ∈ index.providerSet id' := by
  induction peers generalizing index with
  | nil => simp
  | cons p peers ih =>
    rw [List.foldl_cons, ih, mem_providerSet_add, List.mem_cons]
    tauto

theorem mem_providerSet_removeAll {peers : List PeerId} :
    peer ∈ (peers.foldl removePeer index).providerSet id ↔ peer ∈ index.providerSet id ∧ peer ∉ peers := by
  induction peers generalizing index with
  | nil => simp
  | cons p peers ih =>
    rw [List.foldl_cons, ih, mem_providerSet_removePeer, List.mem_cons]
    tauto

end AvailabilityIndex

/-! ### Messages -/

inductive AvailabilityPayload
  | announcement (verificationId : Bytes)
  | query (requestId verificationId : Bytes)
  | response (requestId verificationId : Bytes) (providerPeerIds : List Bytes)
  deriving DecidableEq

structure AvailabilityMessage where
  chainId : String
  payload : Option AvailabilityPayload
  deriving DecidableEq

/-- The byte formats of `prost` and `libp2p`; a failure carries the text of its error. -/
class AvailabilityWire where
  encode : AvailabilityMessage → Bytes
  decode : Bytes → Except String AvailabilityMessage
  peerFromBytes : Bytes → Except String PeerId

inductive ValidatedAvailability
  | announcement (verificationId : VerificationId)
  | query (queryId : QueryId) (verificationId : VerificationId)
  | response (queryId : QueryId) (verificationId : VerificationId) (providers : List PeerId)
  deriving DecidableEq

def queryId (bytes : Bytes) : Except Error QueryId :=
  if h : bytes.length = queryIdLen then .ok ⟨⟨bytes, h⟩⟩
  else .error (.p2pProtocol s!"query ID must be {queryIdLen} bytes, got {bytes.length}")

section

variable [AvailabilityWire]

/-- The loop over the provider hints of a response; `unique` are the peers collected so far. -/
def collectProviders (authorized unique : Finset PeerId) : List Bytes → Except Error (Finset PeerId)
  | [] => .ok unique
  | bytes :: rest =>
    match AvailabilityWire.peerFromBytes bytes with
    | .error error => .error (.p2pProtocol s!"invalid provider PeerId: {error}")
    | .ok peer =>
      if peer ∈ authorized then collectProviders authorized (insert peer unique) rest
      else .error (.p2pProtocol s!"provider {peer.toBase58} is not an active validator")

def decodeAndValidate (bytes : Bytes) (expectedChainId : String) (authorized : Finset PeerId)
    (maximumProviders : Nat) : Except Error ValidatedAvailability :=
  match AvailabilityWire.decode bytes with
  | .error error => .error (.p2pProtocol s!"invalid availability protobuf: {error}")
  | .ok envelope =>
    if envelope.chainId ≠ expectedChainId then
      .error (.p2pProtocol
        s!"availability chain ID mismatch: expected {expectedChainId}, got {envelope.chainId}")
    else
      match envelope.payload with
      | some (.announcement id) => do
        let id ← VerificationId.tryFrom id
        pure (.announcement id)
      | some (.query requestId id) => do
        let queryId ← queryId requestId
        let id ← VerificationId.tryFrom id
        pure (.query queryId id)
      | some (.response requestId id providerPeerIds) =>
        if providerPeerIds.length > maximumProviders then
          .error (.p2pProtocol s!"availability response exceeds {maximumProviders} providers")
        else do
          let unique ← collectProviders authorized ∅ providerPeerIds
          let queryId ← queryId requestId
          let id ← VerificationId.tryFrom id
          pure (.response queryId id (PeerId.sortByBytes unique))
      | none => .error (.p2pProtocol "availability message has no payload")

def announcement (chainId : String) (id : VerificationId) : Bytes :=
  AvailabilityWire.encode ⟨chainId, some (.announcement id.bytes.1)⟩

def query (chainId : String) (queryId : QueryId) (id : VerificationId) : Bytes :=
  AvailabilityWire.encode ⟨chainId, some (.query queryId.bytes.1 id.bytes.1)⟩

def response (chainId : String) (queryId : QueryId) (id : VerificationId) (providers : List PeerId) : Bytes :=
  AvailabilityWire.encode ⟨chainId, some (.response queryId.bytes.1 id.bytes.1 (providers.map PeerId.toBytes))⟩

end

end PulsarVerifier
