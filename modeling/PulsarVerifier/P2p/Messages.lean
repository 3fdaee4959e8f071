import Mathlib.Data.Finset.Lattice.Lemmas
import PulsarVerifier.Lib.Checks
import PulsarVerifier.P2p.Wire

/-!
# Validation of availability messages

`decode_and_validate` accepts exactly the encodings of messages for the expected chain whose identifiers have the right
lengths and whose providers, if it is a response, are few enough and all authorized (`Validates`).  It returns these
identifiers, and the providers as a strictly sorted list.  What the functions `announcement`, `query` and `response`
build is accepted and read back.
-/

namespace PulsarVerifier

/-! ### Sorted peers -/

namespace PeerId

theorem nodup_sortByBytes (peers : Finset PeerId) : (sortByBytes peers).Nodup := by
  obtain ⟨⟨l⟩, h⟩ := peers
  exact (List.perm_insertionSort BytesLe l).nodup_iff.2 h

theorem pairwise_sortByBytes (peers : Finset PeerId) : (sortByBytes peers).Pairwise BytesLe := by
  obtain ⟨⟨l⟩, h⟩ := peers
  exact List.pairwise_insertionSort BytesLe l

theorem sortByBytes_toFinset {l : List PeerId} (hsorted : l.Pairwise BytesLe) (hnodup : l.Nodup) :
    sortByBytes l.toFinset = l := by
  have hval : l.toFinset.val = (l : Multiset PeerId) := by rw [List.toFinset_val, hnodup.dedup]
  unfold sortByBytes
  rw [hval]
  exact hsorted.insertionSort_eq

theorem sortByBytes_take (peers : Finset PeerId) (n : Nat) :
    sortByBytes ((sortByBytes peers).take n).toFinset = (sortByBytes peers).take n :=
  sortByBytes_toFinset ((pairwise_sortByBytes peers).sublist (List.take_sublist n _))
    ((nodup_sortByBytes peers).sublist (List.take_sublist n _))

def BytesLt (p q : PeerId) : Prop := p.toBytes.map UInt8.toNat < q.toBytes.map UInt8.toNat

theorem BytesLe.lt_of_ne {p q : PeerId} (h : BytesLe p q) (hne : p ≠ q) : BytesLt p q := by
  refine lt_of_le_of_ne h fun heq => hne ?_
  exact Std.Antisymm.antisymm (r := BytesLe) p q h heq.ge

theorem pairwise_lt_sortByBytes (peers : Finset PeerId) : (sortByBytes peers).Pairwise BytesLt :=
  (pairwise_sortByBytes peers).imp₂ (fun _ _ hle hne => hle.lt_of_ne hne) (nodup_sortByBytes peers)

theorem length_sortByBytes (peers : Finset PeerId) : (sortByBytes peers).length = peers.card := by
  obtain ⟨⟨l⟩, h⟩ := peers
  exact (List.perm_insertionSort BytesLe l).length_eq

end PeerId

/-! ### What is accepted -/

@[simp] theorem queryId_bytes (query : QueryId) : queryId query.bytes.1 = .ok query := by
  unfold queryId
  rw [dif_pos query.bytes.2]
  rfl

theorem queryId_eq_ok_iff {bytes : Bytes} {query : QueryId} : queryId bytes = .ok query ↔ bytes = query.bytes.1 := by
  constructor
  · intro h
    unfold queryId at h
    split at h
    · cases h
      rfl
    · cases h
  · rintro rfl
    exact queryId_bytes query

section

variable [AvailabilityWire]

/-- What is encoded is decoded again: every message, and the identifiers of `peers`. -/
structure AvailabilityWire.RoundTrip (peers : Finset PeerId) : Prop where
  message : ∀ m : AvailabilityMessage, AvailabilityWire.decode (AvailabilityWire.encode m) = .ok m
  peer : ∀ peer ∈ peers, AvailabilityWire.peerFromBytes peer.toBytes = .ok peer

/-- The hints are the byte forms of authorized peers. -/
def AuthorizedHints (authorized : Finset PeerId) (hints : List Bytes) (peers : List PeerId) : Prop :=
  List.Forall₂ (fun hint peer => AvailabilityWire.peerFromBytes hint = .ok peer ∧ peer ∈ authorized) hints peers

theorem collectProviders_eq_ok_iff {authorized unique result : Finset PeerId} {hints : List Bytes} :
    collectProviders authorized unique hints = .ok result ↔
      ∃ peers, AuthorizedHints authorized hints peers ∧ result = unique ∪ peers.toFinset := by
  induction hints generalizing unique with
  | nil =>
    constructor
    · intro h
      cases h
      exact ⟨[], .nil, by simp⟩
    · rintro ⟨peers, hpeers, rfl⟩
      cases hpeers
      simp [collectProviders]
  | cons hint hints ih =>
    rw [collectProviders]
    cases hpeer : AvailabilityWire.peerFromBytes hint with
    | error error =>
      refine iff_of_false nofun ?_
      rintro ⟨peers, hpeers, -⟩
      cases hpeers with
      | cons hhead _ => cases hpeer.symm.trans hhead.1
    | ok peer =>
      dsimp only
      split
      · rename_i hauthorized
        rw [ih]
        constructor
        · rintro ⟨peers, hpeers, rfl⟩
          exact ⟨peer :: peers, .cons ⟨hpeer, hauthorized⟩ hpeers, by simp⟩
        · rintro ⟨peers, hpeers, rfl⟩
          cases hpeers with
          | cons hhead htail =>
            cases hpeer.symm.trans hhead.1
            exact ⟨_, htail, by simp⟩
      · rename_i hnot
        refine iff_of_false nofun ?_
        rintro ⟨peers, hpeers, -⟩
        cases hpeers with
        | cons hhead _ =>
          cases hpeer.symm.trans hhead.1
          exact hnot hhead.2

/-- The payload has identifiers of the right lengths and authorized providers, not too many; the result has the same
identifiers and the sorted providers. -/
inductive Validates (authorized : Finset PeerId) (maximum : Nat) : AvailabilityPayload → ValidatedAvailability → Prop
  | announcement (id : VerificationId) :
    Validates authorized maximum (.announcement id.bytes.1) (.announcement id)
  | query (query : QueryId) (id : VerificationId) :
    Validates authorized maximum (.query query.bytes.1 id.bytes.1) (.query query id)
  | response (query : QueryId) (id : VerificationId) (hints : List Bytes) (peers : List PeerId)
      (hlength : hints.length ≤ maximum) (hpeers : AuthorizedHints authorized hints peers) :
    Validates authorized maximum (.response query.bytes.1 id.bytes.1 hints)
      (.response query id (PeerId.sortByBytes peers.toFinset))

open Except in
/-- Validation accepts exactly the valid payloads of the expected chain. -/
theorem decodeAndValidate_eq_ok_iff {bytes : Bytes} {chainId : String} {authorized : Finset PeerId} {maximum : Nat}
    {value : ValidatedAvailability} :
    decodeAndValidate bytes chainId authorized maximum = .ok value ↔
      ∃ payload, AvailabilityWire.decode bytes = .ok ⟨chainId, some payload⟩ ∧
        Validates authorized maximum payload value := by
  unfold decodeAndValidate
  cases hdecode : AvailabilityWire.decode bytes with
  | error error =>
    refine iff_of_false nofun ?_
    rintro ⟨payload, h, -⟩
    cases h
  | ok envelope =>
    obtain ⟨chain, payload⟩ := envelope
    dsimp only
    split
    · rename_i hchain
      refine iff_of_false nofun ?_
      rintro ⟨payload, h, -⟩
      cases h
      exact hchain rfl
    · rename_i hchain
      obtain rfl : chain = chainId := not_not.1 hchain
      cases payload with
      | none =>
        refine iff_of_false nofun ?_
        rintro ⟨payload, h, -⟩
        cases h
      | some payload =>
        have hself : (∃ payload', (Except.ok ⟨chain, some payload⟩ : Except String AvailabilityMessage) =
            .ok ⟨chain, some payload'⟩ ∧ Validates authorized maximum payload' value) ↔
              Validates authorized maximum payload value := by
          constructor
          · rintro ⟨payload', h, hvalid⟩
            cases h
            exact hvalid
          · intro hvalid
            exact ⟨payload, rfl, hvalid⟩
        rw [hself]
        cases payload with
        | announcement id =>
          simp only [bind_eq_ok_iff, VerificationId.tryFrom_eq_ok_iff]
          constructor
          · rintro ⟨id, rfl, h⟩
            cases h
            exact .announcement id
          · rintro ⟨⟩
            exact ⟨_, rfl, rfl⟩
        | query requestId id =>
          simp only [bind_eq_ok_iff, VerificationId.tryFrom_eq_ok_iff, queryId_eq_ok_iff]
          constructor
          · rintro ⟨query, rfl, id, rfl, h⟩
            cases h
            exact .query query id
          · rintro ⟨⟩
            exact ⟨_, rfl, _, rfl, rfl⟩
        | response requestId id hints =>
          dsimp only
          split
          · rename_i hlong
            refine iff_of_false nofun ?_
            rintro ⟨⟩
            omega
          · rename_i hlong
            simp only [bind_eq_ok_iff, VerificationId.tryFrom_eq_ok_iff, queryId_eq_ok_iff,
              collectProviders_eq_ok_iff]
            constructor
            · rintro ⟨unique, ⟨peers, hpeers, rfl⟩, query, rfl, id, rfl, h⟩
              cases h
              rw [Finset.empty_union]
              exact .response query id hints peers (by omega) hpeers
            · rintro ⟨⟩
              rename_i query id peers hlength hpeers
              exact ⟨_, ⟨peers, hpeers, (Finset.empty_union _).symm⟩, query, rfl, id, rfl, rfl⟩

variable {authorized : Finset PeerId} {maximum : Nat} {hints : List Bytes} {peers : List PeerId}

theorem AuthorizedHints.toBytes {validators : Finset PeerId} {providers : List PeerId}
    (hwire : AvailabilityWire.RoundTrip validators) (hvalidators : ∀ peer ∈ providers, peer ∈ validators)
    (hauthorized : ∀ peer ∈ providers, peer ∈ authorized) :
    AuthorizedHints authorized (providers.map PeerId.toBytes) providers := by
  induction providers with
  | nil => exact .nil
  | cons peer providers ih =>
    rw [List.forall_mem_cons] at hvalidators hauthorized
    exact .cons ⟨hwire.peer peer hvalidators.1, hauthorized.1⟩ (ih hvalidators.2 hauthorized.2)

theorem AuthorizedHints.mem_authorized (h : AuthorizedHints authorized hints peers) {peer : PeerId}
    (hpeer : peer ∈ peers) : peer ∈ authorized := by
  induction h with
  | nil => cases hpeer
  | cons hhead _ ih =>
    rcases List.mem_cons.1 hpeer with rfl | hpeer
    · exact hhead.2
    · exact ih hpeer

theorem AuthorizedHints.authorized_of_mem (h : AuthorizedHints authorized hints peers) {hint : Bytes}
    (hhint : hint ∈ hints) : ∃ peer ∈ peers, AvailabilityWire.peerFromBytes hint = .ok peer ∧ peer ∈ authorized := by
  induction h with
  | nil => cases hhint
  | cons hhead _ ih =>
    rcases List.mem_cons.1 hhint with rfl | hhint
    · exact ⟨_, List.mem_cons_self, hhead⟩
    · obtain ⟨peer, hpeer, hparsed⟩ := ih hhint
      exact ⟨peer, List.mem_cons_of_mem _ hpeer, hparsed⟩

theorem decodeAndValidate_of_response {validators : Finset PeerId} (hwire : AvailabilityWire.RoundTrip validators)
    (chainId : String) (q : QueryId) (id : VerificationId) {providers : List PeerId}
    (hlength : providers.length ≤ maximum) (hvalidators : ∀ peer ∈ providers, peer ∈ validators)
    (hauthorized : ∀ peer ∈ providers, peer ∈ authorized) :
    decodeAndValidate (response chainId q id providers) chainId authorized maximum =
      .ok (.response q id (PeerId.sortByBytes providers.toFinset)) := by
  have hshort : (providers.map PeerId.toBytes).length ≤ maximum := by rwa [List.length_map]
  exact decodeAndValidate_eq_ok_iff.2
    ⟨_, hwire.message _, .response q id _ providers hshort (.toBytes hwire hvalidators hauthorized)⟩

theorem decodeAndValidate_response {bytes : Bytes} {chainId : String} {queryId : QueryId} {id : VerificationId}
    {providers : List PeerId}
    (h : decodeAndValidate bytes chainId authorized maximum = .ok (.response queryId id providers)) {peer : PeerId}
    (hpeer : peer ∈ providers) : peer ∈ authorized := by
  obtain ⟨payload, -, hvalid⟩ := decodeAndValidate_eq_ok_iff.1 h
  cases hvalid with
  | response _ _ hints peers hlength hpeers =>
    rw [PeerId.mem_sortByBytes, List.mem_toFinset] at hpeer
    exact hpeers.mem_authorized hpeer

/-- A hint that is malformed, or names a peer that is not authorized. -/
def BadHint (authorized : Finset PeerId) (hint : Bytes) : Prop :=
  (∃ error, AvailabilityWire.peerFromBytes hint = .error error) ∨
    ∃ peer, AvailabilityWire.peerFromBytes hint = .ok peer ∧ peer ∉ authorized

theorem AuthorizedHints.not_badHint (h : AuthorizedHints authorized hints peers) {hint : Bytes} (hhint : hint ∈ hints) :
    ¬BadHint authorized hint := by
  obtain ⟨peer, -, hparsed, hauthorized⟩ := h.authorized_of_mem hhint
  rintro (⟨error, herror⟩ | ⟨peer', hpeer', hnot⟩)
  · cases herror.symm.trans hparsed
  · cases hpeer'.symm.trans hparsed
    exact hnot hauthorized

theorem decodeAndValidate_hints {bytes : Bytes} {chainId : String} {envelope : AvailabilityMessage}
    {value : ValidatedAvailability} {requestId id : Bytes}
    (h : decodeAndValidate bytes chainId authorized maximum = .ok value)
    (hdecode : AvailabilityWire.decode bytes = .ok envelope)
    (hpayload : envelope.payload = some (.response requestId id hints)) :
    hints.length ≤ maximum ∧ ∀ hint ∈ hints, ¬BadHint authorized hint := by
  obtain ⟨payload, hdecode', hvalid⟩ := decodeAndValidate_eq_ok_iff.1 h
  cases hdecode.symm.trans hdecode'
  cases hpayload
  cases hvalid with
  | response q id hints peers hlength hpeers => exact ⟨hlength, fun hint hhint => hpeers.not_badHint hhint⟩

/-- The providers of an accepted response: strictly sorted, authorized, and not more than the hints. -/
structure SortedProviders (authorized : Finset PeerId) (maximum : Nat) (providers : List PeerId) : Prop where
  sorted : providers.Pairwise PeerId.BytesLt
  length_le : providers.length ≤ maximum
  authorized : ∀ peer ∈ providers, peer ∈ authorized

theorem AuthorizedHints.sortedProviders (h : AuthorizedHints authorized hints peers)
    (hlength : hints.length ≤ maximum) :
    SortedProviders authorized maximum (PeerId.sortByBytes peers.toFinset) where
  sorted := PeerId.pairwise_lt_sortByBytes _
  length_le := by
    have hcard : peers.toFinset.card ≤ peers.length := List.toFinset_card_le peers
    have hsame : hints.length = peers.length := List.Forall₂.length_eq h
    rw [PeerId.length_sortByBytes]
    omega
  authorized peer hpeer := by
    rw [PeerId.mem_sortByBytes, List.mem_toFinset] at hpeer
    exact h.mem_authorized hpeer

omit [AvailabilityWire] in
/-- The result has the identifiers of the payload, of the right lengths, and sorted providers. -/
def ValidatedAvailability.States (authorized : Finset PeerId) (maximum : Nat) (payload : AvailabilityPayload) :
    ValidatedAvailability → Prop
  | .announcement id => payload = .announcement id.bytes.1 ∧ id.bytes.1.length = 32
  | .query q id => payload = .query q.bytes.1 id.bytes.1 ∧ id.bytes.1.length = 32 ∧ q.bytes.1.length = 16
  | .response q id providers => (∃ hints, payload = .response q.bytes.1 id.bytes.1 hints) ∧
    id.bytes.1.length = 32 ∧ q.bytes.1.length = 16 ∧ SortedProviders authorized maximum providers

/-- Availability messages round-trip and are validated exactly.  With a wire format that decodes what it encodes:
an announcement, a query, and a response with few enough authorized providers are accepted by every node of the chain,
with the same identifiers and the same providers, sorted and without repetitions.  Whatever bytes are accepted: they
decode to a message of the expected chain with identifiers of 32 and 16 bytes, and the providers are strictly sorted,
few enough and authorized.  One provider that is malformed or not authorized, or one too many, rejects the whole
response. -/
theorem availability_messages_exact (hwire : AvailabilityWire.RoundTrip authorized) (chainId : String)
    (maximum : Nat) :
    (∀ id, decodeAndValidate (announcement chainId id) chainId authorized maximum = .ok (.announcement id)) ∧
    (∀ q id, decodeAndValidate (query chainId q id) chainId authorized maximum = .ok (.query q id)) ∧
    (∀ q id providers, providers.length ≤ maximum → (∀ peer ∈ providers, peer ∈ authorized) →
      ∃ sorted, decodeAndValidate (response chainId q id providers) chainId authorized maximum =
          .ok (.response q id sorted) ∧
        sorted.Pairwise PeerId.BytesLt ∧ ∀ peer, peer ∈ sorted ↔ peer ∈ providers) ∧
    (∀ bytes value, decodeAndValidate bytes chainId authorized maximum = .ok value →
      ∃ payload, AvailabilityWire.decode bytes = .ok ⟨chainId, some payload⟩ ∧
        value.States authorized maximum payload) ∧
    ∀ bytes envelope requestId id hints, AvailabilityWire.decode bytes = .ok envelope →
      envelope.payload = some (.response requestId id hints) →
      (maximum < hints.length ∨ ∃ hint ∈ hints, BadHint authorized hint) →
      ∃ error, decodeAndValidate bytes chainId authorized maximum = .error error := by
  refine ⟨fun id => ?_, fun q id => ?_, fun q id providers hlength hproviders => ?_, ?_, ?_⟩
  · exact decodeAndValidate_eq_ok_iff.2 ⟨_, hwire.message _, .announcement id⟩
  · exact decodeAndValidate_eq_ok_iff.2 ⟨_, hwire.message _, .query q id⟩
  · refine ⟨PeerId.sortByBytes providers.toFinset, ?_, PeerId.pairwise_lt_sortByBytes _, fun peer => ?_⟩
    · exact decodeAndValidate_of_response hwire chainId q id hlength hproviders hproviders
    · rw [PeerId.mem_sortByBytes, List.mem_toFinset]
  · intro bytes value haccept
    obtain ⟨payload, hdecode, hvalid⟩ := decodeAndValidate_eq_ok_iff.1 haccept
    refine ⟨payload, hdecode, ?_⟩
    cases hvalid with
    | announcement id => exact ⟨rfl, id.bytes.2⟩
    | query q id => exact ⟨rfl, id.bytes.2, q.bytes.2⟩
    | response q id hints peers hlength hpeers =>
      exact ⟨⟨hints, rfl⟩, id.bytes.2, q.bytes.2, hpeers.sortedProviders hlength⟩
  · intro bytes envelope requestId id hints hdecode hpayload hbad
    cases hresult : decodeAndValidate bytes chainId authorized maximum with
    | error error => exact ⟨error, rfl⟩
    | ok value =>
      obtain ⟨hshort, hgood⟩ := decodeAndValidate_hints hresult hdecode hpayload
      rcases hbad with hlong | ⟨hint, hhint, hbad⟩
      · omega
      · exact absurd hbad (hgood hint hhint)

end

/-- Two authorized providers, one of them named twice, are read back in order; a response that also names a third peer
is rejected. -/
theorem availability_messages_exact_small :
    letI := AvailabilityWire.standard
    let a : PeerId := ⟨[0, 1, 1]⟩
    let b : PeerId := ⟨[0, 1, 2]⟩
    let stranger : PeerId := ⟨[0, 1, 3]⟩
    let q : QueryId := ⟨⟨List.replicate 16 7, rfl⟩⟩
    let id : VerificationId := ⟨⟨List.replicate 32 9, rfl⟩⟩
    (∃ sorted, decodeAndValidate (response "pulsar-1" q id [b, a, b]) "pulsar-1" {a, b} 4 =
        .ok (.response q id sorted) ∧
      sorted.Pairwise PeerId.BytesLt ∧ ∀ peer, peer ∈ sorted ↔ peer ∈ [b, a, b]) ∧
    ∃ error, decodeAndValidate (response "pulsar-1" q id [a, stranger]) "pulsar-1" {a, b} 4 = .error error := by
  let _ := AvailabilityWire.standard
  intro a b stranger q id
  have hwire : AvailabilityWire.RoundTrip {a, b} := ⟨AvailabilityMessage.decode_encode, by decide +kernel⟩
  obtain ⟨-, -, haccepted, -, hrejected⟩ := availability_messages_exact hwire "pulsar-1" 4
  refine ⟨haccepted q id [b, a, b] (by decide) (by decide), ?_⟩
  refine hrejected _ _ _ _ _ (AvailabilityMessage.decode_encode _) rfl
    (.inr ⟨stranger.toBytes, ?_, .inr ⟨stranger, ?_⟩⟩)
  · exact List.mem_cons_of_mem _ List.mem_cons_self
  · exact ⟨by decide +kernel, by decide⟩

end PulsarVerifier
