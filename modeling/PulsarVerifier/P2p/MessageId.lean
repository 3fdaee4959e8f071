import PulsarVerifier.Lib.Blake3
import PulsarVerifier.Lib.SelfDelimiting
import PulsarVerifier.Lib.Text
import PulsarVerifier.P2p.Messages

/-!
# Message identifiers of gossip

Gossipsub drops a message whose identifier it has seen.  `semantic_message_id` hashes the source and the content of a
message: the fields of the decoded envelope one after another, without lengths, the providers of a response in order.
On messages with a source that `decode_and_validate` accepts, equal hashed bytes mean an equal source and equal content:
the byte form of a peer is self-delimiting, the chain is the same, the three tags start with different letters, and the
identifiers have fixed lengths.
-/

namespace PulsarVerifier

/-- The hash function of the `blake3` crate. -/
class Blake3Hash where
  hash : Bytes → FixedBytes 32

@[reducible] def Blake3Hash.standard : Blake3Hash := ⟨fun bytes => ⟨Blake3.hash bytes, Blake3.length_hash bytes⟩⟩

/-- A gossipsub message; the sequence number and the topic are not looked at. -/
structure GossipMessage where
  source : Option PeerId
  data : Bytes
  deriving DecidableEq

structure MessageId where
  text : String
  deriving DecidableEq

/-- `sort` on the provider hints. -/
def sortHints (hints : List Bytes) : List Bytes := hints.insertionSort Bytes.Le

theorem sortHints_perm (hints : List Bytes) : (sortHints hints).Perm hints := List.perm_insertionSort _ hints

theorem sortHints_eq_of_perm {hints hints' : List Bytes} (h : hints.Perm hints') :
    sortHints hints = sortHints hints' := by
  have hperm : (sortHints hints).Perm (sortHints hints') :=
    (sortHints_perm hints).trans (h.trans (sortHints_perm hints').symm)
  exact hperm.eq_of_pairwise' (List.pairwise_insertionSort _ hints) (List.pairwise_insertionSort _ hints')

def asBytes (text : String) : Bytes := text.toUTF8.data.toList

/-- What is hashed of a payload. -/
def AvailabilityPayload.hashed : AvailabilityPayload → Bytes
  | .announcement id => asBytes "announcement" ++ id
  | .query requestId id => asBytes "query" ++ requestId ++ id
  | .response requestId id hints => asBytes "response" ++ requestId ++ id ++ (sortHints hints).flatten

def AvailabilityPayload.initial : AvailabilityPayload → UInt8
  | .announcement _ => 97
  | .query _ _ => 113
  | .response _ _ _ => 114

theorem QueryId.rawBytes_injective : Function.Injective fun query : QueryId => query.bytes.1 := by
  rintro ⟨⟨bytes, hbytes⟩⟩ ⟨⟨bytes', hbytes'⟩⟩ h
  cases h
  rfl

section

variable [AvailabilityWire]

/-- The bytes that `semantic_message_id` feeds to the hasher. -/
def GossipMessage.hashed (message : GossipMessage) : Bytes :=
  asBytes "pulsar-availability-message-v1" ++ (message.source.map PeerId.toBytes).getD [] ++
    match AvailabilityWire.decode message.data with
    | .ok envelope =>
      asBytes envelope.chainId ++
        match envelope.payload with
        | some payload => payload.hashed
        | none => asBytes "missing-payload" ++ message.data
    | .error _ => asBytes "malformed" ++ message.data

def semanticMessageId [Blake3Hash] (message : GossipMessage) : MessageId :=
  ⟨hexEncode (Blake3Hash.hash message.hashed).1⟩

/-! ### What the hashed bytes determine -/

def AvailabilityWire.peerForms : Set Bytes := {bytes | ∃ peer, AvailabilityWire.peerFromBytes bytes = .ok peer}

theorem GossipMessage.hashed_of_decode {message : GossipMessage} {source : PeerId} {chainId : String}
    {payload : AvailabilityPayload} (hsource : message.source = some source)
    (hdecode : AvailabilityWire.decode message.data = .ok ⟨chainId, some payload⟩) :
    message.hashed = asBytes "pulsar-availability-message-v1" ++ source.toBytes ++
      (asBytes chainId ++ payload.hashed) := by
  unfold hashed
  rw [hsource, hdecode]
  rfl

variable {authorized : Finset PeerId} {hints hints' : List Bytes} {peers peers' : List PeerId}

theorem AuthorizedHints.mem_iff (h : AuthorizedHints authorized hints peers) {peer : PeerId} :
    peer ∈ peers ↔ ∃ hint ∈ hints, AvailabilityWire.peerFromBytes hint = .ok peer := by
  induction h with
  | nil => simp
  | cons hhead _ ih =>
    rw [List.mem_cons, ih]
    constructor
    · rintro (rfl | ⟨hint, hhint, hparsed⟩)
      · exact ⟨_, List.mem_cons_self, hhead.1⟩
      · exact ⟨hint, List.mem_cons_of_mem _ hhint, hparsed⟩
    · rintro ⟨hint, hhint, hparsed⟩
      rcases List.mem_cons.1 hhint with rfl | hhint
      · exact .inl (Except.ok.inj (hparsed.symm.trans hhead.1))
      · exact .inr ⟨hint, hhint, hparsed⟩

theorem AuthorizedHints.toFinset_eq (h : AuthorizedHints authorized hints peers)
    (h' : AuthorizedHints authorized hints' peers') (hperm : hints.Perm hints') : peers.toFinset = peers'.toFinset := by
  ext peer
  rw [List.mem_toFinset, List.mem_toFinset, h.mem_iff, h'.mem_iff]
  exact ⟨fun ⟨hint, hhint, hparsed⟩ => ⟨hint, hperm.mem_iff.1 hhint, hparsed⟩,
    fun ⟨hint, hhint, hparsed⟩ => ⟨hint, hperm.mem_iff.2 hhint, hparsed⟩⟩

theorem AuthorizedHints.forms (h : AuthorizedHints authorized hints peers) :
    ∀ hint ∈ sortHints hints, hint ∈ AvailabilityWire.peerForms := by
  intro hint hhint
  obtain ⟨peer, -, hparsed, -⟩ := h.authorized_of_mem ((sortHints_perm hints).mem_iff.1 hhint)
  exact ⟨peer, hparsed⟩

omit [AvailabilityWire] in
theorem AvailabilityPayload.head?_hashed (payload : AvailabilityPayload) :
    payload.hashed.head? = some payload.initial := by
  have hannouncement : (asBytes "announcement").head? = some 97 := by decide +kernel
  have hquery : (asBytes "query").head? = some 113 := by decide +kernel
  have hresponse : (asBytes "response").head? = some 114 := by decide +kernel
  cases payload <;> simp [hashed, initial, List.head?_append, hannouncement, hquery, hresponse]

/-- The three kinds of payloads start with different letters, and all parts but the providers have fixed lengths. -/
theorem Validates.eq_of_hashed_eq (hforms : SelfDelimiting AvailabilityWire.peerForms) {maximum maximum' : Nat}
    {payload payload' : AvailabilityPayload} {value value' : ValidatedAvailability}
    (h : Validates authorized maximum payload value) (h' : Validates authorized maximum' payload' value')
    (heq : payload.hashed = payload'.hashed) : value = value' := by
  have hhead := congrArg List.head? heq
  rw [AvailabilityPayload.head?_hashed, AvailabilityPayload.head?_hashed, Option.some.injEq] at hhead
  cases h with
  | announcement id =>
    cases h' with
    | announcement id' =>
      obtain rfl : id = id' := VerificationId.rawBytes_injective (List.append_cancel_left heq)
      rfl
    | query q' id' => simp [AvailabilityPayload.initial] at hhead
    | response q' id' hints' peers' hlength' hpeers' => simp [AvailabilityPayload.initial] at hhead
  | query q id =>
    cases h' with
    | announcement id' => simp [AvailabilityPayload.initial] at hhead
    | query q' id' =>
      obtain ⟨hfront, hid⟩ := List.append_inj' heq (id.bytes.2.trans id'.bytes.2.symm)
      obtain rfl : id = id' := VerificationId.rawBytes_injective hid
      obtain rfl : q = q' := QueryId.rawBytes_injective (List.append_cancel_left hfront)
      rfl
    | response q' id' hints' peers' hlength' hpeers' => simp [AvailabilityPayload.initial] at hhead
  | response q id hints peers hlength hpeers =>
    cases h' with
    | announcement id' => simp [AvailabilityPayload.initial] at hhead
    | query q' id' => simp [AvailabilityPayload.initial] at hhead
    | response q' id' hints' peers' hlength' hpeers' =>
      have hfixed : (asBytes "response" ++ q.bytes.1 ++ id.bytes.1).length =
          (asBytes "response" ++ q'.bytes.1 ++ id'.bytes.1).length := by
        simp only [List.length_append, q.bytes.2, q'.bytes.2, id.bytes.2, id'.bytes.2]
      obtain ⟨hfront, hproviders⟩ := List.append_inj heq hfixed
      obtain ⟨hquery, hid⟩ := List.append_inj' hfront (id.bytes.2.trans id'.bytes.2.symm)
      obtain rfl : id = id' := VerificationId.rawBytes_injective hid
      obtain rfl : q = q' := QueryId.rawBytes_injective (List.append_cancel_left hquery)
      -- the sorted hints can be read off their concatenation
      have hsorted := hforms.uniquelyDecodable _ _ hpeers.forms hpeers'.forms hproviders
      have hperm : hints.Perm hints' :=
        (sortHints_perm hints).symm.trans (hsorted ▸ sortHints_perm hints')
      rw [hpeers.toFinset_eq hpeers' hperm]

variable [Blake3Hash]

omit [AvailabilityWire] [Blake3Hash] in
theorem hexEncode_injective : Function.Injective hexEncode := by
  intro a b h
  have hdecode : ∀ bytes : Bytes, Text.Hex.decode (hexEncode bytes) = .ok bytes := Text.Hex.decode_digits
  have hab := congrArg Text.Hex.decode h
  rw [hdecode, hdecode] at hab
  exact Except.ok.inj hab

/-- Deduplication merges only equal messages.  Let BLAKE3 have no collision among the hashed byte strings, and let the
byte forms of peers be self-delimiting.  Two messages with a source that are accepted under the same chain and
authorized set and have the same identifier come from the same source and have the same content.  And the order of the
providers of a response does not matter for its identifier. -/
theorem semanticMessageId_merges_equal {inputs : Set Bytes} (hinj : Set.InjOn Blake3Hash.hash inputs)
    (hforms : SelfDelimiting AvailabilityWire.peerForms) :
    (∀ (m m' : GossipMessage) (source source' : PeerId) (chainId : String) (authorized : Finset PeerId)
      (maximum maximum' : Nat) (value value' : ValidatedAvailability),
      m.hashed ∈ inputs → m'.hashed ∈ inputs → m.source = some source → m'.source = some source' →
      source.toBytes ∈ AvailabilityWire.peerForms → source'.toBytes ∈ AvailabilityWire.peerForms →
      decodeAndValidate m.data chainId authorized maximum = .ok value →
      decodeAndValidate m'.data chainId authorized maximum' = .ok value' →
      semanticMessageId m = semanticMessageId m' → source = source' ∧ value = value') ∧
    ∀ (m m' : GossipMessage) (chainId : String) (requestId id : Bytes) (hints hints' : List Bytes),
      m.source = m'.source →
      AvailabilityWire.decode m.data = .ok ⟨chainId, some (.response requestId id hints)⟩ →
      AvailabilityWire.decode m'.data = .ok ⟨chainId, some (.response requestId id hints')⟩ →
      hints.Perm hints' → semanticMessageId m = semanticMessageId m' := by
  refine ⟨?_, ?_⟩
  · intro m m' source source' chainId authorized maximum maximum' value value' hm hm' hsource hsource' hform hform'
      haccept haccept' hid
    obtain ⟨payload, hdecode, hvalid⟩ := decodeAndValidate_eq_ok_iff.1 haccept
    obtain ⟨payload', hdecode', hvalid'⟩ := decodeAndValidate_eq_ok_iff.1 haccept'
    have hhashed : m.hashed = m'.hashed :=
      hinj hm hm' (Subtype.ext (hexEncode_injective (MessageId.mk.inj hid)))
    rw [GossipMessage.hashed_of_decode hsource hdecode, GossipMessage.hashed_of_decode hsource' hdecode',
      List.append_assoc, List.append_assoc] at hhashed
    obtain ⟨hbytes, hcontent⟩ := hforms.append_inj hform hform' (List.append_cancel_left hhashed)
    refine ⟨?_, hvalid.eq_of_hashed_eq hforms hvalid' (List.append_cancel_left hcontent)⟩
    cases source
    cases source'
    exact congrArg PeerId.mk hbytes
  · intro m m' chainId requestId id hints hints' hsource hdecode hdecode' hperm
    have hhashed : m.hashed = m'.hashed := by
      unfold GossipMessage.hashed
      rw [hsource, hdecode, hdecode']
      simp only [AvailabilityPayload.hashed, sortHints_eq_of_perm hperm]
    unfold semanticMessageId
    rw [hhashed]

end

/-! ### The byte forms of peers -/

theorem PeerId.ofBytes_append {bytes more : Bytes} {p q : PeerId} (h : PeerId.ofBytes bytes = .ok p)
    (h' : PeerId.ofBytes (bytes ++ more) = .ok q) : more = [] := by
  unfold PeerId.ofBytes at h h'
  cases hcode : Protobuf.readVarint bytes with
  | none =>
    rw [hcode] at h
    cases h
  | some first =>
    obtain ⟨code, rest⟩ := first
    rw [hcode] at h
    rw [Protobuf.readVarint_append hcode] at h'
    dsimp only at h h'
    cases hsize : Protobuf.readVarint rest with
    | none =>
      rw [hsize] at h
      cases h
    | some second =>
      obtain ⟨size, digest⟩ := second
      rw [hsize] at h
      rw [Protobuf.readVarint_append hsize] at h'
      dsimp only at h h'
      split at h
      · cases h
      · rename_i hlength
        split at h'
        · cases h'
        · rename_i hlength'
          rw [List.length_append] at hlength'
          exact List.length_eq_zero_iff.1 (by omega)

theorem selfDelimiting_peerForms :
    letI := AvailabilityWire.standard
    SelfDelimiting AvailabilityWire.peerForms := by
  let _ := AvailabilityWire.standard
  refine ⟨?_, ?_⟩
  · rintro _ ⟨peer, hpeer⟩ rfl
    cases hpeer
  · rintro v ⟨peer, hpeer⟩ w ⟨peer', hpeer'⟩ ⟨more, rfl⟩
    rw [PeerId.ofBytes_append hpeer hpeer', List.append_nil]

/-- Two responses that list the same providers in another order have one identifier, and it is the same source with the
same content; the identifier of the same response from another source is another one. -/
theorem semanticMessageId_merges_equal_small :
    letI := AvailabilityWire.standard
    letI := Blake3Hash.standard
    let a : PeerId := ⟨[0, 1, 1]⟩
    let b : PeerId := ⟨[0, 2, 1, 2]⟩
    let q : QueryId := ⟨⟨List.replicate 16 7, rfl⟩⟩
    let id : VerificationId := ⟨⟨List.replicate 32 9, rfl⟩⟩
    let m : GossipMessage := ⟨some a, response "pulsar-1" q id [a, b]⟩
    let m' : GossipMessage := ⟨some a, response "pulsar-1" q id [b, a]⟩
    let other : GossipMessage := ⟨some b, response "pulsar-1" q id [a, b]⟩
    semanticMessageId m = semanticMessageId m' ∧
    (∀ value value', decodeAndValidate m.data "pulsar-1" {a, b} 4 = .ok value →
      decodeAndValidate m'.data "pulsar-1" {a, b} 4 = .ok value' → value = value') ∧
    (∃ value, decodeAndValidate m.data "pulsar-1" {a, b} 4 = .ok value) ∧
    semanticMessageId m ≠ semanticMessageId other := by
  let _ := AvailabilityWire.standard
  let _ := Blake3Hash.standard
  intro a b q id m m' other
  have hlist : ∀ x ∈ [m.hashed, m'.hashed, other.hashed], ∀ y ∈ [m.hashed, m'.hashed, other.hashed],
      Blake3Hash.hash x = Blake3Hash.hash y → x = y := by
    decide +kernel
  let inputs : Set Bytes := {bytes | bytes ∈ [m.hashed, m'.hashed, other.hashed]}
  have hinj : Set.InjOn Blake3Hash.hash inputs := fun x hx y hy => hlist x hx y hy
  obtain ⟨hmerge, hreorder⟩ := semanticMessageId_merges_equal hinj selfDelimiting_peerForms
  have ha : a.toBytes ∈ AvailabilityWire.peerForms := ⟨a, by decide +kernel⟩
  have hb : b.toBytes ∈ AvailabilityWire.peerForms := ⟨b, by decide +kernel⟩
  have haccept : ∃ value, decodeAndValidate m.data "pulsar-1" {a, b} 4 = .ok value :=
    ⟨.response q id [a, b], by decide +kernel⟩
  have hsame : semanticMessageId m = semanticMessageId m' :=
    hreorder m m' _ _ _ _ _ rfl (AvailabilityMessage.decode_encode _) (AvailabilityMessage.decode_encode _)
      (List.Perm.swap _ _ _)
  refine ⟨hsame, fun value value' hvalue hvalue' => ?_, haccept, fun hid => ?_⟩
  · exact (hmerge m m' a a _ _ 4 4 _ _ (by simp [inputs]) (by simp [inputs]) rfl rfl ha ha hvalue hvalue' hsame).2
  · obtain ⟨value, hvalue⟩ := haccept
    have hsource := (hmerge m other a b _ _ 4 4 _ _ (by simp [inputs]) (by simp [inputs]) rfl rfl ha hb hvalue hvalue
      hid).1
    exact absurd hsource (by decide)

end PulsarVerifier
