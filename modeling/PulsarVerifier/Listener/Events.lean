import PulsarVerifier.Chain.Client
import PulsarVerifier.Lib.Text

/-!
# The events of a committed block

The chain announces every request of a block by an event whose attributes describe it in hexadecimal and decimal form.
A block is accepted as a whole or not at all.
-/

namespace PulsarVerifier

namespace Listener

def proofSubmittedEvent : String := "verification.proof_submitted"

def verificationIdKey : String := "verification_id"

def proofHashKey : String := "proof_hash"

def publicInputsHashKey : String := "public_inputs_hash"

def verificationKeyHashKey : String := "verification_key_hash"

def submissionHeightKey : String := "submission_height"

def indexInBlockKey : String := "index_in_block"

def proofTypeKey : String := "proof_type"

/-- The attributes of an event, no key twice. -/
abbrev Attributes := List (String × String)

def insertAttribute (values : Attributes) (entry : String × String) : Except Error Attributes :=
  if (values.lookup entry.1).isSome then
    .error (.invalidChainContract s!"duplicate {entry.1} attribute in {proofSubmittedEvent}")
  else .ok (values ++ [entry])

def attributes (event : CommittedEvent) : Except Error Attributes := event.attributes.foldlM insertAttribute []

def required (attributes : Attributes) (key : String) : Except Error String :=
  match attributes.lookup key with
  | some value => .ok value
  | none => .error (.invalidChainContract s!"{proofSubmittedEvent} is missing {key}")

/-- Reads the value of a key with `read`, whose errors have the text `errorText`. -/
def parseAttribute {α ε : Type} (read : String → Except ε α) (errorText : ε → String) (attributes : Attributes)
    (key : String) : Except Error α :=
  match required attributes key with
  | .error error => .error error
  | .ok value =>
    match read value with
    | .ok result => .ok result
    | .error error => .error (.invalidChainContract s!"{proofSubmittedEvent} has invalid {key}: {errorText error}")

def parseHex : Attributes → String → Except Error Bytes := parseAttribute Text.Hex.decode Text.Hex.FromHexError.text

def parseU64 : Attributes → String → Except Error Nat :=
  parseAttribute (Text.parseUnsigned (2 ^ 64 - 1)) Text.ParseIntError.text

def parseU32 : Attributes → String → Except Error Nat :=
  parseAttribute (Text.parseUnsigned (2 ^ 32 - 1)) Text.ParseIntError.text

def parseI32 : Attributes → String → Except Error Int :=
  parseAttribute (Text.parseSigned (2 ^ 31 - 1)) Text.ParseIntError.text

section

variable [Sha256]

open Except in
/-- One event; `positions` are the indices of the events before it. -/
def parseProofEvent (blockHeight : Nat) (positions : List Nat) (event : CommittedEvent) :
    Except Error (Nat × VerificationId) := do
  let attributes ← attributes event
  let submissionHeight ← parseU64 attributes submissionHeightKey
  let indexInBlock ← parseU32 attributes indexInBlockKey
  Chain.validatePosition submissionHeight indexInBlock blockHeight
  rejectIf (indexInBlock ∈ positions)
    (Error.invalidChainContract s!"duplicate proof index {indexInBlock} in committed block {blockHeight}")
  let proofType ← parseI32 attributes proofTypeKey
  let proofHash ← parseHex attributes proofHashKey
  let publicInputsHash ← parseHex attributes publicInputsHashKey
  let verificationKeyHash ← parseHex attributes verificationKeyHashKey
  let verificationId ← parseHex attributes verificationIdKey
  let id ← Chain.validateDescriptor proofType proofHash publicInputsHash verificationKeyHash verificationId
  pure (indexInBlock, id)

def parseEvents (blockHeight : Nat) (positions : List Nat) : List CommittedEvent → Except Error (List VerificationId)
  | [] => .ok []
  | event :: events => do
    let (index, id) ← parseProofEvent blockHeight positions event
    let ids ← parseEvents blockHeight (index :: positions) events
    pure (id :: ids)

/-- The events of a block that announce a request. -/
def proofEvents (block : CommittedBlock) : List CommittedEvent :=
  block.events.filter fun event => event.kind = proofSubmittedEvent

def parseProofEvents (block : CommittedBlock) : Except Error (List VerificationId) :=
  parseEvents block.height [] (proofEvents block)

end

/-! ### Attributes -/

/-- The event has an attribute `key` from which `read` gets `value`. -/
def Reads {α ε : Type} (event : CommittedEvent) (key : String) (read : String → Except ε α) (value : α) : Prop :=
  ∃ text, (key, text) ∈ event.attributes ∧ read text = .ok value

/-- No key of the event repeats, and its seven attributes are well formed and have these values. -/
structure Carries (event : CommittedEvent) (submissionHeight indexInBlock : Nat) (record : Chain.ProofRecord) :
    Prop where
  distinct : (event.attributes.map Prod.fst).Nodup
  submissionHeight : Reads event submissionHeightKey (Text.parseUnsigned (2 ^ 64 - 1)) submissionHeight
  indexInBlock : Reads event indexInBlockKey (Text.parseUnsigned (2 ^ 32 - 1)) indexInBlock
  proofType : Reads event proofTypeKey (Text.parseSigned (2 ^ 31 - 1)) record.proofType
  proofHash : Reads event proofHashKey Text.Hex.decode record.proofHash
  publicInputsHash : Reads event publicInputsHashKey Text.Hex.decode record.publicInputsHash
  verificationKeyHash : Reads event verificationKeyHashKey Text.Hex.decode record.verificationKeyHash
  verificationId : Reads event verificationIdKey Text.Hex.decode record.verificationId

variable {event : CommittedEvent} {key : String}

theorem lookup_cons (key : String) (entry : String × String) (attributes : Attributes) :
    List.lookup key (entry :: attributes) = if key = entry.1 then some entry.2 else attributes.lookup key := by
  obtain ⟨first, value⟩ := entry
  rw [List.lookup_cons]
  by_cases h : key = first
  · rw [if_pos h, h, beq_self_eq_true]
  · rw [if_neg h, beq_false_of_ne h]

theorem foldlM_insertAttribute_eq_ok_iff {values values' : Attributes} {attributes : List (String × String)} :
    attributes.foldlM insertAttribute values = .ok values' ↔
      ((attributes.map Prod.fst).Nodup ∧ ∀ entry ∈ attributes, values.lookup entry.1 = none) ∧
        values' = values ++ attributes := by
  -- on the attributes that are left; `values` grows by each of them
  induction attributes generalizing values with
  | nil =>
    simp only [List.foldlM_nil, List.map_nil, List.nodup_nil, List.append_nil, true_and,
      List.not_mem_nil, false_imp_iff, implies_true]
    exact ⟨fun h => (Except.ok.inj h).symm, fun h => congrArg Except.ok h.symm⟩
  | cons first attributes ih =>
    rw [List.foldlM_cons, Except.bind_eq_ok_iff, List.map_cons, List.nodup_cons]
    constructor
    · rintro ⟨next, hfirst, hrest⟩
      unfold insertAttribute at hfirst
      split at hfirst
      · cases hfirst
      · rename_i hnew
        cases hfirst
        obtain ⟨⟨hnodup, hothers⟩, rfl⟩ := ih.1 hrest
        have hsplit : ∀ entry ∈ attributes, values.lookup entry.1 = none ∧ entry.1 ≠ first.1 := by
          intro entry hentry
          have hnone := hothers entry hentry
          rw [List.lookup_append, Option.or_eq_none_iff] at hnone
          refine ⟨hnone.1, fun heq => ?_⟩
          rw [heq] at hnone
          simp [lookup_cons] at hnone
        refine ⟨⟨⟨fun hmem => ?_, hnodup⟩, fun entry hentry => ?_⟩, by simp⟩
        · obtain ⟨entry, hentry, heq⟩ := List.mem_map.1 hmem
          exact (hsplit entry hentry).2 heq
        · rcases List.mem_cons.1 hentry with rfl | hentry
          · exact Option.not_isSome_iff_eq_none.1 hnew
          · exact (hsplit entry hentry).1
    · rintro ⟨⟨⟨hfresh, hnodup⟩, hnew⟩, rfl⟩
      refine ⟨values ++ [first], ?_, ih.2 ⟨⟨hnodup, fun entry hentry => ?_⟩, by simp⟩⟩
      · unfold insertAttribute
        rw [hnew first List.mem_cons_self]
        rfl
      · have hne : entry.1 ≠ first.1 := fun heq => hfresh (heq ▸ List.mem_map_of_mem hentry)
        rw [List.lookup_append, hnew entry (List.mem_cons_of_mem _ hentry)]
        simp [lookup_cons, hne]

theorem attributes_eq_ok_iff {values : Attributes} :
    attributes event = .ok values ↔ (event.attributes.map Prod.fst).Nodup ∧ values = event.attributes := by
  unfold attributes
  rw [foldlM_insertAttribute_eq_ok_iff]
  simp

/-- With distinct keys, an attribute is what is found under its key. -/
theorem lookup_eq_some_iff {attributes : Attributes} (h : (attributes.map Prod.fst).Nodup) {value : String} :
    attributes.lookup key = some value ↔ (key, value) ∈ attributes := by
  induction attributes with
  | nil => simp
  | cons first attributes ih =>
    obtain ⟨key', value'⟩ := first
    rw [List.map_cons, List.nodup_cons] at h
    by_cases hkey : key = key'
    · subst hkey
      have hnot : (key, value) ∉ attributes := fun hmem => h.1 (List.mem_map.2 ⟨_, hmem, rfl⟩)
      simp [hnot, eq_comm]
    · simp [lookup_cons, hkey, ih h.2]

theorem parseAttribute_eq_ok_iff {α ε : Type} {read : String → Except ε α} {errorText : ε → String}
    {attributes : Attributes} {key value : String} (hvalue : attributes.lookup key = some value) {result : α} :
    parseAttribute read errorText attributes key = .ok result ↔ read value = .ok result := by
  unfold parseAttribute required
  rw [hvalue]
  simp only
  cases read value <;> simp

theorem parseAttribute_eq_ok_iff_reads {α ε : Type} {read : String → Except ε α} {errorText : ε → String} {value : α}
    (h : (event.attributes.map Prod.fst).Nodup) :
    parseAttribute read errorText event.attributes key = .ok value ↔ Reads event key read value := by
  unfold Reads
  constructor
  · intro hparse
    cases hlookup : event.attributes.lookup key with
    | none =>
      rw [parseAttribute, required, hlookup] at hparse
      cases hparse
    | some text =>
      exact ⟨text, (lookup_eq_some_iff h).1 hlookup, (parseAttribute_eq_ok_iff hlookup).1 hparse⟩
  · rintro ⟨text, hmem, hread⟩
    exact (parseAttribute_eq_ok_iff ((lookup_eq_some_iff h).2 hmem)).2 hread

theorem Reads.unique {α ε : Type} {read : String → Except ε α} {value value' : α}
    (h : Reads event key read value) (h' : Reads event key read value')
    (hkeys : (event.attributes.map Prod.fst).Nodup) :
    value = value' := by
  obtain ⟨text, hmem, hread⟩ := h
  obtain ⟨text', hmem', hread'⟩ := h'
  have htext := ((lookup_eq_some_iff hkeys).2 hmem).symm.trans ((lookup_eq_some_iff hkeys).2 hmem')
  cases htext
  exact Except.ok.inj (hread.symm.trans hread')

theorem Carries.unique {submissionHeight submissionHeight' index index' : Nat} {record record' : Chain.ProofRecord}
    (h : Carries event submissionHeight index record) (h' : Carries event submissionHeight' index' record') :
    submissionHeight = submissionHeight' ∧ index = index' ∧ record = record' := by
  obtain ⟨proofType, proofHash, publicInputsHash, verificationKeyHash, verificationId⟩ := record
  obtain ⟨proofType', proofHash', publicInputsHash', verificationKeyHash', verificationId'⟩ := record'
  refine ⟨h.submissionHeight.unique h'.submissionHeight h.distinct,
    h.indexInBlock.unique h'.indexInBlock h.distinct, ?_⟩
  rw [Chain.ProofRecord.mk.injEq]
  exact ⟨h.proofType.unique h'.proofType h.distinct, h.proofHash.unique h'.proofHash h.distinct,
    h.publicInputsHash.unique h'.publicInputsHash h.distinct,
    h.verificationKeyHash.unique h'.verificationKeyHash h.distinct,
    h.verificationId.unique h'.verificationId h.distinct⟩

/-! ### Values in hexadecimal and decimal form -/

/-- The attributes of the event that announces a request. -/
def announcementAttributes (submissionHeight indexInBlock : Nat) (record : Chain.ProofRecord) :
    List (String × String) :=
  [(submissionHeightKey, toString submissionHeight), (indexInBlockKey, toString indexInBlock),
    (proofTypeKey, toString record.proofType), (proofHashKey, hexEncode record.proofHash),
    (publicInputsHashKey, hexEncode record.publicInputsHash),
    (verificationKeyHashKey, hexEncode record.verificationKeyHash),
    (verificationIdKey, hexEncode record.verificationId)]

/-- What is written is read back. -/
theorem carries_of_attributes {submissionHeight index : Nat} {record : Chain.ProofRecord}
    (hheight : submissionHeight < 2 ^ 64) (hindex : index < 2 ^ 32) (hmin : -2 ^ 31 ≤ record.proofType)
    (hmax : record.proofType < 2 ^ 31) (hdistinct : (event.attributes.map Prod.fst).Nodup)
    (hattributes : ∀ entry ∈ announcementAttributes submissionHeight index record, entry ∈ event.attributes) :
    Carries event submissionHeight index record := by
  have hhex : ∀ (key : String) (bytes : Bytes),
      (key, hexEncode bytes) ∈ announcementAttributes submissionHeight index record →
      Reads event key Text.Hex.decode bytes := fun key bytes hmem =>
    ⟨_, hattributes _ hmem, Text.Hex.decode_digits bytes⟩
  refine ⟨hdistinct, ?_, ?_, ?_, hhex _ _ ?_, hhex _ _ ?_, hhex _ _ ?_, hhex _ _ ?_⟩
  · exact ⟨_, hattributes _ (by simp [announcementAttributes]), Text.parseUnsigned_toString (by omega)⟩
  · exact ⟨_, hattributes _ (by simp [announcementAttributes]), Text.parseUnsigned_toString (by omega)⟩
  · have hlimit : ((2 ^ 31 - 1 : Nat) : Int) = 2 ^ 31 - 1 := rfl
    exact ⟨toString record.proofType, hattributes _ (by simp [announcementAttributes]),
      Text.parseSigned_toString_int (by rw [hlimit]; omega) (by rw [hlimit]; omega)⟩
  · simp [announcementAttributes]
  · simp [announcementAttributes]
  · simp [announcementAttributes]
  · simp [announcementAttributes]

/-! ### Events -/

section

variable [Sha256] {blockHeight index : Nat} {positions : List Nat} {id : VerificationId}

open Except in
/-- The checks on one event. -/
theorem parseProofEvent_eq_ok_iff :
    parseProofEvent blockHeight positions event = .ok (index, id) ↔
      ∃ record, Carries event blockHeight index record ∧ 1 ≤ blockHeight ∧ index < Chain.maxProofsPerBlock ∧
        record.HashesTo id ∧ index ∉ positions := by
  unfold parseProofEvent
  constructor
  · intro h
    -- the checks in the order of the source
    simp only [bind_eq_ok_iff, rejectIf_eq_ok_iff, attributes_eq_ok_iff, exists_const] at h
    obtain ⟨values, ⟨hdistinct, rfl⟩, submissionHeight, hheight, index', hindex, _, hposition, hnew, proofType, htype,
      proofHash, hproof, publicInputsHash, hinputs, verificationKeyHash, hkey, verificationId, hid, id', hdescriptor,
      hresult⟩ := h
    cases hresult
    obtain ⟨rfl, hpos, hlt⟩ := Chain.validatePosition_eq_ok_iff.1 hposition
    refine ⟨⟨proofType, proofHash, publicInputsHash, verificationKeyHash, verificationId⟩,
      ⟨hdistinct, ?_, ?_, ?_, ?_, ?_,
      ?_, ?_⟩, hpos, hlt, Chain.validateDescriptor_eq_ok_iff.1 hdescriptor, hnew⟩
    · exact (parseAttribute_eq_ok_iff_reads hdistinct).1 hheight
    · exact (parseAttribute_eq_ok_iff_reads hdistinct).1 hindex
    · exact (parseAttribute_eq_ok_iff_reads hdistinct).1 htype
    · exact (parseAttribute_eq_ok_iff_reads hdistinct).1 hproof
    · exact (parseAttribute_eq_ok_iff_reads hdistinct).1 hinputs
    · exact (parseAttribute_eq_ok_iff_reads hdistinct).1 hkey
    · exact (parseAttribute_eq_ok_iff_reads hdistinct).1 hid
  · rintro ⟨record, hcarries, hpos, hlt, hhashes, hnew⟩
    have hdistinct := hcarries.distinct
    refine bind_eq_ok_iff.2 ⟨_, attributes_eq_ok_iff.2 ⟨hdistinct, rfl⟩, ?_⟩
    refine bind_eq_ok_iff.2 ⟨_, (parseAttribute_eq_ok_iff_reads hdistinct).2 hcarries.submissionHeight, ?_⟩
    refine bind_eq_ok_iff.2 ⟨_, (parseAttribute_eq_ok_iff_reads hdistinct).2 hcarries.indexInBlock, ?_⟩
    refine bind_eq_ok_iff.2 ⟨_, Chain.validatePosition_eq_ok_iff.2 ⟨rfl, hpos, hlt⟩, ?_⟩
    refine bind_eq_ok_iff.2 ⟨(), rejectIf_eq_ok_iff.2 hnew, ?_⟩
    refine bind_eq_ok_iff.2 ⟨_, (parseAttribute_eq_ok_iff_reads hdistinct).2 hcarries.proofType, ?_⟩
    refine bind_eq_ok_iff.2 ⟨_, (parseAttribute_eq_ok_iff_reads hdistinct).2 hcarries.proofHash, ?_⟩
    refine bind_eq_ok_iff.2 ⟨_, (parseAttribute_eq_ok_iff_reads hdistinct).2 hcarries.publicInputsHash, ?_⟩
    refine bind_eq_ok_iff.2 ⟨_, (parseAttribute_eq_ok_iff_reads hdistinct).2 hcarries.verificationKeyHash, ?_⟩
    refine bind_eq_ok_iff.2 ⟨_, (parseAttribute_eq_ok_iff_reads hdistinct).2 hcarries.verificationId, ?_⟩
    exact bind_eq_ok_iff.2 ⟨id, Chain.validateDescriptor_eq_ok_iff.2 hhashes, rfl⟩

/-- The event announces the request `id` at this height, with an index of the block. -/
def Announces (height : Nat) (event : CommittedEvent) (entry : Nat × VerificationId) : Prop :=
  ∃ record, Carries event height entry.1 record ∧ entry.1 < 256 ∧ record.HashesTo entry.2

/-- The checks on the events of a block, after the indices `positions`. -/
theorem parseEvents_eq_ok_iff {events : List CommittedEvent} {ids : List VerificationId} (hheight : 1 ≤ blockHeight) :
    parseEvents blockHeight positions events = .ok ids ↔
      ∃ entries : List (Nat × VerificationId), List.Forall₂ (Announces blockHeight) events entries ∧
        (entries.map Prod.fst).Nodup ∧ (∀ entry ∈ entries, entry.1 ∉ positions) ∧ ids = entries.map Prod.snd := by
  -- the index of each event joins the positions that the later ones must avoid
  induction events generalizing positions ids with
  | nil =>
    simp only [parseEvents, List.forall₂_nil_left_iff, exists_eq_left]
    simp [eq_comm]
  | cons event events ih =>
    rw [parseEvents]
    constructor
    · intro h
      obtain ⟨⟨index, id⟩, hfirst, h⟩ := Except.bind_eq_ok_iff.1 h
      obtain ⟨ids', hrest, h⟩ := Except.bind_eq_ok_iff.1 h
      cases h
      obtain ⟨record, hcarries, -, hlt, hhashes, hnew⟩ := parseProofEvent_eq_ok_iff.1 hfirst
      obtain ⟨entries, hentries, hnodup, hothers, rfl⟩ := ih.1 hrest
      refine ⟨(index, id) :: entries, .cons ⟨record, hcarries, hlt, hhashes⟩ hentries, ?_, fun entry hentry => ?_, rfl⟩
      · refine List.nodup_cons.2 ⟨fun hmem => ?_, hnodup⟩
        obtain ⟨entry, hentry, heq⟩ := List.mem_map.1 hmem
        exact hothers entry hentry (heq ▸ List.mem_cons_self)
      · rcases List.mem_cons.1 hentry with rfl | hentry
        · exact hnew
        · exact fun hmem => hothers entry hentry (List.mem_cons_of_mem _ hmem)
    · rintro ⟨entries, hentries, hnodup, hothers, rfl⟩
      cases hentries with
      | cons hfirst hrest =>
        rename_i entry entries
        obtain ⟨record, hcarries, hlt, hhashes⟩ := hfirst
        rw [List.map_cons, List.nodup_cons] at hnodup
        have hnew := hothers entry List.mem_cons_self
        refine Except.bind_eq_ok_iff.2 ⟨entry, parseProofEvent_eq_ok_iff.2
          ⟨record, hcarries, hheight, hlt, hhashes, hnew⟩, ?_⟩
        refine Except.bind_eq_ok_iff.2 ⟨entries.map Prod.snd,
          ih.2 ⟨entries, hrest, hnodup.2, fun other hother => ?_, rfl⟩,
          rfl⟩
        intro hmem
        rcases List.mem_cons.1 hmem with heq | hmem
        · exact hnodup.1 (heq ▸ List.mem_map_of_mem hother)
        · exact hothers other (List.mem_cons_of_mem _ hother) hmem

theorem parseProofEvent_id {id' : VerificationId} (h : parseProofEvent blockHeight positions event = .ok (index, id))
    (hid : (verificationIdKey, hexEncode id'.bytes.1) ∈ event.attributes) : id = id' := by
  obtain ⟨record, hcarries, -, -, ⟨_, _, _, _, -, -, -, -, hbytes, -⟩, -⟩ := parseProofEvent_eq_ok_iff.1 h
  have hreads : Reads event verificationIdKey Text.Hex.decode id'.bytes.1 := ⟨_, hid, Text.Hex.decode_digits _⟩
  have hsame := (hcarries.verificationId.unique hreads hcarries.distinct).symm.trans hbytes
  obtain ⟨⟨bytes, hlength⟩⟩ := id
  obtain ⟨⟨bytes', hlength'⟩⟩ := id'
  cases hsame
  rfl

theorem parseEvents_ids {events : List CommittedEvent} {ids : List VerificationId}
    (h : parseEvents blockHeight positions events = .ok ids) (hevent : event ∈ events)
    (hid : (verificationIdKey, hexEncode id.bytes.1) ∈ event.attributes) :
    id ∈ ids := by
  induction events generalizing positions ids with
  | nil => cases hevent
  | cons first events ih =>
    unfold parseEvents at h
    obtain ⟨⟨index, id'⟩, hfirst, h⟩ := Except.bind_eq_ok_iff.1 h
    obtain ⟨ids', hrest, h⟩ := Except.bind_eq_ok_iff.1 h
    cases h
    rcases List.mem_cons.1 hevent with rfl | hevent
    · rw [parseProofEvent_id hfirst hid]
      exact List.mem_cons_self
    · exact List.mem_cons_of_mem _ (ih hrest hevent)

theorem parseProofEvents_ids {block : CommittedBlock} {ids : List VerificationId} (h : parseProofEvents block = .ok ids)
    (hevent : event ∈ block.events) (hkind : event.kind = proofSubmittedEvent)
    (hid : (verificationIdKey, hexEncode id.bytes.1) ∈ event.attributes) : id ∈ ids :=
  parseEvents_ids h (List.mem_filter.2 ⟨hevent, by simpa using hkind⟩) hid

end

end Listener

end PulsarVerifier
