import PulsarVerifier.Lib.Proto3
import PulsarVerifier.P2p.System
import PulsarVerifier.Store.Invariant
import PulsarVerifier.Submission.Validation

/-!
# The exchange of proofs

A proof that one node stores is sent to another one as a `GetProofResponse`.  Its size is bounded four times: by the
stores, by the driver of the sender, by the frame limit of the codec, and by the driver of the receiver.  The bounds use
a hand-written length formula, the length that `prost` measures and a hand-derived frame budget; they agree, so every
stored proof arrives (`stored_proof_exchanged`).

Messages are encoded as `prost` does for `exchange.proto` and `proof.proto`.  A repeated result replaces the previous
one.
-/

namespace PulsarVerifier

open Proto3

/-! ### Messages -/

namespace WireProof

def entries (proof : WireProof) : List Entry :=
  omitZero 1 (proof.proofType % 2 ^ 64).toNat ++ omitEmpty 2 proof.proof ++ omitEmpty 3 proof.publicInputs ++
    omitEmpty 4 proof.verificationKey

def encode (proof : WireProof) : Bytes := message proof.entries

/-- An enumeration value is the lower half of a 64-bit number. -/
def decode (bytes : Bytes) : Except String WireProof :=
  (fields ⟨[1], [2, 3, 4]⟩ bytes).map fun fields =>
    ⟨Int.bmod (number 1 fields) (2 ^ 32), payload 2 fields, payload 3 fields, payload 4 fields⟩

end WireProof

namespace ProofResult

def entry : ProofResult → Entry
  | .proof wire => (2, .payload wire.encode)
  | .notFound => (3, .payload [])

/-- The result that a field of the response holds. -/
def ofEntry : Entry → Option (Except String ProofResult)
  | (2, .payload bytes) => some ((WireProof.decode bytes).map .proof)
  | (3, .payload bytes) => some ((fields ⟨[], []⟩ bytes).map fun _ => .notFound)
  | _ => none

def encodedLen : ProofResult → Nat
  | .proof wire => 1 + encodedLenVarint wire.encodedLen + wire.encodedLen
  | .notFound => 1 + encodedLenVarint 0

end ProofResult

namespace GetProofResponse

def entries (response : GetProofResponse) : List Entry :=
  omitEmpty 1 response.chainId.toUTF8.data.toList ++ (response.result.map ProofResult.entry).toList

def encode (response : GetProofResponse) : Bytes := message response.entries

def decode (bytes : Bytes) : Except String GetProofResponse := do
  let fields ← fields ⟨[], [1, 2, 3]⟩ bytes
  let chainId ← string 1 fields
  let result ← oneof ProofResult.ofEntry fields
  pure ⟨chainId, result⟩

/-- `Message::encoded_len`. -/
def encodedLen (response : GetProofResponse) : Nat :=
  encodedBytesLen response.chainId.toUTF8.data.toList + (response.result.map ProofResult.encodedLen).getD 0

end GetProofResponse

/-! ### The codec -/

/-- Length-bounded protobuf codec for direct proof exchange substreams. -/
structure ProofExchangeCodec where
  maxResponseBytes : Nat
  deriving DecidableEq

/-- Reads a whole stream, but no more than one byte above the limit. -/
def readMessage {α : Type} (decode : Bytes → Except String α) (maximum : Nat) (stream : Bytes) : Except IoError α :=
  match checkedAddUsize maximum 1 with
  | none => .error ⟨.invalidInput, "frame limit overflows usize"⟩
  | some readLimit =>
    let bytes := stream.take readLimit
    if bytes.length > maximum then .error ⟨.invalidData, s!"protobuf frame exceeds {maximum} bytes"⟩
    else
      match decode bytes with
      | .ok value => .ok value
      | .error error => .error ⟨.invalidData, error⟩

/-- The bytes that are written, if the message fits. -/
def writeMessage (encodedLen : Nat) (bytes : Bytes) (maximum : Nat) : Except IoError Bytes :=
  if encodedLen > maximum then .error ⟨.invalidInput, s!"protobuf frame exceeds {maximum} bytes"⟩ else .ok bytes

namespace ProofExchangeCodec

/-- The response adds a chain ID field and a length-delimited oneof field around the canonical encoded proof. -/
def new (maxProofBytes : Nat) (chainId : String) : Except Error ProofExchangeCodec :=
  let chainLen := chainId.utf8ByteSize
  let maxResponseBytes : Option Nat := do
    let size ← checkedAddUsize maxProofBytes 1
    let size ← checkedAddUsize size (encodedLenVarint chainLen)
    let size ← checkedAddUsize size chainLen
    let size ← checkedAddUsize size 1
    checkedAddUsize size (encodedLenVarint maxProofBytes)
  match maxResponseBytes with
  | some maxResponseBytes => .ok ⟨maxResponseBytes⟩
  | none => .error (.invalidConfig "proof exchange size limit overflows usize")

def readResponse (codec : ProofExchangeCodec) (stream : Bytes) : Except IoError GetProofResponse :=
  readMessage GetProofResponse.decode codec.maxResponseBytes stream

def writeResponse (codec : ProofExchangeCodec) (response : GetProofResponse) : Except IoError Bytes :=
  writeMessage response.encodedLen response.encode codec.maxResponseBytes

end ProofExchangeCodec

namespace Driver

variable [Sha256] (d : Driver)

theorem respondProof_result (net : NetworkOutcome) {requestId : InboundProofRequestId} {inbound : InboundProofRequest}
    (h : d.inboundRequests.lookup requestId = some inbound) (proof : Option Proof) :
    (d.respondProof net requestId proof).1 = (d.proofResponse inbound proof).bind fun _ =>
      if net.sendResponse then .ok () else .error (.p2pDriver s!"failed to respond to {inbound.peer.toBase58}") := by
  unfold respondProof
  rw [h]

end Driver

/-! ### Lengths -/

/-- The formula of `prost` counts the bytes of a varint. -/
theorem encodedLenVarint_eq_length {n : Nat} (h : n < 2 ^ 64) : encodedLenVarint n = (Protobuf.varint n).length := by
  have hlog : Nat.log 2 n < 64 := Nat.log_lt_of_lt_pow' (by omega) h
  have hformula : ∀ k < 64, (k * 9 + 73) / 64 = k / 7 + 1 := by
    decide
  rw [Protobuf.length_varint, encodedLenVarint, log2_or_one, hformula _ hlog, show (128 : Nat) = 2 ^ 7 by rfl,
    Nat.log_pow_left]

theorem encodedLenVarint_le {n : Nat} (h : n < 2 ^ 64) : encodedLenVarint n ≤ 10 := by
  have hlog : Nat.log 2 n < 64 := Nat.log_lt_of_lt_pow' (by omega) h
  unfold encodedLenVarint
  rw [log2_or_one]
  omega

theorem length_message_omitEmpty {tag : Nat} (htag : tag < 16) {bytes : Bytes} (h : bytes.length < 2 ^ 64) :
    (message (omitEmpty tag bytes)).length = encodedBytesLen bytes := by
  unfold omitEmpty encodedBytesLen
  cases bytes with
  | nil => rfl
  | cons byte bytes =>
    have hkey : (Protobuf.varint (8 * tag + 2)).length = 1 := by
      rw [Protobuf.length_varint, Nat.log_of_lt (by omega)]
    simp only [List.isEmpty_cons, Bool.false_eq_true, if_false]
    rw [length_message_payload, hkey, encodedLenVarint_eq_length h]

/-- The proof type is an `i32`. -/
def WireProof.TypeInRange (wire : WireProof) : Prop := -2 ^ 31 ≤ wire.proofType ∧ wire.proofType < 2 ^ 31

theorem WireProof.typeInRange_ofProof (proof : Proof) : (ofProof proof).TypeInRange := by
  have htype : ∀ proofType : ProofType, -2 ^ 31 ≤ proofType.toI32 ∧ proofType.toI32 < 2 ^ 31 := by
    intro proofType
    cases proofType <;> decide
  exact htype proof.proofType

theorem length_message_omitZero {n : Nat} (h : n < 2 ^ 64) :
    (message (omitZero 1 n)).length = if n = 0 then 0 else 1 + encodedLenVarint n := by
  unfold omitZero
  by_cases hn : n = 0
  · rw [if_pos hn, if_pos hn]
    rfl
  · rw [if_neg hn, if_neg hn, encodedLenVarint_eq_length h]
    have hkey : (Protobuf.varint (8 * 1)).length = 1 := by decide
    simp only [message, List.flatMap_cons, List.flatMap_nil, List.append_nil, entry, List.length_append, hkey]

theorem WireProof.length_encode {wire : WireProof} (htype : wire.TypeInRange) (hproof : wire.proof.length < 2 ^ 64)
    (hinputs : wire.publicInputs.length < 2 ^ 64) (hkey : wire.verificationKey.length < 2 ^ 64) :
    wire.encode.length = wire.encodedLen := by
  obtain ⟨hlow, hhigh⟩ := htype
  have hnumber : (wire.proofType % 2 ^ 64).toNat < 2 ^ 64 := by omega
  have hzero : (wire.proofType % 2 ^ 64).toNat = 0 ↔ wire.proofType = 0 := by omega
  unfold encode entries encodedLen
  rw [length_message_append, length_message_append, length_message_append, length_message_omitZero hnumber,
    length_message_omitEmpty (by omega) hproof, length_message_omitEmpty (by omega) hinputs,
    length_message_omitEmpty (by omega) hkey]
  simp only [hzero]

theorem WireProof.encodedLen_ofProof (proof : Proof) : (ofProof proof).encodedLen = proof.encodedLen := by
  have htype : ∀ proofType : ProofType,
      (if proofType.toI32 = 0 then 0 else 1 + encodedLenVarint (proofType.toI32 % 2 ^ 64).toNat) = 2 := by
    intro proofType
    cases proofType <;> decide
  unfold encodedLen Proof.encodedLen
  rw [show (ofProof proof).proofType = proof.proofType.toI32 from rfl, htype]
  rfl

theorem Proof.length_le_encodedLen (proof : Proof) :
    proof.proof.length ≤ proof.encodedLen ∧ proof.publicInputs.length ≤ proof.encodedLen ∧
      proof.verificationKey.length ≤ proof.encodedLen := by
  have hproof := length_le_encodedBytesLen proof.proof
  have hinputs := length_le_encodedBytesLen proof.publicInputs
  have hkey := length_le_encodedBytesLen proof.verificationKey
  unfold Proof.encodedLen
  omega

theorem Proof.encodedLen_eq_length {proof : Proof} (hproof : proof.proof.length < 2 ^ 64)
    (hinputs : proof.publicInputs.length < 2 ^ 64) (hkey : proof.verificationKey.length < 2 ^ 64) :
    proof.encodedLen = (WireProof.ofProof proof).encode.length := by
  rw [WireProof.length_encode (WireProof.typeInRange_ofProof proof) hproof hinputs hkey, WireProof.encodedLen_ofProof]

theorem encodedBytesLen_le (bytes : Bytes) :
    encodedBytesLen bytes ≤ 1 + encodedLenVarint bytes.length + bytes.length := by
  unfold encodedBytesLen
  split_ifs
  · exact Nat.zero_le _
  · exact Nat.le_refl _

/-! ### Round trips -/

theorem WireProof.decode_encode {wire : WireProof} (htype : wire.TypeInRange) : decode wire.encode = .ok wire := by
  obtain ⟨proofType, proof, publicInputs, verificationKey⟩ := wire
  obtain ⟨hlow, hhigh⟩ := htype
  have hnumber : number 1 (entries ⟨proofType, proof, publicInputs, verificationKey⟩) = (proofType % 2 ^ 64).toNat :=
    number_eq (by simp [entries])
  have hproof : payload 2 (entries ⟨proofType, proof, publicInputs, verificationKey⟩) = proof :=
    payload_eq (by simp [entries])
  have hinputs : payload 3 (entries ⟨proofType, proof, publicInputs, verificationKey⟩) = publicInputs :=
    payload_eq (by simp [entries])
  have hkey : payload 4 (entries ⟨proofType, proof, publicInputs, verificationKey⟩) = verificationKey :=
    payload_eq (by simp [entries])
  have hbmod : Int.bmod ((proofType % 2 ^ 64).toNat : Int) (2 ^ 32) = proofType := by
    rw [Int.toNat_of_nonneg (Int.emod_nonneg _ (by decide)), Int.bmod_def]
    simp only at hlow hhigh
    split_ifs <;> omega
  unfold decode encode
  rw [fields_message (by simp [entries, or_imp, forall_and, Schema.Declares])]
  simp only [Except.map, hnumber, hproof, hinputs, hkey, hbmod]

/-- Proof types in a response are in the range of their field. -/
def ProofResult.TypeInRange : ProofResult → Prop
  | .proof wire => wire.TypeInRange
  | .notFound => True

theorem ProofResult.ofEntry_entry {result : ProofResult} (htype : result.TypeInRange) :
    ofEntry result.entry = some (.ok result) := by
  cases result with
  | proof wire =>
    have hdecode := WireProof.decode_encode htype
    simp only [entry, ofEntry, hdecode]
    rfl
  | notFound => rfl

theorem GetProofResponse.decode_encode {response : GetProofResponse}
    (htype : ∀ result ∈ response.result, result.TypeInRange) : decode response.encode = .ok response := by
  obtain ⟨chainId, result⟩ := response
  have hfields : fields ⟨[], [1, 2, 3]⟩ (encode ⟨chainId, result⟩) = .ok (entries ⟨chainId, result⟩) := by
    refine fields_message ?_
    rcases result with _ | (_ | _) <;>
      simp [entries, ProofResult.entry, or_imp, forall_and, Schema.Declares]
  have hchain : string 1 (entries ⟨chainId, result⟩) = .ok chainId := by
    refine string_eq ?_
    rcases result with _ | (_ | _) <;> simp [entries, ProofResult.entry]
  have hresult : oneof ProofResult.ofEntry (entries ⟨chainId, result⟩) = .ok result :=
    oneof_append (by simp [ProofResult.ofEntry]) fun result hresult => ProofResult.ofEntry_entry (htype result hresult)
  exact Except.bind_eq_ok_iff.2 ⟨_, hfields, Except.bind_eq_ok_iff.2 ⟨_, hchain,
    Except.bind_eq_ok_iff.2 ⟨_, hresult, rfl⟩⟩⟩

/-! ### The frame limit -/

theorem length_toUTF8 (text : String) : text.toUTF8.data.toList.length = text.utf8ByteSize := rfl

namespace GetProofResponse

/-- The proof of a response fits the limit. -/
def ProofWithin (maxProofBytes : Nat) (response : GetProofResponse) : Prop :=
  ∀ wire, response.result = some (.proof wire) →
    wire.encodedLen ≤ maxProofBytes ∧ wire.encode.length = wire.encodedLen

theorem length_encode {response : GetProofResponse} (hchain : response.chainId.utf8ByteSize < 2 ^ 64)
    {maxProofBytes : Nat} (hproof : response.ProofWithin maxProofBytes) (hmax : maxProofBytes < 2 ^ 64) :
    response.encode.length = response.encodedLen := by
  obtain ⟨chainId, result⟩ := response
  have hchain' : chainId.toUTF8.data.toList.length < 2 ^ 64 := hchain
  unfold encode entries encodedLen
  rw [length_message_append, length_message_omitEmpty (by omega) hchain']
  congr 1
  cases result with
  | none => rfl
  | some result =>
    cases result with
    | proof wire =>
      obtain ⟨hle, hlength⟩ := hproof wire rfl
      have hkey : (Protobuf.varint (8 * 2 + 2)).length = 1 := by decide
      change (message [(2, .payload wire.encode)]).length = 1 + encodedLenVarint wire.encodedLen + wire.encodedLen
      rw [length_message_payload, hkey, hlength, encodedLenVarint_eq_length (by omega)]
    | notFound =>
      change (message [(3, .payload [])]).length = 1 + encodedLenVarint 0
      decide

theorem encodedLen_le {response : GetProofResponse} {maxProofBytes : Nat}
    (hproof : response.ProofWithin maxProofBytes) :
    response.encodedLen ≤ maxProofBytes + 1 + encodedLenVarint response.chainId.utf8ByteSize +
      response.chainId.utf8ByteSize + 1 + encodedLenVarint maxProofBytes := by
  obtain ⟨chainId, result⟩ := response
  have hchain := encodedBytesLen_le chainId.toUTF8.data.toList
  rw [length_toUTF8] at hchain
  unfold encodedLen
  cases result with
  | none =>
    simp only [Option.map_none, Option.getD_none]
    omega
  | some result =>
    cases result with
    | proof wire =>
      obtain ⟨hle, -⟩ := hproof wire rfl
      have hvarint := encodedLenVarint_mono hle
      simp only [Option.map_some, Option.getD_some, ProofResult.encodedLen]
      omega
    | notFound =>
      have hvarint := encodedLenVarint_mono (Nat.zero_le maxProofBytes)
      simp only [Option.map_some, Option.getD_some, ProofResult.encodedLen]
      omega

end GetProofResponse

theorem readMessage_of_le {α : Type} {decode : Bytes → Except String α} {maximum : Nat} (hmax : maximum < usizeMax)
    {stream : Bytes} (hlength : stream.length ≤ maximum) {value : α} (hdecode : decode stream = .ok value) :
    readMessage decode maximum stream = .ok value := by
  unfold readMessage
  rw [checkedAddUsize_of_le hmax]
  dsimp only
  rw [List.take_of_length_le (by omega), if_neg (by omega), hdecode]

namespace ProofExchangeCodec

/-- The codec of a node exists: the limit of its store is below `2 ^ 32`, and no string is longer than `isize::MAX`. -/
theorem new_of_lt {maxProofBytes : Nat} (hmax : maxProofBytes < 2 ^ 32) {chainId : String}
    (hchain : chainId.utf8ByteSize < 2 ^ 63) :
    new maxProofBytes chainId = .ok ⟨maxProofBytes + 1 + encodedLenVarint chainId.utf8ByteSize + chainId.utf8ByteSize +
      1 + encodedLenVarint maxProofBytes⟩ := by
  have hlen := encodedLenVarint_le (n := chainId.utf8ByteSize) (by omega)
  have hlen' := encodedLenVarint_le (n := maxProofBytes) (by omega)
  unfold new
  simp only [Option.bind_eq_bind]
  rw [checkedAddUsize_of_le (by unfold usizeMax; omega), Option.bind_some,
    checkedAddUsize_of_le (by unfold usizeMax; omega), Option.bind_some,
    checkedAddUsize_of_le (by unfold usizeMax; omega), Option.bind_some,
    checkedAddUsize_of_le (by unfold usizeMax; omega), Option.bind_some,
    checkedAddUsize_of_le (by unfold usizeMax; omega)]

theorem readResponse_writeResponse {maxProofBytes : Nat} (hmax : maxProofBytes < 2 ^ 32)
    {response : GetProofResponse} (hchain : response.chainId.utf8ByteSize < 2 ^ 63)
    (htype : ∀ result ∈ response.result, result.TypeInRange) (hproof : response.ProofWithin maxProofBytes)
    {codec : ProofExchangeCodec} (hcodec : new maxProofBytes response.chainId = .ok codec) :
    codec.writeResponse response = .ok response.encode ∧ codec.readResponse response.encode = .ok response := by
  rw [new_of_lt hmax hchain] at hcodec
  cases hcodec
  have hlen := encodedLenVarint_le (n := response.chainId.utf8ByteSize) (by omega)
  have hlen' := encodedLenVarint_le (n := maxProofBytes) (by omega)
  have hle := GetProofResponse.encodedLen_le hproof
  have hlength := GetProofResponse.length_encode (by omega) hproof (by omega)
  refine ⟨if_neg (by simpa using hle), readMessage_of_le ?_ ?_ (GetProofResponse.decode_encode htype)⟩
  · unfold usizeMax
    dsimp only
    omega
  · rw [hlength]
    exact hle

end ProofExchangeCodec

/-! ### From store to store -/

theorem ProofStore.new_maxProofBytes_lt {config : ProofStoreConfig} {store : ProofStore}
    (h : ProofStore.new config = .ok store) : config.maxProofBytes < 2 ^ 32 := by
  by_contra hlarge
  have hweight : maximumWeight config = none := by
    unfold maximumWeight toU32?
    rw [if_neg hlarge]
    rfl
  unfold ProofStore.new at h
  rw [hweight] at h
  split_ifs at h
  all_goals simp_all

section

variable [Sha256]

/-- A stored proof has the identifier it is stored under, and fits the limit of the store. -/
theorem StoreSystem.getProof_valid {config : ProofStoreConfig} {store : ProofStore}
    (hnew : ProofStore.new config = .ok store) {s : StoreSystem} (hs : (StoreSystem.lts store).Reachable s)
    {id : VerificationId} {proof : Proof} (hproof : s.store.getProof id = some proof) :
    proof.verificationId = id ∧ proof.encodedLen ≤ config.maxProofBytes := by
  obtain ⟨hwf, hmax⟩ := StoreSystem.reachable_wellFormed hnew hs
  obtain ⟨e, he, hvalue⟩ := Option.bind_eq_some_iff.1 hproof
  rw [← hmax]
  exact (hwf id e he).content_id proof hvalue

/-- The check of the receiver accepts exactly the proofs within the limit, as they were. -/
theorem validateWireProof_ofProof {proof : Proof} {id : VerificationId} {maxProofBytes : Nat} {received : Proof} :
    validateWireProof (.ofProof proof) id maxProofBytes = .ok received ↔
      proof.encodedLen ≤ maxProofBytes ∧ proof.verificationId = id ∧ received = proof := by
  have htype : ∀ proofType : ProofType, ProofType.tryFrom proofType.toI32 = .ok proofType := by
    intro proofType
    cases proofType <;> rfl
  unfold validateWireProof
  rw [WireProof.encodedLen_ofProof, show (WireProof.ofProof proof).proofType = proof.proofType.toI32 from rfl, htype]
  change (if proof.encodedLen > maxProofBytes then _ else if proof.verificationId ≠ id then _ else Except.ok proof) =
    _ ↔ _
  split_ifs with hlarge hid
  · simp only [false_iff]
    omega
  · simp only [false_iff]
    exact fun h => hid h.2.1
  · simp only [Except.ok.injEq]
    exact ⟨fun h => ⟨by omega, not_not.1 hid, h.symm⟩, fun h => h.2.2.symm⟩

theorem ProofStore.validateProof_self_iff {store : ProofStore} {proof : Proof} :
    store.validateProof proof.verificationId proof = .ok () ↔ proof.encodedLen ≤ store.maxProofBytes :=
  ⟨fun h => (ProofStore.validateProof_eq_ok h).1, ProofStore.validateProof_self⟩

/-- The submission validator refuses exactly the proofs above the limit for their size. -/
theorem validateSubmission_proofTooLarge_iff [TransactionWire] {submission : ProofSubmission}
    {maxProofBytes maxTransactionBytes : Nat} :
    (∃ id actualBytes maxBytes, validateSubmission submission maxProofBytes maxTransactionBytes =
      .error (.proofTooLarge id actualBytes maxBytes)) ↔ maxProofBytes < submission.proof.encodedLen := by
  constructor
  · rintro ⟨id, actualBytes, maxBytes, h⟩
    rcases validateSubmission_onlyFails _ _ _ _ h with ⟨hlarge, -⟩ | ⟨-, herror | herror⟩
    · exact hlarge
    · cases herror
    · exact herror.elim
  · intro hlarge
    refine ⟨submission.proof.verificationId, submission.proof.encodedLen, maxProofBytes, ?_⟩
    have hreject : Except.rejectIf (submission.proof.encodedLen > maxProofBytes)
        (Error.proofTooLarge submission.proof.verificationId submission.proof.encodedLen maxProofBytes) =
        .error (.proofTooLarge submission.proof.verificationId submission.proof.encodedLen maxProofBytes) :=
      if_pos hlarge
    unfold validateSubmission
    dsimp only
    rw [hreject]
    rfl

theorem ProofStore.attachDownloadedProof_ok {store : ProofStore} {id : VerificationId} {proof : Proof}
    (hid : proof.verificationId = id) (hlen : proof.encodedLen ≤ store.maxProofBytes) {e : Arc ProofRecord}
    (he : store.get id = some e) (hobserved : e.value.metadata.chainObservedAt.isSome) (now : Instant) (peer : PeerId) :
    ∃ change, (store.attachDownloadedProof now id proof peer).result = .ok change := by
  subst hid
  unfold ProofStore.attachDownloadedProof
  rw [ProofStore.validateProof_self hlen]
  dsimp only
  rcases store.commitWith_cases proof.verificationId
      (ProofStore.attachCompute now proof.verificationId proof (.peer peer)) storeChange
      (changeEvents proof.verificationId (.proofStored proof.verificationId (.peer peer))) with
    ⟨error, hcompute, -⟩ | ⟨-, result, -, heq⟩ | ⟨r, result, -, -, -, heq⟩
  · rw [he] at hcompute
    simp only [ProofStore.attachCompute, Option.isNone_eq_false_iff.2 hobserved, Bool.false_eq_true, if_false]
      at hcompute
    split_ifs at hcompute
  · rw [heq]
    exact ⟨_, rfl⟩
  · rw [heq]
    exact ⟨_, rfl⟩

theorem Driver.proofResponse_exchanged {d : Driver} (hmax : d.config.maxProofBytes < 2 ^ 32)
    (hchain : d.config.chainId.utf8ByteSize < 2 ^ 63) {codec : ProofExchangeCodec}
    (hcodec : ProofExchangeCodec.new d.config.maxProofBytes d.config.chainId = .ok codec)
    {inbound : InboundProofRequest}
    {proof : Option Proof} {response : GetProofResponse} (h : d.proofResponse inbound proof = .ok response) :
    ∃ bytes, bytes.length ≤ codec.maxResponseBytes ∧ codec.writeResponse response = .ok bytes ∧
      codec.readResponse bytes = .ok response := by
  have hresponse : response.chainId = d.config.chainId ∧ (∀ result ∈ response.result, result.TypeInRange) ∧
      response.ProofWithin d.config.maxProofBytes := by
    cases proof with
    | none =>
      cases h
      exact ⟨rfl, by rintro result ⟨⟩; trivial, by rintro wire ⟨⟩⟩
    | some proof =>
      obtain ⟨hlen, -, rfl⟩ := (Driver.proofResponse_some d).1 h
      refine ⟨rfl, ?_, ?_⟩
      · rintro result ⟨⟩
        exact WireProof.typeInRange_ofProof proof
      · rintro wire ⟨⟩
        obtain ⟨hproof, hinputs, hkey⟩ := proof.length_le_encodedLen
        rw [WireProof.encodedLen_ofProof]
        exact ⟨hlen, (Proof.encodedLen_eq_length (by omega) (by omega) (by omega)).symm⟩
  obtain ⟨hchainId, htype, hproof⟩ := hresponse
  rw [← hchainId] at hchain hcodec
  obtain ⟨hwrite, hread⟩ := ProofExchangeCodec.readResponse_writeResponse hmax hchain htype hproof hcodec
  refine ⟨response.encode, ?_, hwrite, hread⟩
  rw [GetProofResponse.length_encode (by omega) hproof (by omega)]
  rw [ProofExchangeCodec.new_of_lt hmax hchain] at hcodec
  cases hcodec
  exact GetProofResponse.encodedLen_le hproof

/-- Every proof that is stored can be sent, and arrives: the checks of the driver pass, the response is written and read
as it was, the receiver finds the proof that was sent, and its store accepts it if the identifier is observed there.
The hand-written length is the length of the bytes, and all limits admit the same proofs. -/
theorem stored_proof_exchanged [TransactionWire] {config config' : ProofStoreConfig} {store store' : ProofStore}
    (hnew : ProofStore.new config = .ok store) (hnew' : ProofStore.new config' = .ok store')
    (hmax : config'.maxProofBytes = config.maxProofBytes) {d : Driver}
    (hd : d.config.maxProofBytes = config.maxProofBytes) (hchain : d.config.chainId.utf8ByteSize < 2 ^ 63) :
    (∃ codec, ProofExchangeCodec.new config.maxProofBytes d.config.chainId = .ok codec ∧
      (∀ s, (StoreSystem.lts store).Reachable s → ∀ id proof, s.store.getProof id = some proof → ∀ peer,
        (∀ net requestId, d.inboundRequests.lookup requestId = some ⟨peer, id⟩ →
          (d.respondProof net requestId (some proof)).1 =
            if net.sendResponse then .ok () else .error (.p2pDriver s!"failed to respond to {peer.toBase58}")) ∧
        ∃ response bytes, d.proofResponse ⟨peer, id⟩ (some proof) = .ok response ∧
          response = ⟨d.config.chainId, some (.proof (.ofProof proof))⟩ ∧ bytes.length ≤ codec.maxResponseBytes ∧
          codec.writeResponse response = .ok bytes ∧ codec.readResponse bytes = .ok response ∧
          validateWireProof (.ofProof proof) id config.maxProofBytes = .ok proof ∧
          ∀ s', (StoreSystem.lts store').Reachable s' →
            ∀ e, s'.store.get id = some e → e.value.metadata.chainObservedAt.isSome → ∀ now,
              ∃ change, (s'.store.attachDownloadedProof now id proof peer).result = .ok change) ∧
      ∀ inbound, ∃ response bytes, d.proofResponse inbound none = .ok response ∧
        bytes.length ≤ codec.maxResponseBytes ∧ codec.writeResponse response = .ok bytes ∧
        codec.readResponse bytes = .ok response) ∧
    (∀ proof : Proof, proof.proof.length < 2 ^ 64 → proof.publicInputs.length < 2 ^ 64 →
      proof.verificationKey.length < 2 ^ 64 → proof.encodedLen = (WireProof.ofProof proof).encode.length) ∧
    ∀ (proof : Proof) (s : StoreSystem), (StoreSystem.lts store).Reachable s →
      (s.store.validateProof proof.verificationId proof = .ok () ↔ proof.encodedLen ≤ config.maxProofBytes) ∧
      (∀ txRaw maxTransactionBytes, (∃ id actualBytes maxBytes,
        validateSubmission ⟨proof, txRaw⟩ config.maxProofBytes maxTransactionBytes =
          .error (.proofTooLarge id actualBytes maxBytes)) ↔ ¬ proof.encodedLen ≤ config.maxProofBytes) ∧
      (∀ peer, (∃ response, d.proofResponse ⟨peer, proof.verificationId⟩ (some proof) = .ok response) ↔
        proof.encodedLen ≤ config.maxProofBytes) ∧
      ((∃ received, validateWireProof (.ofProof proof) proof.verificationId config.maxProofBytes = .ok received) ↔
        proof.encodedLen ≤ config.maxProofBytes) := by
  have hlimit := ProofStore.new_maxProofBytes_lt hnew
  refine ⟨?_, fun proof hproof hinputs hkey => Proof.encodedLen_eq_length hproof hinputs hkey, fun proof s hs => ?_⟩
  · obtain ⟨codec, hcodec⟩ : ∃ codec, ProofExchangeCodec.new config.maxProofBytes d.config.chainId = .ok codec :=
      ⟨_, ProofExchangeCodec.new_of_lt hlimit hchain⟩
    refine ⟨codec, hcodec, fun s hs id proof hproof peer => ?_, fun inbound => ?_⟩
    all_goals rw [← hd] at hlimit hcodec
    · obtain ⟨hid, hlen⟩ := StoreSystem.getProof_valid hnew hs hproof
      have hresponse : d.proofResponse ⟨peer, id⟩ (some proof) =
          .ok ⟨d.config.chainId, some (.proof (.ofProof proof))⟩ :=
        (Driver.proofResponse_some d).2 ⟨hd ▸ hlen, hid, rfl⟩
      obtain ⟨bytes, hlength, hwrite, hread⟩ := Driver.proofResponse_exchanged hlimit hchain hcodec hresponse
      refine ⟨fun net requestId hlookup => ?_, _, bytes, hresponse, rfl, hlength, hwrite, hread,
        validateWireProof_ofProof.2 ⟨hlen, hid, rfl⟩, fun s' hs' e he hobserved now => ?_⟩
      · rw [d.respondProof_result net hlookup, hresponse]
        rfl
      · obtain ⟨-, hstore'⟩ := StoreSystem.reachable_wellFormed hnew' hs'
        exact ProofStore.attachDownloadedProof_ok hid (by omega) he hobserved now peer
    · have hresponse : d.proofResponse inbound none = .ok ⟨d.config.chainId, some .notFound⟩ := rfl
      obtain ⟨bytes, hlength, hwrite, hread⟩ := Driver.proofResponse_exchanged hlimit hchain hcodec hresponse
      exact ⟨_, bytes, hresponse, hlength, hwrite, hread⟩
  · obtain ⟨-, hstore⟩ := StoreSystem.reachable_wellFormed hnew hs
    refine ⟨?_, fun txRaw maxTransactionBytes => ?_, fun peer => ?_, ?_⟩
    · rw [ProofStore.validateProof_self_iff, hstore]
    · rw [validateSubmission_proofTooLarge_iff, not_le]
    · simp only [Driver.proofResponse_some, hd, true_and]
      exact ⟨fun ⟨_, h, _⟩ => h, fun h => ⟨_, h, rfl⟩⟩
    · simp only [validateWireProof_ofProof, true_and]
      exact ⟨fun ⟨_, h, _⟩ => h, fun h => ⟨_, h, rfl⟩⟩

end

theorem stored_proof_exchanged_small :
    letI := Sha256.standard
    let id := Proof.small.verificationId
    ∃ codec response bytes, ProofExchangeCodec.new 1024 "pulsar-1" = .ok codec ∧
      (Driver.build .small .here {.there} {0}).proofResponse ⟨.there, id⟩ (some .small) = .ok response ∧
      codec.writeResponse response = .ok bytes ∧ codec.readResponse bytes = .ok response ∧
      validateWireProof (.ofProof .small) id 1024 = .ok .small ∧
      ∃ change, ((StoreSystem.perform ⟨.small, []⟩ (.observeChainVerification 1 id)).1.store.attachDownloadedProof 2 id
        .small .there).result = .ok change := by
  let _ := Sha256.standard
  let _ := TransactionWire.standard
  intro id
  have hnew : ProofStore.new .small = .ok .small := rfl
  have hsent : (StoreSystem.lts .small).Reachable
      (StoreSystem.perform ⟨.small, []⟩ (.insertLocalProof 1 .small .rpc)).1 :=
    ⟨_, [.insertLocalProof 1 .small .rpc], rfl, .cons ⟨trivial, rfl⟩ (.refl _)⟩
  have hobserved : (StoreSystem.lts .small).Reachable
      (StoreSystem.perform ⟨.small, []⟩ (.observeChainVerification 1 id)).1 :=
    ⟨_, [.observeChainVerification 1 id], rfl, .cons ⟨trivial, rfl⟩ (.refl _)⟩
  have hproof : (StoreSystem.perform ⟨.small, []⟩ (.insertLocalProof 1 .small .rpc)).1.store.getProof id =
      some .small := by
    decide +kernel
  have hrecord : ((StoreSystem.perform ⟨.small, []⟩ (.observeChainVerification 1 id)).1.store.get id).any
      (fun e => e.value.metadata.chainObservedAt.isSome) = true := by
    decide +kernel
  obtain ⟨e, he, hsome⟩ := (Option.any_eq_true _ _).1 hrecord
  obtain ⟨⟨codec, hcodec, hexchange, -⟩, -⟩ := stored_proof_exchanged hnew hnew rfl
    (d := Driver.build .small .here {.there} {0}) rfl (by decide)
  obtain ⟨-, response, bytes, hresponse, -, -, hwrite, hread, hvalid, hattach⟩ :=
    hexchange _ hsent id .small hproof .there
  exact ⟨codec, response, bytes, hcodec, hresponse, hwrite, hread, hvalid, hattach _ hobserved e he hsome 2⟩

end PulsarVerifier
