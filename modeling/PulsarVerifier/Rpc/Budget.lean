import PulsarVerifier.Config
import PulsarVerifier.P2p.Codec
import PulsarVerifier.Rpc.Statuses
import PulsarVerifier.Store.Weight

/-!
# Sizes of RPC messages

Both servers bound the messages they decode and encode.  The bound of the submission server is the largest proof plus
the largest transaction plus a fixed overhead, which covers the keys and lengths of the two fields.  The bound of the
verification server is a constant, which covers 512 statuses with the longest failure diagnostics.
-/

namespace PulsarVerifier

open Proto3

/-! ### Submissions -/

structure SubmitProofRequest where
  proof : Option WireProof
  txRaw : Bytes
  deriving DecidableEq

namespace SubmitProofRequest

def entries (request : SubmitProofRequest) : List Entry :=
  (request.proof.map fun proof => [(1, Value.payload proof.encode)]).getD [] ++ omitEmpty 2 request.txRaw

def encode (request : SubmitProofRequest) : Bytes := message request.entries

end SubmitProofRequest

def protobufEnvelopeOverhead : Nat := 16

/-- The limit that `SubmissionRpcServer::start` computes first. -/
def requestLimit (config : SubmissionConfig) (maxProofBytes : Nat) : Except Error Nat :=
  let limit : Option Nat := do
    let limit ← checkedAddUsize maxProofBytes config.maxTransactionBytes
    checkedAddUsize limit protobufEnvelopeOverhead
  match limit with
  | some limit => .ok limit
  | none => .error (.invalidConfig "submission request limit overflows usize")

/-- The check of tonic for `max_decoding_message_size` and `max_encoding_message_size`. -/
def refusedByTransport (limit : Nat) (message : Bytes) : Bool := decide (message.length > limit)

theorem requestLimit_eq_ok {config : SubmissionConfig} {maxProofBytes : Nat}
    (h : maxProofBytes + config.maxTransactionBytes + protobufEnvelopeOverhead ≤ usizeMax) :
    requestLimit config maxProofBytes =
      .ok (maxProofBytes + config.maxTransactionBytes + protobufEnvelopeOverhead) := by
  unfold requestLimit
  rw [checkedAddUsize_of_le (by omega), Option.bind_eq_bind, Option.bind_some, checkedAddUsize_of_le h]

/-- The key and the length of the proof take at most 6 bytes, those of the transaction at most 5. -/
theorem SubmitProofRequest.length_encode_le {request : SubmitProofRequest} {maxProofBytes maxTransactionBytes : Nat}
    (hmaxProof : maxProofBytes < 2 ^ 32) (hmaxTransaction : maxTransactionBytes ≤ 16 * 1024 * 1024)
    (hproof : ∀ proof, request.proof = some proof → proof.encode.length ≤ maxProofBytes)
    (htransaction : request.txRaw.length ≤ maxTransactionBytes) :
    request.encode.length ≤ maxProofBytes + maxTransactionBytes + 11 := by
  obtain ⟨proof, txRaw⟩ := request
  have htx : (message (omitEmpty 2 txRaw)).length ≤ 1 + 4 + maxTransactionBytes :=
    length_message_omitEmpty_le (by omega) (by omega) (by omega) htransaction
  unfold encode entries
  rw [length_message_append]
  cases proof with
  | none =>
    simp only [Option.map_none, Option.getD_none, message, List.flatMap_nil, List.length_nil]
    unfold message at htx
    omega
  | some proof =>
    have hfield : (message [(1, Value.payload proof.encode)]).length ≤ 1 + 5 + maxProofBytes :=
      length_message_payload_le (by omega) (by omega) (by omega) (hproof proof rfl)
    simp only [Option.map_some, Option.getD_some]
    omega

/-! ### Requests and responses of the verification server -/

def maxRpcMessageBytes : Nat := 256 * 1024

/-- `GetVerificationResultsRequest` and `GetProofStatusesRequest`. -/
def encodeIds (verificationIds : List Bytes) : Bytes :=
  message (verificationIds.map fun id => (1, .payload id))

namespace WireResult

def entries (result : WireResult) : List Entry :=
  omitEmpty 1 result.verificationId ++ omitZero 2 (result.verdict % 2 ^ 64).toNat

def encode (result : WireResult) : Bytes := message result.entries

end WireResult

def encodeResults (results : List WireResult) : Bytes :=
  message (results.map fun result => (1, .payload result.encode))

namespace WireFailure

def entries (failure : WireFailure) : List Entry :=
  omitEmpty 1 failure.code.toUTF8.data.toList ++ omitEmpty 2 failure.message.toUTF8.data.toList ++
    omitZero 3 (if failure.retryable then 1 else 0)

def encode (failure : WireFailure) : Bytes := Proto3.message failure.entries

end WireFailure

namespace ProofVerificationStatus

def entries (status : ProofVerificationStatus) : List Entry :=
  omitEmpty 1 status.verificationId ++ omitZero 2 (status.phase % 2 ^ 64).toNat ++
    omitZero 3 (status.verdict % 2 ^ 64).toNat ++
    (status.failure.map fun failure => [(4, Value.payload failure.encode)]).getD []

def encode (status : ProofVerificationStatus) : Bytes := message status.entries

end ProofVerificationStatus

def encodeStatuses (statuses : List ProofVerificationStatus) : Bytes :=
  message (statuses.map fun status => (1, .payload status.encode))

/-! ### Bounds -/

private theorem length_message_id_le (id : VerificationId) : (message (omitEmpty 1 id.bytes.1)).length ≤ 1 + 1 + 32 :=
  length_message_omitEmpty_le (by omega) (by omega) (by omega) (le_of_eq id.bytes.2)

theorem length_encodeIds_le (ids : List VerificationId) :
    (encodeIds (ids.map fun id => id.bytes.1)).length ≤ ids.length * (1 + 1 + 32) := by
  unfold encodeIds
  rw [List.map_map]
  exact length_message_map_le (by omega) (by omega) (by omega) fun id _ => le_of_eq id.bytes.2

theorem CompletedVerification.length_encode_wireResult_le (result : CompletedVerification) :
    result.wireResult.encode.length ≤ 36 := by
  obtain ⟨id, verdict⟩ := result
  have hid := length_message_id_le id
  have hverdict : (message (omitZero 2 (wireVerdict verdict % 2 ^ 64).toNat)).length ≤ 2 :=
    length_message_omitZero_le (by omega) (by cases verdict <;> decide)
  unfold wireResult WireResult.encode WireResult.entries
  rw [length_message_append]
  dsimp only
  omega

/-- The diagnostics of a failure are bounded where it is made. -/
theorem VerificationFailure.length_encode_le (failure : VerificationFailure) :
    (WireFailure.mk failure.code failure.message failure.retryable).encode.length ≤ 327 := by
  have hcode : (Proto3.message (omitEmpty 1 failure.code.toUTF8.data.toList)).length ≤ 1 + 1 + 64 :=
    length_message_omitEmpty_le (by omega) (by omega) (by omega) failure.code_le
  have hmessage : (Proto3.message (omitEmpty 2 failure.message.toUTF8.data.toList)).length ≤ 1 + 2 + 256 :=
    length_message_omitEmpty_le (by omega) (by omega) (by omega) failure.message_le
  have hretryable : (Proto3.message (omitZero 3 (if failure.retryable then 1 else 0))).length ≤ 2 :=
    length_message_omitZero_le (by omega) (by split <;> omega)
  unfold WireFailure.encode WireFailure.entries
  rw [length_message_append, length_message_append]
  dsimp only
  omega

/-- No status is longer than that of a failure. -/
theorem StoredVerificationStatus.length_encode_wireStatus_le (status : StoredVerificationStatus) :
    (wireStatus status).encode.length ≤ 368 := by
  obtain ⟨id, status⟩ := status
  have hid : (message (omitEmpty 1 (wireStatus ⟨id, status⟩).verificationId)).length ≤ 1 + 1 + 32 :=
    length_message_id_le id
  have hphase : (message (omitZero 2 ((wireStatus ⟨id, status⟩).phase % 2 ^ 64).toNat)).length ≤ 2 :=
    length_message_omitZero_le (by omega) (by cases status <;> simp [wireStatus, WirePhase.toInt])
  have hverdict : (message (omitZero 3 ((wireStatus ⟨id, status⟩).verdict % 2 ^ 64).toNat)).length ≤ 2 := by
    refine length_message_omitZero_le (by omega) ?_
    cases status with
    | completed verdict => cases verdict <;> simp [wireStatus, wireVerdict]
    | unavailable | queued | verifying | failed => exact Nat.zero_lt_succ _
  have hfailure : (message (((wireStatus ⟨id, status⟩).failure.map fun failure =>
      [(4, Value.payload failure.encode)]).getD [])).length ≤ 1 + 2 + 327 := by
    cases status with
    | failed failure => exact length_message_payload_le (by omega) (by omega) (by omega) failure.length_encode_le
    | unavailable | queued | verifying | completed => exact Nat.zero_le _
  unfold ProofVerificationStatus.encode ProofVerificationStatus.entries
  rw [length_message_append, length_message_append, length_message_append]
  omega

/-! ### The budgets -/

variable {ids : List VerificationId} {rawIds : List Bytes} (read : VerificationId → Option (Arc ProofRecord))

theorem length_encodeResults_lt (hids : ids.length ≤ maxVerificationIds) :
    (encodeResults ((completedResults read ids).map CompletedVerification.wireResult)).length < maxRpcMessageBytes := by
  have hlength : (completedResults read ids).length ≤ ids.length := List.length_filterMap_le _ _
  have hencoded : (encodeResults ((completedResults read ids).map CompletedVerification.wireResult)).length ≤
      (completedResults read ids).length * (1 + 1 + 36) := by
    unfold encodeResults
    rw [List.map_map]
    exact length_message_map_le (by omega) (by omega) (by omega) fun result _ => result.length_encode_wireResult_le
  unfold maxVerificationIds at hids
  unfold maxRpcMessageBytes
  omega

theorem length_encodeStatuses_lt (hids : ids.length ≤ maxVerificationIds) :
    (encodeStatuses ((statuses read ids).map wireStatus)).length < maxRpcMessageBytes := by
  have hlength : (statuses read ids).length = ids.length := List.length_map _
  have hencoded : (encodeStatuses ((statuses read ids).map wireStatus)).length ≤
      (statuses read ids).length * (1 + 2 + 368) := by
    unfold encodeStatuses
    rw [List.map_map]
    exact length_message_map_le (by omega) (by omega) (by omega) fun status _ => status.length_encode_wireStatus_le
  unfold maxVerificationIds at hids
  unfold maxRpcMessageBytes
  omega

/-- An accepted request and both of its answers fit a message. -/
theorem length_rpc_lt (h : parseIds rawIds = .ok ids) :
    (encodeIds rawIds).length < maxRpcMessageBytes ∧
    (∃ results, getVerificationResults read rawIds = .ok results ∧
      (encodeResults results).length < maxRpcMessageBytes) ∧
    ∃ statuses, getProofStatuses read rawIds = .ok statuses ∧
      (encodeStatuses statuses).length < maxRpcMessageBytes := by
  obtain ⟨rfl, hvalid⟩ := parseIds_eq_ok_iff.1 h
  have hids : ids.length ≤ maxVerificationIds := by
    rw [← List.length_map fun id : VerificationId => id.bytes.1]
    exact not_lt.1 fun hlong => hvalid (.inl hlong)
  refine ⟨?_, ⟨_, ?_, length_encodeResults_lt read hids⟩, _, ?_, length_encodeStatuses_lt read hids⟩
  · have hencoded := length_encodeIds_le ids
    unfold maxVerificationIds at hids
    unfold maxRpcMessageBytes
    omega
  · unfold getVerificationResults
    rw [h]
    rfl
  · unfold getProofStatuses
    rw [h]
    rfl

section

variable [SocketAddrParser]

/-- Whatever passes the limits of the configuration and of `parse_ids` fits the limits of the two servers. -/
theorem rpc_budgets_suffice {storeConfig : ProofStoreConfig} {store : ProofStore} {file : FileSubmissionConfig}
    {config : SubmissionConfig} (hnew : ProofStore.new storeConfig = .ok store)
    (hconfig : Config.validateSubmission file = .ok config) :
    (∃ limit, requestLimit config storeConfig.maxProofBytes = .ok limit ∧
      (∀ request : SubmitProofRequest,
        (∀ proof, request.proof = some proof → proof.encode.length ≤ storeConfig.maxProofBytes) →
        request.txRaw.length ≤ config.maxTransactionBytes → refusedByTransport limit request.encode = false) ∧
      ∀ (proof : Proof) (txRaw : Bytes), proof.encodedLen ≤ storeConfig.maxProofBytes →
        txRaw.length ≤ config.maxTransactionBytes →
        refusedByTransport limit (SubmitProofRequest.mk (some (.ofProof proof)) txRaw).encode = false) ∧
    ∀ (read : VerificationId → Option (Arc ProofRecord)) (rawIds : List Bytes) (ids : List VerificationId),
      parseIds rawIds = .ok ids →
      (encodeIds rawIds).length < maxRpcMessageBytes ∧
      (∃ results, getVerificationResults read rawIds = .ok results ∧
        (encodeResults results).length < maxRpcMessageBytes) ∧
      ∃ statuses, getProofStatuses read rawIds = .ok statuses ∧
        (encodeStatuses statuses).length < maxRpcMessageBytes := by
  have hproofMax := ProofStore.new_maxProofBytes_lt hnew
  have htxMax := Config.maxTransactionBytes_le_of_validateSubmission hconfig
  have hfits : ∀ request : SubmitProofRequest,
      (∀ proof, request.proof = some proof → proof.encode.length ≤ storeConfig.maxProofBytes) →
      request.txRaw.length ≤ config.maxTransactionBytes →
      refusedByTransport (storeConfig.maxProofBytes + config.maxTransactionBytes + protobufEnvelopeOverhead)
        request.encode = false := by
    intro request hproof htx
    have hlength := SubmitProofRequest.length_encode_le hproofMax htxMax hproof htx
    unfold protobufEnvelopeOverhead
    exact decide_eq_false (by omega)
  refine ⟨⟨_, requestLimit_eq_ok (by unfold usizeMax protobufEnvelopeOverhead; omega), hfits, ?_⟩, ?_⟩
  · intro proof txRaw hproof htx
    refine hfits _ (fun wire hwire => ?_) htx
    cases hwire
    obtain ⟨hbytes, hinputs, hkey⟩ := proof.length_le_encodedLen
    rw [← Proof.encodedLen_eq_length (by omega) (by omega) (by omega)]
    exact hproof
  · intro read rawIds ids hids
    exact length_rpc_lt read hids

end

/-- The defaults of the submissions, and a parser that knows their address only. -/
theorem rpc_budgets_suffice_default :
    let config : SubmissionConfig :=
      { enabled := false, listenAddress := ⟨true, 50052⟩, maxTransactionBytes := 1024 * 1024
        maxConcurrentRequests := 16 }
    (∃ limit, requestLimit config ProofStoreConfig.small.maxProofBytes = .ok limit ∧
      refusedByTransport limit (SubmitProofRequest.mk (some ⟨2, [1], [2], [3]⟩) [4]).encode = false) ∧
    ∃ statuses, getProofStatuses (fun _ => none) [List.replicate 32 1] = .ok statuses ∧
      (encodeStatuses statuses).length < maxRpcMessageBytes := by
  let _ : SocketAddrParser :=
    ⟨fun text => if text = "127.0.0.1:50052" then .ok ⟨true, 50052⟩ else .error "invalid socket address syntax"⟩
  intro config
  have hnew : ProofStore.new .small = .ok .small := rfl
  have hconfig : Config.validateSubmission {} = .ok config := by decide +kernel
  obtain ⟨⟨limit, hlimit, hfits, -⟩, hrpc⟩ := rpc_budgets_suffice hnew hconfig
  constructor
  · refine ⟨limit, hlimit, hfits _ (fun proof hproof => ?_) (by decide)⟩
    cases hproof
    decide +kernel
  · exact (hrpc _ _ [⟨⟨List.replicate 32 1, rfl⟩⟩] (by decide +kernel)).2.2

end PulsarVerifier
