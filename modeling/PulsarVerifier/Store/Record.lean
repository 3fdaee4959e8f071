import PulsarVerifier.Proof

/-!
# Records of the proof store

The values the store keeps for a verification identifier, the lifecycle of a verification, the events the store
publishes, and the errors of the crate that the modelled functions return.
-/

namespace PulsarVerifier

def failureCodeMaxBytes : Nat := 64

def failureMessageMaxBytes : Nat := 256

/-- Completed cryptographic verdict. Operational failures are represented separately. -/
inductive VerificationVerdict
  | valid
  | invalid
  deriving DecidableEq

/-- A failure code has 1 to 64 bytes, starts with a lowercase ASCII letter and continues with lowercase letters,
digits or underscores. -/
def failureCodeOk (code : String) : Bool :=
  match code.toUTF8.data.toList with
  | [] => false
  | first :: rest =>
    decide (rest.length + 1 ≤ failureCodeMaxBytes) && isLowercase first &&
      rest.all fun byte => isLowercase byte || isDigit byte || byte == 95
where
  isLowercase (byte : UInt8) : Bool := decide (97 ≤ byte) && decide (byte ≤ 122)
  isDigit (byte : UInt8) : Bool := decide (48 ≤ byte) && decide (byte ≤ 57)

/-- Stable local diagnostic for a verifier backend or runtime failure; the fields are private in the source, so
every value has passed the checks of `VerificationFailure::new`. -/
structure VerificationFailure where
  code : String
  message : String
  retryable : Bool
  code_ok : failureCodeOk code = true
  message_le : message.utf8ByteSize ≤ failureMessageMaxBytes
  deriving DecidableEq

/-- Internal verification lifecycle; unavailable is derived from missing prerequisites. -/
inductive VerificationState
  | queued
  | verifying
  | completed (verdict : VerificationVerdict)
  | failed (failure : VerificationFailure)
  deriving DecidableEq

/-- Trusted origin of locally stored proof bytes. -/
inductive ProofSource
  | rpc
  | peer (peer : PeerId)
  deriving DecidableEq

structure ProofMetadata where
  chainObservedAt : Option Instant
  contentSource : Option ProofSource
  contentStoredAt : Option Instant
  verification : Option VerificationState
  completedAt : Option Instant
  deriving DecidableEq

/-- Immutable cache value replaced atomically for every lifecycle transition. -/
structure ProofRecord where
  metadata : ProofMetadata
  proof : Option Proof
  deriving DecidableEq

/-- A reference-counted value with the identity of its allocation. -/
structure Arc (α : Type) where
  addr : Nat
  value : α
  deriving DecidableEq

def Arc.ptrEq {α : Type} (a b : Arc α) : Bool := a.addr == b.addr

structure VerificationJob where
  verificationId : VerificationId
  proof : Proof
  claim : Arc ProofRecord
  deriving DecidableEq

inductive VerificationOutcome
  | completed (verdict : VerificationVerdict)
  | failed (failure : VerificationFailure)
  deriving DecidableEq

structure CompletedVerification where
  verificationId : VerificationId
  verdict : VerificationVerdict
  deriving DecidableEq

inductive StoreChange
  | inserted
  | updated
  | unchanged
  deriving DecidableEq

/-- Reason a complete record left the process-local cache. -/
inductive ProofEvictionCause
  | expired
  | explicit
  | size
  deriving DecidableEq

/-- Committed storage facts consumed by independent runtime components. -/
inductive ProofStoreEvent
  | verificationObserved (verificationId : VerificationId)
  | proofStored (verificationId : VerificationId) (source : ProofSource)
  | verificationChanged (verificationId : VerificationId) (state : VerificationState)
  | proofEvicted (verificationId : VerificationId) (cause : ProofEvictionCause)
  deriving DecidableEq

/-- Why a verification transition is refused. -/
inductive TransitionFault
  /-- "claimed record has no proof" -/
  | claimedRecordHasNoProof
  /-- "expected Verifying, found ..." -/
  | expectedVerifying (found : Option VerificationState)
  /-- "record does not exist" -/
  | recordDoesNotExist
  /-- "expected retryable Failed, found ..." -/
  | expectedRetryableFailed (found : Option VerificationState)
  deriving DecidableEq

/-- The kinds of `std::io::Error` that the modelled functions tell apart, and those they report. -/
inductive ErrorKind
  | notFound
  | connectionRefused
  | connectionReset
  | brokenPipe
  | invalidInput
  | invalidData
  | unexpectedEof
  | other
  deriving DecidableEq

/-- An error of the operating system, or of the `io` module, with its text. -/
structure IoError where
  kind : ErrorKind
  text : String
  deriving DecidableEq

/-- The errors of the crate that the modelled functions return. -/
inductive Error
  | alreadyRunning (path : String)
  | unsafeSocketPath (path reason : String)
  | controlIo (path : String) (source : IoError)
  | controlTimeout (path : String)
  | controlProtocol (message : String)
  | invalidConfig (message : String)
  | chain (message : String)
  | invalidSubmission (message : String)
  | transactionTooLarge (actualBytes maxBytes : Nat)
  | checkTxRejected (transactionHash codespace : String) (code : Nat) (log : String)
  | transactionHashMismatch
  | chainIdMismatch (expected actual : String)
  | invalidChainContract (message : String)
  | localValidatorRemoved (peer : PeerId)
  | proofStore (message : String)
  | proofTooLarge (verificationId : VerificationId) (actualBytes maxBytes : Nat)
  | verificationIdMismatch (verificationId : VerificationId)
  | proofNotObserved (verificationId : VerificationId)
  | invalidVerificationFailure (message : String)
  | invalidVerificationTransition (verificationId : VerificationId) (reason : TransitionFault)
  | invalidVerificationId (message : String)
  | invalidVerificationRequest (message : String)
  | unsupportedProofType (value : Int)
  | duplicateVerifier (proofType : ProofType)
  | task (message : String)
  | p2pAuthorization (message : String)
  | p2pProtocol (message : String)
  | p2pDriver (message : String)
  | p2pDraining
  | p2pDriverClosed
  deriving DecidableEq

def ProofType.tryFrom : Int → Except Error ProofType
  | 1 => .ok .minaPickles
  | 2 => .ok .noirBarretenberg
  | value => .error (.unsupportedProofType value)

theorem ProofType.tryFrom_toU32 (proofType : ProofType) :
    ProofType.tryFrom (proofType.toU32.toNat : Int) = .ok proofType := by
  cases proofType <;> rfl

def hexEncode (bytes : Bytes) : String :=
  String.ofList (bytes.flatMap fun byte => [Nat.digitChar (byte.toNat / 16), Nat.digitChar (byte.toNat % 16)])

/-- The lowercase hexadecimal form that `Display` prints. -/
def VerificationId.toHex (id : VerificationId) : String := hexEncode id.bytes.1

def VerificationId.tryFrom (value : Bytes) : Except Error VerificationId :=
  if h : value.length = verificationIdLen then .ok ⟨⟨value, h⟩⟩
  else .error (.invalidVerificationId s!"verification ID must be {verificationIdLen} bytes, got {value.length}")

theorem VerificationId.tryFrom_eq_ok_iff {bytes : Bytes} {id : VerificationId} :
    VerificationId.tryFrom bytes = .ok id ↔ bytes = id.bytes.1 := by
  unfold VerificationId.tryFrom
  constructor
  · intro h
    split at h
    · cases h
      rfl
    · cases h
  · rintro rfl
    rw [dif_pos id.bytes.2]
    rfl

theorem VerificationId.rawBytes_injective : Function.Injective fun id : VerificationId => id.bytes.1 := by
  rintro ⟨⟨bytes, hbytes⟩⟩ ⟨⟨bytes', hbytes'⟩⟩ h
  cases h
  rfl

/-! ### Diagnostics -/

/-- The bytes that may stand at a position of a failure code. -/
def failureCodeByteOk (byte : UInt8) (index : Nat) : Bool :=
  failureCodeOk.isLowercase byte || (decide (index > 0) && (failureCodeOk.isDigit byte || byte == 95))

theorem all_zipIdx_of_pos {bytes : List UInt8} {index : Nat} (h : 0 < index) :
    ((bytes.zipIdx index).all fun entry => failureCodeByteOk entry.1 entry.2) =
      bytes.all fun byte => failureCodeOk.isLowercase byte || failureCodeOk.isDigit byte || byte == 95 := by
  induction bytes generalizing index with
  | nil => rfl
  | cons byte bytes ih =>
    rw [List.zipIdx_cons, List.all_cons, List.all_cons, ih (Nat.succ_pos index), failureCodeByteOk]
    simp [h, Bool.or_assoc]

theorem failureCodeOk_iff {code : String} :
    failureCodeOk code = true ↔ ¬(code.isEmpty ∨ code.utf8ByteSize > failureCodeMaxBytes) ∧
      (code.toUTF8.data.toList.zipIdx.all fun entry => failureCodeByteOk entry.1 entry.2) = true := by
  have hsize : code.utf8ByteSize = code.toUTF8.data.toList.length := rfl
  have hempty : code.isEmpty = true ↔ code.toUTF8.data.toList = [] := by
    rw [String.isEmpty, hsize, beq_iff_eq, List.length_eq_zero_iff]
  rw [hempty, hsize, failureCodeOk]
  cases code.toUTF8.data.toList with
  | nil => simp
  | cons first rest =>
    rw [List.zipIdx_cons, List.all_cons, all_zipIdx_of_pos Nat.zero_lt_one]
    simp [failureCodeByteOk, and_assoc]

/-- Validates the chain-facing failure bounds and machine-readable code format. -/
def VerificationFailure.new (code message : String) (retryable : Bool) : Except Error VerificationFailure :=
  if hlength : code.isEmpty ∨ code.utf8ByteSize > failureCodeMaxBytes then
    .error (.invalidVerificationFailure s!"code must contain 1 to {failureCodeMaxBytes} bytes")
  else if hbytes : ¬(code.toUTF8.data.toList.zipIdx.all fun entry => failureCodeByteOk entry.1 entry.2) = true then
    .error (.invalidVerificationFailure
      "code must start with a lowercase ASCII letter and contain only lowercase ASCII letters, digits, or underscores")
  else if hmessage : message.utf8ByteSize > failureMessageMaxBytes then
    .error (.invalidVerificationFailure s!"message must contain at most {failureMessageMaxBytes} bytes")
  else
    .ok ⟨code, message, retryable, failureCodeOk_iff.2 ⟨hlength, not_not.1 hbytes⟩, not_lt.1 hmessage⟩

theorem VerificationFailure.new_self (failure : VerificationFailure) :
    new failure.code failure.message failure.retryable = .ok failure := by
  obtain ⟨hlength, hbytes⟩ := failureCodeOk_iff.1 failure.code_ok
  rw [new, dif_neg hlength, dif_neg (not_not.2 hbytes), dif_neg (not_lt.2 failure.message_le)]

end PulsarVerifier
