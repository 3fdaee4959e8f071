import PulsarVerifier.Lib.Checks
import PulsarVerifier.Lib.Proto3
import PulsarVerifier.Store.Record

/-!
# The validation of a submission

A submission pairs a proof with the signed transaction that registers it on the chain.  `validate_submission` decodes
the transaction and checks that its one message carries the hashes of the proof.  How the bytes are decoded is a
parameter (`TransactionWire`); `TransactionWire.standard` decodes them as protobuf messages.
-/

namespace PulsarVerifier

/-! ### Transactions -/

structure TxRaw where
  bodyBytes : Bytes
  authInfoBytes : Bytes
  signatures : List Bytes
  deriving DecidableEq

structure AnyMessage where
  typeUrl : String
  value : Bytes
  deriving DecidableEq

structure TxBody where
  messages : List AnyMessage
  deriving DecidableEq

/-- Only the number of the signer infos matters; each is kept as its bytes. -/
structure AuthInfo where
  signerInfos : List Bytes
  deriving DecidableEq

structure MsgSubmitProof where
  signer : String
  proofHash : Bytes
  proofType : Int
  publicInputsHash : Bytes
  verificationKeyHash : Bytes
  deriving DecidableEq

/-- The decoders of the `prost` crate; an error is its text. -/
class TransactionWire where
  decodeTxRaw : Bytes → Except String TxRaw
  decodeTxBody : Bytes → Except String TxBody
  decodeAuthInfo : Bytes → Except String AuthInfo
  decodeMsgSubmitProof : Bytes → Except String MsgSubmitProof

/-! ### Validation -/

def msgSubmitProofTypeUrl : String := "/pulsarchain.verification.v1.MsgSubmitProof"

def componentHashLen : Nat := 32

/-- Consumer-owned proof material paired with the exact signed transaction bytes. -/
structure ProofSubmission where
  proof : Proof
  txRaw : Bytes
  deriving DecidableEq

/-- A successful `CheckTx` receipt. -/
structure SubmissionReceipt where
  verificationId : VerificationId
  transactionHash : FixedBytes 32
  deriving DecidableEq

structure ValidatedSubmission where
  verificationId : VerificationId
  transactionHash : FixedBytes 32
  proof : Proof
  txRaw : Bytes
  deriving DecidableEq

/-- `char::is_whitespace`: the characters with the property `White_Space`. -/
def isWhitespace (c : Char) : Bool :=
  let code := c.toNat
  decide (9 ≤ code ∧ code ≤ 13) || decide (0x2000 ≤ code ∧ code ≤ 0x200a) ||
    decide (code ∈ [0x20, 0x85, 0xa0, 0x1680, 0x2028, 0x2029, 0x202f, 0x205f, 0x3000])

def isBlank (text : String) : Bool := text.toList.all isWhitespace

namespace Submission

def invalid (message : String) : Error := .invalidSubmission message

def componentHash (name : String) (bytes : Bytes) : Except Error (FixedBytes 32) :=
  match FixedBytes.tryFrom componentHashLen bytes with
  | some hash => .ok hash
  | none => .error (invalid s!"{name} must be {componentHashLen} bytes, got {bytes.length}")

end Submission

/-- Decodes with `decode`; a failure is an invalid submission. -/
def decodeAs {α : Type} (name : String) (decode : Bytes → Except String α) (bytes : Bytes) : Except Error α :=
  match decode bytes with
  | .ok value => .ok value
  | .error error => .error (Submission.invalid s!"invalid {name}: {error}")

open Except Submission in
/-- The checks on the envelope of the transaction, up to its one message. -/
def validateTransaction [TransactionWire] (txRaw : Bytes) : Except Error MsgSubmitProof := do
  let tx ← decodeAs "TxRaw" TransactionWire.decodeTxRaw txRaw
  rejectIf (tx.bodyBytes = []) (invalid "TxRaw body_bytes must not be empty")
  rejectIf (tx.authInfoBytes = []) (invalid "TxRaw auth_info_bytes must not be empty")
  let body ← decodeAs "TxBody" TransactionWire.decodeTxBody tx.bodyBytes
  let auth ← decodeAs "AuthInfo" TransactionWire.decodeAuthInfo tx.authInfoBytes
  rejectIf (auth.signerInfos = []) (invalid "AuthInfo must contain at least one signer_info")
  rejectIf (tx.signatures.length ≠ auth.signerInfos.length)
    (invalid s!"signature count {tx.signatures.length} does not match signer_info count {auth.signerInfos.length}")
  rejectIf (tx.signatures.any List.isEmpty = true) (invalid "transaction signatures must not be empty")
  match body.messages with
  | [message] =>
    rejectIf (message.typeUrl ≠ msgSubmitProofTypeUrl)
      (invalid s!"unexpected transaction message type {message.typeUrl}")
    let message ← decodeAs "MsgSubmitProof" TransactionWire.decodeMsgSubmitProof message.value
    rejectIf (isBlank message.signer = true) (invalid "MsgSubmitProof signer must not be empty")
    pure message
  | messages =>
    .error (invalid s!"TxBody must contain exactly one MsgSubmitProof, got {messages.length} messages")

open Except Submission in
/-- The checks that bind the message to the proof; the result is the identifier of the message. -/
def bindMessage [Sha256] (message : MsgSubmitProof) (proof : Proof) : Except Error VerificationId := do
  let messageType ← ProofType.tryFrom message.proofType
  rejectIf (messageType ≠ proof.proofType) (invalid "proof type does not match MsgSubmitProof")
  let proofHash ← componentHash "proof_hash" message.proofHash
  let publicInputsHash ← componentHash "public_inputs_hash" message.publicInputsHash
  let verificationKeyHash ← componentHash "verification_key_hash" message.verificationKeyHash
  rejectIf (proofHash ≠ Sha256.digest proof.proof) (invalid "proof bytes do not match proof_hash")
  rejectIf (publicInputsHash ≠ Sha256.digest proof.publicInputs)
    (invalid "public input bytes do not match public_inputs_hash")
  rejectIf (verificationKeyHash ≠ Sha256.digest proof.verificationKey)
    (invalid "verification key bytes do not match verification_key_hash")
  pure (.fromComponentHashes messageType proofHash publicInputsHash verificationKeyHash)

open Except in
def validateSubmission [Sha256] [TransactionWire] (submission : ProofSubmission)
    (maxProofBytes maxTransactionBytes : Nat) : Except Error ValidatedSubmission := do
  let verificationId := submission.proof.verificationId
  let proofBytes := submission.proof.encodedLen
  rejectIf (proofBytes > maxProofBytes) (Error.proofTooLarge verificationId proofBytes maxProofBytes)
  rejectIf (submission.txRaw.length > maxTransactionBytes)
    (Error.transactionTooLarge submission.txRaw.length maxTransactionBytes)
  let message ← validateTransaction submission.txRaw
  let descriptorId ← bindMessage message submission.proof
  rejectIf (descriptorId ≠ verificationId) (Error.verificationIdMismatch descriptorId)
  pure ⟨verificationId, Sha256.digest submission.txRaw, submission.proof, submission.txRaw⟩

/-! ### What is accepted -/

namespace Submission

theorem componentHash_eq_ok_iff {name : String} {bytes : Bytes} {hash : FixedBytes 32} :
    componentHash name bytes = .ok hash ↔ bytes = hash.1 := by
  rw [← FixedBytes.tryFrom_eq_some_iff]
  unfold componentHash componentHashLen
  cases FixedBytes.tryFrom 32 bytes <;> simp

end Submission

section

variable [Sha256]

/-- The message names the type of the proof and carries the digests of its three parts. -/
structure MsgSubmitProof.Binds (message : MsgSubmitProof) (proof : Proof) : Prop where
  proofType : ProofType.tryFrom message.proofType = .ok proof.proofType
  proofHash : message.proofHash = (Sha256.digest proof.proof).1
  publicInputsHash : message.publicInputsHash = (Sha256.digest proof.publicInputs).1
  verificationKeyHash : message.verificationKeyHash = (Sha256.digest proof.verificationKey).1

open Except Submission in
/-- A message is accepted exactly with a proof that it binds, and its identifier is that of the proof. -/
theorem bindMessage_eq_ok_iff {message : MsgSubmitProof} {proof : Proof} {id : VerificationId} :
    bindMessage message proof = .ok id ↔ message.Binds proof ∧ id = proof.verificationId := by
  unfold bindMessage
  simp only [bind_eq_ok_iff, rejectIf_eq_ok_iff, exists_const, componentHash_eq_ok_iff, ne_eq, not_not]
  constructor
  · rintro ⟨_, htype, rfl, a, ha, b, hb, c, hc, rfl, rfl, rfl, hid⟩
    cases hid
    exact ⟨⟨htype, ha, hb, hc⟩, rfl⟩
  · rintro ⟨⟨htype, ha, hb, hc⟩, rfl⟩
    exact ⟨_, htype, rfl, _, ha, _, hb, _, hc, rfl, rfl, rfl, rfl⟩

theorem MsgSubmitProof.Binds.verificationId_eq {message : MsgSubmitProof} {proof proof' : Proof}
    (h : message.Binds proof) (h' : message.Binds proof') : proof.verificationId = proof'.verificationId := by
  have htype : proof.proofType = proof'.proofType := Except.ok.inj (h.proofType.symm.trans h'.proofType)
  have hproof : Sha256.digest proof.proof = Sha256.digest proof'.proof :=
    Subtype.ext (h.proofHash.symm.trans h'.proofHash)
  have hinputs : Sha256.digest proof.publicInputs = Sha256.digest proof'.publicInputs :=
    Subtype.ext (h.publicInputsHash.symm.trans h'.publicInputsHash)
  have hkey : Sha256.digest proof.verificationKey = Sha256.digest proof'.verificationKey :=
    Subtype.ext (h.verificationKeyHash.symm.trans h'.verificationKeyHash)
  unfold Proof.verificationId
  rw [htype, hproof, hinputs, hkey]

open Except in
/-- The accepted submissions: both parts fit their limits, and the transaction has one message, which binds the
proof. -/
theorem validateSubmission_eq_ok_iff [TransactionWire] {submission : ProofSubmission}
    {maxProofBytes maxTransactionBytes : Nat} {v : ValidatedSubmission} :
    validateSubmission submission maxProofBytes maxTransactionBytes = .ok v ↔
      submission.proof.encodedLen ≤ maxProofBytes ∧ submission.txRaw.length ≤ maxTransactionBytes ∧
      (∃ message, validateTransaction submission.txRaw = .ok message ∧ message.Binds submission.proof) ∧
      v = ⟨submission.proof.verificationId, Sha256.digest submission.txRaw, submission.proof, submission.txRaw⟩ := by
  unfold validateSubmission
  simp only [bind_eq_ok_iff, rejectIf_eq_ok_iff, exists_const, bindMessage_eq_ok_iff, ne_eq, not_not, gt_iff_lt, not_lt]
  constructor
  · rintro ⟨hproof, htx, message, hmessage, _, ⟨hbinds, rfl⟩, -, hv⟩
    cases hv
    exact ⟨hproof, htx, ⟨message, hmessage, hbinds⟩, rfl⟩
  · rintro ⟨hproof, htx, ⟨message, hmessage, hbinds⟩, rfl⟩
    exact ⟨hproof, htx, message, hmessage, _, ⟨hbinds, rfl⟩, rfl, rfl⟩

end

/-! ### What is refused -/

/-- The errors of the checks behind the limits: neither a limit nor the identifier is their subject. -/
def Error.ofMessage : Error → Prop
  | .invalidSubmission _ | .unsupportedProofType _ => True
  | _ => False

open Except Submission in
theorem decodeAs_onlyFails {α : Type} (name : String) (decode : Bytes → Except String α) (bytes : Bytes) :
    OnlyFails Error.ofMessage (decodeAs name decode bytes) := by
  unfold decodeAs
  split
  · exact .ok
  · exact .error trivial

open Except Submission in
theorem validateTransaction_onlyFails [TransactionWire] (txRaw : Bytes) :
    OnlyFails Error.ofMessage (validateTransaction txRaw) := by
  unfold validateTransaction
  refine .bind (decodeAs_onlyFails _ _ _) fun tx _ => ?_
  refine .bind (.rejectIf fun _ => trivial) fun _ _ => .bind (.rejectIf fun _ => trivial) fun _ _ => ?_
  refine .bind (decodeAs_onlyFails _ _ _) fun body _ => .bind (decodeAs_onlyFails _ _ _) fun auth _ => ?_
  refine .bind (.rejectIf fun _ => trivial) fun _ _ => .bind (.rejectIf fun _ => trivial) fun _ _ => ?_
  refine .bind (.rejectIf fun _ => trivial) fun _ _ => ?_
  split
  · refine .bind (.rejectIf fun _ => trivial) fun _ _ => .bind (decodeAs_onlyFails _ _ _) fun message _ => ?_
    exact .bind (.rejectIf fun _ => trivial) fun _ _ => .ok
  · exact .error trivial

open Except Submission in
theorem bindMessage_onlyFails [Sha256] (message : MsgSubmitProof) (proof : Proof) :
    OnlyFails Error.ofMessage (bindMessage message proof) := by
  have htype : OnlyFails Error.ofMessage (ProofType.tryFrom message.proofType) := by
    unfold ProofType.tryFrom
    split
    · exact .ok
    · exact .ok
    · exact .error trivial
  have hhash : ∀ name bytes, OnlyFails Error.ofMessage (componentHash name bytes) := by
    intro name bytes
    unfold componentHash
    split
    · exact .ok
    · exact .error trivial
  unfold bindMessage
  refine .bind htype fun messageType _ => .bind (.rejectIf fun _ => trivial) fun _ _ => ?_
  refine .bind (hhash _ _) fun proofHash _ => .bind (hhash _ _) fun publicInputsHash _ => ?_
  refine .bind (hhash _ _) fun verificationKeyHash _ => .bind (.rejectIf fun _ => trivial) fun _ _ => ?_
  exact .bind (.rejectIf fun _ => trivial) fun _ _ => .bind (.rejectIf fun _ => trivial) fun _ _ => .ok

open Except in
/-- A submission is refused for one of its two limits, or for its message; never in the end for its identifier. -/
theorem validateSubmission_onlyFails [Sha256] [TransactionWire] (submission : ProofSubmission)
    (maxProofBytes maxTransactionBytes : Nat) :
    OnlyFails (fun error =>
      (maxProofBytes < submission.proof.encodedLen ∧
        error = .proofTooLarge submission.proof.verificationId submission.proof.encodedLen maxProofBytes) ∨
      (submission.proof.encodedLen ≤ maxProofBytes ∧
        (error = .transactionTooLarge submission.txRaw.length maxTransactionBytes ∨ error.ofMessage)))
      (validateSubmission submission maxProofBytes maxTransactionBytes) := by
  unfold validateSubmission
  refine .bind (.rejectIf fun hlarge => .inl ⟨hlarge, rfl⟩) fun _ hsize => ?_
  have hle : submission.proof.encodedLen ≤ maxProofBytes := Nat.le_of_not_lt (rejectIf_eq_ok_iff.1 hsize)
  refine .bind (.rejectIf fun _ => .inr ⟨hle, .inl rfl⟩) fun _ _ => ?_
  refine .bind (fun error h => .inr ⟨hle, .inr (validateTransaction_onlyFails _ error h)⟩) fun message _ => ?_
  refine .bind (fun error h => .inr ⟨hle, .inr (bindMessage_onlyFails _ _ error h)⟩) fun id hid => ?_
  -- the identifier of the message is always the one of the proof
  have hsame : id = submission.proof.verificationId := (bindMessage_eq_ok_iff.1 hid).2
  exact .bind (.rejectIf fun hne => absurd hsame hne) fun _ _ => .ok

/-! ### The byte format -/

section

open Proto3

def TxRaw.decode (bytes : Bytes) : Except String TxRaw :=
  (fields ⟨[], [1, 2, 3]⟩ bytes).map fun fields => ⟨payload 1 fields, payload 2 fields, payloads 3 fields⟩

def AnyMessage.decode (bytes : Bytes) : Except String AnyMessage := do
  let fields ← fields ⟨[], [1, 2]⟩ bytes
  let typeUrl ← string 1 fields
  pure ⟨typeUrl, payload 2 fields⟩

/-- The memo, the timeout and the options are only checked. -/
def TxBody.decode (bytes : Bytes) : Except String TxBody := do
  let fields ← fields ⟨[3, 4], [1, 2, 1023, 2047]⟩ bytes
  let messages ← (payloads 1 fields).mapM AnyMessage.decode
  let _ ← string 2 fields
  let _ ← (payloads 1023 fields ++ payloads 2047 fields).mapM AnyMessage.decode
  pure ⟨messages⟩

/-- The signer infos, the fee and the tip are not decoded further. -/
def AuthInfo.decode (bytes : Bytes) : Except String AuthInfo :=
  (fields ⟨[], [1, 2, 3]⟩ bytes).map fun fields => ⟨payloads 1 fields⟩

/-- An enumeration value is the lower half of a 64-bit number. -/
def MsgSubmitProof.decode (bytes : Bytes) : Except String MsgSubmitProof := do
  let fields ← fields ⟨[3], [1, 2, 4, 5]⟩ bytes
  let signer ← string 1 fields
  pure ⟨signer, payload 2 fields, Int.bmod (number 3 fields) (2 ^ 32), payload 4 fields, payload 5 fields⟩

@[reducible] def TransactionWire.standard : TransactionWire :=
  ⟨TxRaw.decode, TxBody.decode, AuthInfo.decode, MsgSubmitProof.decode⟩

end

end PulsarVerifier
