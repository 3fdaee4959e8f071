import PulsarVerifier.Lib.Checks
import PulsarVerifier.Store.Record

/-!
# Verification requests on the chain

A verification request is described on the chain by its proof type, three component hashes and the identifier that the
chain has computed from them.  The same checks apply to a description from a query and to one from an event.
-/

namespace PulsarVerifier

namespace Chain

def maxProofsPerBlock : Nat := 256

structure ProofKey where
  submissionHeight : Nat
  indexInBlock : Nat
  deriving DecidableEq

structure ProofRecord where
  proofType : Int
  proofHash : Bytes
  publicInputsHash : Bytes
  verificationKeyHash : Bytes
  verificationId : Bytes
  deriving DecidableEq

structure FinalProofResult where
  proofType : Int
  proofHash : Bytes
  publicInputsHash : Bytes
  verificationKeyHash : Bytes
  verificationId : Bytes
  submissionHeight : Nat
  deriving DecidableEq

inductive QueryState
  | pending (record : ProofRecord)
  | finalResult (record : FinalProofResult)
  deriving DecidableEq

structure QueryProofResponse where
  proofKey : Option ProofKey
  state : Option QueryState
  deriving DecidableEq

/-- A committed verification request that still matters to the sidecar. -/
structure ChainProof where
  verificationId : VerificationId
  submissionHeight : Nat
  indexInBlock : Nat
  deriving DecidableEq

def componentHash (name : String) (bytes : Bytes) : Except Error (FixedBytes 32) :=
  match FixedBytes.tryFrom 32 bytes with
  | some hash => .ok hash
  | none => .error (.invalidChainContract s!"{name} must be {32} bytes, got {bytes.length}")

open Except in
def validatePosition (submissionHeight indexInBlock expectedHeight : Nat) : Except Error Unit := do
  rejectIf (submissionHeight = 0 ∨ submissionHeight ≠ expectedHeight)
    (Error.invalidChainContract s!"invalid proof submission height {submissionHeight}; expected {expectedHeight}")
  rejectIf (indexInBlock ≥ maxProofsPerBlock)
    (Error.invalidChainContract s!"proof index {indexInBlock} exceeds the per-block contract limit")

section

variable [Sha256]

open Except in
/-- Applies the chain's canonical descriptor invariants to query and event data. -/
def validateDescriptor (proofType : Int) (proofHash publicInputsHash verificationKeyHash verificationId : Bytes) :
    Except Error VerificationId := do
  let proofType ← ProofType.tryFrom proofType
  let proofHash ← componentHash "proof_hash" proofHash
  let publicInputsHash ← componentHash "public_inputs_hash" publicInputsHash
  let verificationKeyHash ← componentHash "verification_key_hash" verificationKeyHash
  let expected ← VerificationId.tryFrom verificationId
  rejectIf (VerificationId.fromComponentHashes proofType proofHash publicInputsHash verificationKeyHash ≠ expected)
    (Error.verificationIdMismatch expected)
  pure expected

def validatePendingDescriptor (record : ProofRecord) : Except Error VerificationId :=
  validateDescriptor record.proofType record.proofHash record.publicInputsHash record.verificationKeyHash
    record.verificationId

def validateFinalDescriptor (record : FinalProofResult) : Except Error VerificationId :=
  validateDescriptor record.proofType record.proofHash record.publicInputsHash record.verificationKeyHash
    record.verificationId

omit [Sha256] in
open Except in
/-- Final results do not repeat the index. -/
def validateFinalPosition (record : FinalProofResult) (submissionHeight : Nat) : Except Error Unit :=
  rejectIf (record.submissionHeight ≠ submissionHeight)
    (Error.invalidChainContract "final proof result disagrees with its proof key height")

/-- Validates one query record and returns pending requests only. -/
def validateQueryProof (response : QueryProofResponse) (requestedHeight : Nat) : Except Error (Option ChainProof) :=
  match response.proofKey with
  | none => .error (.invalidChainContract "proof query response is missing proof_key")
  | some key => do
    validatePosition key.submissionHeight key.indexInBlock requestedHeight
    match response.state with
    | some (.pending record) =>
      let id ← validatePendingDescriptor record
      pure (some ⟨id, key.submissionHeight, key.indexInBlock⟩)
    | some (.finalResult record) =>
      validateFinalPosition record key.submissionHeight
      let _ ← validateFinalDescriptor record
      pure none
    | none => .error (.invalidChainContract "proof query response has no state")

end

/-! ### What is accepted -/

theorem componentHash_eq_ok_iff {name : String} {bytes : Bytes} {hash : FixedBytes 32} :
    componentHash name bytes = .ok hash ↔ bytes = hash.1 := by
  rw [← FixedBytes.tryFrom_eq_some_iff]
  unfold componentHash
  cases FixedBytes.tryFrom 32 bytes <;> simp

open Except in
theorem validatePosition_eq_ok_iff {submissionHeight indexInBlock expectedHeight : Nat} :
    validatePosition submissionHeight indexInBlock expectedHeight = .ok () ↔
      submissionHeight = expectedHeight ∧ 1 ≤ expectedHeight ∧ indexInBlock < maxProofsPerBlock := by
  unfold validatePosition
  simp only [bind_eq_ok_iff, rejectIf_eq_ok_iff, exists_const]
  omega

open Except in
theorem validateDescriptor_eq_ok_iff [Sha256] {proofType : Int}
    {proofHash publicInputsHash verificationKeyHash verificationId : Bytes} {id : VerificationId} :
    validateDescriptor proofType proofHash publicInputsHash verificationKeyHash verificationId = .ok id ↔
      ∃ type a b c, ProofType.tryFrom proofType = .ok type ∧ proofHash = a.1 ∧ publicInputsHash = b.1 ∧
        verificationKeyHash = c.1 ∧ verificationId = id.bytes.1 ∧ id = .fromComponentHashes type a b c := by
  unfold validateDescriptor
  simp only [bind_eq_ok_iff, rejectIf_eq_ok_iff, exists_const, componentHash_eq_ok_iff,
    VerificationId.tryFrom_eq_ok_iff, ne_eq, not_not]
  constructor
  · rintro ⟨type, htype, a, ha, b, hb, c, hc, id', hid', hcomputed, hid⟩
    cases hid
    exact ⟨type, a, b, c, htype, ha, hb, hc, hid', hcomputed.symm⟩
  · rintro ⟨type, a, b, c, htype, ha, hb, hc, hid, hcomputed⟩
    exact ⟨type, htype, a, ha, b, hb, c, hc, id, hid, hcomputed.symm, rfl⟩

/-- The descriptor of a record is well formed, and `id` is what it hashes to and what the record states. -/
def ProofRecord.HashesTo [Sha256] (record : ProofRecord) (id : VerificationId) : Prop :=
  ∃ type a b c, ProofType.tryFrom record.proofType = .ok type ∧ record.proofHash = a.1 ∧ record.publicInputsHash = b.1 ∧
    record.verificationKeyHash = c.1 ∧ record.verificationId = id.bytes.1 ∧ id = .fromComponentHashes type a b c

theorem validatePendingDescriptor_eq_ok_iff [Sha256] {record : ProofRecord} {id : VerificationId} :
    validatePendingDescriptor record = .ok id ↔ record.HashesTo id :=
  validateDescriptor_eq_ok_iff

open Except in
theorem validateQueryProof_eq_ok_iff [Sha256] {key : ProofKey} {record : ProofRecord} {height : Nat}
    {result : Option ChainProof} :
    validateQueryProof ⟨some key, some (.pending record)⟩ height = .ok result ↔
      ∃ id, key.submissionHeight = height ∧ 1 ≤ height ∧ key.indexInBlock < maxProofsPerBlock ∧ record.HashesTo id ∧
        result = some ⟨id, key.submissionHeight, key.indexInBlock⟩ := by
  simp only [validateQueryProof, bind_eq_ok_iff, validatePendingDescriptor_eq_ok_iff]
  constructor
  · rintro ⟨_, hposition, id, hid, hresult⟩
    obtain ⟨hheight, hpos, hindex⟩ := validatePosition_eq_ok_iff.1 hposition
    exact ⟨id, hheight, hpos, hindex, hid, (Except.ok.inj hresult).symm⟩
  · rintro ⟨id, hheight, hpos, hindex, hid, rfl⟩
    exact ⟨(), validatePosition_eq_ok_iff.2 ⟨hheight, hpos, hindex⟩, id, hid, rfl⟩

/-- A pending request that passes the checks is returned with its own identifier. -/
theorem validateQueryProof_pending [Sha256] {response : QueryProofResponse} {height : Nat} {record : ProofRecord}
    {id : VerificationId} {result : Option ChainProof} (hstate : response.state = some (.pending record))
    (hid : record.verificationId = id.bytes.1) (h : validateQueryProof response height = .ok result) :
    ∃ proof, result = some proof ∧ proof.verificationId = id := by
  unfold validateQueryProof at h
  split at h
  · cases h
  · rename_i key hkey
    rw [hstate] at h
    simp only [Except.bind_eq_ok_iff, validatePendingDescriptor, validateDescriptor_eq_ok_iff] at h
    obtain ⟨-, -, id', ⟨type, a, b, c, -, -, -, -, hid', -⟩, hresult⟩ := h
    cases hresult
    refine ⟨_, rfl, ?_⟩
    rw [hid] at hid'
    obtain ⟨⟨bytes⟩⟩ := id
    obtain ⟨⟨bytes'⟩⟩ := id'
    cases hid'
    rfl

/-! ### The identifier binds the proof -/

section

variable [Sha256] {inputs : Set Bytes}

/-- Without a collision among the hashed byte strings, the descriptor of an accepted identifier states the proof type
and the hashes of the proof that has this identifier. -/
theorem descriptor_of_verificationId_eq (hinj : Set.InjOn Sha256.digest inputs) {type : ProofType}
    {a b c : FixedBytes 32} (hpreimage : VerificationId.preimage type a b c ∈ inputs) {p : Proof}
    (hp : ∀ bytes ∈ p.hashed, bytes ∈ inputs) (h : p.verificationId = .fromComponentHashes type a b c) :
    p.proofType = type ∧ Sha256.digest p.proof = a ∧ Sha256.digest p.publicInputs = b ∧
      Sha256.digest p.verificationKey = c := by
  have hown : VerificationId.preimage p.proofType (Sha256.digest p.proof) (Sha256.digest p.publicInputs)
      (Sha256.digest p.verificationKey) ∈ inputs := hp _ (by simp [Proof.hashed])
  exact VerificationId.preimage_inj (hinj hown hpreimage (VerificationId.mk.inj h))

/-- The identifier binds the whole proof.  As long as SHA-256 has no collision among the byte strings that are hashed,
two proofs have the same identifier exactly if they agree in their type and in all three byte fields.  An identifier is
accepted with the descriptor of a type and three hashes exactly if it is the one computed from them; so an accepted
identifier belongs to at most one proof, and the descriptor states the type and the hashes of that proof. -/
theorem verificationId_binds (hinj : Set.InjOn Sha256.digest inputs) :
    (∀ p q : Proof, (∀ bytes ∈ p.hashed, bytes ∈ inputs) → (∀ bytes ∈ q.hashed, bytes ∈ inputs) →
      (p.verificationId = q.verificationId ↔ p.proofType = q.proofType ∧ p.proof = q.proof ∧
        p.publicInputs = q.publicInputs ∧ p.verificationKey = q.verificationKey)) ∧
    (∀ (type : ProofType) (a b c : FixedBytes 32) (bytes : Bytes) (id : VerificationId),
      validateDescriptor type.toU32.toNat a.1 b.1 c.1 bytes = .ok id ↔
        bytes = id.bytes.1 ∧ id = .fromComponentHashes type a b c) ∧
    ∀ number proofHash publicInputsHash verificationKeyHash bytes id,
      validateDescriptor number proofHash publicInputsHash verificationKeyHash bytes = .ok id →
        (∀ p q : Proof, (∀ bytes ∈ p.hashed, bytes ∈ inputs) → (∀ bytes ∈ q.hashed, bytes ∈ inputs) →
          p.verificationId = id → q.verificationId = id → p = q) ∧
        ∃ type a b c, ProofType.tryFrom number = .ok type ∧ proofHash = a.1 ∧ publicInputsHash = b.1 ∧
          verificationKeyHash = c.1 ∧ ∀ p : Proof, (∀ bytes ∈ p.hashed, bytes ∈ inputs) →
            VerificationId.preimage type a b c ∈ inputs → p.verificationId = id →
              p.proofType = type ∧ Sha256.digest p.proof = a ∧ Sha256.digest p.publicInputs = b ∧
                Sha256.digest p.verificationKey = c := by
  refine ⟨fun p q hp hq => ⟨fun h => ?_, ?_⟩, fun type a b c bytes id => ?_, ?_⟩
  · obtain rfl := Proof.eq_of_verificationId_eq hinj hp hq h
    exact ⟨rfl, rfl, rfl, rfl⟩
  · rintro ⟨htype, hproof, hinputs, hkey⟩
    unfold Proof.verificationId
    rw [htype, hproof, hinputs, hkey]
  · rw [validateDescriptor_eq_ok_iff]
    constructor
    · rintro ⟨type', a', b', c', htype, ha, hb, hc, hid, hcomputed⟩
      rw [ProofType.tryFrom_toU32] at htype
      cases htype
      cases Subtype.ext ha
      cases Subtype.ext hb
      cases Subtype.ext hc
      exact ⟨hid, hcomputed⟩
    · rintro ⟨hid, hcomputed⟩
      exact ⟨type, a, b, c, ProofType.tryFrom_toU32 type, rfl, rfl, rfl, hid, hcomputed⟩
  · intro number proofHash publicInputsHash verificationKeyHash bytes id haccept
    refine ⟨fun p q hp hq hpid hqid => Proof.eq_of_verificationId_eq hinj hp hq (hpid.trans hqid.symm), ?_⟩
    obtain ⟨type, a, b, c, htype, ha, hb, hc, -, hcomputed⟩ := validateDescriptor_eq_ok_iff.1 haccept
    refine ⟨type, a, b, c, htype, ha, hb, hc, fun p hp hpreimage hpid => ?_⟩
    exact descriptor_of_verificationId_eq hinj hpreimage hp (hpid.trans hcomputed)

end

/-- Two proofs that differ only in their type: their identifiers differ, the descriptor of the first is accepted with
its identifier, and no other proof among these hashes has it. -/
theorem verificationId_binds_type :
    letI := Sha256.standard
    let p : Proof := ⟨.minaPickles, [1, 2], [3], [4]⟩
    let q : Proof := ⟨.noirBarretenberg, [1, 2], [3], [4]⟩
    let inputs : Set Bytes := {bytes | bytes ∈ p.hashed ++ q.hashed}
    p.verificationId ≠ q.verificationId ∧
    validateDescriptor 1 (Sha256.digest p.proof).1 (Sha256.digest p.publicInputs).1
      (Sha256.digest p.verificationKey).1 p.verificationId.bytes.1 = .ok p.verificationId ∧
    ∀ r : Proof, (∀ bytes ∈ r.hashed, bytes ∈ inputs) → r.verificationId = p.verificationId → r = p := by
  let _ := Sha256.standard
  intro p q inputs
  have hlist : ∀ x ∈ p.hashed ++ q.hashed, ∀ y ∈ p.hashed ++ q.hashed, Sha256.digest x = Sha256.digest y → x = y := by
    decide +kernel
  have hp : ∀ bytes ∈ p.hashed, bytes ∈ inputs := fun bytes h => List.mem_append_left _ h
  have hq : ∀ bytes ∈ q.hashed, bytes ∈ inputs := fun bytes h => List.mem_append_right _ h
  obtain ⟨hbinds, haccepts, honly⟩ := verificationId_binds (fun x hx y hy => hlist x hx y hy : Set.InjOn _ inputs)
  have haccept := (haccepts p.proofType _ _ _ p.verificationId.bytes.1 p.verificationId).2 ⟨rfl, rfl⟩
  refine ⟨fun h => ?_, haccept, fun r hr hid => (honly _ _ _ _ _ _ haccept).1 r p hr hp hid rfl⟩
  exact absurd ((hbinds p q hp hq).1 h).1 (by decide)

end Chain

end PulsarVerifier
