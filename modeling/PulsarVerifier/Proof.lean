import Mathlib.Algebra.Group.Int.Defs
import Mathlib.Data.List.Basic
import Mathlib.Data.Nat.Log
import Mathlib.Data.Set.Function
import PulsarVerifier.Lib.Sha2

/-!
# Proofs and verification identifiers

The complete input of a verifier (`Proof`) and the identifier that binds it: the SHA-256 digest of a domain string,
the proof type and the digests of the three byte fields.  The digest function is a parameter (`Sha256`): the results
hold for any function with 32-byte values, and `Sha256.standard` is the one the code uses.
-/

namespace PulsarVerifier

abbrev Bytes := List UInt8

/-- The byte arrays `[u8; n]`. -/
def FixedBytes (n : Nat) : Type := {bytes : Bytes // bytes.length = n}
  deriving DecidableEq

def FixedBytes.tryFrom (n : Nat) (bytes : Bytes) : Option (FixedBytes n) :=
  if h : bytes.length = n then some ⟨bytes, h⟩ else none

theorem FixedBytes.tryFrom_eq_some_iff {n : Nat} {bytes : Bytes} {hash : FixedBytes n} :
    FixedBytes.tryFrom n bytes = some hash ↔ bytes = hash.1 := by
  unfold FixedBytes.tryFrom
  constructor
  · intro h
    split at h
    · cases h
      rfl
    · cases h
  · rintro rfl
    rw [dif_pos hash.2]
    rfl

/-- A point in time, in nanoseconds. -/
abbrev Instant := Nat

/-- A length of time, in nanoseconds. -/
abbrev Duration := Nat

def durationMax : Duration := 2 ^ 64 * 10 ^ 9 - 1

/-- The digest function of the `sha2` crate. -/
class Sha256 where
  digest : Bytes → FixedBytes 32

@[reducible] def Sha256.standard : Sha256 := ⟨fun bytes => ⟨Sha2.digest bytes, Sha2.length_digest bytes⟩⟩

def verificationIdLen : Nat := 32

/-- Consensus-compatible identifier binding a proof, statement, key, and verifier family. -/
structure VerificationId where
  bytes : FixedBytes verificationIdLen
  deriving DecidableEq

/-- A libp2p peer identifier, given by its canonical byte form. -/
structure PeerId where
  toBytes : Bytes
  deriving DecidableEq

/-- Proof systems recognized by the current chain contract. -/
inductive ProofType
  | minaPickles
  | noirBarretenberg
  deriving DecidableEq

/-- Complete immutable input required by a cryptographic verifier. -/
structure Proof where
  proofType : ProofType
  proof : Bytes
  publicInputs : Bytes
  verificationKey : Bytes
  deriving DecidableEq

def ProofType.toU32 : ProofType → UInt32
  | .minaPickles => 1
  | .noirBarretenberg => 2

def toBeBytes (value : UInt32) : Bytes :=
  [(value >>> 24).toUInt8, (value >>> 16).toUInt8, (value >>> 8).toUInt8, value.toUInt8]

/-- `b"pulsar/verification/v1\0"`. -/
def verificationIdDomain : Bytes := "pulsar/verification/v1".toUTF8.data.toList ++ [0]

section

variable [Sha256]

def VerificationId.fromComponentHashes (proofType : ProofType)
    (proofHash publicInputsHash verificationKeyHash : FixedBytes 32) : VerificationId :=
  ⟨Sha256.digest (verificationIdDomain ++ toBeBytes proofType.toU32 ++ proofHash.1 ++ publicInputsHash.1 ++
    verificationKeyHash.1)⟩

def Proof.verificationId (proof : Proof) : VerificationId :=
  .fromComponentHashes proof.proofType (Sha256.digest proof.proof) (Sha256.digest proof.publicInputs)
    (Sha256.digest proof.verificationKey)

/-! ### Collisions -/

/-- The bytes whose digest is the identifier. -/
def VerificationId.preimage (proofType : ProofType) (proofHash publicInputsHash verificationKeyHash : FixedBytes 32) :
    Bytes :=
  verificationIdDomain ++ toBeBytes proofType.toU32 ++ proofHash.1 ++ publicInputsHash.1 ++ verificationKeyHash.1

/-- The byte strings that are hashed to get the identifier of a proof. -/
def Proof.hashed (proof : Proof) : List Bytes :=
  [proof.proof, proof.publicInputs, proof.verificationKey,
    VerificationId.preimage proof.proofType (Sha256.digest proof.proof) (Sha256.digest proof.publicInputs)
      (Sha256.digest proof.verificationKey)]

omit [Sha256] in
/-- All components but the last have a fixed length, so they can be read back. -/
theorem VerificationId.preimage_inj {proofType proofType' : ProofType} {a a' b b' c c' : FixedBytes 32}
    (h : preimage proofType a b c = preimage proofType' a' b' c') :
    proofType = proofType' ∧ a = a' ∧ b = b' ∧ c = c' := by
  unfold preimage at h
  obtain ⟨h, hc⟩ := List.append_inj' h (c.2.trans c'.2.symm)
  obtain ⟨h, hb⟩ := List.append_inj' h (b.2.trans b'.2.symm)
  obtain ⟨h, ha⟩ := List.append_inj' h (a.2.trans a'.2.symm)
  have htype : toBeBytes proofType.toU32 = toBeBytes proofType'.toU32 := List.append_cancel_left h
  refine ⟨?_, Subtype.ext ha, Subtype.ext hb, Subtype.ext hc⟩
  revert htype
  cases proofType <;> cases proofType' <;> decide

/-- Without a collision among the hashed byte strings, an identifier belongs to one proof. -/
theorem Proof.eq_of_verificationId_eq {inputs : Set Bytes} (hinj : Set.InjOn Sha256.digest inputs) {p q : Proof}
    (hp : ∀ bytes ∈ p.hashed, bytes ∈ inputs) (hq : ∀ bytes ∈ q.hashed, bytes ∈ inputs)
    (h : p.verificationId = q.verificationId) : p = q := by
  have hbytes : ∀ {x y}, x ∈ p.hashed → y ∈ q.hashed → Sha256.digest x = Sha256.digest y → x = y :=
    fun hx hy => hinj (hp _ hx) (hq _ hy)
  obtain ⟨htype, hproof, hinputs, hkey⟩ :=
    VerificationId.preimage_inj (hbytes (by simp [Proof.hashed]) (by simp [Proof.hashed]) (VerificationId.mk.inj h))
  obtain ⟨proofType, proof, publicInputs, verificationKey⟩ := p
  obtain ⟨proofType', proof', publicInputs', verificationKey'⟩ := q
  obtain rfl : proofType = proofType' := htype
  obtain rfl : proof = proof' := hbytes (by simp [Proof.hashed]) (by simp [Proof.hashed]) hproof
  obtain rfl : publicInputs = publicInputs' := hbytes (by simp [Proof.hashed]) (by simp [Proof.hashed]) hinputs
  obtain rfl : verificationKey = verificationKey' := hbytes (by simp [Proof.hashed]) (by simp [Proof.hashed]) hkey
  rfl

end

-- The vector shared with the chain.
example :
    letI := Sha256.standard
    (VerificationId.fromComponentHashes .minaPickles ⟨List.replicate 32 1, rfl⟩ ⟨List.replicate 32 2, rfl⟩
      ⟨List.replicate 32 3, rfl⟩).bytes.1 =
      [0xd2, 0x54, 0x81, 0x49, 0xa7, 0xd6, 0x62, 0x65, 0x7a, 0x2a, 0x4b, 0x4a, 0x15, 0xb1, 0x8f, 0x6f,
       0x49, 0xfd, 0x85, 0xc1, 0x14, 0xf6, 0x95, 0x8c, 0x4d, 0xb4, 0x23, 0xed, 0xb4, 0xbd, 0x3e, 0x35] := by
  decide +kernel

/-- The length of the protobuf varint of a `u64`, by the formula of the `prost` crate. -/
def encodedLenVarint (value : Nat) : Nat := (Nat.log2 (value ||| 1) * 9 + 73) / 64

def encodedBytesLen (bytes : Bytes) : Nat :=
  if bytes.isEmpty then 0 else 1 + encodedLenVarint bytes.length + bytes.length

/-- The protobuf size used by every ingress boundary; the proof type takes a tag and a one-byte value. -/
def Proof.encodedLen (proof : Proof) : Nat :=
  2 + encodedBytesLen proof.proof + encodedBytesLen proof.publicInputs + encodedBytesLen proof.verificationKey

def usizeMax : Nat := 2 ^ 64 - 1

def checkedAddUsize (a b : Nat) : Option Nat := if a + b ≤ usizeMax then some (a + b) else none

theorem checkedAddUsize_of_le {a b : Nat} (h : a + b ≤ usizeMax) : checkedAddUsize a b = some (a + b) := if_pos h

def Proof.payloadLen (proof : Proof) : Option Nat := do
  let length ← checkedAddUsize proof.proof.length proof.publicInputs.length
  checkedAddUsize length proof.verificationKey.length

/-! ### Lengths -/

theorem log2_or_one (n : Nat) : Nat.log2 (n ||| 1) = Nat.log 2 n := by
  rw [Nat.log2_eq_log_two]
  by_cases hn : n < 2
  · obtain rfl | rfl : n = 0 ∨ n = 1 := by omega
    · rfl
    · rfl
  · have hhalf : (n ||| 1) / 2 = n / 2 := by
      rw [Nat.or_div_two]
      exact Nat.or_zero _
    have hle : n ≤ n ||| 1 := Nat.left_le_or
    have hlog := congrArg (Nat.log 2) hhalf
    rw [Nat.log_div_base, Nat.log_div_base] at hlog
    have hpos : 0 < Nat.log 2 n := Nat.log_pos (by omega) (by omega)
    have hpos' : 0 < Nat.log 2 (n ||| 1) := Nat.log_pos (by omega) (by omega)
    omega

theorem encodedLenVarint_mono {m n : Nat} (h : m ≤ n) : encodedLenVarint m ≤ encodedLenVarint n := by
  unfold encodedLenVarint
  rw [log2_or_one, log2_or_one]
  have hlog : Nat.log 2 m ≤ Nat.log 2 n := Nat.log_mono_right h
  omega

/-- Two varints and a key are longer than the varint of the sum. -/
theorem encodedLenVarint_add_le (m n : Nat) :
    encodedLenVarint (m + n) ≤ encodedLenVarint m + encodedLenVarint n + 1 := by
  have hdouble : ∀ {m n : Nat}, m ≤ n → encodedLenVarint (m + n) ≤ encodedLenVarint n + 1 := by
    intro m n hle
    have hlog : Nat.log 2 (m + n) ≤ Nat.log 2 n + 1 := by
      by_cases hn : n = 0
      · obtain rfl : m = 0 := by omega
        rw [hn]
        exact Nat.zero_le _
      · rw [← Nat.log_mul_base Nat.one_lt_two hn]
        exact Nat.log_mono_right (by omega)
    unfold encodedLenVarint
    rw [log2_or_one, log2_or_one]
    omega
  rcases Nat.le_total m n with hle | hle
  · have := hdouble hle
    omega
  · have := hdouble hle
    rw [Nat.add_comm m n]
    omega

theorem encodedBytesLen_of_ne_nil {bytes : Bytes} (h : bytes ≠ []) :
    encodedBytesLen bytes = 1 + encodedLenVarint bytes.length + bytes.length :=
  if_neg (mt List.isEmpty_iff.1 h)

/-- Two fields are longer than one with the bytes of both. -/
theorem encodedBytesLen_append_le (a b : Bytes) :
    encodedBytesLen (a ++ b) ≤ encodedBytesLen a + encodedBytesLen b := by
  by_cases ha : a = []
  · rw [ha]
    exact Nat.le_add_left _ _
  by_cases hb : b = []
  · rw [hb, List.append_nil]
    exact Nat.le_add_right _ _
  have hvarint := encodedLenVarint_add_le a.length b.length
  rw [encodedBytesLen_of_ne_nil ha, encodedBytesLen_of_ne_nil hb, encodedBytesLen_of_ne_nil (by simp [ha]),
    List.length_append]
  omega

theorem length_le_encodedBytesLen (bytes : Bytes) : bytes.length ≤ encodedBytesLen bytes := by
  unfold encodedBytesLen
  split
  · rename_i hempty
    rw [List.isEmpty_iff.1 hempty]
    exact Nat.le_refl 0
  · omega

theorem Proof.payloadLen_of_encodedLen {proof : Proof} (h : proof.encodedLen ≤ usizeMax) :
    proof.payloadLen = some (proof.proof.length + proof.publicInputs.length + proof.verificationKey.length) ∧
      proof.proof.length + proof.publicInputs.length + proof.verificationKey.length ≤ proof.encodedLen := by
  have hproof := length_le_encodedBytesLen proof.proof
  have hinputs := length_le_encodedBytesLen proof.publicInputs
  have hkey := length_le_encodedBytesLen proof.verificationKey
  unfold encodedLen at h ⊢
  refine ⟨?_, by omega⟩
  rw [payloadLen, checkedAddUsize_of_le (by omega)]
  exact checkedAddUsize_of_le (by omega)

end PulsarVerifier
