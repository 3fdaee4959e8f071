import Mathlib.Algebra.GroupWithZero.Nat
import Mathlib.Data.Nat.Find
import PulsarVerifier.Config
import PulsarVerifier.Store.Invariant

/-!
# The weight of a record

Moka charges every record with the bytes of its proof, a fixed amount for the metadata and the text of a failure.  The
weigher expects that all of this fits its types; it may, since the proof was measured before it was stored, and the
limits of `ProofStore::new` leave room for the rest.  `encodedLen` is a natural number here, and is what `encoded_len`
returns as long as the lengths of a proof do not overflow `usize`.
-/

namespace PulsarVerifier

/-- `Option::expect`; the error is the message of the panic. -/
def expect {α : Type} (value : Option α) (message : String) : Except String α :=
  match value with
  | some a => .ok a
  | none => .error message

/-- The bytes of the failure that a record reports. -/
def ProofRecord.failureLen (record : ProofRecord) : Nat :=
  match record.metadata.verification with
  | some (.failed failure) => failure.code.utf8ByteSize + failure.message.utf8ByteSize
  | _ => 0

/-- The bytes of the proof that a record holds. -/
def ProofRecord.payload (record : ProofRecord) : Except String Nat :=
  match record.proof with
  | none => .ok 0
  | some proof => expect proof.payloadLen "proof size was validated"

def proofWeight (record : ProofRecord) : Except String Nat := do
  let payload ← record.payload
  let weight ← expect (toU32? payload) "validated proof size fits Moka weight"
  expect
    ((checkedAddU32 weight metadataWeightBytes).bind fun weight =>
      (toU32? record.failureLen).bind (checkedAddU32 weight))
    "validated proof weight fits Moka weight"

/-- The weight of all records, which Moka keeps within `max_capacity` by evictions. -/
def ProofStore.weightedSize (store : ProofStore) : Nat :=
  (store.records.keys.map fun id => ((store.get id).bind fun e => (proofWeight e.value).toOption).getD 0).sum

/-! ### What the limits leave room for -/

theorem expect_of_some {α : Type} {value : Option α} {a : α} {message : String} (h : value = some a) :
    expect value message = .ok a := by
  rw [h]
  rfl

theorem toU32?_of_lt {value : Nat} (h : value < 2 ^ 32) : toU32? value = some value := if_pos h

theorem toU32?_eq_some_iff {value result : Nat} : toU32? value = some result ↔ value < 2 ^ 32 ∧ value = result := by
  unfold toU32?
  split
  · rename_i hlt
    rw [Option.some.injEq, and_iff_right hlt]
  · rename_i hge
    exact ⟨nofun, fun h => absurd h.1 hge⟩

theorem VerificationFailure.code_le (failure : VerificationFailure) :
    failure.code.utf8ByteSize ≤ failureCodeMaxBytes :=
  not_lt.1 fun h => (failureCodeOk_iff.1 failure.code_ok).1 (.inr h)

theorem ProofRecord.failureLen_le (record : ProofRecord) :
    record.failureLen ≤ failureCodeMaxBytes + failureMessageMaxBytes := by
  unfold failureLen
  split
  · rename_i failure _
    exact Nat.add_le_add failure.code_le failure.message_le
  · exact Nat.zero_le _

theorem proofWeight_eq {record : ProofRecord} {payload : Nat} (hpayload : record.payload = .ok payload)
    (hroom : payload + metadataWeightBytes + (failureCodeMaxBytes + failureMessageMaxBytes) < 2 ^ 32) :
    proofWeight record = .ok (payload + metadataWeightBytes + record.failureLen) := by
  have hfailure := record.failureLen_le
  rw [proofWeight, Except.bind_eq_ok_iff]
  refine ⟨payload, hpayload, ?_⟩
  rw [Except.bind_eq_ok_iff]
  refine ⟨payload, expect_of_some (toU32?_of_lt (by omega)), expect_of_some ?_⟩
  -- none of the three additions overflows
  have hfirst : checkedAddU32 payload metadataWeightBytes = some (payload + metadataWeightBytes) :=
    toU32?_of_lt (by omega)
  rw [hfirst, Option.bind_some, toU32?_of_lt (by omega), Option.bind_some]
  exact toU32?_of_lt (by omega)

theorem ProofRecord.payload_of_some {record : ProofRecord} {proof : Proof} (h : record.proof = some proof)
    (hlen : proof.encodedLen ≤ usizeMax) :
    record.payload = .ok (proof.proof.length + proof.publicInputs.length + proof.verificationKey.length) := by
  unfold payload
  rw [h]
  exact expect_of_some (proof.payloadLen_of_encodedLen hlen).1

theorem proofWeight_of_le {record : ProofRecord} {maximum : Nat}
    (hproof : ∀ proof, record.proof = some proof → proof.encodedLen ≤ maximum)
    (hmaximum : maximum + metadataWeightBytes + (failureCodeMaxBytes + failureMessageMaxBytes) < 2 ^ 32) :
    ∃ weight, proofWeight record = .ok weight ∧
      weight ≤ maximum + metadataWeightBytes + (failureCodeMaxBytes + failureMessageMaxBytes) := by
  have hfailure := record.failureLen_le
  -- the payload is no longer than the encoded proof
  obtain ⟨payload, hpayload, hle⟩ : ∃ payload, record.payload = .ok payload ∧ payload ≤ maximum := by
    cases hrecord : record.proof with
    | none => exact ⟨0, by rw [ProofRecord.payload, hrecord], Nat.zero_le _⟩
    | some proof =>
      have hlen := hproof proof hrecord
      have husize : proof.encodedLen ≤ usizeMax := by
        unfold usizeMax
        omega
      exact ⟨_, record.payload_of_some hrecord husize, (proof.payloadLen_of_encodedLen husize).2.trans hlen⟩
  exact ⟨_, proofWeight_eq hpayload (by omega), by omega⟩

theorem ProofStore.weightedSize_of_keys {store : ProofStore} {id : VerificationId} {e : Arc ProofRecord} {weight : Nat}
    (hkeys : store.records.keys = [id]) (he : store.get id = some e) (hweight : proofWeight e.value = .ok weight) :
    store.weightedSize = weight := by
  rw [weightedSize, hkeys, List.map_singleton, List.sum_singleton, he, Option.bind_some, hweight]
  rfl

theorem ProofStore.maximumWeight_of_new {config : ProofStoreConfig} {store : ProofStore}
    (h : ProofStore.new config = .ok store) :
    config.maxProofBytes + metadataWeightBytes + (failureCodeMaxBytes + failureMessageMaxBytes) < 2 ^ 32 := by
  unfold ProofStore.new at h
  split_ifs at h with hzero hcapacity hweight
  obtain ⟨weight, hweight⟩ := Option.ne_none_iff_exists'.1 (mt Option.isNone_iff_eq_none.2 hweight)
  unfold maximumWeight checkedAddU32 at hweight
  simp only [Option.bind_eq_bind, Option.bind_eq_some_iff, toU32?_eq_some_iff] at hweight
  obtain ⟨_, ⟨-, rfl⟩, _, ⟨-, rfl⟩, _, ⟨-, rfl⟩, hlt, -⟩ := hweight
  exact hlt

/-! ### Reachable records -/

section

variable [Sha256]

theorem encodedLen_le_of_reachable {config : ProofStoreConfig} {store : ProofStore}
    (hnew : ProofStore.new config = .ok store) {s : StoreSystem} (hs : (StoreSystem.lts store).Reachable s)
    {id : VerificationId} {e : Arc ProofRecord} (he : s.store.get id = some e) :
    ∀ proof, e.value.proof = some proof → proof.encodedLen ≤ config.maxProofBytes := by
  obtain ⟨hwf, hmax⟩ := StoreSystem.reachable_wellFormed hnew hs
  intro proof hsome
  rw [← hmax]
  exact ((hwf id e he).content_id proof hsome).2

theorem reachable_proofWeight {config : ProofStoreConfig} {store : ProofStore}
    (hnew : ProofStore.new config = .ok store) {s : StoreSystem} (hs : (StoreSystem.lts store).Reachable s)
    {id : VerificationId} {e : Arc ProofRecord} (he : s.store.get id = some e) :
    ∃ weight, proofWeight e.value = .ok weight ∧
      weight ≤ config.maxProofBytes + metadataWeightBytes + (failureCodeMaxBytes + failureMessageMaxBytes) :=
  proofWeight_of_le (encodedLen_le_of_reachable hnew hs he) (ProofStore.maximumWeight_of_new hnew)

/-- The weigher never panics: every record that the operations of a new store can produce has a weight, whatever its
diagnostics, and the weight is within the one that `ProofStore::new` allows for. -/
theorem proofWeight_never_panics {config : ProofStoreConfig} {store : ProofStore}
    (hnew : ProofStore.new config = .ok store) {s : StoreSystem} (hs : (StoreSystem.lts store).Reachable s)
    {id : VerificationId} {e : Arc ProofRecord} (he : s.store.get id = some e) :
    (∀ proof, e.value.proof = some proof →
      ∃ payload, proof.payloadLen = some payload ∧ payload ≤ proof.encodedLen) ∧
    ∃ weight, proofWeight e.value = .ok weight ∧ weight < 2 ^ 32 ∧
      weight ≤ config.maxProofBytes + metadataWeightBytes + failureCodeMaxBytes + failureMessageMaxBytes := by
  have hroom := ProofStore.maximumWeight_of_new hnew
  obtain ⟨weight, hweight, hle⟩ := reachable_proofWeight hnew hs he
  refine ⟨fun proof hsome => ?_, weight, hweight, by omega, by omega⟩
  have hlen := encodedLen_le_of_reachable hnew hs he proof hsome
  exact ⟨_, proof.payloadLen_of_encodedLen (by unfold usizeMax; omega)⟩

end

/-! ### The heaviest record -/

/-- A proof with all of its payload in one field has the shortest encoding. -/
def Proof.ofPayload (payload : Nat) : Proof := ⟨.minaPickles, List.replicate payload 0, [], []⟩

/-- The largest payload of a proof that the store accepts. -/
def ProofStoreConfig.largestPayload (config : ProofStoreConfig) : Nat :=
  Nat.findGreatest (fun payload => (Proof.ofPayload payload).encodedLen ≤ config.maxProofBytes) config.maxProofBytes

/-- A failure with the longest code and the longest message. -/
def VerificationFailure.longest : VerificationFailure where
  code := String.ofList (List.replicate 64 'a')
  message := String.ofList (List.replicate 256 'a')
  retryable := true
  code_ok := by decide +kernel
  message_le := by decide +kernel

theorem Proof.encodedLen_ofPayload_le (proof : Proof) :
    (ofPayload (proof.proof.length + proof.publicInputs.length + proof.verificationKey.length)).encodedLen ≤
      proof.encodedLen := by
  have hlength : ∀ {a b : Bytes}, a.length = b.length → encodedBytesLen a = encodedBytesLen b := by
    intro a b h
    simp only [encodedBytesLen, ← List.length_eq_zero_iff, List.isEmpty_iff, h]
  have hjoin := encodedBytesLen_append_le (proof.proof ++ proof.publicInputs) proof.verificationKey
  have hjoin' := encodedBytesLen_append_le proof.proof proof.publicInputs
  have hsame : encodedBytesLen (List.replicate _ 0) =
      encodedBytesLen (proof.proof ++ proof.publicInputs ++ proof.verificationKey) :=
    hlength (by rw [List.length_replicate, List.length_append, List.length_append])
  unfold encodedLen ofPayload
  have hempty : encodedBytesLen [] = 0 := rfl
  dsimp only
  omega

theorem ProofStoreConfig.le_largestPayload {config : ProofStoreConfig} {proof : Proof}
    (h : proof.encodedLen ≤ config.maxProofBytes) :
    proof.proof.length + proof.publicInputs.length + proof.verificationKey.length ≤ config.largestPayload := by
  refine Nat.le_findGreatest ?_ (proof.encodedLen_ofPayload_le.trans h)
  have hproof := length_le_encodedBytesLen proof.proof
  have hinputs := length_le_encodedBytesLen proof.publicInputs
  have hkey := length_le_encodedBytesLen proof.verificationKey
  unfold Proof.encodedLen at h
  omega

theorem ProofStoreConfig.encodedLen_largestPayload {config : ProofStoreConfig} (h : 2 ≤ config.maxProofBytes) :
    (Proof.ofPayload config.largestPayload).encodedLen ≤ config.maxProofBytes :=
  Nat.findGreatest_spec (P := fun payload => (Proof.ofPayload payload).encodedLen ≤ config.maxProofBytes)
    (Nat.zero_le _) h

section

variable [Sha256]

/-- The verification of any proof that is accepted can fail in any way, with no other record in the cache. -/
theorem StoreSystem.exists_failed {config : ProofStoreConfig} {store : ProofStore}
    (hnew : ProofStore.new config = .ok store) {proof : Proof} (hlen : proof.encodedLen ≤ config.maxProofBytes)
    (failure : VerificationFailure) :
    ∃ s e, (StoreSystem.lts store).Reachable s ∧ s.store.get proof.verificationId = some e ∧
      e.value.proof = some proof ∧ e.value.metadata.verification = some (.failed failure) ∧
      s.store.records.keys = [proof.verificationId] := by
  let id := proof.verificationId
  let observed : ProofRecord := ⟨⟨some 0, none, none, none, none⟩, none⟩
  let record (state : VerificationState) : ProofRecord :=
    ⟨⟨some 0, some .rpc, some 0, some state, none⟩, some proof⟩
  let store₁ := store.put id observed
  let store₂ := store₁.put id (record .queued)
  let store₃ := store₂.put id (record .verifying)
  let job : VerificationJob := ⟨id, proof, ⟨store₂.nextAddr, record .verifying⟩⟩
  have hvalid : store₁.validateProof id proof = .ok () := by
    refine ProofStore.validateProof_self (hlen.trans_eq ?_)
    rw [ProofStore.put_maxProofBytes, ProofStore.new_eq_ok hnew]
  have hobserve : (StoreSystem.perform ⟨store, []⟩ (.observeChainVerification 0 id)).1 = ⟨store₁, []⟩ := by
    simp [StoreSystem.perform, ProofStore.observeChainVerification, ProofStore.andTryComputeWith,
      ProofStore.commitWith, ProofStore.observeCompute, ProofStore.new_get hnew, store₁, observed]
  have hinsert : (StoreSystem.perform ⟨store₁, []⟩ (.insertLocalProof 0 proof .rpc)).1 = ⟨store₂, []⟩ := by
    simp [StoreSystem.perform, ProofStore.insertLocalProof, hvalid, ProofStore.andTryComputeWith,
      ProofStore.commitWith, ProofStore.insertCompute, ProofStore.withContent, queueIfReady, store₁, store₂, id,
      observed, record]
  have hbegin : (StoreSystem.perform ⟨store₂, []⟩ (.beginVerification id)).1 = ⟨store₃, [job]⟩ := by
    simp [StoreSystem.perform, ProofStore.beginVerification, ProofStore.andTryComputeWith, ProofStore.beginCompute,
      ProofStore.issuedBy, store₂, store₃, job, record]
  have hfinish : (StoreSystem.perform ⟨store₃, [job]⟩ (.finishVerification 0 job (.failed failure))).1 =
      ⟨store₃.put id (record (.failed failure)), [job]⟩ := by
    simp [StoreSystem.perform, ProofStore.finishVerification, ProofStore.andTryComputeWith, ProofStore.commitWith,
      ProofStore.finishCompute, Arc.ptrEq, VerificationOutcome.state, ProofStore.completedAt, store₃, job, record]
  have hrun : (StoreSystem.lts store).Run ⟨store, []⟩ [.observeChainVerification 0 id, .insertLocalProof 0 proof .rpc,
      .beginVerification id, .finishVerification 0 job (.failed failure)]
        ⟨store₃.put id (record (.failed failure)), [job]⟩ :=
    .cons ⟨trivial, hobserve.symm⟩ (.cons ⟨trivial, hinsert.symm⟩ (.cons ⟨trivial, hbegin.symm⟩
      (.cons ⟨List.mem_singleton_self job, hfinish.symm⟩ (.refl _))))
  refine ⟨_, _, ⟨_, _, rfl, hrun⟩, ProofStore.get_put_self _, rfl, rfl, ?_⟩
  simp [ProofStore.put, ProofStore.new_eq_ok hnew, store₃, store₂, store₁, id]

/-- Every record of an accepted proof fits the capacity, and so does a cache with a single record, exactly if the
capacity has room for the largest payload, the metadata and the longest failure.  No proof is shorter than 2 bytes. -/
theorem record_fits_cache {config : ProofStoreConfig} {store : ProofStore} (hnew : ProofStore.new config = .ok store) :
    (∀ s, (StoreSystem.lts store).Reachable s → ∀ id e proof, s.store.get id = some e → e.value.proof = some proof →
      (∃ weight, proofWeight e.value = .ok weight ∧ weight ≤ config.maxCapacityBytes) ∧
      (s.store.records.keys = [id] → s.store.weightedSize ≤ config.maxCapacityBytes)) ↔
    (2 ≤ config.maxProofBytes →
      config.largestPayload + metadataWeightBytes + failureCodeMaxBytes + failureMessageMaxBytes ≤
        config.maxCapacityBytes) := by
  have hroom := ProofStore.maximumWeight_of_new hnew
  have hweight : ∀ {record : ProofRecord} {proof : Proof}, record.proof = some proof →
      proof.encodedLen ≤ config.maxProofBytes → proofWeight record =
        .ok (proof.proof.length + proof.publicInputs.length + proof.verificationKey.length + metadataWeightBytes +
          record.failureLen) := by
    intro record proof hproof hlen
    have husize : proof.encodedLen ≤ usizeMax := by
      unfold usizeMax
      omega
    have hle := (proof.payloadLen_of_encodedLen husize).2
    exact proofWeight_eq (record.payload_of_some hproof husize) (by omega)
  constructor
  · intro hfits hmin
    -- the largest proof fails with the longest diagnostics
    have hlen := config.encodedLen_largestPayload hmin
    obtain ⟨s, e, hs, he, hproof, hfailed, -⟩ := StoreSystem.exists_failed hnew hlen .longest
    obtain ⟨⟨weight, hok, hle⟩, -⟩ := hfits s hs _ e _ he hproof
    rw [hweight hproof hlen] at hok
    cases hok
    have hfailure : e.value.failureLen = failureCodeMaxBytes + failureMessageMaxBytes := by
      unfold ProofRecord.failureLen
      rw [hfailed]
      decide +kernel
    simp only [Proof.ofPayload, List.length_replicate, List.length_nil] at hle
    omega
  · intro hcapacity s hs id e proof he hproof
    have hlen := encodedLen_le_of_reachable hnew hs he proof hproof
    have hpayload := config.le_largestPayload hlen
    have hfailure := e.value.failureLen_le
    have hmin : 2 ≤ config.maxProofBytes := by
      unfold Proof.encodedLen at hlen
      omega
    have hle := hcapacity hmin
    refine ⟨⟨_, hweight hproof hlen, by omega⟩, fun hkeys => ?_⟩
    rw [ProofStore.weightedSize_of_keys hkeys he (hweight hproof hlen)]
    omega

end

/-! ### Failed records -/

theorem proofWeight_never_panics_timed_out :
    letI := Sha256.standard
    ∃ s e weight, (StoreSystem.lts .small).Reachable s ∧ s.store.get Proof.small.verificationId = some e ∧
      e.value.metadata.verification = some (.failed verificationTimeout) ∧ proofWeight e.value = .ok weight ∧
      weight ≤ 1600 := by
  let _ := Sha256.standard
  have hnew : ProofStore.new .small = .ok .small := rfl
  obtain ⟨s, e, hs, he, -, hfailed, -⟩ :=
    StoreSystem.exists_failed hnew (show Proof.small.encodedLen ≤ 1024 by decide) verificationTimeout
  obtain ⟨-, weight, hweight, -, hle⟩ := proofWeight_never_panics hnew hs he
  exact ⟨s, e, weight, hs, he, hfailed, hweight, hle⟩

/-- Proofs of up to 256 bytes carry up to 251 bytes, so 827 bytes are enough and 826 are not. -/
theorem record_fits_cache_timed_out :
    letI := Sha256.standard
    ∃ store s e weight, ProofStore.new ⟨827, 256, 1, 1⟩ = .ok store ∧ (StoreSystem.lts store).Reachable s ∧
      s.store.get Proof.small.verificationId = some e ∧
      e.value.metadata.verification = some (.failed verificationTimeout) ∧ proofWeight e.value = .ok weight ∧
      weight ≤ 827 ∧ s.store.weightedSize ≤ 827 ∧
      ¬ ∀ s, (StoreSystem.lts store).Reachable s → ∀ id e proof, s.store.get id = some e → e.value.proof = some proof →
        (∃ weight, proofWeight e.value = .ok weight ∧ weight ≤ 826) ∧
        (s.store.records.keys = [id] → s.store.weightedSize ≤ 826) := by
  let _ := Sha256.standard
  have hnew : ProofStore.new ⟨827, 256, 1, 1⟩ = .ok ⟨∅, 256, 0⟩ := rfl
  have hnew' : ProofStore.new ⟨826, 256, 1, 1⟩ = .ok ⟨∅, 256, 0⟩ := rfl
  have hlargest : ProofStoreConfig.largestPayload ⟨827, 256, 1, 1⟩ = 251 := by decide +kernel
  obtain ⟨s, e, hs, he, hproof, hfailed, hkeys⟩ :=
    StoreSystem.exists_failed hnew (show Proof.small.encodedLen ≤ 256 by decide) verificationTimeout
  obtain ⟨⟨weight, hweight, hle⟩, hsize⟩ :=
    (record_fits_cache hnew).2 (fun _ => by rw [hlargest]; decide) s hs _ e _ he hproof
  refine ⟨_, s, e, weight, hnew, hs, he, hfailed, hweight, hle, hsize hkeys, fun hfits => ?_⟩
  have hroom := (record_fits_cache hnew').1 hfits (by decide)
  exact absurd hroom (by decide +kernel)

/-- The capacity only has to be as large as an encoded proof.  With a capacity of 256 bytes a proof of 4 bytes is
accepted, and its record weighs 260: it is over the capacity of a cache that holds nothing else. -/
theorem accepted_proof_exceeds_cache :
    letI := Sha256.standard
    ∃ config store commit e, validateProofStore
        { maxCapacityBytes := 256, maxProofBytes := 256, terminalRetentionSecs := 1, eventBuffer := 1 } = .ok config ∧
      ProofStore.new config = .ok store ∧ store.insertLocalProof 1 .small .rpc = commit ∧
      commit.result = .ok (Proof.small.verificationId, .inserted) ∧
      commit.store.records.keys = [Proof.small.verificationId] ∧
      commit.store.get Proof.small.verificationId = some e ∧ proofWeight e.value = .ok 260 ∧
      config.maxCapacityBytes < commit.store.weightedSize := by
  let _ := Sha256.standard
  refine ⟨⟨256, 256, 10 ^ 9, 1⟩, ⟨∅, 256, 0⟩, _, ⟨0, ⟨⟨none, some .rpc, some 1, none, none⟩, some .small⟩⟩,
    rfl, rfl, rfl, ?_⟩
  decide +kernel

end PulsarVerifier
