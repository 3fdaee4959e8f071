import PulsarVerifier.Lib.Lts
import PulsarVerifier.Store.Operations

/-!
# The store under concurrent use

The public operations and the evictions, in any order, as a transition system.  Next to the store the state keeps the
jobs handed out by `begin_verification`: `finish_verification` can only be called with one of them, any number of times
and at any time later.

`RecordMove` lists once and for all how an operation may replace the record of its identifier; `perform_cases` says
that a step is one of these moves, an eviction, or leaves the records alone.  The invariants of the store are proved
from it.
-/

namespace PulsarVerifier

structure StoreSystem where
  store : ProofStore
  issued : List VerificationJob

/-- A public operation with the time it reads, or an eviction. -/
inductive StoreAction
  | observeChainVerification (now : Instant) (id : VerificationId)
  | insertLocalProof (now : Instant) (proof : Proof) (source : ProofSource)
  | attachDownloadedProof (now : Instant) (id : VerificationId) (proof : Proof) (peer : PeerId)
  | beginVerification (id : VerificationId)
  | finishVerification (now : Instant) (job : VerificationJob) (outcome : VerificationOutcome)
  | retryVerification (id : VerificationId)
  | evict (id : VerificationId) (cause : ProofEvictionCause)

namespace ProofStore

def issuedBy (commit : Commit (Option VerificationJob)) : List VerificationJob :=
  match commit.result with
  | .ok (some job) => [job]
  | _ => []

end ProofStore

namespace StoreSystem

variable [Sha256]

/-- The system after an action, and the events the action publishes. -/
def perform (s : StoreSystem) : StoreAction → StoreSystem × List ProofStoreEvent
  | .observeChainVerification now id =>
    let commit := s.store.observeChainVerification now id
    ({ s with store := commit.store }, commit.events)
  | .insertLocalProof now proof source =>
    let commit := s.store.insertLocalProof now proof source
    ({ s with store := commit.store }, commit.events)
  | .attachDownloadedProof now id proof peer =>
    let commit := s.store.attachDownloadedProof now id proof peer
    ({ s with store := commit.store }, commit.events)
  | .beginVerification id =>
    let commit := s.store.beginVerification id
    ({ store := commit.store, issued := ProofStore.issuedBy commit ++ s.issued }, commit.events)
  | .finishVerification now job outcome =>
    let commit := s.store.finishVerification now job outcome
    ({ s with store := commit.store }, commit.events)
  | .retryVerification id =>
    let commit := s.store.retryVerification id
    ({ s with store := commit.store }, commit.events)
  | .evict id cause => ({ s with store := s.store.evict id }, [.proofEvicted id cause])

/-- `finish_verification` needs a job that was handed out; only a present record can be evicted. -/
def Enabled (s : StoreSystem) : StoreAction → Prop
  | .finishVerification _ job _ => job ∈ s.issued
  | .evict id _ => (s.store.get id).isSome
  | _ => True

instance (s : StoreSystem) (a : StoreAction) : Decidable (s.Enabled a) :=
  match a with
  | .finishVerification _ job _ => inferInstanceAs (Decidable (job ∈ s.issued))
  | .evict id _ => inferInstanceAs (Decidable ((s.store.get id).isSome = true))
  | .observeChainVerification _ _ | .insertLocalProof _ _ _ | .attachDownloadedProof _ _ _ _ | .beginVerification _
  | .retryVerification _ => .isTrue trivial

/-- All interleavings of operations and evictions, starting from `store` with no job handed out. -/
def lts (store : ProofStore) : Lts StoreSystem StoreAction where
  init s := s = ⟨store, []⟩
  step s a t := s.Enabled a ∧ t = (s.perform a).1

end StoreSystem

/-! ### How a record is replaced -/

/-- The ways an action replaces the entry of an identifier, in a store with proofs of at most `maxBytes`. -/
inductive RecordMove [Sha256] (maxBytes : Nat) :
    StoreAction → VerificationId → Option (Arc ProofRecord) → ProofRecord → Prop
  | observeNew (now : Instant) (id : VerificationId) :
    RecordMove maxBytes (.observeChainVerification now id) id none
      ⟨{ chainObservedAt := some now, contentSource := none, contentStoredAt := none, verification := none,
         completedAt := none }, none⟩
  | observe (now : Instant) (id : VerificationId) (e : Arc ProofRecord)
      (h : e.value.metadata.chainObservedAt = none) :
    RecordMove maxBytes (.observeChainVerification now id) id (some e)
      (queueIfReady { e.value with metadata := { e.value.metadata with chainObservedAt := some now } })
  | insertNew (now : Instant) (proof : Proof) (source : ProofSource) (hlen : proof.encodedLen ≤ maxBytes) :
    RecordMove maxBytes (.insertLocalProof now proof source) proof.verificationId none
      ⟨{ chainObservedAt := none, contentSource := some source, contentStoredAt := some now, verification := none,
         completedAt := none }, some proof⟩
  | insert (now : Instant) (proof : Proof) (source : ProofSource) (e : Arc ProofRecord)
      (hlen : proof.encodedLen ≤ maxBytes) (h : e.value.proof = none) :
    RecordMove maxBytes (.insertLocalProof now proof source) proof.verificationId (some e)
      (ProofStore.withContent e.value proof source now)
  | attach (now : Instant) (proof : Proof) (peer : PeerId) (e : Arc ProofRecord)
      (hlen : proof.encodedLen ≤ maxBytes) (ho : e.value.metadata.chainObservedAt.isSome) (h : e.value.proof = none) :
    RecordMove maxBytes (.attachDownloadedProof now proof.verificationId proof peer) proof.verificationId (some e)
      (ProofStore.withContent e.value proof (.peer peer) now)
  | begin (id : VerificationId) (e : Arc ProofRecord) (ho : e.value.metadata.chainObservedAt.isSome)
      (hp : e.value.proof.isSome) (hv : e.value.metadata.verification = some .queued) :
    RecordMove maxBytes (.beginVerification id) id (some e)
      { e.value with metadata := { e.value.metadata with verification := some .verifying } }
  | finish (now : Instant) (job : VerificationJob) (outcome : VerificationOutcome) (e : Arc ProofRecord)
      (hptr : e.addr = job.claim.addr) (hv : e.value.metadata.verification = some .verifying) :
    RecordMove maxBytes (.finishVerification now job outcome) job.verificationId (some e)
      { e.value with
        metadata :=
          { e.value.metadata with
            verification := some outcome.state, completedAt := ProofStore.completedAt now outcome.state } }
  | retry (id : VerificationId) (e : Arc ProofRecord) (failure : VerificationFailure)
      (hv : e.value.metadata.verification = some (.failed failure)) (hr : failure.retryable = true) :
    RecordMove maxBytes (.retryVerification id) id (some e)
      { e.value with metadata := { e.value.metadata with verification := some .queued, completedAt := none } }

def readyEvents (id : VerificationId) (r : ProofRecord) : List ProofStoreEvent :=
  if r.metadata.verification = some .queued then [.verificationChanged id .queued] else []

/-- The events published by an action that replaced the record of `id` by `r`. -/
def moveEvents (id : VerificationId) (r : ProofRecord) : StoreAction → List ProofStoreEvent
  | .observeChainVerification _ _ => .verificationObserved id :: readyEvents id r
  | .insertLocalProof _ _ source => .proofStored id source :: readyEvents id r
  | .attachDownloadedProof _ _ _ peer => .proofStored id (.peer peer) :: readyEvents id r
  | .beginVerification _ => [.verificationChanged id .verifying]
  | .finishVerification _ _ outcome => [.verificationChanged id outcome.state]
  | .retryVerification _ => [.verificationChanged id .queued]
  | .evict _ _ => []

namespace ProofStore

variable {store : ProofStore} {id id' : VerificationId}

@[simp] theorem get_put_self (record : ProofRecord) : (store.put id record).get id = some ⟨store.nextAddr, record⟩ := by
  simp [get, put]

theorem get_put_of_ne (h : id' ≠ id) (record : ProofRecord) : (store.put id record).get id' = store.get id' := by
  simp [get, put, AList.lookup_insert_ne h]

@[simp] theorem get_evict_self : (store.evict id).get id = none := by
  simp [get, evict]

theorem get_evict_of_ne (h : id' ≠ id) : (store.evict id).get id' = store.get id' := by
  simp [get, evict, AList.lookup_erase_ne h]

@[simp] theorem put_nextAddr (record : ProofRecord) : (store.put id record).nextAddr = store.nextAddr + 1 := rfl

@[simp] theorem put_maxProofBytes (record : ProofRecord) :
    (store.put id record).maxProofBytes = store.maxProofBytes := rfl

@[simp] theorem evict_nextAddr : (store.evict id).nextAddr = store.nextAddr := rfl

@[simp] theorem evict_maxProofBytes : (store.evict id).maxProofBytes = store.maxProofBytes := rfl

/-! ### What each operation does -/

/-- The commit changed nothing and published nothing. -/
def Idle {α : Type} (store : ProofStore) (commit : Commit α) : Prop := commit.store = store ∧ commit.events = []

/-- The commit replaced the record of `id` by `r`, as `action` does, and published the events of that move. -/
structure Moves [Sha256] {α : Type} (store : ProofStore) (action : StoreAction) (id : VerificationId) (r : ProofRecord)
    (commit : Commit α) : Prop where
  move : RecordMove store.maxProofBytes action id (store.get id) r
  store_eq : commit.store = store.put id r
  events_eq : commit.events = moveEvents id r action

/-- What Moka reports about an entry that was put over the entries of `store`. -/
def changeOf (store : ProofStore) (id : VerificationId) : StoreChange :=
  if (store.get id).isSome then .updated else .inserted

/-- The three outcomes of an atomic update: the closure fails, it leaves the entry alone, or it puts a record. -/
theorem commitWith_cases {α : Type} (store : ProofStore) (id : VerificationId)
    (compute : Option (Arc ProofRecord) → Except Error Op) (value : CompResult → α)
    (events : CompResult → List ProofStoreEvent) :
    (∃ error, compute (store.get id) = .error error ∧
      commitWith (store.andTryComputeWith id compute) value events = ⟨.error error, [], store⟩) ∨
    (compute (store.get id) = .ok .nop ∧ ∃ result, storeChange result = .unchanged ∧
      commitWith (store.andTryComputeWith id compute) value events = ⟨.ok (value result), events result, store⟩) ∨
    ∃ r result, compute (store.get id) = .ok (.put r) ∧ storeChange result = store.changeOf id ∧
      resultState result = r.metadata.verification ∧
      commitWith (store.andTryComputeWith id compute) value events =
        ⟨.ok (value result), events result, store.put id r⟩ := by
  unfold andTryComputeWith commitWith changeOf
  cases hc : compute (store.get id) with
  | error error => exact .inl ⟨error, rfl, rfl⟩
  | ok op =>
    cases op with
    | nop =>
      refine .inr (.inl ⟨rfl, ?_⟩)
      cases store.get id with
      | none => exact ⟨.stillNone, rfl, rfl⟩
      | some e => exact ⟨.unchanged e, rfl, rfl⟩
    | put r =>
      refine .inr (.inr ⟨r, _, rfl, ?_, ?_, rfl⟩)
      · split <;> rfl
      · split <;> rfl

theorem changeOf_ne_unchanged (store : ProofStore) (id : VerificationId) : store.changeOf id ≠ .unchanged := by
  unfold changeOf; split <;> simp

private theorem changeEvents_of_put {stored : ProofStoreEvent} {result : CompResult} {r : ProofRecord}
    (hc : storeChange result = store.changeOf id) (hs : resultState result = r.metadata.verification) :
    changeEvents id stored result = stored :: readyEvents id r := by
  unfold changeEvents readyEvents
  rw [hc, hs, if_neg (changeOf_ne_unchanged store id)]

private theorem stateEvents_of_put {state : VerificationState} {result : CompResult}
    (hc : storeChange result = store.changeOf id) : stateEvents id state result = [.verificationChanged id state] := by
  unfold stateEvents
  rw [hc, if_neg (changeOf_ne_unchanged store id)]

variable [Sha256]

theorem observeChainVerification_cases (store : ProofStore) (now : Instant) (id : VerificationId) :
    (store.Idle (store.observeChainVerification now id) ∧
      (store.observeChainVerification now id).result = .ok .unchanged ∧
      ∃ e, store.get id = some e ∧ e.value.metadata.chainObservedAt.isSome) ∨
    ∃ r, store.Moves (.observeChainVerification now id) id r (store.observeChainVerification now id) ∧
      (store.observeChainVerification now id).result = .ok (store.changeOf id) := by
  unfold observeChainVerification
  rcases commitWith_cases store id (observeCompute now) storeChange (changeEvents id (.verificationObserved id)) with
    ⟨error, hc, -⟩ | ⟨hc, result, hr, he⟩ | ⟨r, result, hc, hr, hs, he⟩
  · cases hget : store.get id with
    | none => rw [hget] at hc; cases hc
    | some e => rw [hget] at hc; simp only [observeCompute] at hc; split at hc <;> cases hc
  · left
    rw [he]
    refine ⟨⟨rfl, by simp [changeEvents, hr]⟩, by simp [hr], ?_⟩
    cases hget : store.get id with
    | none => rw [hget] at hc; cases hc
    | some e =>
      rw [hget] at hc
      simp only [observeCompute] at hc
      split at hc
      · exact ⟨e, rfl, by assumption⟩
      · cases hc
  · right
    rw [he]
    refine ⟨r, ⟨?_, rfl, changeEvents_of_put hr hs⟩, by simp [hr]⟩
    cases hget : store.get id with
    | none => rw [hget] at hc; cases hc; exact .observeNew now id
    | some e =>
      rw [hget] at hc
      simp only [observeCompute] at hc
      split at hc
      · cases hc
      · rename_i hobs
        cases hc
        exact .observe now id e (by simpa using hobs)

theorem validateProof_eq_ok {proof : Proof} (h : store.validateProof id proof = .ok ()) :
    proof.encodedLen ≤ store.maxProofBytes ∧ proof.verificationId = id := by
  unfold validateProof at h
  split at h
  · cases h
  · split at h
    · cases h
    · rename_i h1 h2
      exact ⟨by omega, by simpa using h2⟩

theorem validateProof_self {proof : Proof} (h : proof.encodedLen ≤ store.maxProofBytes) :
    store.validateProof proof.verificationId proof = .ok () := by
  unfold validateProof
  rw [if_neg (by omega), if_neg (by simp)]

theorem insertLocalProof_cases (store : ProofStore) (now : Instant) (proof : Proof) (source : ProofSource) :
    (store.Idle (store.insertLocalProof now proof source) ∧ store.maxProofBytes < proof.encodedLen ∧
      (store.insertLocalProof now proof source).result =
        .error (.proofTooLarge proof.verificationId proof.encodedLen store.maxProofBytes)) ∨
    (store.Idle (store.insertLocalProof now proof source) ∧
      (store.insertLocalProof now proof source).result = .ok (proof.verificationId, .unchanged) ∧
      ∃ e, store.get proof.verificationId = some e ∧ e.value.proof.isSome) ∨
    ∃ r, store.Moves (.insertLocalProof now proof source) proof.verificationId r
        (store.insertLocalProof now proof source) ∧
      (store.insertLocalProof now proof source).result =
        .ok (proof.verificationId, store.changeOf proof.verificationId) := by
  by_cases hlen : store.maxProofBytes < proof.encodedLen
  · left
    simp [insertLocalProof, validateProof, hlen, Idle]
  · right
    have hle : proof.encodedLen ≤ store.maxProofBytes := by omega
    unfold insertLocalProof
    simp only [validateProof_self hle]
    rcases commitWith_cases store proof.verificationId (insertCompute now proof source)
        (fun result => (proof.verificationId, storeChange result))
        (changeEvents proof.verificationId (.proofStored proof.verificationId source)) with
      ⟨error, hc, -⟩ | ⟨hc, result, hr, he⟩ | ⟨r, result, hc, hr, hs, he⟩
    · cases hget : store.get proof.verificationId with
      | none => rw [hget] at hc; cases hc
      | some e => rw [hget] at hc; simp only [insertCompute] at hc; split at hc <;> cases hc
    · left
      rw [he]
      refine ⟨⟨rfl, by simp [changeEvents, hr]⟩, by simp [hr], ?_⟩
      cases hget : store.get proof.verificationId with
      | none => rw [hget] at hc; cases hc
      | some e =>
        rw [hget] at hc
        simp only [insertCompute] at hc
        split at hc
        · exact ⟨e, rfl, by assumption⟩
        · cases hc
    · right
      rw [he]
      refine ⟨r, ⟨?_, rfl, changeEvents_of_put hr hs⟩, by simp [hr]⟩
      cases hget : store.get proof.verificationId with
      | none => rw [hget] at hc; cases hc; exact .insertNew now proof source hle
      | some e =>
        rw [hget] at hc
        simp only [insertCompute] at hc
        split at hc
        · cases hc
        · rename_i hp
          cases hc
          exact .insert now proof source e hle (by simpa using hp)

theorem attachDownloadedProof_cases (store : ProofStore) (now : Instant) (id : VerificationId) (proof : Proof)
    (peer : PeerId) :
    (store.Idle (store.attachDownloadedProof now id proof peer) ∧
      ((store.attachDownloadedProof now id proof peer).result =
          .error (.proofTooLarge id proof.encodedLen store.maxProofBytes) ∨
        (store.attachDownloadedProof now id proof peer).result = .error (.verificationIdMismatch id))) ∨
    (store.Idle (store.attachDownloadedProof now id proof peer) ∧
      (store.attachDownloadedProof now id proof peer).result = .error (.proofNotObserved id) ∧
      ∀ e, store.get id = some e → e.value.metadata.chainObservedAt = none) ∨
    (store.Idle (store.attachDownloadedProof now id proof peer) ∧
      (store.attachDownloadedProof now id proof peer).result = .ok .unchanged ∧
      ∃ e, store.get id = some e ∧ e.value.proof.isSome) ∨
    ∃ r, store.Moves (.attachDownloadedProof now id proof peer) id r
        (store.attachDownloadedProof now id proof peer) ∧
      (store.attachDownloadedProof now id proof peer).result = .ok .updated := by
  cases hv : store.validateProof id proof with
  | error error =>
    left
    simp only [attachDownloadedProof, hv]
    refine ⟨⟨rfl, rfl⟩, ?_⟩
    unfold validateProof at hv
    split at hv
    · cases hv; exact .inl rfl
    · split at hv
      · cases hv; exact .inr rfl
      · cases hv
  | ok u =>
    right
    obtain ⟨hle, rfl⟩ := validateProof_eq_ok hv
    unfold attachDownloadedProof
    simp only [hv]
    -- refused, nothing to do, or a record put
    rcases commitWith_cases store proof.verificationId (attachCompute now proof.verificationId proof (.peer peer))
        storeChange (changeEvents proof.verificationId (.proofStored proof.verificationId (.peer peer))) with
      ⟨error, hc, he⟩ | ⟨hc, result, hr, he⟩ | ⟨r, result, hc, hr, hs, he⟩
    · left
      rw [he]
      cases hget : store.get proof.verificationId with
      | none =>
        rw [hget] at hc
        cases hc
        exact ⟨⟨rfl, rfl⟩, rfl, fun e he => by cases he⟩
      | some e =>
        rw [hget] at hc
        simp only [attachCompute] at hc
        split at hc
        · rename_i ho
          cases hc
          refine ⟨⟨rfl, rfl⟩, rfl, fun e' he' => ?_⟩
          cases he'
          simpa using ho
        · split at hc <;> cases hc
    · right; left
      rw [he]
      refine ⟨⟨rfl, by simp [changeEvents, hr]⟩, by simp [hr], ?_⟩
      cases hget : store.get proof.verificationId with
      | none => rw [hget] at hc; cases hc
      | some e =>
        rw [hget] at hc
        simp only [attachCompute] at hc
        split at hc
        · cases hc
        · split at hc
          · exact ⟨e, rfl, by assumption⟩
          · cases hc
    · right; right
      rw [he]
      cases hget : store.get proof.verificationId with
      | none => rw [hget] at hc; cases hc
      | some e =>
        refine ⟨r, ⟨?_, rfl, changeEvents_of_put hr hs⟩, by simp [hr, changeOf, hget]⟩
        rw [hget] at hc ⊢
        simp only [attachCompute] at hc
        split at hc
        · cases hc
        · rename_i ho
          split at hc
          · cases hc
          · rename_i hp
            cases hc
            exact .attach now proof peer e hle (by simpa [Option.isSome_iff_ne_none] using ho) (by simpa using hp)

/-- A claim hands out the freshly put record, or does nothing because the record is not ready. -/
theorem beginVerification_cases (store : ProofStore) (id : VerificationId) :
    (store.Idle (store.beginVerification id) ∧ (store.beginVerification id).result = .ok none ∧
      ∀ e, store.get id = some e → readyForVerification e.value = false) ∨
    ∃ r proof, store.Moves (.beginVerification id) id r (store.beginVerification id) ∧ r.proof = some proof ∧
      (store.beginVerification id).result = .ok (some ⟨id, proof, ⟨store.nextAddr, r⟩⟩) := by
  unfold beginVerification andTryComputeWith
  cases hget : store.get id with
  | none => exact .inl ⟨⟨rfl, rfl⟩, rfl, fun e he => by cases he⟩
  | some e =>
    by_cases hready : readyForVerification e.value
    · right
      unfold readyForVerification at hready
      simp only [Bool.and_eq_true, decide_eq_true_eq] at hready
      obtain ⟨⟨ho, hp⟩, hv⟩ := hready
      obtain ⟨proof, hproof⟩ := Option.isSome_iff_exists.1 hp
      have hcompute : beginCompute (some e) =
          .ok (.put { e.value with metadata := { e.value.metadata with verification := some .verifying } }) := by
        simp only [beginCompute]
        rw [if_neg]
        simp [hproof, hv, Option.isSome_iff_ne_none.1 ho]
      simp only [hcompute, Option.isSome_some, ↓reduceIte, hproof]
      refine ⟨{ e.value with metadata := { e.value.metadata with verification := some .verifying } }, proof,
        ⟨hget ▸ .begin id e ho hp hv, ?_, rfl⟩, hproof, ?_⟩
      · simp [hproof]
      · simp [hproof]
    · left
      have hcompute : beginCompute (some e) = .ok .nop := by
        simp only [beginCompute]
        rw [if_pos]
        unfold readyForVerification at hready
        cases ho : e.value.metadata.chainObservedAt <;> cases hp : e.value.proof <;> simp_all
      simp only [hcompute]
      refine ⟨⟨rfl, rfl⟩, trivial, fun e' he' => ?_⟩
      cases he'
      simpa using hready

theorem finishVerification_cases (store : ProofStore) (now : Instant) (job : VerificationJob)
    (outcome : VerificationOutcome) :
    (store.Idle (store.finishVerification now job outcome) ∧
      (store.finishVerification now job outcome).result = .ok .unchanged ∧
      ∀ e, store.get job.verificationId = some e → e.addr ≠ job.claim.addr) ∨
    (store.Idle (store.finishVerification now job outcome) ∧
      ∃ e, store.get job.verificationId = some e ∧ e.addr = job.claim.addr ∧
        e.value.metadata.verification ≠ some .verifying ∧
        (store.finishVerification now job outcome).result = .error
          (.invalidVerificationTransition job.verificationId (.expectedVerifying e.value.metadata.verification))) ∨
    ∃ e r, store.get job.verificationId = some e ∧ e.addr = job.claim.addr ∧
      e.value.metadata.verification = some .verifying ∧
      store.Moves (.finishVerification now job outcome) job.verificationId r
        (store.finishVerification now job outcome) ∧
      (store.finishVerification now job outcome).result = .ok .updated := by
  unfold finishVerification
  -- refused, nothing to do, or a record put
  rcases commitWith_cases store job.verificationId (finishCompute now job outcome.state) storeChange
      (stateEvents job.verificationId outcome.state) with
    ⟨error, hc, he⟩ | ⟨hc, result, hr, he⟩ | ⟨r, result, hc, hr, -, he⟩
  · right; left
    rw [he]
    refine ⟨⟨rfl, rfl⟩, ?_⟩
    cases hget : store.get job.verificationId with
    | none => rw [hget] at hc; cases hc
    | some e =>
      rw [hget] at hc
      simp only [finishCompute] at hc
      split at hc
      · cases hc
      · rename_i hptr
        split at hc
        · rename_i hv
          cases hc
          exact ⟨e, rfl, by simpa [Arc.ptrEq] using hptr, hv, rfl⟩
        · cases hc
  · left
    rw [he]
    refine ⟨⟨rfl, by simp [stateEvents, hr]⟩, by simp [hr], fun e hget => ?_⟩
    rw [hget] at hc
    simp only [finishCompute] at hc
    split at hc
    · rename_i hptr
      simpa [Arc.ptrEq] using hptr
    · split at hc <;> cases hc
  · right; right
    rw [he]
    cases hget : store.get job.verificationId with
    | none => rw [hget] at hc; cases hc
    | some e =>
      rw [hget] at hc
      simp only [finishCompute] at hc
      split at hc
      · cases hc
      · rename_i hptr
        split at hc
        · cases hc
        · rename_i hv
          cases hc
          have hptr' : e.addr = job.claim.addr := by simpa [Arc.ptrEq] using hptr
          have hv' : e.value.metadata.verification = some .verifying := by simpa using hv
          exact ⟨e, _, rfl, hptr', hv', ⟨hget ▸ .finish now job outcome e hptr' hv', rfl, stateEvents_of_put hr⟩,
            by simp [hr, changeOf, hget]⟩

theorem retryVerification_cases (store : ProofStore) (id : VerificationId) :
    (store.Idle (store.retryVerification id) ∧ ∃ fault,
      (store.retryVerification id).result = .error (.invalidVerificationTransition id fault)) ∨
    (store.Idle (store.retryVerification id) ∧ (store.retryVerification id).result = .ok .unchanged) ∨
    ∃ r, store.Moves (.retryVerification id) id r (store.retryVerification id) ∧
      (store.retryVerification id).result = .ok .updated := by
  unfold retryVerification
  rcases commitWith_cases store id (retryCompute id) storeChange (stateEvents id .queued) with
    ⟨error, hc, he⟩ | ⟨hc, result, hr, he⟩ | ⟨r, result, hc, hr, -, he⟩
  · left
    rw [he]
    refine ⟨⟨rfl, rfl⟩, ?_⟩
    cases hget : store.get id with
    | none => rw [hget] at hc; cases hc; exact ⟨_, rfl⟩
    | some e =>
      rw [hget] at hc
      simp only [retryCompute] at hc
      split at hc
      · split at hc <;> cases hc
        exact ⟨_, rfl⟩
      · cases hc
      · cases hc; exact ⟨_, rfl⟩
  · right; left
    rw [he]
    exact ⟨⟨rfl, by simp [stateEvents, hr]⟩, by simp [hr]⟩
  · right; right
    rw [he]
    cases hget : store.get id with
    | none => rw [hget] at hc; cases hc
    | some e =>
      rw [hget] at hc
      simp only [retryCompute] at hc
      split at hc
      · rename_i failure hv
        split at hc
        · rename_i hretry
          cases hc
          exact ⟨_, ⟨hget ▸ .retry id e failure hv hretry, rfl, stateEvents_of_put hr⟩, by simp [hr, changeOf, hget]⟩
        · cases hc
      · cases hc
      · cases hc

end ProofStore

namespace StoreSystem

variable [Sha256]

/-- A step of the store: nothing happens, one record is replaced, or one record is evicted. -/
theorem perform_cases (s : StoreSystem) (a : StoreAction) :
    ((s.perform a).1 = s ∧ (s.perform a).2 = []) ∨
    (∃ id r, RecordMove s.store.maxProofBytes a id (s.store.get id) r ∧ (s.perform a).1.store = s.store.put id r ∧
      (s.perform a).2 = moveEvents id r a ∧
      (((s.perform a).1.issued = s.issued ∧ ∀ id', a ≠ .beginVerification id') ∨
        ∃ proof, a = .beginVerification id ∧ r.proof = some proof ∧
          (s.perform a).1.issued = ⟨id, proof, ⟨s.store.nextAddr, r⟩⟩ :: s.issued)) ∨
    ∃ id cause, a = .evict id cause ∧ (s.perform a).1 = { s with store := s.store.evict id } ∧
      (s.perform a).2 = [.proofEvicted id cause] := by
  cases a with
  | observeChainVerification now id =>
    rcases s.store.observeChainVerification_cases now id with ⟨⟨h1, h2⟩, -⟩ | ⟨r, hm, -⟩
    · left; simp only [perform, h1, h2]; trivial
    · exact .inr (.inl ⟨id, r, hm.move, hm.store_eq, hm.events_eq, .inl ⟨rfl, fun _ h => by cases h⟩⟩)
  | insertLocalProof now proof source =>
    rcases s.store.insertLocalProof_cases now proof source with ⟨⟨h1, h2⟩, -⟩ | ⟨⟨h1, h2⟩, -⟩ | ⟨r, hm, -⟩
    · left; simp only [perform, h1, h2]; trivial
    · left; simp only [perform, h1, h2]; trivial
    · exact .inr (.inl ⟨_, r, hm.move, hm.store_eq, hm.events_eq, .inl ⟨rfl, fun _ h => by cases h⟩⟩)
  | attachDownloadedProof now id proof peer =>
    rcases s.store.attachDownloadedProof_cases now id proof peer with
      ⟨⟨h1, h2⟩, -⟩ | ⟨⟨h1, h2⟩, -⟩ | ⟨⟨h1, h2⟩, -⟩ | ⟨r, hm, -⟩
    · left; simp only [perform, h1, h2]; trivial
    · left; simp only [perform, h1, h2]; trivial
    · left; simp only [perform, h1, h2]; trivial
    · exact .inr (.inl ⟨id, r, hm.move, hm.store_eq, hm.events_eq, .inl ⟨rfl, fun _ h => by cases h⟩⟩)
  | beginVerification id =>
    rcases s.store.beginVerification_cases id with ⟨⟨h1, h2⟩, h3, -⟩ | ⟨r, proof, hm, hp, hr⟩
    · left; simp [perform, ProofStore.issuedBy, h1, h2, h3]
    · refine .inr (.inl ⟨id, r, hm.move, hm.store_eq, hm.events_eq, .inr ⟨proof, rfl, hp, ?_⟩⟩)
      simp [perform, ProofStore.issuedBy, hr]
  | finishVerification now job outcome =>
    rcases s.store.finishVerification_cases now job outcome with
      ⟨⟨h1, h2⟩, -⟩ | ⟨⟨h1, h2⟩, -⟩ | ⟨e, r, -, -, -, hm, -⟩
    · left; simp only [perform, h1, h2]; trivial
    · left; simp only [perform, h1, h2]; trivial
    · exact .inr (.inl ⟨_, r, hm.move, hm.store_eq, hm.events_eq, .inl ⟨rfl, fun _ h => by cases h⟩⟩)
  | retryVerification id =>
    rcases s.store.retryVerification_cases id with ⟨⟨h1, h2⟩, -⟩ | ⟨⟨h1, h2⟩, -⟩ | ⟨r, hm, -⟩
    · left; simp only [perform, h1, h2]; trivial
    · left; simp only [perform, h1, h2]; trivial
    · exact .inr (.inl ⟨id, r, hm.move, hm.store_eq, hm.events_eq, .inl ⟨rfl, fun _ h => by cases h⟩⟩)
  | evict id cause => exact .inr (.inr ⟨id, cause, rfl, rfl, rfl⟩)

end StoreSystem

end PulsarVerifier
