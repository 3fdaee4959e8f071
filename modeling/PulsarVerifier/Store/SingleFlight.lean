import PulsarVerifier.Store.Invariant

/-!
# Claims are single-flight and verdicts are final

`begin_verification` hands out the freshly allocated record as the claim of its job, and `finish_verification` compares
that allocation with the current one.  Addresses are never used again, so the claim of a job is the current record from
the moment it is handed out until the first change of that record, and never again afterwards.

Between two removals the verification state of a record moves along `VerificationStep`.
-/

namespace PulsarVerifier

/-- The claim of the job is the current record of its identifier. -/
def StoreSystem.current (s : StoreSystem) (job : VerificationJob) : Bool :=
  (s.store.get job.verificationId).any fun e => e.ptrEq job.claim

/-- One move of the verification lifecycle. -/
inductive VerificationStep : Option VerificationState → Option VerificationState → Prop
  | queue : VerificationStep none (some .queued)
  | claim : VerificationStep (some .queued) (some .verifying)
  | complete (verdict : VerificationVerdict) : VerificationStep (some .verifying) (some (.completed verdict))
  | fail (failure : VerificationFailure) : VerificationStep (some .verifying) (some (.failed failure))
  | retry (failure : VerificationFailure) (h : failure.retryable = true) :
    VerificationStep (some (.failed failure)) (some .queued)

/-- The action does not remove the record of `id`. -/
def StoreAction.Keeps (id : VerificationId) : StoreAction → Prop
  | .evict id' _ => id' ≠ id
  | _ => True

theorem StoreSystem.current_iff {s : StoreSystem} {job : VerificationJob} :
    s.current job = true ↔ ∃ e, s.store.get job.verificationId = some e ∧ e.addr = job.claim.addr := by
  simp [StoreSystem.current, Arc.ptrEq, Option.any_eq_true]

section

variable [Sha256]

/-- The actions of `as`, performed from `s`, that commit the outcome of `job`. -/
def StoreSystem.commits (job : VerificationJob) : StoreSystem → List StoreAction → Nat
  | _, [] => 0
  | s, a :: as =>
    let rest := StoreSystem.commits job (s.perform a).1 as
    match a with
    | .finishVerification _ job' _ => if job' = job ∧ s.current job then rest + 1 else rest
    | _ => rest

/-! ### Jobs and addresses -/

/-- What relates the jobs handed out to the records: allocations are used once, and a current claim is unchanged and
still being verified. -/
structure StoreSystem.ClaimsFresh (s : StoreSystem) : Prop where
  entry_lt : ∀ id e, s.store.get id = some e → e.addr < s.store.nextAddr
  claim_lt : ∀ job ∈ s.issued, job.claim.addr < s.store.nextAddr
  distinct : s.issued.Pairwise fun j k => j.claim.addr ≠ k.claim.addr
  claimed : ∀ job ∈ s.issued, ∀ id e, s.store.get id = some e → e.addr = job.claim.addr →
    id = job.verificationId ∧ e = job.claim ∧ e.value.metadata.verification = some .verifying

omit [Sha256] in
theorem ProofStore.get_put_cases {store : ProofStore} {id id' : VerificationId} {r : ProofRecord} {e : Arc ProofRecord}
    (h : (store.put id r).get id' = some e) :
    (id' = id ∧ e = ⟨store.nextAddr, r⟩) ∨ (id' ≠ id ∧ store.get id' = some e) := by
  by_cases hid : id' = id
  · subst hid
    rw [ProofStore.get_put_self] at h
    exact .inl ⟨rfl, (Option.some.inj h).symm⟩
  · rw [ProofStore.get_put_of_ne hid] at h
    exact .inr ⟨hid, h⟩

omit [Sha256] in
theorem ProofStore.get_evict_cases {store : ProofStore} {id id' : VerificationId} {e : Arc ProofRecord}
    (h : (store.evict id).get id' = some e) : id' ≠ id ∧ store.get id' = some e := by
  by_cases hid : id' = id
  · subst hid
    rw [ProofStore.get_evict_self] at h
    cases h
  · rw [ProofStore.get_evict_of_ne hid] at h
    exact ⟨hid, h⟩

omit [Sha256] in
private theorem ClaimsFresh.put {s : StoreSystem} (hs : s.ClaimsFresh) (id : VerificationId) (r : ProofRecord) :
    StoreSystem.ClaimsFresh ⟨s.store.put id r, s.issued⟩ := by
  refine ⟨fun id' e he => ?_, fun job hjob => ?_, hs.distinct, fun job hjob id' e he haddr => ?_⟩
  · rcases ProofStore.get_put_cases he with ⟨-, rfl⟩ | ⟨-, he⟩
    · exact Nat.lt_succ_self _
    · exact Nat.lt_succ_of_lt (hs.entry_lt id' e he)
  · exact Nat.lt_succ_of_lt (hs.claim_lt job hjob)
  · rcases ProofStore.get_put_cases he with ⟨-, rfl⟩ | ⟨-, he⟩
    · have := hs.claim_lt job hjob
      simp only at haddr
      omega
    · exact hs.claimed job hjob id' e he haddr

omit [Sha256] in
private theorem ClaimsFresh.put_issue {s : StoreSystem} (hs : s.ClaimsFresh) (id : VerificationId) {r : ProofRecord}
    (proof : Proof) (hr : r.metadata.verification = some .verifying) :
    StoreSystem.ClaimsFresh ⟨s.store.put id r, ⟨id, proof, ⟨s.store.nextAddr, r⟩⟩ :: s.issued⟩ := by
  have hput := ClaimsFresh.put hs id r
  refine ⟨hput.entry_lt, fun job hjob => ?_, ?_, fun job hjob id' e he haddr => ?_⟩
  · rcases List.mem_cons.1 hjob with rfl | hjob
    · exact Nat.lt_succ_self _
    · exact hput.claim_lt job hjob
  · refine List.pairwise_cons.2 ⟨fun k hk => ?_, hs.distinct⟩
    have := hs.claim_lt k hk
    simp only
    omega
  · rcases List.mem_cons.1 hjob with rfl | hjob
    · rcases ProofStore.get_put_cases he with ⟨rfl, rfl⟩ | ⟨-, he⟩
      · exact ⟨rfl, rfl, hr⟩
      · have := hs.entry_lt id' e he
        simp only at haddr
        omega
    · exact hput.claimed job hjob id' e he haddr

theorem StoreSystem.ClaimsFresh.perform {s : StoreSystem} (hs : s.ClaimsFresh) (a : StoreAction) :
    (s.perform a).1.ClaimsFresh := by
  rcases s.perform_cases a with ⟨h, -⟩ | ⟨id, r, hm, hstore, -, hissued⟩ | ⟨id, cause, -, h, -⟩
  · rw [h]
    exact hs
  · generalize (s.perform a).1 = t at hstore hissued
    obtain ⟨store, issued⟩ := t
    obtain rfl : store = s.store.put id r := hstore
    rcases hissued with ⟨rfl, -⟩ | ⟨proof, rfl, hp, rfl⟩
    · exact ClaimsFresh.put hs id r
    · refine ClaimsFresh.put_issue hs id proof ?_
      generalize s.store.get id = old at hm
      cases hm
      rfl
  · rw [h]
    refine ⟨fun id' e he => ?_, hs.claim_lt, hs.distinct, fun job hjob id' e he haddr => ?_⟩
    · exact hs.entry_lt id' e (ProofStore.get_evict_cases he).2
    · exact hs.claimed job hjob id' e (ProofStore.get_evict_cases he).2 haddr

theorem StoreSystem.reachable_claimsFresh {store : ProofStore} (hempty : ∀ id, store.get id = none)
    {s : StoreSystem} (hs : (StoreSystem.lts store).Reachable s) : s.ClaimsFresh := by
  refine hs.invariant (P := StoreSystem.ClaimsFresh) ?_ ?_
  · rintro s rfl
    refine ⟨fun id e he => ?_, by simp, by simp, by simp⟩
    rw [hempty] at he
    cases he
  · rintro s a t - h ⟨-, rfl⟩
    exact h.perform a

/-! ### Committing -/

omit [Sha256] in
theorem StoreSystem.ClaimsFresh.filter_length_le_one {s : StoreSystem} (hs : s.ClaimsFresh) (e : Arc ProofRecord) :
    (s.issued.filter fun job => e.ptrEq job.claim).length ≤ 1 := by
  have hd := hs.distinct.filter (fun job => e.ptrEq job.claim)
  have hmem : ∀ job ∈ s.issued.filter (fun job => e.ptrEq job.claim), e.addr = job.claim.addr := by
    intro job hjob
    simpa [Arc.ptrEq] using (List.mem_filter.1 hjob).2
  rcases hl : s.issued.filter (fun job => e.ptrEq job.claim) with _ | ⟨j, _ | ⟨k, rest⟩⟩
  · rw [hl]
    exact Nat.zero_le 1
  · rw [hl]
    exact Nat.le_refl 1
  · -- two jobs with the address of `e` contradict the distinct addresses
    rw [hl] at hd hmem
    have hjk := (List.pairwise_cons.1 hd).1 k (by simp)
    exact absurd ((hmem j (by simp)).symm.trans (hmem k (by simp))) hjk

/-- An outcome whose claim is not current changes nothing. -/
theorem ProofStore.finishVerification_stale {s : StoreSystem} {job : VerificationJob} (h : s.current job = false)
    (now : Instant) (outcome : VerificationOutcome) :
    (s.store.finishVerification now job outcome).result = .ok .unchanged ∧
    (s.store.finishVerification now job outcome).store = s.store ∧
    (s.store.finishVerification now job outcome).events = [] := by
  have hne : ∀ e, s.store.get job.verificationId = some e → e.addr ≠ job.claim.addr := by
    intro e he haddr
    rw [StoreSystem.current_iff.2 ⟨e, he, haddr⟩] at h
    cases h
  rcases s.store.finishVerification_cases now job outcome with
    ⟨hidle, hr, -⟩ | ⟨-, e, he, haddr, -⟩ | ⟨e, r, he, haddr, -⟩
  · exact ⟨hr, hidle.1, hidle.2⟩
  · exact absurd haddr (hne e he)
  · exact absurd haddr (hne e he)

/-- An outcome whose claim is current replaces the record by a fresh one. -/
theorem StoreSystem.ClaimsFresh.finish_current {s : StoreSystem} (hs : s.ClaimsFresh) {job : VerificationJob}
    (hjob : job ∈ s.issued) (h : s.current job = true) (now : Instant) (outcome : VerificationOutcome) :
    (s.store.finishVerification now job outcome).result = .ok .updated ∧
    ∃ r, r.metadata.verification = some outcome.state ∧
      (s.store.finishVerification now job outcome).store = s.store.put job.verificationId r := by
  obtain ⟨e, he, haddr⟩ := StoreSystem.current_iff.1 h
  have hv := (hs.claimed job hjob _ e he haddr).2.2
  rcases s.store.finishVerification_cases now job outcome with
    ⟨-, -, hne⟩ | ⟨-, e', he', -, hv', -⟩ | ⟨e', r, he', -, -, hm, hr⟩
  · exact absurd haddr (hne e he)
  · rw [he] at he'
    cases he'
    exact absurd hv hv'
  · refine ⟨hr, r, ?_, hm.store_eq⟩
    have hmove := hm.move
    rw [he'] at hmove
    cases hmove
    rfl

/-- The store takes the outcome of every job that it has handed out. -/
theorem StoreSystem.ClaimsFresh.finish_ne_error {s : StoreSystem} (hs : s.ClaimsFresh) {job : VerificationJob}
    (hjob : job ∈ s.issued) {now : Instant} {outcome : VerificationOutcome} {error : Error} :
    (s.store.finishVerification now job outcome).result ≠ .error error := by
  intro herror
  cases hcurrent : s.current job with
  | true => cases (hs.finish_current hjob hcurrent now outcome).1.symm.trans herror
  | false => cases (ProofStore.finishVerification_stale hcurrent now outcome).1.symm.trans herror

/-- A claim that is not current stays so: the only entries a step adds have a fresh address. -/
theorem StoreSystem.ClaimsFresh.not_current_perform {s : StoreSystem} (hs : s.ClaimsFresh) {job : VerificationJob}
    (hjob : job ∈ s.issued) (h : s.current job = false) (a : StoreAction) :
    job ∈ (s.perform a).1.issued ∧ (s.perform a).1.current job = false := by
  have hne : ∀ e, s.store.get job.verificationId = some e → e.addr ≠ job.claim.addr := by
    intro e he haddr
    rw [StoreSystem.current_iff.2 ⟨e, he, haddr⟩] at h
    cases h
  have hlt := hs.claim_lt job hjob
  rw [← Bool.not_eq_true, StoreSystem.current_iff]
  rcases s.perform_cases a with ⟨h', -⟩ | ⟨id, r, hm, hstore, -, hissued⟩ | ⟨id, cause, -, h', -⟩
  · rw [h']
    exact ⟨hjob, fun ⟨e, he, haddr⟩ => hne e he haddr⟩
  · constructor
    · rcases hissued with ⟨hi, -⟩ | ⟨proof, -, -, hi⟩
      · rwa [hi]
      · rw [hi]
        exact List.mem_cons_of_mem _ hjob
    · rw [hstore]
      rintro ⟨e, he, haddr⟩
      rcases ProofStore.get_put_cases he with ⟨-, rfl⟩ | ⟨-, he⟩
      · simp only at haddr
        omega
      · exact hne e he haddr
  · rw [h']
    exact ⟨hjob, fun ⟨e, he, haddr⟩ => hne e (ProofStore.get_evict_cases he).2 haddr⟩

theorem StoreSystem.ClaimsFresh.commits_eq_zero {store : ProofStore} {s t : StoreSystem} {as : List StoreAction}
    (hrun : (StoreSystem.lts store).Run s as t) (hs : s.ClaimsFresh) {job : VerificationJob} (hjob : job ∈ s.issued)
    (h : s.current job = false) : StoreSystem.commits job s as = 0 ∧ t.current job = false := by
  induction hrun with
  | refl s => exact ⟨rfl, h⟩
  | cons hst hrun ih =>
    obtain ⟨-, rfl⟩ := hst
    rename_i s u a as
    obtain ⟨hjob', h'⟩ := hs.not_current_perform hjob h a
    obtain ⟨hzero, hend⟩ := ih (hs.perform a) hjob' h'
    refine ⟨?_, hend⟩
    unfold StoreSystem.commits
    cases a <;> simp [hzero, h]

theorem StoreSystem.ClaimsFresh.not_current_of_finish {s : StoreSystem} (hs : s.ClaimsFresh) {job : VerificationJob}
    (hjob : job ∈ s.issued) (h : s.current job = true) (now : Instant) (outcome : VerificationOutcome) :
    (s.perform (.finishVerification now job outcome)).1.current job = false := by
  obtain ⟨-, r, -, hstore⟩ := hs.finish_current hjob h now outcome
  have hlt := hs.claim_lt job hjob
  rw [← Bool.not_eq_true, StoreSystem.current_iff]
  rintro ⟨e, he, haddr⟩
  simp only [StoreSystem.perform, hstore, ProofStore.get_put_self, Option.some.injEq] at he
  subst he
  simp only at haddr
  omega

theorem StoreSystem.ClaimsFresh.commits_le_one {store : ProofStore} {s t : StoreSystem} {as : List StoreAction}
    (hrun : (StoreSystem.lts store).Run s as t) (hs : s.ClaimsFresh) (job : VerificationJob) :
    StoreSystem.commits job s as ≤ 1 := by
  induction hrun with
  | refl s => simp [StoreSystem.commits]
  | cons hst hrun ih =>
    obtain ⟨henabled, rfl⟩ := hst
    rename_i s u a as
    have ih' := ih (hs.perform a)
    unfold StoreSystem.commits
    cases a with
    | finishVerification now job' outcome =>
      simp only
      split
      · rename_i hc
        obtain ⟨rfl, hcur⟩ := hc
        have hjob : job' ∈ s.issued := henabled
        -- after this commit the claim is stale, so the rest of the run commits nothing
        have hstale := hs.not_current_of_finish hjob hcur now outcome
        have hzero := (hs.perform (.finishVerification now job' outcome)).commits_eq_zero hrun hjob hstale
        rw [hzero.1]
      · exact ih'
    | _ => exact ih'

/-! ### The lifecycle between two removals -/

theorem RecordMove.verification_new {maxBytes : Nat} {a : StoreAction} {id : VerificationId} {r : ProofRecord}
    (h : RecordMove maxBytes a id none r) : r.metadata.verification = none := by
  cases h <;> rfl

omit [Sha256] in
theorem queueIfReady_verification (r : ProofRecord) (h : r.metadata.verification = none) :
    Relation.ReflGen VerificationStep none (queueIfReady r).metadata.verification := by
  unfold queueIfReady
  split
  · exact .single .queue
  · rw [h]

omit [Sha256] in
private theorem queueIfReady_ne_completed {r : ProofRecord} (h : r.metadata.verification = none)
    (verdict : VerificationVerdict) : (queueIfReady r).metadata.verification ≠ some (.completed verdict) := by
  unfold queueIfReady
  split <;> simp [h]

/-- A verdict is put by the call that commits it, over a record that is being verified. -/
theorem RecordMove.completed {maxBytes : Nat} {a : StoreAction} {id : VerificationId}
    {old : Option (Arc ProofRecord)} {r : ProofRecord} (hmove : RecordMove maxBytes a id old r)
    (hold : ∀ e, old = some e → e.value.WellFormed maxBytes id) {verdict : VerificationVerdict}
    (hr : r.metadata.verification = some (.completed verdict)) :
    ∃ now job e, a = .finishVerification now job (.completed verdict) ∧ job.verificationId = id ∧ old = some e ∧
      e.value.metadata.verification = some .verifying := by
  cases hmove with
  | observeNew now id => cases hr
  | observe now id e h =>
    refine absurd hr (queueIfReady_ne_completed ?_ verdict)
    exact (hold e rfl).verification_none (.inl h)
  | insertNew now proof source hlen => cases hr
  | insert now proof source e hlen h | attach now proof peer e hlen ho h =>
    refine absurd hr (queueIfReady_ne_completed ?_ verdict)
    exact (hold e rfl).verification_none (.inr h)
  | begin id e ho hp hv => cases hr
  | finish now job outcome e hptr hv =>
    cases outcome with
    | completed verdict' =>
      cases hr
      exact ⟨now, job, e, rfl, rfl, rfl, hv⟩
    | failed failure => cases hr
  | retry id e failure hv hretry => cases hr

/-- A move makes at most one step of the lifecycle, and none from a verdict. -/
theorem RecordMove.verification_step {maxBytes : Nat} {a : StoreAction} {id : VerificationId} {e : Arc ProofRecord}
    {r : ProofRecord} (hmove : RecordMove maxBytes a id (some e) r) (he : e.value.WellFormed maxBytes id) :
    Relation.ReflGen VerificationStep e.value.metadata.verification r.metadata.verification ∧
    ∀ verdict, e.value.metadata.verification ≠ some (.completed verdict) := by
  cases hmove with
  | observe now id e h =>
    have hv := he.verification_none (.inl h)
    rw [hv]
    exact ⟨queueIfReady_verification _ hv, by simp⟩
  | insert now proof source e hlen h | attach now proof peer e hlen ho h =>
    have hv := he.verification_none (.inr h)
    rw [hv]
    exact ⟨queueIfReady_verification _ hv, by simp⟩
  | begin id e ho hp hv =>
    rw [hv]
    exact ⟨.single .claim, by simp⟩
  | finish now job outcome e hptr hv =>
    rw [hv]
    refine ⟨.single ?_, by simp⟩
    cases outcome with
    | completed verdict => exact .complete verdict
    | failed failure => exact .fail failure
  | retry id e failure hv hr =>
    rw [hv]
    exact ⟨.single (.retry failure hr), by simp⟩

/-- The verification state moves along the given relation, and a verdict stays as it is. -/
def ProofRecord.Advances (along : Option VerificationState → Option VerificationState → Prop) (r r' : ProofRecord) :
    Prop :=
  along r.metadata.verification r'.metadata.verification ∧
  ∀ verdict, r.metadata.verification = some (.completed verdict) →
    r'.metadata.verification = some (.completed verdict) ∧ r'.metadata.completedAt = r.metadata.completedAt

theorem StoreSystem.perform_advances {s : StoreSystem} (hs : s.store.WellFormed) {a : StoreAction}
    {id : VerificationId} (ha : a.Keeps id) {e : Arc ProofRecord} (he : s.store.get id = some e) :
    ∃ e', (s.perform a).1.store.get id = some e' ∧ e.value.Advances (Relation.ReflGen VerificationStep) e'.value := by
  have hsame : e.value.Advances (Relation.ReflGen VerificationStep) e.value := ⟨.refl, fun _ h => ⟨h, rfl⟩⟩
  rcases s.perform_cases a with ⟨h, -⟩ | ⟨id', r, hm, hstore, -⟩ | ⟨id', cause, rfl, h, -⟩
  · exact ⟨e, by rw [h, he], hsame⟩
  · by_cases hid : id = id'
    · subst hid
      rw [he] at hm
      obtain ⟨hstep, hfinal⟩ := hm.verification_step (hs id e he)
      refine ⟨_, by rw [hstore, ProofStore.get_put_self], hstep, fun verdict hv => ?_⟩
      exact absurd hv (hfinal verdict)
    · exact ⟨e, by rw [hstore, ProofStore.get_put_of_ne hid, he], hsame⟩
  · have hne : id ≠ id' := fun h => ha h.symm
    refine ⟨e, ?_, hsame⟩
    rw [h]
    exact (ProofStore.get_evict_of_ne hne).trans he

theorem StoreSystem.run_advances {store : ProofStore} {s t : StoreSystem} {as : List StoreAction}
    (hrun : (StoreSystem.lts store).Run s as t) (hs : s.store.WellFormed) {id : VerificationId}
    (has : ∀ a ∈ as, a.Keeps id) {e : Arc ProofRecord} (he : s.store.get id = some e) :
    ∃ e', t.store.get id = some e' ∧ e.value.Advances (Relation.ReflTransGen VerificationStep) e'.value := by
  induction hrun generalizing e with
  | refl s => exact ⟨e, he, .refl, fun _ h => ⟨h, rfl⟩⟩
  | cons hst hrun ih =>
    obtain ⟨-, rfl⟩ := hst
    rename_i s u a as
    obtain ⟨e', he', hstep, hkept⟩ := StoreSystem.perform_advances hs (has a (by simp)) he
    obtain ⟨e'', he'', hsteps, hkept'⟩ := ih (hs.perform a) (fun b hb => has b (by simp [hb])) he'
    refine ⟨e'', he'', hstep.to_reflTransGen.trans hsteps, fun verdict hv => ?_⟩
    obtain ⟨hv', hc⟩ := hkept verdict hv
    exact ⟨(hkept' verdict hv').1, (hkept' verdict hv').2.trans hc⟩

theorem StoreSystem.perform_new {s : StoreSystem} {a : StoreAction} {id : VerificationId}
    (hnone : s.store.get id = none) {e : Arc ProofRecord} (he : (s.perform a).1.store.get id = some e) :
    e.value.metadata.verification = none := by
  rcases s.perform_cases a with ⟨h, -⟩ | ⟨id', r, hm, hstore, -⟩ | ⟨id', cause, -, h, -⟩
  · rw [h, hnone] at he
    cases he
  · rw [hstore] at he
    rcases ProofStore.get_put_cases he with ⟨rfl, rfl⟩ | ⟨-, he⟩
    · rw [hnone] at hm
      exact hm.verification_new
    · rw [hnone] at he
      cases he
  · rw [h] at he
    have := (ProofStore.get_evict_cases he).2
    rw [hnone] at this
    cases this

/-! ### Main result -/

/-- In every reachable state: at most one job has the current record as its claim; a job commits exactly when its
claim is current, and at most once; until a record is removed, each operation moves it along at most one edge of the
lifecycle; and an outcome is never refused. -/
theorem StoreSystem.claims_single_flight {config : ProofStoreConfig} {store : ProofStore}
    (hnew : ProofStore.new config = .ok store) {s : StoreSystem} (hs : (StoreSystem.lts store).Reachable s) :
    (∀ id e, s.store.get id = some e → (s.issued.filter fun job => e.ptrEq job.claim).length ≤ 1) ∧
    (∀ job ∈ s.issued, ∀ now outcome,
      ((s.perform (.finishVerification now job outcome)).1.store.get job.verificationId ≠
        s.store.get job.verificationId ↔ s.current job) ∧
      (¬ s.current job → (s.perform (.finishVerification now job outcome)).1 = s ∧
        (s.perform (.finishVerification now job outcome)).2 = []) ∧
      (s.current job → ¬ (s.perform (.finishVerification now job outcome)).1.current job)) ∧
    (∀ job as t, (StoreSystem.lts store).Run s as t → StoreSystem.commits job s as ≤ 1 ∧
      (job ∈ s.issued → ¬ s.current job → ¬ t.current job)) ∧
    (∀ id a t, (StoreSystem.lts store).step s a t → s.store.get id = none → ∀ e, t.store.get id = some e →
      e.value.metadata.verification = none) ∧
    (∀ id a t, (StoreSystem.lts store).step s a t → a.Keeps id → ∀ e, s.store.get id = some e →
      ∃ e', t.store.get id = some e' ∧ e.value.Advances (Relation.ReflGen VerificationStep) e'.value) ∧
    (∀ id as t, (StoreSystem.lts store).Run s as t → (∀ a ∈ as, a.Keeps id) → ∀ e, s.store.get id = some e →
      ∃ e', t.store.get id = some e' ∧ e.value.Advances (Relation.ReflTransGen VerificationStep) e'.value) ∧
    ∀ job ∈ s.issued, ∀ now outcome found, (s.store.finishVerification now job outcome).result ≠
      .error (.invalidVerificationTransition job.verificationId (.expectedVerifying found)) := by
  have hfresh := StoreSystem.reachable_claimsFresh (ProofStore.new_get hnew) hs
  have hwf := (StoreSystem.reachable_wellFormed hnew hs).1
  refine ⟨fun id e _ => hfresh.filter_length_le_one e, fun job hjob now outcome => ⟨?_, ?_, ?_⟩,
    fun job as t hrun => ⟨hfresh.commits_le_one hrun job, fun hjob hcur => ?_⟩, ?_, ?_, ?_, ?_⟩
  · constructor
    · intro hchange
      by_contra hcur
      obtain ⟨-, hstore, -⟩ := ProofStore.finishVerification_stale (Bool.not_eq_true _ ▸ hcur) now outcome
      exact hchange (by simp only [StoreSystem.perform, hstore])
    · intro hcur hsame
      obtain ⟨-, r, -, hstore⟩ := hfresh.finish_current hjob hcur now outcome
      simp only [StoreSystem.perform, hstore, ProofStore.get_put_self] at hsame
      -- the record put has an address that no entry had
      have := hfresh.entry_lt _ _ hsame.symm
      simp only at this
      omega
  · intro hcur
    obtain ⟨-, hstore, hevents⟩ := ProofStore.finishVerification_stale (Bool.not_eq_true _ ▸ hcur) now outcome
    simp only [StoreSystem.perform, hstore, hevents]
    trivial
  · intro hcur
    rw [hfresh.not_current_of_finish hjob hcur now outcome]
    exact Bool.false_ne_true
  · rw [(hfresh.commits_eq_zero hrun hjob (Bool.not_eq_true _ ▸ hcur)).2]
    exact Bool.false_ne_true
  · rintro id a t ⟨-, rfl⟩ hnone e he
    exact StoreSystem.perform_new hnone he
  · rintro id a t ⟨-, rfl⟩ ha e he
    exact StoreSystem.perform_advances hwf ha he
  · intro id as t hrun has e he
    exact StoreSystem.run_advances hrun hwf has he
  · intro job hjob now outcome found h
    cases hcur : s.current job with
    | false =>
      rw [(ProofStore.finishVerification_stale hcur now outcome).1] at h
      cases h
    | true =>
      rw [(hfresh.finish_current hjob hcur now outcome).1] at h
      cases h

end

/-- A record is claimed, evicted, inserted and claimed again: of the two jobs one is current, and the other one changes
nothing. -/
theorem StoreSystem.claims_single_flight_reinserted :
    letI := Sha256.standard
    ∃ s stale live, (StoreSystem.lts .small).Reachable s ∧ s.issued = [live, stale] ∧ s.current live ∧
      ¬ s.current stale ∧ (s.perform (.finishVerification 9 stale (.completed .valid))).1 = s ∧
      (s.store.finishVerification 9 live (.completed .invalid)).result = .ok .updated := by
  let _ := Sha256.standard
  let id := Proof.small.verificationId
  have hrun : (StoreSystem.lts .small).Run ⟨.small, []⟩
      [.observeChainVerification 1 id, .insertLocalProof 2 .small .rpc, .beginVerification id, .evict id .explicit,
        .observeChainVerification 3 id, .insertLocalProof 4 .small .rpc, .beginVerification id] _ :=
    .cons ⟨trivial, rfl⟩ (.cons ⟨trivial, rfl⟩ (.cons ⟨trivial, rfl⟩
      (.cons ⟨show Option.isSome _ = true by decide +kernel, rfl⟩ (.cons ⟨trivial, rfl⟩ (.cons ⟨trivial, rfl⟩
        (.cons ⟨trivial, rfl⟩ (.refl _)))))))
  have hreach : (StoreSystem.lts .small).Reachable _ := ⟨_, _, rfl, hrun⟩
  obtain ⟨-, hfinish, -⟩ := StoreSystem.claims_single_flight (show ProofStore.new .small = .ok .small from rfl) hreach
  refine ⟨_, ⟨id, .small, ⟨2, ⟨⟨some 1, some .rpc, some 2, some .verifying, none⟩, some .small⟩⟩⟩,
    ⟨id, .small, ⟨5, ⟨⟨some 3, some .rpc, some 4, some .verifying, none⟩, some .small⟩⟩⟩, hreach, ?_, ?_, ?_, ?_, ?_⟩
  · decide +kernel
  · decide +kernel
  · decide +kernel
  · exact ((hfinish _ (by decide +kernel) _ _).2.1 (by decide +kernel)).1
  · decide +kernel

end PulsarVerifier
