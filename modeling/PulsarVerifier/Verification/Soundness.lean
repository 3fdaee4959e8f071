import PulsarVerifier.Rpc.Contract
import PulsarVerifier.Verification.System

/-!
# Verdict soundness

A verdict that the service hands out comes from a registered verifier: the record it is read from was completed by a
job of the worker, the job carries the content stored under its identifier, and its last attempt returned that verdict
in time.  The invariant `Sound` follows the verdict through the store, the claim, the execution and the commit, over
any interleaving with other operations and evictions.
-/

namespace PulsarVerifier

/-- A registered verifier returned `verdict` for `proof`, in time. -/
def Verified (registry : VerifierRegistry) (config : VerificationConfig) (returns : List VerifyReturn) (proof : Proof)
    (verdict : VerificationVerdict) : Prop :=
  ∃ call ∈ returns, call.proof = proof ∧ registry.get proof.proofType = some call.verifier ∧
    call.elapsed ≤ config.jobTimeout ∧ call.result = .ok verdict

theorem Verified.mono {registry : VerifierRegistry} {config : VerificationConfig} {returns returns' : List VerifyReturn}
    {proof : Proof} {verdict : VerificationVerdict} (h : Verified registry config returns proof verdict)
    (hsub : ∀ call ∈ returns, call ∈ returns') : Verified registry config returns' proof verdict := by
  obtain ⟨call, hcall, hrest⟩ := h
  exact ⟨call, hsub call hcall, hrest⟩

/-! ### Executing a job -/

theorem executeAttempt_eq_completed {attemptTimeout : Duration} {behaviour : VerifyBehaviour}
    {verdict : VerificationVerdict} (h : executeAttempt attemptTimeout behaviour = .completed verdict) :
    ∃ elapsed, elapsed ≤ attemptTimeout ∧ behaviour = some (elapsed, .returned (.ok verdict)) := by
  unfold executeAttempt at h
  split at h
  · cases h
  · rename_i elapsed ending
    split at h
    · rename_i hle
      split at h
      · cases h
        exact ⟨elapsed, hle, rfl⟩
      · cases h
      · cases h
    · cases h

/-- The loop completes with a verdict only if one of its attempts returned it in time. -/
theorem executeAttempts_completed {job : VerificationJob} {verifier : Verifier} {config : VerificationConfig}
    {behaviour : Nat → VerifyBehaviour} {attempt remaining : Nat} {completion : JobCompletion}
    (h : (executeAttempts job verifier config behaviour attempt remaining).completion = .ok completion) :
    completion.job = job ∧ ∀ verdict, completion.outcome = .completed verdict →
      ∃ n elapsed, attempt ≤ n ∧ n < attempt + remaining ∧ elapsed ≤ config.jobTimeout ∧
        behaviour n = some (elapsed, .returned (.ok verdict)) ∧
        ⟨verifier, job.proof, elapsed, .ok verdict⟩ ∈
          (executeAttempts job verifier config behaviour attempt remaining).returns := by
  induction remaining generalizing attempt with
  | zero => cases h
  | succ remaining ih =>
    simp only [executeAttempts] at h ⊢
    split at h
    · rename_i hlast
      cases h
      refine ⟨rfl, fun verdict hv => ?_⟩
      obtain ⟨elapsed, hle, hb⟩ := executeAttempt_eq_completed hv
      refine ⟨attempt, elapsed, Nat.le_refl _, by omega, hle, hb, ?_⟩
      have hcleanup : elapsed ≤ config.jobTimeout + attemptCleanupTimeout := Nat.le_trans hle (Nat.le_add_right _ _)
      rw [if_pos hlast]
      simp [hb, attemptReturn, hcleanup]
    · rename_i hlast
      rw [if_neg hlast]
      split at h
      · cases h
      · rename_i multiplier hmultiplier
        obtain ⟨hjob, hverdict⟩ := ih h
        refine ⟨hjob, fun verdict hv => ?_⟩
        obtain ⟨n, elapsed, hlo, hhi, hle, hb, hmem⟩ := hverdict verdict hv
        exact ⟨n, elapsed, by omega, by omega, hle, hb, List.mem_append_right _ hmem⟩

theorem executeJob_completed {job : VerificationJob} {verifier : Option Verifier} {config : VerificationConfig}
    {behaviour : Nat → VerifyBehaviour} {completion : JobCompletion}
    (h : (executeJob job verifier config behaviour).completion = .ok completion) :
    completion.job = job ∧ ∀ verdict, completion.outcome = .completed verdict →
      ∃ handle n elapsed, verifier = some handle ∧ n ≤ config.maxRetries ∧ elapsed ≤ config.jobTimeout ∧
        behaviour n = some (elapsed, .returned (.ok verdict)) ∧
        ⟨handle, job.proof, elapsed, .ok verdict⟩ ∈ (executeJob job verifier config behaviour).returns := by
  cases verifier with
  | none =>
    cases h
    exact ⟨rfl, fun verdict hv => by cases hv⟩
  | some handle =>
    obtain ⟨hjob, hverdict⟩ := executeAttempts_completed h
    refine ⟨hjob, fun verdict hv => ?_⟩
    obtain ⟨n, elapsed, -, hlt, hle, hb, hmem⟩ := hverdict verdict hv
    exact ⟨handle, n, elapsed, rfl, by omega, hle, hb, hmem⟩

section

variable [Sha256]

/-! ### The invariant -/

/-- What is known about a task of the worker. -/
def JobTask.Certified (registry : VerifierRegistry) (config : VerificationConfig) (s : VerificationSystem) :
    JobTask → Prop
  | .running job verifier => job ∈ s.stores.issued ∧ verifier = registry.get job.proof.proofType
  | .ended (.ok completion) => completion.job ∈ s.stores.issued ∧ ∀ verdict,
      completion.outcome = .completed verdict → Verified registry config s.returns completion.job.proof verdict
  | .ended (.error _) => True

/-- The invariant of the system after the steps `as`. -/
structure VerificationSystem.Sound (registry : VerifierRegistry) (config : VerificationConfig)
    (as : List VerificationAction) (s : VerificationSystem) : Prop where
  registry_eq : s.worker.registry = registry
  config_eq : s.worker.config = config
  wellFormed : s.stores.store.WellFormed
  issued_id : ∀ job ∈ s.stores.issued, job.proof.verificationId = job.verificationId
  certified : ∀ task ∈ s.worker.jobs, task.Certified registry config s
  observed : ∀ id e, s.stores.store.get id = some e → e.value.metadata.chainObservedAt.isSome →
    ∃ now, .operation (.observeChainVerification now id) ∈ as
  verified : ∀ id e verdict, s.stores.store.get id = some e →
    e.value.metadata.verification = some (.completed verdict) →
    ∃ proof, proof.verificationId = id ∧ Verified registry config s.returns proof verdict

omit [Sha256] in
theorem JobTask.Certified.mono {registry : VerifierRegistry} {config : VerificationConfig} {s t : VerificationSystem}
    {task : JobTask} (h : task.Certified registry config s) (hissued : ∀ job ∈ s.stores.issued, job ∈ t.stores.issued)
    (hreturns : ∀ call ∈ s.returns, call ∈ t.returns) : task.Certified registry config t := by
  cases task with
  | running job verifier => exact ⟨hissued job h.1, h.2⟩
  | ended completion =>
    cases completion with
    | error message => trivial
    | ok completion => exact ⟨hissued _ h.1, fun verdict hv => (h.2 verdict hv).mono hreturns⟩

theorem StoreSystem.perform_issued (s : StoreSystem) (a : StoreAction) :
    ∀ job ∈ s.issued, job ∈ (s.perform a).1.issued := by
  intro job hjob
  rcases s.perform_cases a with ⟨h, -⟩ | ⟨id, r, -, -, -, ⟨h, -⟩ | ⟨proof, -, -, h⟩⟩ | ⟨id, cause, -, h, -⟩
  · rwa [h]
  · rwa [h]
  · rw [h]
    exact List.mem_cons_of_mem _ hjob
  · rwa [h]

/-- The job of a claim carries the content of its record. -/
theorem StoreSystem.perform_issued_id {s : StoreSystem} (hwf : s.store.WellFormed)
    (hs : ∀ job ∈ s.issued, job.proof.verificationId = job.verificationId) (a : StoreAction) :
    ∀ job ∈ (s.perform a).1.issued, job.proof.verificationId = job.verificationId := by
  intro job hjob
  rcases s.perform_cases a with ⟨h, -⟩ | ⟨id, r, hm, hstore, -, ⟨h, -⟩ | ⟨proof, -, hp, h⟩⟩ | ⟨id, cause, -, h, -⟩
  · exact hs job (h ▸ hjob)
  · exact hs job (h ▸ hjob)
  · rw [h] at hjob
    rcases List.mem_cons.1 hjob with rfl | hjob
    · exact ((hm.wellFormed (hwf id)).content_id proof hp).1
    · exact hs job hjob
  · rw [h] at hjob
    exact hs job hjob

theorem RecordMove.observed {maxBytes : Nat} {a : StoreAction} {id : VerificationId} {old : Option (Arc ProofRecord)}
    {r : ProofRecord} (h : RecordMove maxBytes a id old r) (hr : r.metadata.chainObservedAt.isSome) :
    (∃ now, a = .observeChainVerification now id) ∨
    ∃ e, old = some e ∧ e.value.metadata.chainObservedAt.isSome := by
  cases h with
  | observeNew now id | observe now id e h => exact .inl ⟨now, rfl⟩
  | insertNew now proof source hlen => cases hr
  | insert now proof source e hlen h => exact .inr ⟨e, rfl, by simpa [ProofStore.withContent] using hr⟩
  | attach now proof peer e hlen ho h | begin id e ho hp hv => exact .inr ⟨e, rfl, ho⟩
  | finish now job outcome e hptr hv | retry id e failure hv hr' => exact .inr ⟨e, rfl, hr⟩

theorem StoreSystem.perform_get {s : StoreSystem} {a : StoreAction} {id : VerificationId} {e : Arc ProofRecord}
    (he : (s.perform a).1.store.get id = some e) :
    s.store.get id = some e ∨ RecordMove s.store.maxProofBytes a id (s.store.get id) e.value := by
  rcases s.perform_cases a with ⟨h, -⟩ | ⟨id', r, hm, hstore, -⟩ | ⟨id', cause, -, h, -⟩
  · exact .inl (h ▸ he)
  · rw [hstore] at he
    rcases ProofStore.get_put_cases he with ⟨rfl, rfl⟩ | ⟨-, he⟩
    · exact .inr hm
    · exact .inl he
  · rw [h] at he
    exact .inl (ProofStore.get_evict_cases he).2

/-- The invariant is kept by an action on the store, if a verdict that it commits is certified. -/
private theorem Sound.perform {registry : VerifierRegistry} {config : VerificationConfig}
    {as : List VerificationAction} {s t : VerificationSystem} {label : VerificationAction}
    (hs : s.Sound registry config as)
    (a : StoreAction) (hstores : t.stores = (s.stores.perform a).1) (hreturns : t.returns = s.returns)
    (hregistry : t.worker.registry = s.worker.registry) (hconfig : t.worker.config = s.worker.config)
    (hobserve : ∀ now id, a = .observeChainVerification now id → label = .operation a)
    (hcommit : ∀ now job verdict, a = .finishVerification now job (.completed verdict) →
      job ∈ s.stores.issued ∧ Verified registry config s.returns job.proof verdict)
    (hjobs : ∀ task ∈ t.worker.jobs, task.Certified registry config t) : t.Sound registry config (as ++ [label]) where
  registry_eq := by rw [hregistry, hs.registry_eq]
  config_eq := by rw [hconfig, hs.config_eq]
  wellFormed := by rw [hstores]; exact hs.wellFormed.perform a
  issued_id := by rw [hstores]; exact StoreSystem.perform_issued_id hs.wellFormed hs.issued_id a
  certified := hjobs
  observed := by
    intro id e he ho
    rw [hstores] at he
    have hold : ∀ e, s.stores.store.get id = some e → e.value.metadata.chainObservedAt.isSome →
        ∃ now, .operation (.observeChainVerification now id) ∈ as ++ [label] := by
      intro e he ho
      obtain ⟨now, hnow⟩ := hs.observed id e he ho
      exact ⟨now, List.mem_append_left _ hnow⟩
    rcases StoreSystem.perform_get he with he | hm
    · exact hold e he ho
    · rcases hm.observed ho with ⟨now, rfl⟩ | ⟨e', he', ho'⟩
      · exact ⟨now, by rw [hobserve now id rfl]; simp⟩
      · exact hold e' he' ho'
  verified := by
    intro id e verdict he hv
    rw [hstores] at he
    rw [hreturns]
    rcases StoreSystem.perform_get he with he | hm
    · exact hs.verified id e verdict he hv
    · obtain ⟨now, job, -, ha, rfl, -⟩ := hm.completed (hs.wellFormed id) hv
      obtain ⟨hjob, hverified⟩ := hcommit now job verdict ha
      exact ⟨job.proof, hs.issued_id job hjob, hverified⟩

private theorem Sound.quiet {registry : VerifierRegistry} {config : VerificationConfig} {as : List VerificationAction}
    {s t : VerificationSystem} {label : VerificationAction} (hs : s.Sound registry config as)
    (hstores : t.stores = s.stores) (hreturns : ∀ call ∈ s.returns, call ∈ t.returns)
    (hregistry : t.worker.registry = s.worker.registry) (hconfig : t.worker.config = s.worker.config)
    (hjobs : ∀ task ∈ t.worker.jobs, task.Certified registry config t) : t.Sound registry config (as ++ [label]) where
  registry_eq := by rw [hregistry, hs.registry_eq]
  config_eq := by rw [hconfig, hs.config_eq]
  wellFormed := by rw [hstores]; exact hs.wellFormed
  issued_id := by rw [hstores]; exact hs.issued_id
  certified := hjobs
  observed := by
    intro id e he ho
    rw [hstores] at he
    obtain ⟨now, hnow⟩ := hs.observed id e he ho
    exact ⟨now, List.mem_append_left _ hnow⟩
  verified := by
    intro id e verdict he hv
    rw [hstores] at he
    obtain ⟨proof, hid, hverified⟩ := hs.verified id e verdict he hv
    exact ⟨proof, hid, hverified.mono hreturns⟩

theorem VerificationSystem.Sound.next {registry : VerifierRegistry} {config : VerificationConfig}
    {as : List VerificationAction} {s t : VerificationSystem} {a : VerificationAction} (hs : s.Sound registry config as)
    (h : s.next a = some t) : t.Sound registry config (as ++ [a]) := by
  obtain ⟨hmove, hregistry, hconfig⟩ := VerificationSystem.next_move h
  cases hmove with
  | quiet hstores hreturns hjobs =>
    refine Sound.quiet hs hstores (by simp [hreturns]) hregistry hconfig fun task ht => ?_
    exact (hs.certified task (hjobs task ht)).mono (by simp [hstores]) (by simp [hreturns])
  | operation hfinish henabled hstores hreturns hjobs =>
    refine Sound.perform hs _ hstores hreturns hregistry hconfig (fun _ _ _ => rfl) ?_ fun task ht => ?_
    · intro now job verdict ha
      exact absurd ha (hfinish now job _)
    · rw [hjobs] at ht
      exact (hs.certified task ht).mono (hstores ▸ StoreSystem.perform_issued _ _) (by simp [hreturns])
  | claim id hstores hreturns hjobs =>
    refine Sound.perform hs _ hstores hreturns hregistry hconfig (fun _ _ h => by cases h) (fun _ _ _ h => by cases h)
      fun task ht => ?_
    rcases hjobs task ht with ht | ⟨job, hjob, rfl⟩
    · exact (hs.certified task ht).mono (hstores ▸ StoreSystem.perform_issued _ _) (by simp [hreturns])
    · exact ⟨hjob, by rw [hs.registry_eq]⟩
  | endJob i behaviour job verifier hjob hstores hreturns hjobs =>
    have hsub : ∀ call ∈ s.returns, call ∈ t.returns := by
      intro call hcall
      rw [hreturns]
      exact List.mem_append_left _ hcall
    refine Sound.quiet hs hstores hsub hregistry hconfig fun task ht => ?_
    rcases hjobs task ht with ht | rfl
    · exact (hs.certified task ht).mono (by simp [hstores]) hsub
    · cases hc : (executeJob job verifier s.worker.config behaviour).completion with
      | error message => trivial
      | ok completion =>
        obtain ⟨hissued, hverifier⟩ := hs.certified _ (List.mem_of_getElem? hjob)
        obtain ⟨rfl, hverdict⟩ := executeJob_completed hc
        refine ⟨hstores ▸ hissued, fun verdict hv => ?_⟩
        obtain ⟨handle, n, elapsed, hhandle, -, hle, -, hmem⟩ := hverdict verdict hv
        refine ⟨_, hreturns ▸ List.mem_append_right _ hmem, rfl, ?_, hs.config_eq ▸ hle, rfl⟩
        rw [← hverifier, hhandle]
  | commit i now completion hjob hstores hreturns hjobs =>
    obtain ⟨hissued, hverdict⟩ := hs.certified _ (List.mem_of_getElem? hjob)
    refine Sound.perform hs _ hstores hreturns hregistry hconfig (fun _ _ h => by cases h) ?_ fun task ht => ?_
    · intro now' job verdict ha
      cases completion with
      | mk job' outcome =>
        cases ha
        exact ⟨hissued, hverdict verdict rfl⟩
    · exact (hs.certified task (hjobs task ht)).mono (hstores ▸ StoreSystem.perform_issued _ _) (by simp [hreturns])

/-! ### Runs -/

theorem VerificationSystem.run_sound {storeConfig : ProofStoreConfig} {store : ProofStore}
    (hnew : ProofStore.new storeConfig = .ok store) {registry : VerifierRegistry} {config : VerificationConfig}
    {capacity : Nat} {as : List VerificationAction} {t : VerificationSystem}
    (hrun : (lts store registry config capacity).Run (initial store registry config capacity) as t) :
    t.Sound registry config as := by
  refine hrun.invariant_trace (P := fun as s => s.Sound registry config as) (fun hs h => hs.next h) ?_
  refine ⟨rfl, rfl, fun id e he => ?_, by simp [initial], by simp [initial, VerificationWorker.new], fun id e he => ?_,
    fun id e verdict he => ?_⟩
  all_goals
    have : store.get id = some e := he
    rw [ProofStore.new_get hnew] at this
    cases this

theorem VerificationSystem.run_returns {store : ProofStore} {registry : VerifierRegistry} {config : VerificationConfig}
    {capacity : Nat} {as : List VerificationAction} {s t : VerificationSystem}
    (hrun : (lts store registry config capacity).Run s as t) : ∀ call ∈ s.returns, call ∈ t.returns := by
  refine hrun.rel (r := fun s t => ∀ call ∈ s.returns, call ∈ t.returns) (fun _ _ h => h)
    (fun h h' call hcall => h' call (h call hcall)) ?_
  intro s a t h call hcall
  obtain ⟨hmove, -⟩ := VerificationSystem.next_move h
  cases hmove with
  | quiet _ hreturns _ | operation _ _ _ hreturns _ | claim _ _ hreturns _ => rwa [hreturns]
  | endJob _ _ _ _ _ _ hreturns _ => rw [hreturns]; exact List.mem_append_left _ hcall
  | commit _ _ _ _ _ hreturns _ => rwa [hreturns]

/-- Every pair that `get_verification_results` returns, with its reads spread over a run, names an observed identifier
and a verdict that a registered verifier returned in time for the content with this identifier.  A job without a
verifier, or whose attempts all fail or come too late, ends as failed; the commit of a stale job changes nothing. -/
theorem VerificationSystem.verdict_sound {storeConfig : ProofStoreConfig} {store : ProofStore}
    (hnew : ProofStore.new storeConfig = .ok store) {registry : VerifierRegistry} {config : VerificationConfig}
    {capacity : Nat} {as : List VerificationAction} {t : VerificationSystem}
    (hrun : (lts store registry config capacity).Run (initial store registry config capacity) as t) :
    (∀ (read : VerificationId → Option (Arc ProofRecord)) (request : List Bytes) (results : List WireResult),
      (∀ id e, read id = some e → ∃ pre u post, as = pre ++ post ∧
        (lts store registry config capacity).Run (initial store registry config capacity) pre u ∧
        (lts store registry config capacity).Run u post t ∧ u.stores.store.get id = some e) →
      getVerificationResults read request = .ok results → ∀ result ∈ results,
      ∃ id verdict call, result = ⟨id.bytes.1, wireVerdict verdict⟩ ∧
        (∃ now, .operation (.observeChainVerification now id) ∈ as) ∧ call ∈ t.returns ∧
        call.proof.verificationId = id ∧ registry.get call.proof.proofType = some call.verifier ∧
        call.elapsed ≤ config.jobTimeout ∧ call.result = .ok verdict) ∧
    (∀ job verifier behaviour completion, (executeJob job verifier config behaviour).completion = .ok completion →
      (verifier = none ∨ ∀ n ≤ config.maxRetries, ∀ elapsed verdict,
        behaviour n = some (elapsed, .returned (.ok verdict)) → config.jobTimeout < elapsed) →
      ∃ failure, completion.outcome = .failed failure) ∧
    ∀ i now completion, t.worker.jobs[i]? = some (.ended (.ok completion)) → ¬ t.stores.current completion.job →
      ∀ u, t.next (.worker (.join i now)) = some u → u.stores.store = t.stores.store := by
  refine ⟨fun read request results hread hresults result hresult => ?_,
    fun job verifier behaviour completion hc hfail => ?_, fun i now completion hi hstale u hu => ?_⟩
  · obtain ⟨id, e, verdict, he, hv, rfl⟩ := getVerificationResults_mem hresults hresult
    obtain ⟨pre, u, post, rfl, hpre, hpost, hget⟩ := hread id e he
    have hsound := run_sound hnew hpre
    have hobserved := (hsound.wellFormed id e hget).verification_iff.1 (by simp [hv])
    obtain ⟨now, hnow⟩ := hsound.observed id e hget hobserved.1
    obtain ⟨proof, hid, call, hcall, rfl, hregistry, hle, hresult⟩ := hsound.verified id e verdict hget hv
    exact ⟨id, verdict, call, rfl, ⟨now, List.mem_append_left _ hnow⟩, run_returns hpost call hcall, hid, hregistry,
      hle, hresult⟩
  · cases ho : completion.outcome with
    | failed failure => exact ⟨failure, rfl⟩
    | completed verdict =>
      obtain ⟨handle, n, elapsed, hhandle, hn, hle, hb, -⟩ := (executeJob_completed hc).2 verdict ho
      rcases hfail with hnone | hlate
      · rw [hnone] at hhandle
        cases hhandle
      · exact absurd hle (Nat.not_le.2 (hlate n hn elapsed verdict hb))
  · obtain ⟨hmove, -⟩ := next_move hu
    obtain ⟨-, hstore, -⟩ := ProofStore.finishVerification_stale (Bool.not_eq_true _ ▸ hstale) now completion.outcome
    generalize hlabel : VerificationAction.worker (.join i now) = label at hmove
    cases hmove with
    | quiet hstores => rw [hstores]
    | operation | claim | endJob => cases hlabel
    | commit i' now' completion' hjob hstores hreturns hjobs =>
      cases hlabel
      rw [hi] at hjob
      cases hjob
      rw [hstores]
      exact hstore

end

/-- A proof is observed, inserted, claimed, verified and committed; the service then returns its verdict. -/
theorem VerificationSystem.verdict_sound_completed :
    letI := Sha256.standard
    let id := Proof.small.verificationId
    let registry : VerifierRegistry := ⟨(∅ : AList fun _ : ProofType => Verifier).insert .minaPickles ⟨7⟩⟩
    let config : VerificationConfig := ⟨2, 30, 2, 250⟩
    ∃ as t call, (lts .small registry config 16).Run (initial .small registry config 16) as t ∧
      getVerificationResults t.stores.store.get [id.bytes.1] = .ok [⟨id.bytes.1, 1⟩] ∧
      call ∈ t.returns ∧ call.proof.verificationId = id ∧ call.result = .ok .valid := by
  let _ := Sha256.standard
  intro id registry config
  let as : List VerificationAction :=
    [.operation (.observeChainVerification 1 id), .operation (.insertLocalProof 2 .small .rpc),
      .worker .reconcile, .worker (.visit id), .worker .collect, .worker .top, .worker .start, .worker .flush,
        .worker .start,
      .endJob 0 (fun _ => some (5, .returned (.ok .valid))), .worker (.join 0 9)]
  have hexec : (Lts.exec next (initial .small registry config 16) as).any (fun t =>
      getVerificationResults t.stores.store.get [id.bytes.1] = .ok [⟨id.bytes.1, 1⟩]) = true := by
    decide +kernel
  obtain ⟨t, ht, hresults⟩ := (Option.any_eq_true _ _).1 hexec
  have hresults := of_decide_eq_true hresults
  have hrun : (lts .small registry config 16).Run (initial .small registry config 16) as t := Lts.run_of_exec ht
  obtain ⟨hsound, -⟩ := verdict_sound (show ProofStore.new .small = .ok .small from rfl) hrun
  obtain ⟨id', verdict, call, hpair, -, hcall, hid, -, -, hverdict⟩ := hsound t.stores.store.get _ _
    (fun _ _ he => ⟨as, t, [], by simp, hrun, .refl t, he⟩) hresults _ (List.mem_singleton_self _)
  obtain ⟨hbytes, hvalid⟩ := WireResult.mk.inj hpair
  have heq : id = id' := congrArg VerificationId.mk (Subtype.ext hbytes)
  cases verdict with
  | valid => exact ⟨as, t, call, hrun, hresults, hcall, hid.trans heq.symm, hverdict⟩
  | invalid => cases hvalid

end PulsarVerifier
