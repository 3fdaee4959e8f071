import PulsarVerifier.Verification.Readiness
import PulsarVerifier.Verification.Retry
import PulsarVerifier.Verification.Soundness

/-!
# Verifying means a live job

The worker is the only one that claims records.  Then its jobs, its active identifiers and the records that are being
verified are three views of one set (`Flight`): a record becomes `Verifying` in the step that starts its job, no second
job of the identifier is started before the first is committed, and a record that comes back after an eviction is
another allocation, which the claim of the old job does not match.  The worker fails only if a job panics, which takes
more retries than the configuration accepts.
-/

namespace PulsarVerifier

/-! ### The jobs of the worker -/

/-- The job of a task; a task that has panicked has none. -/
def JobTask.job? : JobTask → Option VerificationJob
  | .running job _ => some job
  | .ended (.ok completion) => some completion.job
  | .ended (.error _) => none

/-- The jobs of the `JoinSet`, whose outcomes are not committed yet. -/
def VerificationWorker.runningJobs (w : VerificationWorker) : List VerificationJob := w.jobs.filterMap JobTask.job?

namespace VerificationWorker

variable {w : VerificationWorker} {i : Nat} {task : JobTask}

theorem mem_runningJobs {job : VerificationJob} : job ∈ w.runningJobs ↔ ∃ task ∈ w.jobs, task.job? = some job :=
  List.mem_filterMap

theorem split_jobs (hi : w.jobs[i]? = some task) :
    ∃ before after, w.jobs = before ++ task :: after ∧ (∀ task', w.jobs.set i task' = before ++ task' :: after) ∧
      w.jobs.eraseIdx i = before ++ after := by
  obtain ⟨hlt, rfl⟩ := List.getElem?_eq_some_iff.1 hi
  refine ⟨w.jobs.take i, w.jobs.drop (i + 1), ?_, fun task' =>
    List.set_eq_take_append_cons_drop .. |>.trans (if_pos hlt),
    List.eraseIdx_eq_take_drop_succ ..⟩
  rw [List.getElem_cons_drop, List.take_append_drop]

theorem runningJobs_set {job : VerificationJob} {task' : JobTask} (hi : w.jobs[i]? = some task)
    (htask : task.job? = some job) (htask' : task'.job? = some job) :
    (w.jobs.set i task').filterMap JobTask.job? = w.runningJobs := by
  obtain ⟨before, after, hold, hset, -⟩ := split_jobs hi
  unfold runningJobs
  rw [hset, hold, List.filterMap_append, List.filterMap_append, List.filterMap_cons_some htask,
    List.filterMap_cons_some htask']

theorem runningJobs_eraseIdx {job : VerificationJob} (hi : w.jobs[i]? = some task) (htask : task.job? = some job) :
    w.runningJobs.Perm (job :: (w.jobs.eraseIdx i).filterMap JobTask.job?) := by
  obtain ⟨before, after, hold, -, herase⟩ := split_jobs hi
  unfold runningJobs
  rw [herase, hold, List.filterMap_append, List.filterMap_cons_some htask, List.filterMap_append]
  exact List.perm_middle

theorem foldl_enqueue_activeIds (w : VerificationWorker) (ready : List VerificationId) :
    (ready.foldl enqueue w).activeIds = w.activeIds := by
  induction ready generalizing w with
  | nil => rfl
  | cons id ready ih => rw [List.foldl_cons, ih, enqueue_activeIds]

@[simp] theorem removePending_phase (w : VerificationWorker) (id : VerificationId) :
    (w.removePending id).phase = w.phase := by
  unfold removePending
  split <;> rfl

/-- A result of the subscription touches no active identifier and does not end `run`. -/
theorem handleStoreResult_activeIds {w' : VerificationWorker} {keys : List VerificationId}
    {result : Recv ProofStoreEvent} (h : w.handleStoreResult keys result = .ok w')
    (hphase : ∀ result, w.phase ≠ .returned result) :
    w'.activeIds = w.activeIds ∧ ∀ result, w'.phase ≠ .returned result := by
  unfold handleStoreResult at h
  split at h <;> cases h
  · exact ⟨enqueue_activeIds w _, by rw [enqueue_phase]; exact hphase⟩
  · exact ⟨removePending_activeIds w _, by rw [removePending_phase]; exact hphase⟩
  · exact ⟨rfl, hphase⟩
  · exact ⟨rfl, fun _ h => nomatch h⟩

theorem handleStoreResult_event_ne_error {keys : List VerificationId} {event : ProofStoreEvent} (error : Error) :
    w.handleStoreResult keys (.event event) ≠ .error error := by
  unfold handleStoreResult
  split <;> simp_all

end VerificationWorker

/-- With at most 32 retries no backoff overflows, and the job completes. -/
theorem executeJob_completes (job : VerificationJob) (verifier : Option Verifier) {config : VerificationConfig}
    (behaviour : Nat → VerifyBehaviour) (hretries : config.maxRetries ≤ 32) :
    ∃ completion, (executeJob job verifier config behaviour).completion = .ok completion := by
  cases verifier with
  | none => exact ⟨_, rfl⟩
  | some verifier =>
    obtain ⟨last, -, -, -, hrun⟩ :=
      executeAttempts_eq_through job verifier behaviour hretries (Nat.zero_add config.maxRetries)
    rw [executeJob, hrun]
    exact ⟨_, rfl⟩

theorem executeJob_job? (job : VerificationJob) (verifier : Option Verifier) (config : VerificationConfig)
    (behaviour : Nat → VerifyBehaviour) :
    (JobTask.ended (executeJob job verifier config behaviour).completion).job? = some job ∨
      ∃ message, (executeJob job verifier config behaviour).completion = .error message := by
  cases hc : (executeJob job verifier config behaviour).completion with
  | error message => exact .inr ⟨message, rfl⟩
  | ok completion => exact .inl (congrArg some (executeJob_completed hc).1)

/-! ### Records that are being verified -/

section

variable [Sha256]

theorem RecordMove.begin_of_verifying {maxBytes : Nat} {a : StoreAction} {id : VerificationId}
    {old : Option (Arc ProofRecord)} {r : ProofRecord} (hmove : RecordMove maxBytes a id old r)
    (hold : ∀ e, old = some e → e.value.WellFormed maxBytes id) (h : r.metadata.verification = some .verifying) :
    a = .beginVerification id := by
  -- a record that lacks a half has no verification state, and becomes queued at most
  have hready : ∀ {r' : ProofRecord}, r'.metadata.verification = none →
      (queueIfReady r').metadata.verification ≠ some .verifying := by
    intro r' hnone hv
    have hstep := queueIfReady_verification r' hnone
    rw [hv] at hstep
    cases hstep with
    | single hstep => cases hstep
  cases hmove with
  | observeNew now id => cases h
  | observe now id e he => exact absurd h (hready ((hold e rfl).verification_none (.inl he)))
  | insertNew now proof source hlen => cases h
  | insert now proof source e hlen he | attach now proof peer e hlen ho he =>
    exact absurd h (hready ((hold e rfl).verification_none (.inr he)))
  | begin id e ho hp hv => rfl
  | finish now job outcome e hptr hv => cases outcome <;> cases h
  | retry id e failure hv hr => cases h

/-- A record that is `Verifying` after an action that is not a claim was so before. -/
theorem StoreSystem.verifying_perform {stores : StoreSystem} (hwf : stores.store.WellFormed) {a : StoreAction}
    (hbegin : ∀ id, a ≠ .beginVerification id) {id : VerificationId} {e : Arc ProofRecord}
    (he : (stores.perform a).1.store.get id = some e) (hv : e.value.metadata.verification = some .verifying) :
    stores.store.get id = some e := by
  rcases stores.perform_cases a with ⟨hsame, -⟩ | ⟨id', r, hmove, hput, -, -⟩ | ⟨id', cause, -, hevicted, -⟩
  · rwa [hsame] at he
  · rw [hput] at he
    rcases ProofStore.get_put_cases he with ⟨-, rfl⟩ | ⟨-, he⟩
    · exact absurd (hmove.begin_of_verifying (hwf id') hv) (hbegin id')
    · exact he
  · rw [hevicted] at he
    exact (ProofStore.get_evict_cases he).2

theorem StoreSystem.issued_perform (stores : StoreSystem) {a : StoreAction} (hbegin : ∀ id, a ≠ .beginVerification id) :
    (stores.perform a).1.issued = stores.issued := by
  cases a with
  | beginVerification id => exact absurd rfl (hbegin id)
  | _ => rfl

end

/-! ### The invariant -/

/-- Other tasks do not claim records. -/
def VerificationAction.leavesClaims : VerificationAction → Bool
  | .operation (.beginVerification _) => false
  | _ => true

/-- The effect of a step on the store and on the jobs of the worker. -/
inductive JobsMove [Sha256] (s : VerificationSystem) : VerificationAction → VerificationSystem → Prop
  /-- no job is touched; `run` returns only when it has no job left -/
  | same {a : VerificationAction} {t : VerificationSystem} (hstores : t.stores = s.stores)
      (hfixed : t.worker.fixedPart = s.worker.fixedPart) (hactive : t.worker.activeIds = s.worker.activeIds)
      (hphase : t.worker.phase = s.worker.phase ∨ (∀ result, s.worker.phase ≠ .returned result) ∧
        ∀ result, t.worker.phase = .returned result → result = .ok () ∧ s.worker.jobs = []) :
    JobsMove s a t
  | operation {a : StoreAction} {t : VerificationSystem} (hstores : t.stores = (s.stores.perform a).1)
      (hworker : t.worker = s.worker) : JobsMove s (.operation a) t
  /-- a job is started -/
  | claim {t : VerificationSystem} (id : VerificationId) (rest : List VerificationId) (job : VerificationJob)
      (hphase : s.worker.phase = .starting) (hslot : s.worker.jobs.length < s.worker.config.maxConcurrentJobs)
      (hstop : s.stopRequested = false) (hactive : id ∉ s.worker.activeIds)
      (hresult : (s.stores.store.beginVerification id).result = .ok (some job))
      (hstores : t.stores = (s.stores.perform (.beginVerification id)).1)
      (hworker : t.worker = (s.worker.popped id rest).spawn job) : JobsMove s (.worker .start) t
  | endJob {t : VerificationSystem} (i : Nat) (behaviour : Nat → VerifyBehaviour) (job : VerificationJob)
      (verifier : Option Verifier) (hi : s.worker.jobs[i]? = some (.running job verifier))
      (hstores : t.stores = s.stores)
      (hworker : t.worker = { s.worker with
        jobs := s.worker.jobs.set i (.ended (executeJob job verifier s.worker.config behaviour).completion) }) :
    JobsMove s (.endJob i behaviour) t
  | joinPanic {t : VerificationSystem} (i : Nat) (now : Instant) (message : String)
      (hi : s.worker.jobs[i]? = some (.ended (.error message)))
      (hphase : t.worker.phase = .returned (.error (.task message))) (hstores : t.stores = s.stores) :
    JobsMove s (.worker (.join i now)) t
  /-- an outcome is committed -/
  | join {t : VerificationSystem} (i : Nat) (now : Instant) (draining : Bool) (completion : JobCompletion)
      (result : Except Error StoreChange) (hphase : ∀ result, s.worker.phase ≠ .returned result)
      (hi : s.worker.jobs[i]? = some (.ended (.ok completion)))
      (hresult : (s.stores.store.finishVerification now completion.job completion.outcome).result = result)
      (hstores : t.stores = (s.stores.perform (.finishVerification now completion.job completion.outcome)).1)
      (hworker : t.worker =
        (s.worker.joined i completion.job.verificationId).concluded completion.job.verificationId draining result) :
    JobsMove s (.worker (.join i now)) t

section

variable [Sha256] {s t : VerificationSystem} {a : VerificationAction}

theorem VerificationEffect.jobsMove (heffect : VerificationEffect s a t) : JobsMove s a t := by
  -- a step of the worker that keeps its jobs and goes on
  have hgoes : ∀ {a : VerificationAction} {t : VerificationSystem} {phase : WorkerPhase}, s.worker.phase = phase →
      (∀ result, phase ≠ .returned result) → (∀ result, t.worker.phase ≠ .returned result) → t.stores = s.stores →
      t.worker.fixedPart = s.worker.fixedPart → t.worker.activeIds = s.worker.activeIds → JobsMove s a t := by
    intro a t phase hphase hbefore hafter hstores hfixed hactive
    exact .same hstores hfixed hactive
      (.inr ⟨fun result h => hbefore result (hphase.symm.trans h), fun result h => absurd h (hafter result)⟩)
  cases heffect with
  | operation a hfinish hevict | evict id cause hsome => exact .operation rfl rfl
  | publish i event rest hi | requestStop => exact .same rfl rfl rfl (.inl rfl)
  | endJob i behaviour job verifier hi => exact .endJob i behaviour job verifier hi rfl rfl
  | flush event rest houtbox => exact .same rfl rfl rfl (.inl rfl)
  | reconcile houtbox hphase => exact hgoes hphase (by rintro _ ⟨⟩) (by rintro _ ⟨⟩) rfl rfl rfl
  | visit id remaining ready houtbox hphase =>
    exact hgoes hphase (by rintro _ ⟨⟩) (by rintro _ ⟨⟩) rfl rfl rfl
  | collect ready houtbox hphase =>
    refine hgoes hphase (by rintro _ ⟨⟩) (by rintro _ ⟨⟩) rfl ?_ (s.worker.foldl_enqueue_activeIds ready)
    exact s.worker.foldl_enqueue_fixedPart ready
  | stopTop houtbox hphase hstop | starting houtbox hphase | select houtbox hphase =>
    exact hgoes hphase (by rintro _ ⟨⟩) (by rintro _ ⟨⟩) rfl rfl rfl
  | skip id rest houtbox hphase hpending hactive => exact .same rfl rfl rfl (.inl rfl)
  | claim id rest result houtbox hphase hslot hstop hpending hactive hresult =>
    rcases s.stores.store.beginVerification_cases id with ⟨⟨hstore, -⟩, hnone, -⟩ | ⟨r, proof, -, -, hsome⟩
    · cases hnone.symm.trans hresult
      have hstores : (s.stores.perform (.beginVerification id)).1 = s.stores := by
        simp only [StoreSystem.perform, ProofStore.issuedBy, hnone, hstore, List.nil_append]
      exact .same hstores rfl rfl (.inl rfl)
    · cases hsome.symm.trans hresult
      exact .claim id rest _ hphase hslot hstop hactive hsome rfl rfl
  | takeStop houtbox hphase hstop => exact hgoes hphase (by rintro _ ⟨⟩) (by rintro _ ⟨⟩) rfl rfl rfl
  | receive result receiver worker houtbox hphase hrecv hworker =>
    obtain ⟨hactive, hafter⟩ := VerificationWorker.handleStoreResult_activeIds hworker (by rintro _ ⟨⟩)
    have hfixed := VerificationWorker.handleStoreResult_fixedPart hworker
    exact hgoes hphase (by rintro _ ⟨⟩) hafter rfl hfixed hactive
  | closed result receiver error houtbox hphase hrecv hworker =>
    -- the worker holds the store, so its subscription is never closed
    cases result with
    | closed => exact absurd hrecv (Receiver.recv_ne_closed _)
    | lagged => cases hworker
    | event event => exact absurd hworker (VerificationWorker.handleStoreResult_event_ne_error _)
  | joinPanic i now draining message houtbox hphase hi => exact .joinPanic i now message hi rfl rfl
  | join i now draining completion result houtbox hphase hi hresult =>
    refine .join i now draining completion result (fun result h => ?_) hi hresult rfl rfl
    rw [hphase] at h
    cases draining <;> cases h
  | requeue id draining houtbox hphase =>
    refine hgoes hphase (by rintro _ ⟨⟩) (fun result h => ?_) rfl (s.worker.requeue_fixedPart id draining _) ?_
    · simp only [VerificationWorker.requeue] at h
      split at h <;> cases draining <;> simp at h
    · simp only [VerificationWorker.requeue]
      split <;> simp
  | finish houtbox hphase hjobs =>
    refine .same rfl rfl rfl (.inr ⟨fun result h => ?_, fun result h => ?_⟩)
    · cases hphase.symm.trans h
    · cases h
      exact ⟨rfl, hjobs⟩

theorem VerificationEffect.stopRequested (heffect : VerificationEffect s a t) (hs : s.stopRequested = true) :
    t.stopRequested = true := by
  cases heffect with
  | requestStop => rfl
  | _ => exact hs

end

namespace VerificationSystem

/-- A job has panicked, or `run` has returned an error. -/
def Failed (s : VerificationSystem) : Prop :=
  (∃ message, .ended (.error message) ∈ s.worker.jobs) ∨ ∃ error, s.worker.phase = .returned (.error error)

/-- The three collections of the worker agree. -/
structure Collected (config : VerificationConfig) (s : VerificationSystem) : Prop where
  tidy : s.worker.Tidy
  bounded : s.worker.jobs.length ≤ config.maxConcurrentJobs
  active : ∀ id, id ∈ s.worker.activeIds ↔ ∃ job ∈ s.worker.runningJobs, job.verificationId = id
  single : (s.worker.runningJobs.map VerificationJob.verificationId).Nodup

/-- The collections of the worker and the records of the store agree. -/
structure Live (config : VerificationConfig) (s : VerificationSystem) : Prop extends Collected config s where
  verifying : ∀ id e, s.stores.store.get id = some e → (e.value.metadata.verification = some .verifying ↔
    ∃ job ∈ s.worker.runningJobs, job.verificationId = id ∧ job.claim = e)

/-- The outcome of the job is committed in a step of the run. -/
def Committed (L : Lts VerificationSystem VerificationAction) (s₀ : VerificationSystem) (as : List VerificationAction)
    (job : VerificationJob) : Prop :=
  ∃ before i now after u completion, as = before ++ .worker (.join i now) :: after ∧ L.Run s₀ before u ∧
    u.worker.jobs[i]? = some (.ended (.ok completion)) ∧ completion.job = job

/-- What the steps keep as long as the worker has not failed. -/
structure Flight [Sha256] (config : VerificationConfig) (s : VerificationSystem) : Prop extends Collected config s where
  wellFormed : s.stores.store.WellFormed
  fresh : s.stores.ClaimsFresh
  config_eq : s.worker.config = config
  issued : ∀ job ∈ s.worker.runningJobs, job ∈ s.stores.issued
  verifying : ∀ id e, s.stores.store.get id = some e → e.value.metadata.verification = some .verifying →
    ∃ job ∈ s.worker.runningJobs, job.verificationId = id ∧ job.claim = e
  stopped : s.worker.phase = .returned (.ok ()) → s.worker.jobs = []

section

variable [Sha256] {config : VerificationConfig} {s t : VerificationSystem} {a : VerificationAction}

theorem Flight.live (hs : s.Flight config) : s.Live config := by
  refine ⟨hs.toCollected, fun id e he => ⟨hs.verifying id e he, ?_⟩⟩
  rintro ⟨job, hjob, -, rfl⟩
  exact (hs.fresh.claimed job (hs.issued job hjob) id _ he rfl).2.2

omit [Sha256] in
theorem failed_of_ended {i : Nat} {task : JobTask} {message : String} (hi : s.worker.jobs[i]? = some task)
    (hjobs : t.worker.jobs = s.worker.jobs.set i (.ended (.error message))) : t.Failed := by
  refine .inl ⟨message, ?_⟩
  rw [hjobs]
  exact List.mem_set (List.getElem?_eq_some_iff.1 hi).1 _

theorem Failed.step (hs : s.Failed) (hmove : JobsMove s a t) : t.Failed := by
  cases hmove with
  | same hstores hfixed hactive hphase =>
    rw [Failed, VerificationWorker.jobs_eq_of_fixedPart hfixed]
    refine hs.imp_right ?_
    rintro ⟨error, herror⟩
    rcases hphase with hsame | ⟨hbefore, -⟩
    · exact ⟨error, hsame.trans herror⟩
    · exact absurd herror (hbefore _)
  | operation hstores hworker =>
    rw [Failed, hworker]
    exact hs
  | claim id rest job hphase hslot hstop hactive hresult hstores hworker =>
    rw [Failed, hworker]
    exact hs.imp_left fun ⟨message, hmem⟩ => ⟨message, List.mem_append_left _ hmem⟩
  | endJob i behaviour job verifier hi hstores hworker =>
    rw [Failed, hworker]
    refine hs.imp_left ?_
    rintro ⟨message, hmem⟩
    obtain ⟨before, after, hold, hset, -⟩ := VerificationWorker.split_jobs hi
    rw [hold, List.mem_append, List.mem_cons] at hmem
    refine ⟨message, ?_⟩
    rw [hset, List.mem_append, List.mem_cons]
    exact hmem.imp_right fun h => .inr (h.resolve_left fun h => nomatch h)
  | joinPanic i now message hi hphase hstores => exact .inr ⟨_, hphase⟩
  | join i now draining completion result hphase hi hresult hstores hworker =>
    obtain ⟨message, hmem⟩ := hs.resolve_right fun ⟨error, herror⟩ => hphase _ herror
    obtain ⟨before, after, hold, -, herase⟩ := VerificationWorker.split_jobs hi
    rw [hold, List.mem_append, List.mem_cons] at hmem
    have hkept : .ended (.error message) ∈ s.worker.jobs.eraseIdx i := by
      rw [herase, List.mem_append]
      exact hmem.imp_right fun h => h.resolve_left fun h => nomatch h
    rw [Failed, hworker]
    cases result <;> exact .inl ⟨message, hkept⟩

/-- The worker does not fail when the shift of the backoff cannot overflow. -/
theorem Flight.not_failed (hs : s.Flight config) (hretries : config.maxRetries ≤ 32) (hok : ¬ s.Failed)
    (hmove : JobsMove s a t) : ¬ t.Failed := by
  have hpanic : ∀ {message}, .ended (.error message) ∉ s.worker.jobs := fun hmem => hok (.inl ⟨_, hmem⟩)
  have hreturn : ∀ {error}, s.worker.phase ≠ .returned (.error error) := fun herror => hok (.inr ⟨_, herror⟩)
  cases hmove with
  | same hstores hfixed hactive hphase =>
    rw [Failed, VerificationWorker.jobs_eq_of_fixedPart hfixed]
    rintro (⟨message, hmem⟩ | ⟨error, herror⟩)
    · exact hpanic hmem
    · rcases hphase with hsame | ⟨-, hafter⟩
      · exact hreturn (hsame.symm.trans herror)
      · cases (hafter _ herror).1
  | operation hstores hworker =>
    rw [Failed, hworker]
    exact hok
  | claim id rest job hphase hslot hstop hactive hresult hstores hworker =>
    rw [Failed, hworker]
    rintro (⟨message, hmem⟩ | ⟨error, herror⟩)
    · rcases List.mem_append.1 hmem with hmem | hmem
      · exact hpanic hmem
      · cases List.mem_singleton.1 hmem
    · exact hreturn herror
  | endJob i behaviour job verifier hi hstores hworker =>
    rw [Failed, hworker]
    rintro (⟨message, hmem⟩ | ⟨error, herror⟩)
    · obtain ⟨completion, hcompletion⟩ := executeJob_completes job verifier behaviour hretries
      rw [← hs.config_eq] at hcompletion
      rw [hcompletion] at hmem
      rcases List.mem_or_eq_of_mem_set hmem with hmem | hmem
      · exact hpanic hmem
      · cases hmem
    · exact hreturn herror
  | joinPanic i now message hi hphase hstores => exact absurd (List.mem_of_getElem? hi) hpanic
  | join i now draining completion result hphase hi hresult hstores hworker =>
    have hjob : completion.job ∈ s.stores.issued :=
      hs.issued _ (VerificationWorker.mem_runningJobs.2 ⟨_, List.mem_of_getElem? hi, rfl⟩)
    rw [Failed, hworker]
    rintro (⟨message, hmem⟩ | ⟨error, herror⟩)
    · have hmem' : .ended (.error message) ∈ s.worker.jobs.eraseIdx i := by cases result <;> exact hmem
      exact hpanic (List.mem_of_mem_eraseIdx hmem')
    · cases result with
      | error error => exact hs.fresh.finish_ne_error hjob hresult
      | ok change => cases herror

theorem Flight.same (hs : s.Flight config) (htidy : t.worker.Tidy) (hstores : t.stores = s.stores)
    (hconfig : t.worker.config = s.worker.config) (hlength : t.worker.jobs.length = s.worker.jobs.length)
    (hrunning : t.worker.runningJobs = s.worker.runningJobs) (hactive : t.worker.activeIds = s.worker.activeIds)
    (hstopped : t.worker.phase = .returned (.ok ()) → s.worker.jobs = []) : t.Flight config where
  wellFormed := hstores ▸ hs.wellFormed
  fresh := hstores ▸ hs.fresh
  config_eq := hconfig.trans hs.config_eq
  tidy := htidy
  bounded := hlength.trans_le hs.bounded
  active := by rw [hactive, hrunning]; exact hs.active
  single := hrunning ▸ hs.single
  issued := by rw [hrunning, hstores]; exact hs.issued
  verifying := by rw [hrunning, hstores]; exact hs.verifying
  stopped hphase := List.eq_nil_of_length_eq_zero (by rw [hlength, hstopped hphase, List.length_nil])

/-- A job is started: its identifier had none, and its claim is the record that became `Verifying`. -/
theorem Flight.claim (hs : s.Flight config) {id : VerificationId} {rest : List VerificationId} {job : VerificationJob}
    (htidy : t.worker.Tidy) (hphase : s.worker.phase = .starting)
    (hslot : s.worker.jobs.length < s.worker.config.maxConcurrentJobs) (hactive : id ∉ s.worker.activeIds)
    (hresult : (s.stores.store.beginVerification id).result = .ok (some job))
    (hstores : t.stores = (s.stores.perform (.beginVerification id)).1)
    (hworker : t.worker = (s.worker.popped id rest).spawn job) : t.Flight config := by
  rcases s.stores.store.beginVerification_cases id with ⟨-, hnone, -⟩ | ⟨r, proof, hmoves, -, hsome⟩
  · cases hnone.symm.trans hresult
  · cases hsome.symm.trans hresult
    -- the job is the last of those that run
    have hrunning : t.worker.runningJobs = s.worker.runningJobs ++ [⟨id, proof, ⟨s.stores.store.nextAddr, r⟩⟩] := by
      rw [hworker]
      exact List.filterMap_append ..
    have hissued : t.stores.issued = ⟨id, proof, ⟨s.stores.store.nextAddr, r⟩⟩ :: s.stores.issued := by
      rw [hstores]
      simp only [StoreSystem.perform, ProofStore.issuedBy, hsome, List.singleton_append]
    have hstore : t.stores.store = s.stores.store.put id r := by
      rw [hstores]
      exact hmoves.store_eq
    exact {
      wellFormed := hstores ▸ hs.wellFormed.perform _
      fresh := hstores ▸ hs.fresh.perform _
      config_eq := by rw [hworker]; exact hs.config_eq
      tidy := htidy
      bounded := by
        rw [hworker, ← hs.config_eq]
        exact (List.length_append ..).trans_le hslot
      active := by
        intro id'
        have hold := hs.active id'
        rw [hworker]
        change id' ∈ insert id s.worker.activeIds ↔ _
        rw [← hworker, hrunning, Finset.mem_insert, hold]
        simp only [List.mem_append, List.mem_singleton, or_and_right, exists_or, exists_eq_left, @eq_comm _ id id']
        exact or_comm
      single := by
        rw [hrunning, List.map_append, List.nodup_append]
        refine ⟨hs.single, List.nodup_singleton _, fun id' hid' id'' hid'' => ?_⟩
        rintro rfl
        obtain ⟨job', hjob', rfl⟩ := List.mem_map.1 hid'
        exact hactive ((hs.active id).2 ⟨job', hjob', List.mem_singleton.1 hid''⟩)
      issued := by
        intro job' hjob'
        rw [hissued]
        rw [hrunning] at hjob'
        rcases List.mem_append.1 hjob' with hjob' | hjob'
        · exact List.mem_cons_of_mem _ (hs.issued job' hjob')
        · rw [List.mem_singleton.1 hjob']
          exact List.mem_cons_self
      verifying := by
        intro id' e he hv
        rw [hrunning]
        rw [hstore] at he
        rcases ProofStore.get_put_cases he with ⟨rfl, rfl⟩ | ⟨-, he⟩
        · exact ⟨_, List.mem_append_right _ (List.mem_singleton_self _), rfl, rfl⟩
        · obtain ⟨job', hjob', hclaim⟩ := hs.verifying id' e he hv
          exact ⟨job', List.mem_append_left _ hjob', hclaim⟩
      stopped := fun h => by
        rw [hworker] at h
        cases hphase.symm.trans h }

theorem Flight.join (hs : s.Flight config) {i : Nat} {now : Instant} {completion : JobCompletion} {draining : Bool}
    (htidy : t.worker.Tidy) (hi : s.worker.jobs[i]? = some (.ended (.ok completion)))
    (hstores : t.stores = (s.stores.perform (.finishVerification now completion.job completion.outcome)).1)
    (hworker : t.worker =
      (s.worker.joined i completion.job.verificationId).committed completion.job.verificationId draining) :
    t.Flight config := by
  have hperm := VerificationWorker.runningJobs_eraseIdx hi (show _ = some completion.job from rfl)
  have hrunning : t.worker.runningJobs = (s.worker.jobs.eraseIdx i).filterMap JobTask.job? := by rw [hworker]; rfl
  rw [← hrunning] at hperm
  have hjob : completion.job ∈ s.stores.issued := hs.issued _ (hperm.mem_iff.2 List.mem_cons_self)
  have hsingle := (hperm.map VerificationJob.verificationId).nodup_iff.1 hs.single
  rw [List.map_cons, List.nodup_cons] at hsingle
  have hbegin : ∀ id, StoreAction.finishVerification now completion.job completion.outcome ≠ .beginVerification id :=
    fun _ h => nomatch h
  have hissued : t.stores.issued = s.stores.issued := by
    rw [hstores]
    exact s.stores.issued_perform hbegin
  exact {
    wellFormed := hstores ▸ hs.wellFormed.perform _
    fresh := hstores ▸ hs.fresh.perform _
    config_eq := by rw [hworker]; exact hs.config_eq
    tidy := htidy
    bounded := by
      have hlength : t.worker.jobs.length ≤ s.worker.jobs.length := by
        rw [hworker]
        exact (List.eraseIdx_sublist ..).length_le
      exact hlength.trans hs.bounded
    active := by
      intro id
      have hactive : t.worker.activeIds = s.worker.activeIds.erase completion.job.verificationId := by rw [hworker]; rfl
      rw [hactive, Finset.mem_erase, hs.active]
      simp only [hperm.mem_iff, List.mem_cons]
      constructor
      · rintro ⟨hne, job, rfl | hmem, rfl⟩
        · exact absurd rfl hne
        · exact ⟨job, hmem, rfl⟩
      · rintro ⟨job, hmem, rfl⟩
        refine ⟨fun heq => hsingle.1 ?_, job, .inr hmem, rfl⟩
        rw [← heq]
        exact List.mem_map_of_mem hmem
    single := hsingle.2
    issued := fun job hmem => hissued ▸ hs.issued job (hperm.mem_iff.2 (List.mem_cons_of_mem _ hmem))
    verifying := by
      intro id e he hv
      rw [hstores] at he
      have hold := StoreSystem.verifying_perform hs.wellFormed hbegin he hv
      obtain ⟨job, hmem, rfl, rfl⟩ := hs.verifying id e hold hv
      rcases List.mem_cons.1 (hperm.mem_iff.1 hmem) with rfl | hmem
      · -- the committed claim was current, so its record has been replaced
        have hcurrent : s.stores.current completion.job = true := StoreSystem.current_iff.2 ⟨_, hold, rfl⟩
        have hstale := hs.fresh.not_current_of_finish hjob hcurrent now completion.outcome
        rw [StoreSystem.current_iff.2 ⟨_, he, rfl⟩] at hstale
        cases hstale
      · exact ⟨job, hmem, rfl, rfl⟩
    stopped := fun h => by
      rw [hworker] at h
      cases h }

/-- Every step that does not fail keeps the jobs in order. -/
theorem Flight.step (hs : s.Flight config) (hleaves : a.leavesClaims = true) (htidy : t.worker.Tidy) (hok : ¬ t.Failed)
    (hmove : JobsMove s a t) : t.Flight config := by
  cases hmove with
  | same hstores hfixed hactive hphase =>
    have hjobs := VerificationWorker.jobs_eq_of_fixedPart hfixed
    refine hs.same htidy hstores (congrArg (·.2.2) hfixed) (by rw [hjobs])
      (congrArg (List.filterMap JobTask.job?) hjobs) hactive fun hreturned => ?_
    rcases hphase with hsame | ⟨-, hafter⟩
    · exact hs.stopped (hsame.symm.trans hreturned)
    · exact (hafter _ hreturned).2
  | @operation a _ hstores hworker =>
    have hbegin : ∀ id, a ≠ .beginVerification id := by
      rintro id rfl
      cases hleaves
    have hissued : t.stores.issued = s.stores.issued := by
      rw [hstores]
      exact s.stores.issued_perform hbegin
    exact {
      wellFormed := hstores ▸ hs.wellFormed.perform a
      fresh := hstores ▸ hs.fresh.perform a
      config_eq := hworker ▸ hs.config_eq
      tidy := htidy
      bounded := hworker ▸ hs.bounded
      active := hworker ▸ hs.active
      single := hworker ▸ hs.single
      issued := by rw [hworker, hissued]; exact hs.issued
      verifying := by
        intro id e he hv
        rw [hstores] at he
        rw [hworker]
        exact hs.verifying id e (StoreSystem.verifying_perform hs.wellFormed hbegin he hv) hv
      stopped := hworker ▸ hs.stopped }
  | claim id rest job hphase hslot hstop hactive hresult hstores hworker =>
    exact hs.claim htidy hphase hslot hactive hresult hstores hworker
  | endJob i behaviour job verifier hi hstores hworker =>
    rcases executeJob_job? job verifier s.worker.config behaviour with hjob | ⟨message, hmessage⟩
    · -- the job stays among the tasks until it is joined
      refine hs.same htidy hstores (by rw [hworker]) (by rw [hworker]; exact List.length_set) ?_ (by rw [hworker])
        fun hreturned => hs.stopped (by rw [hworker] at hreturned; exact hreturned)
      rw [VerificationWorker.runningJobs, hworker]
      exact VerificationWorker.runningJobs_set hi rfl hjob
    · exact absurd (failed_of_ended hi (by rw [hworker, hmessage])) hok
  | joinPanic i now message hi hphase hstores => exact absurd (.inr ⟨_, hphase⟩) hok
  | join i now draining completion result hphase hi hresult hstores hworker =>
    cases result with
    | error error =>
      refine absurd (.inr ⟨error, ?_⟩) hok
      rw [hworker]
      rfl
    | ok change => exact hs.join htidy hi hstores hworker

/-! ### Runs -/

theorem initial_flight {storeConfig : ProofStoreConfig} {store : ProofStore}
    (hnew : ProofStore.new storeConfig = .ok store)
    (registry : VerifierRegistry) (config : VerificationConfig) (capacity : Nat) :
    (initial store registry config capacity).Flight config := by
  have hnone : ∀ id e, store.get id ≠ some e := by
    intro id e he
    rw [ProofStore.new_get hnew] at he
    cases he
  exact {
    wellFormed := fun id e he => absurd he (hnone id e)
    fresh := ⟨fun id e he => absurd he (hnone id e), by simp [initial], by simp [initial], by simp [initial]⟩
    config_eq := rfl
    tidy := .of_pending_nil rfl rfl
    bounded := Nat.zero_le _
    active := by simp [initial, VerificationWorker.new, VerificationWorker.runningJobs]
    single := .nil
    issued := fun _ h => nomatch h
    verifying := fun id e he => absurd he (hnone id e)
    stopped := fun h => nomatch h }

omit [Sha256] in
theorem Committed.snoc {L : Lts VerificationSystem VerificationAction} {s₀ : VerificationSystem}
    {as : List VerificationAction} {job : VerificationJob} (h : Committed L s₀ as job) (a : VerificationAction) :
    Committed L s₀ (as ++ [a]) job := by
  obtain ⟨before, i, now, after, u, completion, rfl, hrun, hi, hjob⟩ := h
  exact ⟨before, i, now, after ++ [a], u, completion, by simp, hrun, hi, hjob⟩

/-- A step keeps every job that was handed out running, or commits it. -/
theorem Flight.accounted {L : Lts VerificationSystem VerificationAction} {s₀ : VerificationSystem}
    {as : List VerificationAction} (hrun : L.Run s₀ as s) (hleaves : a.leavesClaims = true) (hok : ¬ t.Failed)
    (hmove : JobsMove s a t)
    (hs : ∀ job ∈ s.stores.issued, job ∈ s.worker.runningJobs ∨ Committed L s₀ as job) :
    ∀ job ∈ t.stores.issued, job ∈ t.worker.runningJobs ∨ Committed L s₀ (as ++ [a]) job := by
  -- nothing is handed out, and nothing stops running
  have hkept : t.stores.issued = s.stores.issued → (∀ job ∈ s.worker.runningJobs, job ∈ t.worker.runningJobs) →
      ∀ job ∈ t.stores.issued, job ∈ t.worker.runningJobs ∨ Committed L s₀ (as ++ [a]) job := by
    intro hissued hrunning job hjob
    rw [hissued] at hjob
    exact (hs job hjob).imp (hrunning job) fun h => h.snoc a
  cases hmove with
  | same hstores hfixed hactive hphase =>
    refine hkept (by rw [hstores]) fun job hjob => ?_
    rwa [VerificationWorker.runningJobs, VerificationWorker.jobs_eq_of_fixedPart hfixed]
  | @operation a _ hstores hworker =>
    refine hkept ?_ fun job hjob => hworker ▸ hjob
    rw [hstores]
    refine s.stores.issued_perform ?_
    rintro id rfl
    cases hleaves
  | claim id rest job hphase hslot hstop hactive hresult hstores hworker =>
    have hrunning : t.worker.runningJobs = s.worker.runningJobs ++ [job] := by
      rw [hworker]
      exact List.filterMap_append ..
    intro job' hjob'
    rw [hstores] at hjob'
    simp only [StoreSystem.perform, ProofStore.issuedBy, hresult, List.singleton_append, List.mem_cons] at hjob'
    rw [hrunning, List.mem_append, List.mem_singleton]
    rcases hjob' with rfl | hjob'
    · exact .inl (.inr rfl)
    · exact (hs job' hjob').imp .inl fun h => h.snoc _
  | endJob i behaviour job verifier hi hstores hworker =>
    refine hkept (by rw [hstores]) fun job' hjob' => ?_
    rcases executeJob_job? job verifier s.worker.config behaviour with hjob | ⟨message, hmessage⟩
    · have hrunning : t.worker.runningJobs = s.worker.runningJobs := by
        rw [hworker]
        exact VerificationWorker.runningJobs_set hi rfl hjob
      rwa [hrunning]
    · exact absurd (failed_of_ended hi (by rw [hworker, hmessage])) hok
  | joinPanic i now message hi hphase hstores => exact absurd (.inr ⟨_, hphase⟩) hok
  | join i now draining completion result hphase hi hresult hstores hworker =>
    intro job hjob
    rw [hstores, s.stores.issued_perform fun _ h => by cases h] at hjob
    rcases hs job hjob with hrunning | hcommitted
    · have hperm := VerificationWorker.runningJobs_eraseIdx hi (show _ = some completion.job from rfl)
      rcases List.mem_cons.1 (hperm.mem_iff.1 hrunning) with rfl | hrest
      · exact .inr ⟨as, i, now, [], s, completion, rfl, hrun, hi, rfl⟩
      · refine .inl ?_
        rw [hworker]
        cases result <;> exact hrest
    · exact .inr (hcommitted.snoc _)

theorem issued_of_stopRequested {L : Lts VerificationSystem VerificationAction}
    (hL : ∀ {s a t}, L.step s a t → s.next a = some t ∧ a.leavesClaims = true) {as : List VerificationAction}
    (hrun : L.Run s as t) (hstop : s.stopRequested = true) : t.stores.issued = s.stores.issued := by
  refine (hrun.invariant (P := fun t => t.stopRequested = true ∧ t.stores.issued = s.stores.issued) ?_ ⟨hstop, rfl⟩).2
  intro u a v hu hstep
  obtain ⟨hnext, hleaves⟩ := hL hstep
  refine ⟨(next_effect hnext).stopRequested hu.1, ?_⟩
  rw [← hu.2]
  cases (next_effect hnext).jobsMove with
  | same hstores hfixed hactive hphase => rw [hstores]
  | @operation a _ hstores hworker =>
    rw [hstores]
    refine u.stores.issued_perform ?_
    rintro id rfl
    cases hleaves
  | claim id rest job hphase hslot hstop hactive hresult hstores hworker => cases hu.1.symm.trans hstop
  | endJob i behaviour job verifier hi hstores hworker | joinPanic i now message hi hphase hstores => rw [hstores]
  | join i now draining completion result hphase hi hresult hstores hworker =>
    rw [hstores]
    exact u.stores.issued_perform (fun _ h => nomatch h)

/-- Until a failure the jobs are in order, and every job handed out runs or was committed. -/
theorem run_flight {storeConfig : ProofStoreConfig} {store : ProofStore}
    (hnew : ProofStore.new storeConfig = .ok store) {registry : VerifierRegistry} {capacity : Nat}
    {as : List VerificationAction}
    (hrun : ((lts store registry config capacity).restrict fun _ a => a.leavesClaims).Run
      (initial store registry config capacity) as s) :
    (config.maxRetries ≤ 32 → ¬ s.Failed) ∧
    (¬ s.Failed → s.Flight config ∧
      ∀ job ∈ s.stores.issued, job ∈ s.worker.runningJobs ∨
        Committed ((lts store registry config capacity).restrict fun _ a => a.leavesClaims)
          (initial store registry config capacity) as job) := by
  let L := (lts store registry config capacity).restrict fun _ a => a.leavesClaims
  let s₀ := initial store registry config capacity
  -- the collections are tidy in any case
  have hinvariant : L.Run s₀ as s ∧ s.worker.Tidy ∧ (config.maxRetries ≤ 32 → ¬ s.Failed) ∧
    (¬ s.Failed → s.Flight config ∧
      ∀ job ∈ s.stores.issued, job ∈ s.worker.runningJobs ∨ Committed L s₀ as job) := by
    refine hrun.invariant_trace (P := fun as s => L.Run s₀ as s ∧ s.worker.Tidy ∧
      (config.maxRetries ≤ 32 → ¬ s.Failed) ∧
      (¬ s.Failed → s.Flight config ∧
        ∀ job ∈ s.stores.issued, job ∈ s.worker.runningJobs ∨ Committed L s₀ as job)) ?_ ?_
    · rintro as s a t ⟨hrun, htidy, hok, hs⟩ hstep
      have heffect := next_effect hstep.1
      have hmove := heffect.jobsMove
      have hleaves : a.leavesClaims = true := hstep.2
      have htidy' := heffect.tidy htidy
      refine ⟨hrun.snoc hstep, htidy', fun hretries => ?_, fun hok' => ?_⟩
      · exact (hs (hok hretries)).1.not_failed hretries (hok hretries) hmove
      · obtain ⟨hflight, haccounted⟩ := hs fun hfailed => hok' (hfailed.step hmove)
        exact ⟨hflight.step hleaves htidy' hok' hmove, Flight.accounted hrun hleaves hok' hmove haccounted⟩
    · refine ⟨.refl _, .of_pending_nil rfl rfl, fun _ => ?_, fun _ =>
        ⟨initial_flight hnew registry config capacity, ?_⟩⟩
      · rintro (⟨message, hmem⟩ | ⟨error, herror⟩)
        · cases hmem
        · cases herror
      · intro job hjob
        cases hjob
  exact ⟨hinvariant.2.2.1, hinvariant.2.2.2⟩

/-- The worker is the only one that claims records.  It fails only if more than 32 retries let a job panic.  Between its
steps its collections, its jobs and the records that are `Verifying` agree.  When `run` returns `Ok`, no job was started
after the stop was requested, every job was committed, and no record is left `Verifying`.  The worker checks the token
and claims a record in one step, so a stop that is requested between the two counts as one after the claim. -/
theorem verifying_iff_running {storeConfig : ProofStoreConfig} {store : ProofStore}
    (hnew : ProofStore.new storeConfig = .ok store) {registry : VerifierRegistry} {capacity : Nat}
    {as : List VerificationAction}
    (hrun : ((lts store registry config capacity).restrict fun _ a => a.leavesClaims).Run
      (initial store registry config capacity) as s) :
    (config.maxRetries ≤ 32 → ¬ s.Failed) ∧
    (¬ s.Failed → s.Live config ∧
      (s.worker.phase = .returned (.ok ()) →
        (∀ before u after, as = before ++ after →
          ((lts store registry config capacity).restrict fun _ a => a.leavesClaims).Run
            (initial store registry config capacity) before u →
          ((lts store registry config capacity).restrict fun _ a => a.leavesClaims).Run u after s →
          u.stopRequested = true → s.stores.issued = u.stores.issued) ∧
        (∀ job ∈ s.stores.issued, Committed ((lts store registry config capacity).restrict fun _ a => a.leavesClaims)
          (initial store registry config capacity) as job) ∧
        ∀ id e, s.stores.store.get id = some e → e.value.metadata.verification ≠ some .verifying)) := by
  obtain ⟨hok, hs⟩ := run_flight hnew hrun
  refine ⟨hok, fun hok' => ?_⟩
  obtain ⟨hflight, haccounted⟩ := hs hok'
  refine ⟨hflight.live, fun hreturned => ?_⟩
  -- no job is left when `run` returns
  have hnone : s.worker.runningJobs = [] := by
    rw [VerificationWorker.runningJobs, hflight.stopped hreturned]
    rfl
  refine ⟨fun before u after _ _ hafter hstop => issued_of_stopRequested (fun h => h) hafter hstop, fun job hjob => ?_,
    fun id e he hv => ?_⟩
  · have h := haccounted job hjob
    rw [hnone] at h
    exact h.resolve_left List.not_mem_nil
  · obtain ⟨job, hjob, -⟩ := hflight.verifying id e he hv
    rw [hnone] at hjob
    cases hjob

end

/-- A record is claimed, evicted and inserted again; then the worker is stopped and drains the job of the first record,
whose outcome is dropped.  The second record stays queued. -/
theorem verifying_iff_running_drained :
    letI := Sha256.standard
    let id := Proof.small.verificationId
    let registry : VerifierRegistry := ⟨(∅ : AList fun _ : ProofType => Verifier).insert .minaPickles ⟨7⟩⟩
    let config : VerificationConfig := ⟨2, 30, 2, 250⟩
    let L := (lts .small registry config 16).restrict fun _ a => a.leavesClaims
    ∃ as s, L.Run (initial .small registry config 16) as s ∧ s.worker.phase = .returned (.ok ()) ∧ ¬ s.Failed ∧
      s.Live config ∧ s.stores.issued ≠ [] ∧ s.stores.store.Queued id ∧
      ∀ job ∈ s.stores.issued, Committed L (initial .small registry config 16) as job := by
  let _ := Sha256.standard
  intro id registry config L
  let as : List VerificationAction :=
    [.operation (.observeChainVerification 1 id), .operation (.insertLocalProof 2 .small .rpc), .worker .reconcile,
      .worker (.visit id), .worker .collect, .worker .top, .worker .start, .worker .flush,
      .operation (.evict id .size), .operation (.observeChainVerification 3 id),
      .operation (.insertLocalProof 4 .small .rpc), .worker .start, .requestStop, .worker .takeStop,
      .endJob 0 (fun _ => some (5, .returned (.ok .valid))), .worker (.join 0 9), .worker .requeue, .worker .finish]
  have hexec : (Lts.exec (Lts.guarded next fun _ a => a.leavesClaims) (initial .small registry config 16) as).any
      (fun s => decide (s.worker.phase = .returned (.ok ())) && !s.stores.issued.isEmpty &&
        (s.stores.store.get id).any fun e => e.value.metadata.verification = some .queued) = true := by
    decide +kernel
  obtain ⟨s, hs, hstate⟩ := (Option.any_eq_true _ _).1 hexec
  simp only [Bool.and_eq_true, decide_eq_true_eq, Bool.not_eq_true', List.isEmpty_eq_false_iff] at hstate
  obtain ⟨⟨hphase, hissued⟩, hrecord⟩ := hstate
  obtain ⟨e, he, hqueued⟩ := (Option.any_eq_true _ _).1 hrecord
  have hrun : L.Run (initial .small registry config 16) as s := Lts.run_restrict_of_exec hs
  have hnew : ProofStore.new .small = .ok .small := rfl
  obtain ⟨hok, hlive⟩ := verifying_iff_running hnew hrun
  have hok := hok (by decide)
  obtain ⟨hlive, hreturned⟩ := hlive hok
  exact ⟨as, s, hrun, hphase, hok, hlive, hissued, ⟨e, he, of_decide_eq_true hqueued⟩, (hreturned hphase).2.1⟩

end VerificationSystem

end PulsarVerifier
