import PulsarVerifier.Store.SingleFlight
import PulsarVerifier.Verification.Worker

/-!
# The store and the verification worker

The worker of `Verification.Worker` next to any number of tasks that call the store.  An operation of another task
commits in one step and publishes its events later, one at a time; an eviction emits its event in the step that removes
the record.  The worker publishes the events of its own operations before it goes on.  Jobs end on their own.  A
snapshot of the store takes time: Moka visits every record that is there when the iteration starts, and reads each
record when it comes to it.

`VerificationMove` says what a step can do to the store, the jobs and the calls of `verify`.
-/

namespace PulsarVerifier

structure VerificationSystem where
  stores : StoreSystem
  /-- the capacity of the event channel -/
  capacity : Nat
  /-- the events that operations of other tasks have still to publish -/
  publishing : List (List ProofStoreEvent)
  receiver : Receiver ProofStoreEvent
  /-- the events that the operation of the worker has still to publish -/
  outbox : List ProofStoreEvent
  worker : VerificationWorker
  stopRequested : Bool
  /-- every call of `verify` that has returned -/
  returns : List VerifyReturn

/-- One step of `VerificationWorker::run`. -/
inductive WorkerStep
  /-- the next event of the worker's own operation is published -/
  | flush
  | reconcile
  /-- the iteration of a snapshot comes to a record -/
  | visit (id : VerificationId)
  /-- the snapshot is complete -/
  | collect
  /-- the check at the top of the loop -/
  | top
  /-- one round of the loop of `start_ready_jobs` -/
  | start
  /-- the branch of the stop token -/
  | takeStop
  | receive
  /-- a job that has ended is joined and its outcome is committed -/
  | join (i : Nat) (now : Instant)
  /-- the rest of `commit_completion` -/
  | requeue
  /-- the last job has been drained -/
  | finish

inductive VerificationAction
  /-- an operation of another task, or an eviction -/
  | operation (action : StoreAction)
  /-- the `i`-th publisher sends its next event -/
  | publish (i : Nat)
  | requestStop
  /-- the `i`-th job runs to its end -/
  | endJob (i : Nat) (behaviour : Nat → VerifyBehaviour)
  | worker (step : WorkerStep)

namespace VerificationSystem

variable [Sha256]

/-! ### Steps -/

def operation (s : VerificationSystem) (action : StoreAction) : Option VerificationSystem :=
  let (stores, events) := s.stores.perform action
  match action with
  | .finishVerification .. => none
  | .evict id _ =>
    if (s.stores.store.get id).isSome then
      some { s with stores, receiver := s.receiver.sendAll s.capacity events }
    else none
  | _ => some { s with stores, publishing := s.publishing ++ [events] }

omit [Sha256] in
def publish (s : VerificationSystem) (i : Nat) : Option VerificationSystem :=
  match s.publishing[i]? with
  | some (event :: rest) =>
    some { s with receiver := s.receiver.send s.capacity event, publishing := s.publishing.set i rest }
  | _ => none

omit [Sha256] in
def endJob (s : VerificationSystem) (i : Nat) (behaviour : Nat → VerifyBehaviour) : Option VerificationSystem :=
  match s.worker.jobs[i]? with
  | some (.running job verifier) =>
    let run := executeJob job verifier s.worker.config behaviour
    some { s with
      worker := { s.worker with jobs := s.worker.jobs.set i (.ended run.completion) }
      returns := s.returns ++ run.returns }
  | _ => none

omit [Sha256] in
def flush (s : VerificationSystem) : Option VerificationSystem :=
  match s.outbox with
  | [] => none
  | event :: rest => some { s with receiver := s.receiver.send s.capacity event, outbox := rest }

omit [Sha256] in
def top (s : VerificationSystem) : VerificationSystem :=
  if s.stopRequested then
    { s with worker := { s.worker with pending := [], pendingIds := ∅, phase := .draining } }
  else { s with worker := { s.worker with phase := .starting } }

def start (s : VerificationSystem) : VerificationSystem :=
  let select := { s with worker := { s.worker with phase := .selecting } }
  if s.worker.jobs.length < s.worker.config.maxConcurrentJobs then
    if s.stopRequested then select
    else
      match s.worker.pending with
      | [] => select
      | id :: rest =>
        let worker := { s.worker with pending := rest, pendingIds := s.worker.pendingIds.erase id }
        if id ∈ s.worker.activeIds then { s with worker }
        else
          let (stores, events) := s.stores.perform (.beginVerification id)
          match (s.stores.store.beginVerification id).result with
          | .error error => { s with stores, outbox := events, worker := worker.returnError error }
          | .ok none => { s with stores, outbox := events, worker }
          | .ok (some job) => { s with stores, outbox := events, worker := worker.spawn job }
  else select

omit [Sha256] in
def receive (s : VerificationSystem) : Option VerificationSystem :=
  match s.receiver.recv with
  | none => none
  | some (result, receiver) =>
    match { s.worker with phase := .top }.handleStoreResult s.stores.store.records.keys result with
    | .error error => some { s with receiver, worker := s.worker.returnError error }
    | .ok worker => some { s with receiver, worker }

def join (s : VerificationSystem) (i : Nat) (now : Instant) (draining : Bool) : Option VerificationSystem :=
  match s.worker.jobs[i]? with
  | some (.ended completion) =>
    let worker := { s.worker with jobs := s.worker.jobs.eraseIdx i }
    match completion with
    | .error message => some { s with worker := worker.returnError (.task message) }
    | .ok completion =>
      let id := completion.job.verificationId
      let worker := { worker with activeIds := worker.activeIds.erase id }
      let (stores, events) := s.stores.perform (.finishVerification now completion.job completion.outcome)
      match (s.stores.store.finishVerification now completion.job completion.outcome).result with
      | .error error => some { s with stores, outbox := events, worker := worker.returnError error }
      | .ok _ => some { s with stores, outbox := events, worker := worker.committed id draining }
  | _ => none

/-- The worker takes a step; it waits while its own operation still publishes. -/
def workerStep (s : VerificationSystem) (step : WorkerStep) : Option VerificationSystem :=
  match step with
  | .flush => s.flush
  | step =>
    if s.outbox.isEmpty then
      match s.worker.phase, step with
      | .reconciling, .reconcile =>
        some { s with worker := s.worker.reconcileReadyRecords s.stores.store.records.keys }
      | .snapshotting _ _, .visit id =>
        (s.worker.visit id (s.stores.store.get id)).map fun worker => { s with worker }
      | .snapshotting _ _, .collect => s.worker.collect.map fun worker => { s with worker }
      | .top, .top => some s.top
      | .starting, .start => some s.start
      | .selecting, .takeStop =>
        if s.stopRequested then
          some { s with worker := { s.worker with pending := [], pendingIds := ∅, phase := .draining } }
        else none
      | .selecting, .receive => s.receive
      | .selecting, .join i now => s.join i now false
      | .requeueing id draining, .requeue =>
        some { s with worker := s.worker.requeue id draining (s.stores.store.get id) }
      | .draining, .join i now => s.join i now true
      | .draining, .finish =>
        if s.worker.jobs.isEmpty then some { s with worker := { s.worker with phase := .returned (.ok ()) } }
        else none
      | _, _ => none
    else none

def next (s : VerificationSystem) : VerificationAction → Option VerificationSystem
  | .operation action => s.operation action
  | .publish i => s.publish i
  | .requestStop => some { s with stopRequested := true }
  | .endJob i behaviour => s.endJob i behaviour
  | .worker step => s.workerStep step

omit [Sha256] in
def initial (store : ProofStore) (registry : VerifierRegistry) (config : VerificationConfig) (capacity : Nat) :
    VerificationSystem :=
  { stores := ⟨store, []⟩, capacity, publishing := [], receiver := .empty, outbox := []
    worker := .new registry config, stopRequested := false, returns := [] }

/-- The worker and the store, with `store` as its first state, under all interleavings. -/
def lts (store : ProofStore) (registry : VerifierRegistry) (config : VerificationConfig) (capacity : Nat) :
    Lts VerificationSystem VerificationAction :=
  .ofNext (· = initial store registry config capacity) next

end VerificationSystem

/-! ### What a step can do -/

/-- The worker gives up what is pending and only waits for its jobs. -/
def VerificationWorker.drain (w : VerificationWorker) : VerificationWorker :=
  { w with pending := [], pendingIds := ∅, phase := .draining }

def VerificationWorker.popped (w : VerificationWorker) (id : VerificationId) (rest : List VerificationId) :
    VerificationWorker :=
  { w with pending := rest, pendingIds := w.pendingIds.erase id }

/-- The worker without the job at `i`, which was the job of `id`. -/
def VerificationWorker.joined (w : VerificationWorker) (i : Nat) (id : VerificationId) : VerificationWorker :=
  { w with jobs := w.jobs.eraseIdx i, activeIds := w.activeIds.erase id }

def VerificationWorker.claimed (w : VerificationWorker) : Except Error (Option VerificationJob) → VerificationWorker
  | .error error => w.returnError error
  | .ok none => w
  | .ok (some job) => w.spawn job

def VerificationWorker.concluded (w : VerificationWorker) (id : VerificationId) (draining : Bool) :
    Except Error StoreChange → VerificationWorker
  | .error error => w.returnError error
  | .ok _ => w.committed id draining

/-- The steps of the system, each with the state before it and the state it leads to. -/
inductive VerificationEffect [Sha256] (s : VerificationSystem) : VerificationAction → VerificationSystem → Prop
  | operation (a : StoreAction) (hfinish : ∀ now job outcome, a ≠ .finishVerification now job outcome)
      (hevict : ∀ id cause, a ≠ .evict id cause) :
    VerificationEffect s (.operation a)
      { s with stores := (s.stores.perform a).1, publishing := s.publishing ++ [(s.stores.perform a).2] }
  | evict (id : VerificationId) (cause : ProofEvictionCause) (hsome : (s.stores.store.get id).isSome) :
    VerificationEffect s (.operation (.evict id cause))
      { s with
        stores := (s.stores.perform (.evict id cause)).1
        receiver := s.receiver.send s.capacity (.proofEvicted id cause) }
  | publish (i : Nat) (event : ProofStoreEvent) (rest : List ProofStoreEvent)
      (hi : s.publishing[i]? = some (event :: rest)) :
    VerificationEffect s (.publish i)
      { s with receiver := s.receiver.send s.capacity event, publishing := s.publishing.set i rest }
  | requestStop : VerificationEffect s .requestStop { s with stopRequested := true }
  | endJob (i : Nat) (behaviour : Nat → VerifyBehaviour) (job : VerificationJob) (verifier : Option Verifier)
      (hi : s.worker.jobs[i]? = some (.running job verifier)) :
    VerificationEffect s (.endJob i behaviour)
      { s with
        worker :=
          { s.worker with
            jobs := s.worker.jobs.set i (.ended (executeJob job verifier s.worker.config behaviour).completion) }
        returns := s.returns ++ (executeJob job verifier s.worker.config behaviour).returns }
  | flush (event : ProofStoreEvent) (rest : List ProofStoreEvent) (houtbox : s.outbox = event :: rest) :
    VerificationEffect s (.worker .flush)
      { s with receiver := s.receiver.send s.capacity event, outbox := rest }
  | reconcile (houtbox : s.outbox = []) (hphase : s.worker.phase = .reconciling) :
    VerificationEffect s (.worker .reconcile)
      { s with worker := s.worker.reconcileReadyRecords s.stores.store.records.keys }
  | visit (id : VerificationId) (remaining ready : List VerificationId) (houtbox : s.outbox = [])
      (hphase : s.worker.phase = .snapshotting remaining ready) :
    VerificationEffect s (.worker (.visit id))
      { s with worker.phase := .snapshotting (remaining.filter (· ≠ id))
                (VerificationWorker.readyWith ready id (s.stores.store.get id)) }
  | collect (ready : List VerificationId) (houtbox : s.outbox = []) (hphase : s.worker.phase = .snapshotting [] ready) :
    VerificationEffect s (.worker .collect)
      { s with worker := { ready.foldl VerificationWorker.enqueue s.worker with phase := .top } }
  | stopTop (houtbox : s.outbox = []) (hphase : s.worker.phase = .top) (hstop : s.stopRequested = true) :
    VerificationEffect s (.worker .top) { s with worker := s.worker.drain }
  | starting (houtbox : s.outbox = []) (hphase : s.worker.phase = .top) :
    VerificationEffect s (.worker .top) { s with worker := { s.worker with phase := .starting } }
  /-- no job is started: the slots are taken, the stop was requested, or nothing is pending -/
  | select (houtbox : s.outbox = []) (hphase : s.worker.phase = .starting) :
    VerificationEffect s (.worker .start) { s with worker := { s.worker with phase := .selecting } }
  | skip (id : VerificationId) (rest : List VerificationId) (houtbox : s.outbox = [])
      (hphase : s.worker.phase = .starting) (hpending : s.worker.pending = id :: rest)
      (hactive : id ∈ s.worker.activeIds) :
    VerificationEffect s (.worker .start) { s with worker := s.worker.popped id rest }
  | claim (id : VerificationId) (rest : List VerificationId) (result : Except Error (Option VerificationJob))
      (houtbox : s.outbox = []) (hphase : s.worker.phase = .starting)
      (hslot : s.worker.jobs.length < s.worker.config.maxConcurrentJobs) (hstop : s.stopRequested = false)
      (hpending : s.worker.pending = id :: rest) (hactive : id ∉ s.worker.activeIds)
      (hresult : (s.stores.store.beginVerification id).result = result) :
    VerificationEffect s (.worker .start)
      { s with
        stores := (s.stores.perform (.beginVerification id)).1
        outbox := (s.stores.perform (.beginVerification id)).2
        worker := (s.worker.popped id rest).claimed result }
  | takeStop (houtbox : s.outbox = []) (hphase : s.worker.phase = .selecting) (hstop : s.stopRequested = true) :
    VerificationEffect s (.worker .takeStop) { s with worker := s.worker.drain }
  | receive (result : Recv ProofStoreEvent) (receiver : Receiver ProofStoreEvent) (worker : VerificationWorker)
      (houtbox : s.outbox = []) (hphase : s.worker.phase = .selecting)
      (hrecv : s.receiver.recv = some (result, receiver))
      (hworker : { s.worker with phase := .top }.handleStoreResult s.stores.store.records.keys result = .ok worker) :
    VerificationEffect s (.worker .receive) { s with receiver, worker }
  | closed (result : Recv ProofStoreEvent) (receiver : Receiver ProofStoreEvent) (error : Error)
      (houtbox : s.outbox = []) (hphase : s.worker.phase = .selecting)
      (hrecv : s.receiver.recv = some (result, receiver))
      (hworker : { s.worker with phase := .top }.handleStoreResult s.stores.store.records.keys result = .error error) :
    VerificationEffect s (.worker .receive) { s with receiver, worker := s.worker.returnError error }
  | joinPanic (i : Nat) (now : Instant) (draining : Bool) (message : String) (houtbox : s.outbox = [])
      (hphase : s.worker.phase = if draining then .draining else .selecting)
      (hi : s.worker.jobs[i]? = some (.ended (.error message))) :
    VerificationEffect s (.worker (.join i now))
      { s with worker := { s.worker with
        jobs := s.worker.jobs.eraseIdx i, phase := .returned (.error (.task message)) } }
  | join (i : Nat) (now : Instant) (draining : Bool) (completion : JobCompletion) (result : Except Error StoreChange)
      (houtbox : s.outbox = []) (hphase : s.worker.phase = if draining then .draining else .selecting)
      (hi : s.worker.jobs[i]? = some (.ended (.ok completion)))
      (hresult : (s.stores.store.finishVerification now completion.job completion.outcome).result = result) :
    VerificationEffect s (.worker (.join i now))
      { s with
        stores := (s.stores.perform (.finishVerification now completion.job completion.outcome)).1
        outbox := (s.stores.perform (.finishVerification now completion.job completion.outcome)).2
        worker :=
          (s.worker.joined i completion.job.verificationId).concluded completion.job.verificationId draining result }
  | requeue (id : VerificationId) (draining : Bool) (houtbox : s.outbox = [])
      (hphase : s.worker.phase = .requeueing id draining) :
    VerificationEffect s (.worker .requeue)
      { s with worker := s.worker.requeue id draining (s.stores.store.get id) }
  | finish (houtbox : s.outbox = []) (hphase : s.worker.phase = .draining) (hjobs : s.worker.jobs = []) :
    VerificationEffect s (.worker .finish) { s with worker := { s.worker with phase := .returned (.ok ()) } }

namespace VerificationSystem

variable [Sha256] {s t : VerificationSystem}

private theorem operation_effect {a : StoreAction} (h : s.operation a = some t) :
    VerificationEffect s (.operation a) t := by
  unfold operation at h
  cases a with
  | finishVerification now job outcome => cases h
  | evict id cause =>
    simp only at h
    split at h
    · rename_i hsome
      cases h
      exact .evict id cause hsome
    · cases h
  | _ =>
    cases h
    exact .operation _ (fun _ _ _ h => by cases h) (fun _ _ h => by cases h)

private theorem start_effect (houtbox : s.outbox = []) (hphase : s.worker.phase = .starting) :
    VerificationEffect s (.worker .start) s.start := by
  unfold start
  simp only
  split
  · rename_i hslot
    split
    · exact .select houtbox hphase
    · rename_i hstop
      split
      · exact .select houtbox hphase
      · rename_i id rest hpending
        split
        · rename_i hactive
          exact .skip id rest houtbox hphase hpending hactive
        · rename_i hactive
          have hstop' : s.stopRequested = false := by simpa using hstop
          split <;> rename_i hresult <;> exact .claim id rest _ houtbox hphase hslot hstop' hpending hactive hresult
  · exact .select houtbox hphase

private theorem receive_effect (houtbox : s.outbox = []) (hphase : s.worker.phase = .selecting)
    (h : s.receive = some t) : VerificationEffect s (.worker .receive) t := by
  unfold receive at h
  split at h
  · cases h
  · rename_i result receiver hrecv
    split at h
    · rename_i error hworker
      cases h
      exact .closed result receiver error houtbox hphase hrecv hworker
    · rename_i worker hworker
      cases h
      exact .receive result receiver worker houtbox hphase hrecv hworker

private theorem join_effect {i : Nat} {now : Instant} {draining : Bool} (houtbox : s.outbox = [])
    (h : s.join i now draining = some t) (hphase : s.worker.phase = if draining then .draining else .selecting) :
    VerificationEffect s (.worker (.join i now)) t := by
  unfold join at h
  split at h
  · rename_i completion hi
    simp only at h
    split at h
    · rename_i message
      cases h
      exact .joinPanic i now draining message houtbox hphase hi
    · rename_i completion
      split at h <;> rename_i hresult <;> cases h <;>
        exact .join i now draining completion _ houtbox hphase hi hresult
  · cases h

private theorem workerStep_effect {step : WorkerStep} (h : s.workerStep step = some t) :
    VerificationEffect s (.worker step) t := by
  unfold workerStep at h
  split at h
  · unfold flush at h
    split at h
    · cases h
    · rename_i event rest houtbox
      cases h
      exact .flush event rest houtbox
  · split at h
    · rename_i hempty
      have houtbox : s.outbox = [] := List.isEmpty_iff.1 hempty
      split at h
      · rename_i hphase _
        cases h
        exact .reconcile houtbox hphase
      · rename_i remaining ready id hphase _
        unfold VerificationWorker.visit at h
        rw [hphase] at h
        cases h
        exact .visit id remaining ready houtbox hphase
      · rename_i remaining ready hphase _
        unfold VerificationWorker.collect at h
        rw [hphase] at h
        cases remaining with
        | nil =>
          cases h
          exact .collect ready houtbox hphase
        | cons id remaining => cases h
      · rename_i hphase _
        cases h
        unfold top
        split
        · rename_i hstop
          exact .stopTop houtbox hphase hstop
        · exact .starting houtbox hphase
      · rename_i hphase _
        cases h
        exact start_effect houtbox hphase
      · rename_i hphase _
        split at h
        · rename_i hstop
          cases h
          exact .takeStop houtbox hphase hstop
        · cases h
      · rename_i hphase _
        exact receive_effect houtbox hphase h
      · rename_i hphase _
        exact join_effect houtbox h hphase
      · rename_i hphase _
        cases h
        exact .requeue _ _ houtbox hphase
      · rename_i hphase _
        exact join_effect houtbox h hphase
      · rename_i hphase _
        split at h
        · rename_i hjobs
          cases h
          exact .finish houtbox hphase (List.isEmpty_iff.1 hjobs)
        · cases h
      · cases h
    · cases h

theorem next_effect {a : VerificationAction} (h : s.next a = some t) : VerificationEffect s a t := by
  cases a with
  | operation action => exact operation_effect h
  | publish i =>
    simp only [next, publish] at h
    split at h
    · rename_i event rest hi
      cases h
      exact .publish i event rest hi
    · cases h
  | requestStop =>
    cases h
    exact .requestStop
  | endJob i behaviour =>
    simp only [next, endJob] at h
    split at h
    · rename_i job verifier hi
      cases h
      exact .endJob i behaviour job verifier hi
    · cases h
  | worker step => exact workerStep_effect h

end VerificationSystem

/-! ### The store, the jobs and the calls -/

/-- The effect of a step on the store, the jobs and the returned calls. -/
inductive VerificationMove [Sha256] (s : VerificationSystem) : VerificationAction → VerificationSystem → Prop
  /-- the store is not touched and no job is added -/
  | quiet {a : VerificationAction} {t : VerificationSystem} (hstores : t.stores = s.stores)
      (hreturns : t.returns = s.returns) (hjobs : ∀ task ∈ t.worker.jobs, task ∈ s.worker.jobs) :
    VerificationMove s a t
  /-- another task calls the store -/
  | operation {a : StoreAction} {t : VerificationSystem}
      (hfinish : ∀ now job outcome, a ≠ .finishVerification now job outcome)
      (henabled : s.stores.Enabled a) (hstores : t.stores = (s.stores.perform a).1) (hreturns : t.returns = s.returns)
      (hjobs : t.worker.jobs = s.worker.jobs) : VerificationMove s (.operation a) t
  /-- the worker tries to claim a record -/
  | claim {t : VerificationSystem} (id : VerificationId)
      (hstores : t.stores = (s.stores.perform (.beginVerification id)).1) (hreturns : t.returns = s.returns)
      (hjobs : ∀ task ∈ t.worker.jobs, task ∈ s.worker.jobs ∨
        ∃ job ∈ t.stores.issued, task = .running job (s.worker.registry.get job.proof.proofType)) :
    VerificationMove s (.worker .start) t
  /-- a job ends -/
  | endJob {t : VerificationSystem} (i : Nat) (behaviour : Nat → VerifyBehaviour) (job : VerificationJob)
      (verifier : Option Verifier) (hjob : s.worker.jobs[i]? = some (.running job verifier))
      (hstores : t.stores = s.stores)
      (hreturns : t.returns = s.returns ++ (executeJob job verifier s.worker.config behaviour).returns)
      (hjobs : ∀ task ∈ t.worker.jobs, task ∈ s.worker.jobs ∨
        task = .ended (executeJob job verifier s.worker.config behaviour).completion) :
    VerificationMove s (.endJob i behaviour) t
  /-- the worker commits an outcome -/
  | commit {t : VerificationSystem} (i : Nat) (now : Instant) (completion : JobCompletion)
      (hjob : s.worker.jobs[i]? = some (.ended (.ok completion)))
      (hstores : t.stores = (s.stores.perform (.finishVerification now completion.job completion.outcome)).1)
      (hreturns : t.returns = s.returns) (hjobs : ∀ task ∈ t.worker.jobs, task ∈ s.worker.jobs) :
    VerificationMove s (.worker (.join i now)) t

namespace VerificationWorker

/-- The jobs, the registry and the configuration of a worker. -/
def fixedPart (w : VerificationWorker) : List JobTask × VerifierRegistry × VerificationConfig :=
  (w.jobs, w.registry, w.config)

@[simp] theorem enqueue_fixedPart (w : VerificationWorker) (id : VerificationId) :
    (w.enqueue id).fixedPart = w.fixedPart := by
  unfold enqueue; split <;> rfl

theorem foldl_enqueue_fixedPart (w : VerificationWorker) (ready : List VerificationId) :
    (ready.foldl enqueue w).fixedPart = w.fixedPart := by
  induction ready generalizing w with
  | nil => rfl
  | cons id ready ih => rw [List.foldl_cons, ih, enqueue_fixedPart]

@[simp] theorem removePending_fixedPart (w : VerificationWorker) (id : VerificationId) :
    (w.removePending id).fixedPart = w.fixedPart := by
  unfold removePending; split <;> rfl

theorem handleStoreResult_fixedPart {w w' : VerificationWorker} {keys : List VerificationId}
    {result : Recv ProofStoreEvent} (h : w.handleStoreResult keys result = .ok w') : w'.fixedPart = w.fixedPart := by
  unfold handleStoreResult at h
  split at h <;> cases h
  · exact enqueue_fixedPart w _
  · exact removePending_fixedPart w _
  · rfl
  · rfl

@[simp] theorem requeue_fixedPart (w : VerificationWorker) (id : VerificationId) (draining : Bool)
    (record : Option (Arc ProofRecord)) : (w.requeue id draining record).fixedPart = w.fixedPart := by
  unfold requeue
  simp only
  split
  · rw [enqueue_fixedPart]; rfl
  · rfl

theorem jobs_eq_of_fixedPart {w w' : VerificationWorker} (h : w'.fixedPart = w.fixedPart) : w'.jobs = w.jobs :=
  congrArg (fun part => part.1) h

end VerificationWorker

namespace VerificationSystem

variable [Sha256] {s t : VerificationSystem}

theorem next_move {a : VerificationAction} (h : s.next a = some t) :
    VerificationMove s a t ∧ t.worker.registry = s.worker.registry ∧ t.worker.config = s.worker.config := by
  -- a worker that has only changed what is pending
  have hquiet : ∀ {a t}, t.stores = s.stores → t.returns = s.returns → t.worker.fixedPart = s.worker.fixedPart →
      VerificationMove s a t ∧ t.worker.registry = s.worker.registry ∧ t.worker.config = s.worker.config := by
    intro a t hstores hreturns hfixed
    refine ⟨.quiet hstores hreturns fun task ht => ?_, congrArg (·.2.1) hfixed, congrArg (·.2.2) hfixed⟩
    rwa [← VerificationWorker.jobs_eq_of_fixedPart hfixed]
  have herase : ∀ i, ∀ task ∈ s.worker.jobs.eraseIdx i, task ∈ s.worker.jobs :=
    fun i task ht => List.mem_of_mem_eraseIdx ht
  cases next_effect h with
  | operation a hfinish hevict =>
    have henabled : s.stores.Enabled a := by
      cases a with
      | finishVerification now job outcome => exact absurd rfl (hfinish now job outcome)
      | evict id cause => exact absurd rfl (hevict id cause)
      | _ => trivial
    exact ⟨.operation hfinish henabled rfl rfl rfl, rfl, rfl⟩
  | evict id cause hsome => exact ⟨.operation (fun _ _ _ h => by cases h) hsome rfl rfl rfl, rfl, rfl⟩
  | publish i event rest hi | requestStop => exact hquiet rfl rfl rfl
  | endJob i behaviour job verifier hi =>
    exact ⟨.endJob i behaviour job verifier hi rfl rfl fun task ht => List.mem_or_eq_of_mem_set ht, rfl, rfl⟩
  | flush event rest houtbox | reconcile houtbox hphase | visit id remaining ready houtbox hphase =>
    exact hquiet rfl rfl rfl
  | collect ready houtbox hphase =>
    have hfixed := s.worker.foldl_enqueue_fixedPart ready
    exact hquiet rfl rfl hfixed
  | stopTop houtbox hphase hstop | starting houtbox hphase | select houtbox hphase
  | skip id rest houtbox hphase hpending hactive => exact hquiet rfl rfl rfl
  | claim id rest result houtbox hphase hslot hstop hpending hactive hresult =>
    match result with
    | .error error => exact ⟨.claim id rfl rfl fun _ h => .inl h, rfl, rfl⟩
    | .ok none => exact ⟨.claim id rfl rfl fun _ h => .inl h, rfl, rfl⟩
    | .ok (some job) =>
      refine ⟨.claim id rfl rfl fun task h => ?_, rfl, rfl⟩
      rcases List.mem_append.1 h with h | h
      · exact .inl h
      · refine .inr ⟨job, ?_, List.mem_singleton.1 h⟩
        simp [StoreSystem.perform, ProofStore.issuedBy, hresult]
  | takeStop houtbox hphase hstop => exact hquiet rfl rfl rfl
  | receive result receiver worker houtbox hphase hrecv hworker =>
    have hfixed := VerificationWorker.handleStoreResult_fixedPart hworker
    exact hquiet rfl rfl hfixed
  | closed result receiver error houtbox hphase hrecv hworker => exact hquiet rfl rfl rfl
  | joinPanic i now draining message houtbox hphase hi => exact ⟨.quiet rfl rfl (herase i), rfl, rfl⟩
  | join i now draining completion result houtbox hphase hi hresult =>
    cases result with
    | error error | ok change => exact ⟨.commit i now completion hi rfl rfl (herase i), rfl, rfl⟩
  | requeue id draining houtbox hphase => exact hquiet rfl rfl (s.worker.requeue_fixedPart id draining _)
  | finish houtbox hphase hjobs => exact hquiet rfl rfl rfl

end VerificationSystem

end PulsarVerifier
