import PulsarVerifier.Rpc.Budget
import PulsarVerifier.Runtime.Tasks

/-!
# Starting and stopping the components

The listener and the two servers own one task each and stop in the same way.  The P2P service owns two: its driver is
drained before the worker is told to stop, and the mailbox of the driver is closed after the worker has ended.
-/

namespace PulsarVerifier

open Program

def listenerTask : String := "Pulsar listener"

def rpcTask : String := "verification RPC server"

def submissionRpcTask : String := "submission RPC server"

def driverTask : String := "p2p driver"

def workerTask : String := "p2p worker"

/-! ### Components with one task -/

/-- The end of the task is awaited for so long; after that the task is aborted. -/
def joinWithin (task : TaskId) (name : String) (limit total : Duration) : Owner AppResult := do
  if ← read (·.kept.handles task) then
    match ← timeout limit (join task) with
    | some result =>
      update (·.release task)
      return taskResult result
    | none =>
      abortTask task
      return .error (.shutdownTimeout total)
  else return .error (.taskExitedUnexpectedly name)

def shutdownTask (task : TaskId) (name : String) (shutdownTimeout : Duration) : Owner AppResult := do
  update (·.ask task .cancel)
  joinWithin task name shutdownTimeout shutdownTimeout

/-- The address of a server is bound, its health service reports that it serves, and its task is spawned. -/
def startServer (task : TaskId) : Owner AppResult :=
  andThen call fun _ => do
    update fun s => { s with kept := s.kept.setServing task true }
    update (·.spawn task)
    return .ok ()

def setNotServing (task : TaskId) : Owner Unit := update fun s => { s with kept := s.kept.setServing task false }

namespace PulsarListener

def waitForExit : Owner Unit := expectHandle .listener "listener task exists while service is active"

def shutdown : Duration → Owner AppResult := shutdownTask .listener listenerTask

def forceShutdown : Owner Unit := abortTask .listener

end PulsarListener

namespace RpcServer

def start : Owner AppResult := startServer .rpc

def markNotServing : Owner Unit := setNotServing .rpc

def waitForExit : Owner Unit := expectHandle .rpc "RPC task exists while server is active"

def shutdown : Duration → Owner AppResult := shutdownTask .rpc rpcTask

def forceShutdown : Owner Unit := abortTask .rpc

end RpcServer

namespace SubmissionRpcServer

def start (config : SubmissionConfig) (maxProofBytes : Nat) : Owner AppResult :=
  match requestLimit config maxProofBytes with
  | .error error => return .error (.component error)
  | .ok _ => startServer .submissionRpc

def markNotServing : Owner Unit := setNotServing .submissionRpc

def waitForExit : Owner Unit := expectHandle .submissionRpc "submission RPC task exists while server is active"

def shutdown : Duration → Owner AppResult := shutdownTask .submissionRpc submissionRpcTask

def forceShutdown : Owner Unit := abortTask .submissionRpc

end SubmissionRpcServer

/-! ### The P2P service -/

/-- Result of a long-running P2P task completing outside ordered shutdown. -/
structure P2pExit where
  task : String
  result : TaskResult
  deriving DecidableEq

def P2pExit.intoError (exit : P2pExit) : AppError := unexpectedTaskError exit.task exit.result

namespace P2pService

def abortAndJoin : Owner Unit := do
  abortTask .p2pWorker
  abortTask .p2pDriver

/-- The service, and with it the client of the driver, is dropped afterwards. -/
def forceShutdown : Owner Unit := do
  abortAndJoin
  update fun s => { s with driverClient := false }

/-- The first call loads the identity and the validator set, and builds the driver. -/
def start : Owner AppResult :=
  andThen call fun _ => do
    update (·.spawn .p2pDriver)
    update (·.spawn .p2pWorker)
    update fun s => { s with driverClient := true }
    match ← awaitFor none fun s => s.driverReady.toList.map fun result => (result, s) with
    | none =>
      forceShutdown
      return .error (.component (.p2pDriver "driver exited before becoming ready"))
    | some (.error error) =>
      forceShutdown
      return .error error
    | some (.ok ()) => return .ok ()

/-- The validator set updater of the listener has a client of the driver. -/
def validatorSetUpdater : Owner Unit := do
  if ← read (·.driverClient) then return ()
  else panicWith "driver exists while P2P service is active"

def expectTasks : Owner Unit := do
  expectHandle .p2pDriver "driver task exists while service is active"
  expectHandle .p2pWorker "worker task exists while service is active"

def exitReady (s : Runtime) : List (P2pExit × Runtime) :=
  (PulsarVerifier.exitReady .p2pDriver s).map (fun (result, s) => (⟨driverTask, result⟩, s)) ++
    (PulsarVerifier.exitReady .p2pWorker s).map (fun (result, s) => (⟨workerTask, result⟩, s))

/-- The driver has answered, or one of the tasks has ended. -/
def drainReady (s : Runtime) : List ((AppResult ⊕ P2pExit) × Runtime) :=
  s.drained.toList.map (fun result => (.inl result, s)) ++ (exitReady s).map fun (exit, s) => (.inr exit, s)

def joinTask (task : TaskId) (name : String) : Owner AppResult := do
  if ← read (·.kept.handles task) then
    let result ← join task
    update (·.release task)
    return taskResult result
  else return .error (.taskExitedUnexpectedly name)

/-- The worker, or else the driver, has ended. -/
def workerReady (s : Runtime) : List ((TaskResult ⊕ TaskResult) × Runtime) :=
  (PulsarVerifier.exitReady .p2pWorker s).map (fun (result, s) => (.inl result, s)) ++
    (PulsarVerifier.exitReady .p2pDriver s).map (fun (result, s) => (.inr result, s))

def waitForWorkerShutdown : Owner AppResult := do
  if ← read (·.kept.handles .p2pDriver) then
    if ← read (·.kept.handles .p2pWorker) then
      poll .p2pWorker
      poll .p2pDriver
      match ← awaitFor none workerReady with
      | .inl result =>
        -- the worker has seen that the driver is gone: why it is gone is what the driver says
        if result = .ok (.error (.component .p2pDriverClosed)) then
          let result ← join .p2pDriver
          update (·.release .p2pDriver)
          return .error (P2pExit.intoError ⟨driverTask, result⟩)
        else return taskResult result
      | .inr result => return .error (P2pExit.intoError ⟨driverTask, result⟩)
    else return .error (.taskExitedUnexpectedly workerTask)
  else return .error (.taskExitedUnexpectedly driverTask)

def shutdownOrdered : Owner AppResult := do
  if ← read (·.driverClient) then
    update fun s => { s.ask .p2pDriver .drain with draining := true }
    expectTasks
    match ← awaitFor none drainReady with
    | .inl (.error error) => return .error error
    | .inr exit => return .error exit.intoError
    | .inl (.ok ()) =>
      update (·.ask .p2pWorker .cancel)
      andThen waitForWorkerShutdown fun _ => do
        update fun s => { s.ask .p2pDriver .close with driverClient := false }
        joinTask .p2pDriver driverTask
  else return .error (.component .p2pDriverClosed)

def shutdown (shutdownTimeout : Duration) : Owner AppResult := do
  match ← timeout shutdownTimeout shutdownOrdered with
  | some (.ok ()) => return .ok ()
  | some (.error error) =>
    abortAndJoin
    return .error error
  | none =>
    abortAndJoin
    return .error (.shutdownTimeout shutdownTimeout)

end P2pService

/-! ### What stopping a component with one task does -/

/-- A shutdown with this deadline is going on, and no server reports that it serves. -/
structure Kept.Closing (k : Kept) (deadline : Instant) : Prop where
  deadline : k.deadline = some deadline
  serving : ∀ task, k.serving task = false

section

variable {x : Known} {task : TaskId} {name : String} {d : Instant} {limit : Duration} {s : Runtime}

theorem At.cancel {kind : AskKind} (h : At x s) (hstop : x.MayStop task.component) (hclosing : x.kept.Closing d)
    (htime : kind = .drain ∨ task.component ≠ .p2p → s.now ≤ d)
    (hdrained : task = .p2pWorker → kind = .cancel → s.drained = some (.ok ()))
    (hclosed : kind = .close → (s.tasks .p2pWorker).isJoined = true) : At x (s.ask task kind) := by
  refine h.ask ⟨h.order hstop kind, .inr (.inr ⟨?_, d, ?_, htime⟩), fun ht hk => decide_eq_true (hdrained ht hk),
    fun hk => List.mem_filter.2 ⟨by decide, hclosed hk⟩⟩
  · refine List.filter_eq_nil_iff.2 fun other _ => ?_
    rw [h.kept, hclosing.serving other]
    exact Bool.false_ne_true
  · show s.kept.deadline = some d
    rw [h.kept, hclosing.deadline]

theorem At.orderly (h : At x s) (hclosing : x.kept.Closing d) (hbefore : s.now < d) : Orderly s := by
  refine ⟨h.proper, fun deadline hdeadline => .inl ?_⟩
  rw [h.kept, hclosing.deadline] at hdeadline
  cases hdeadline
  exact hbefore

theorem joinWithin_meets {total : Duration} (hstop : x.MayStop task.component) (hclosing : x.kept.Closing d) :
    Meets none (fun s => At x s ∧ s.now + limit = d) (joinWithin task name limit total)
      (fun result => At { x with kept := x.kept.release task, clean := x.clean ∧ result = .ok () }) Orderly := by
  refine .read_eq (fun s hs => hs.1.handles_eq) ?_
  cases hheld : x.kept.handles task with
  | false =>
    refine .pure fun s hs => ?_
    rw [Kept.release_eq_self hheld]
    exact hs.1.weaken nofun
  | true =>
    refine .timeout (fun s hs => hs.2) ((join_meets hheld).pre fun s hs => hs.1) (fun s hs => hs.orderly hclosing)
      (fun result => ?_) ?_
    · refine .update_to (At { x with kept := x.kept.release task, clean := x.clean ∧ result = .ok (.ok ()) })
        (fun s hs => hs) (.pure fun s hs => hs.weaken ?_)
      rintro ⟨hclean, hresult⟩
      exact ⟨hclean, taskResult_eq_ok_iff.1 hresult⟩
    · exact (abortTask_meets hstop).bind fun _ => .pure fun s hs => hs.weaken nofun

theorem shutdownTask_meets (htask : task.component ≠ .p2p) (hstop : x.MayStop task.component)
    (hclosing : x.kept.Closing d) :
    Meets none (fun s => At x s ∧ s.now + limit = d) (shutdownTask task name limit)
      (fun result => At { x with kept := x.kept.release task, clean := x.clean ∧ result = .ok () }) Orderly := by
  refine .update_to (fun s => At x s ∧ s.now + limit = d) (fun s ⟨hs, hd⟩ => ⟨?_, hd⟩) (joinWithin_meets hstop hclosing)
  refine hs.cancel hstop hclosing (fun _ => ?_) (fun ht => ?_) nofun
  · exact (Nat.le_add_right _ _).trans hd.le
  · subst ht
    exact absurd rfl htask

theorem startServer_meets (hdeadline : x.kept.deadline = none) :
    Meets none (At x) (startServer task)
      (IfOk (fun _ => At { x with kept := (x.kept.setServing task true).hold task }) (At x)) Orderly := by
  refine .andThen (call_meets hdeadline) (fun _ => ?_) (fun _ _ hs => hs)
  refine .update_to (At { x with kept := x.kept.setServing task true }) (fun s hs => ?_) ?_
  · exact { hs with kept := congrArg (Kept.setServing · task true) hs.kept }
  · exact .update_to (At { x with kept := (x.kept.setServing task true).hold task }) (fun s hs => hs.spawn)
      (.pure fun s hs => hs)

/-! ### What stopping the P2P service does -/

/-- The handles of the two P2P tasks, once they have been touched. -/
def Kept.withP2p (k : Kept) (driver worker : Bool) : Kept :=
  { k with
    handles := fun
      | .p2pDriver => driver
      | .p2pWorker => worker
      | other => k.handles other }

def Known.p2p (x : Known) (driver worker : Bool) (clean : Prop) : Known :=
  { x with kept := x.kept.withP2p driver worker, clean }

theorem Kept.withP2p_release_p2pDriver (k : Kept) (driver worker : Bool) :
    (k.withP2p driver worker).release .p2pDriver = k.withP2p false worker := by
  ext other
  · cases other <;> rfl
  all_goals rfl

theorem Kept.withP2p_release_p2pWorker (k : Kept) (driver worker : Bool) :
    (k.withP2p driver worker).release .p2pWorker = k.withP2p driver false := by
  ext other
  · cases other <;> rfl
  all_goals rfl

theorem Kept.withP2p_hold_p2pDriver (k : Kept) (driver worker : Bool) :
    (k.withP2p driver worker).hold .p2pDriver = k.withP2p true worker := by
  ext other
  · cases other <;> rfl
  all_goals rfl

theorem Kept.withP2p_hold_p2pWorker (k : Kept) (driver worker : Bool) :
    (k.withP2p driver worker).hold .p2pWorker = k.withP2p driver true := by
  ext other
  · cases other <;> rfl
  all_goals rfl

theorem Known.MayStop.p2p (h : x.MayStop .p2p) (driver worker : Bool) (clean : Prop) :
    (x.p2p driver worker clean).MayStop .p2p := by
  obtain ⟨hattended, ⟨hrpc, -⟩ | h⟩ := h
  · cases hrpc
  · refine ⟨hattended, .inr fun other hother => ?_⟩
    cases other with
    | p2pDriver | p2pWorker => exact le_rfl
    | submissionRpc => exact h .submissionRpc hother
    | listener => exact h .listener hother
    | verification => exact h .verification hother
    | rpc => exact h .rpc hother

namespace P2pService

/-- Neither of the tasks is there any more, whichever was before. -/
theorem abortAndJoin_meets {driver worker : Bool} {clean : Prop} (hstop : x.MayStop .p2p) :
    Meets none (At (x.p2p driver worker clean)) abortAndJoin (fun _ => At (x.p2p false false False)) Orderly := by
  have hworker : Meets none (At (x.p2p driver worker clean)) (abortTask .p2pWorker)
      (fun _ => At (x.p2p driver false False)) Orderly := by
    refine (abortTask_meets (hstop.p2p driver worker clean)).post fun _ s hs => ?_
    rw [Known.p2p, ← Kept.withP2p_release_p2pWorker]
    exact hs
  have hdriver : Meets none (At (x.p2p driver false False)) (abortTask .p2pDriver)
      (fun _ => At (x.p2p false false False)) Orderly := by
    refine (abortTask_meets (hstop.p2p driver false False)).post fun _ s hs => ?_
    rw [Known.p2p, ← Kept.withP2p_release_p2pDriver]
    exact hs
  exact hworker.bind fun _ => hdriver

theorem forceShutdown_meets {driver worker : Bool} {clean : Prop} (hstop : x.MayStop .p2p) :
    Meets none (At (x.p2p driver worker clean)) forceShutdown (fun _ => At (x.p2p false false False)) Orderly := by
  refine (abortAndJoin_meets hstop).bind fun _ => .update fun s hs => ?_
  exact { hs with }

theorem start_meets {clean : Prop} (hdeadline : x.kept.deadline = none) (hstop : x.MayStop .p2p) :
    Meets none (At (x.p2p false false clean)) start
      (IfOk (fun _ s => At (x.p2p true true clean) s ∧ s.driverClient = true) (At (x.p2p false false False)))
      Orderly := by
  refine .andThen (call_meets hdeadline) (fun _ => ?_) (fun _ s hs => hs.weaken nofun)
  refine .update_to (At (x.p2p true false clean)) (fun s hs => ?_) ?_
  · rw [Known.p2p, ← Kept.withP2p_hold_p2pDriver]
    exact hs.spawn
  refine .update_to (At (x.p2p true true clean)) (fun s hs => ?_) ?_
  · rw [Known.p2p, ← Kept.withP2p_hold_p2pWorker]
    exact hs.spawn
  refine .update_to (fun s => At (x.p2p true true clean) s ∧ s.driverClient = true) (fun s hs => ⟨?_, rfl⟩) ?_
  · exact { hs with }
  refine Meets.bind (Q := fun _ s => At (x.p2p true true clean) s ∧ s.driverClient = true) (awaitFor_meets ?_ ?_ ?_ ?_)
    fun result => ?_
  · exact fun s hs => ⟨{ hs.1 with }, hs.2⟩
  · rintro s event ⟨hs, hclient⟩
    exact ⟨hs.happen event, (s.happen_frame event).1.trans hclient⟩
  · rintro s result s' hs hready
    simp only [List.mem_map, Prod.mk.injEq] at hready
    obtain ⟨_, -, -, rfl⟩ := hready
    exact hs
  · exact fun s hs _ _ => hs.1.orderly_of_none hdeadline
  rcases result with _ | error | ⟨⟩
  · exact ((forceShutdown_meets hstop).pre fun s hs => hs.1).bind fun _ => .pure fun s hs => hs
  · exact ((forceShutdown_meets hstop).pre fun s hs => hs.1).bind fun _ => .pure fun s hs => hs
  · exact .pure fun s hs => hs

/-- Some of the tasks may be there, and not all that have ended did so without an error. -/
def Broken (x : Known) (s : Runtime) : Prop := ∃ driver worker, At (x.p2p driver worker False) s

theorem Broken.of_at {driver worker : Bool} {clean : Prop} (h : At (x.p2p driver worker clean) s) : Broken x s :=
  ⟨driver, worker, h.weaken nofun⟩

theorem of_mem_exitReady {exit : P2pExit} {s' : Runtime} (h : (exit, s') ∈ exitReady s) :
    ∃ result, (result, s') ∈ PulsarVerifier.exitReady .p2pDriver s ∨
      (result, s') ∈ PulsarVerifier.exitReady .p2pWorker s := by
  simp only [exitReady, List.mem_append, List.mem_map, Prod.mk.injEq, Prod.exists] at h
  rcases h with ⟨result, _, hmem, -, rfl⟩ | ⟨result, _, hmem, -, rfl⟩
  · exact ⟨result, .inl hmem⟩
  · exact ⟨result, .inr hmem⟩

theorem exit_p2pWorker {driver : Bool} {clean : Prop} {result : TaskResult} {s' : Runtime}
    (h : At (x.p2p driver true clean) s) (hready : (result, s') ∈ PulsarVerifier.exitReady .p2pWorker s) :
    At (x.p2p driver false (clean ∧ result = .ok (.ok ()))) s' ∧ (s'.tasks .p2pWorker).isJoined = true := by
  refine ⟨?_, ?_⟩
  · rw [Known.p2p, ← Kept.withP2p_release_p2pWorker]
    exact h.exit rfl hready
  · obtain ⟨t, hjoined, rfl⟩ := At.mem_exitReady.1 hready
    obtain ⟨aborted, -, rfl⟩ := At.mem_joinReady.1 hjoined
    rfl

theorem exit_p2pDriver {worker : Bool} {clean : Prop} {result : TaskResult} {s' : Runtime}
    (h : At (x.p2p true worker clean) s) (hready : (result, s') ∈ PulsarVerifier.exitReady .p2pDriver s) :
    At (x.p2p false worker (clean ∧ result = .ok (.ok ()))) s' := by
  rw [Known.p2p, ← Kept.withP2p_release_p2pDriver]
  exact h.exit rfl hready

theorem joinTask_p2pDriver_meets {worker : Bool} {clean : Prop} :
    Meets (some d) (At (x.p2p true worker clean)) (joinTask .p2pDriver name)
      (fun result => At (x.p2p false worker (clean ∧ result = .ok ()))) (Broken x) := by
  refine .read_eq (fun s hs => hs.handles_eq) ?_
  refine ((join_meets rfl).imp (fun _ hs => hs) (fun _ _ hs => hs) fun _ hs => .of_at hs).bind fun result => ?_
  refine .update_to (At (x.p2p false worker (clean ∧ result = .ok (.ok ())))) (fun s hs => ?_) (.pure fun s hs => ?_)
  · rw [Known.p2p, ← Kept.withP2p_release_p2pDriver]
    exact hs
  · refine hs.weaken ?_
    rintro ⟨hclean, hresult⟩
    exact ⟨hclean, taskResult_eq_ok_iff.1 hresult⟩

/-- If it succeeds the worker has ended without an error, and the driver has not been touched. -/
theorem waitForWorkerShutdown_meets {clean : Prop} :
    Meets (some d) (At (x.p2p true true clean)) waitForWorkerShutdown
      (IfOk (fun _ s => At (x.p2p true false clean) s ∧ (s.tasks .p2pWorker).isJoined = true) (Broken x))
      (Broken x) := by
  refine .read_eq (fun s hs => hs.handles_eq) (.read_eq (fun s hs => hs.handles_eq) ?_)
  refine (poll_meets fun _ hs => (hs.live _ rfl).isJoined).bind fun _ => ?_
  refine (poll_meets fun _ hs => (hs.live _ rfl).isJoined).bind fun _ => ?_
  refine Meets.bind (Q := Sum.elim (fun result s => At (x.p2p true false (clean ∧ result = .ok (.ok ()))) s ∧
      (s.tasks .p2pWorker).isJoined = true)
    (fun _ => Broken x)) (awaitFor_at_meets ?_ fun _ hs => .of_at hs) fun outcome => ?_
  · intro s outcome s' hs hready
    simp only [workerReady, List.mem_append, List.mem_map, Prod.mk.injEq, Prod.exists] at hready
    rcases hready with ⟨result, t, hmem, rfl, rfl⟩ | ⟨result, t, hmem, rfl, rfl⟩
    · exact exit_p2pWorker hs hmem
    · exact .of_at (exit_p2pDriver hs hmem)
  cases outcome with
  | inr result => exact .pure fun s hs => hs
  | inl result =>
    dsimp only
    split
    · refine ((join_meets rfl).imp (fun _ hs => hs.1) (fun _ _ hs => hs) fun _ hs => .of_at hs).bind fun result' => ?_
      refine .update_to (Broken x) (fun s hs => ⟨false, false, ?_⟩) (.pure fun s hs => hs)
      rw [Known.p2p, ← Kept.withP2p_release_p2pDriver]
      exact hs.weaken nofun
    · rcases result with error | error | ⟨⟩
      · exact .pure fun s hs => .of_at hs.1
      · exact .pure fun s hs => .of_at hs.1
      · exact .pure fun s hs => ⟨hs.1.weaken fun hclean => ⟨hclean, rfl⟩, hs.2⟩

theorem shutdownOrdered_meets {clean : Prop} (hstop : x.MayStop .p2p) (hclosing : x.kept.Closing d) :
    Meets (some d) (fun s => At (x.p2p true true clean) s ∧ s.now ≤ d) shutdownOrdered
      (IfOk (fun _ => At (x.p2p false false clean)) (Broken x)) (Broken x) := by
  have hclosing' : ∀ driver worker, (x.kept.withP2p driver worker).Closing d := fun _ _ => ⟨hclosing.1, hclosing.2⟩
  refine .read_any fun client => ?_
  cases client with
  | false => exact .pure fun s hs => .of_at hs.1
  | true =>
    refine .update_to (At (x.p2p true true clean)) (fun s hs => ?_) ?_
    · have hask : At _ (s.ask .p2pDriver .drain) :=
        hs.1.cancel (hstop.p2p true true clean) (hclosing' true true) (fun _ => hs.2) nofun nofun
      exact { hask with }
    refine ((expectHandle_meets rfl).bind fun _ => expectHandle_meets rfl).bind fun _ => ?_
    refine Meets.bind (Q := Sum.elim (IfOk (fun _ s => At (x.p2p true true clean) s ∧ s.drained = some (.ok ()))
      (Broken x)) (fun _ => Broken x)) (awaitFor_at_meets ?_ fun _ hs => .of_at hs) fun outcome => ?_
    · intro s outcome s' hs hready
      simp only [drainReady, List.mem_append, List.mem_map, Prod.mk.injEq, Prod.exists, Option.mem_toList] at hready
      rcases hready with ⟨result, hdrained, rfl, rfl⟩ | ⟨exit, t, hmem, rfl, rfl⟩
      · rcases result with error | ⟨⟩
        · exact .of_at hs
        · exact ⟨hs, hdrained⟩
      · obtain ⟨result, hmem | hmem⟩ := of_mem_exitReady hmem
        · exact .of_at (exit_p2pDriver hs hmem)
        · exact .of_at (exit_p2pWorker hs hmem).1
    rcases outcome with (error | ⟨⟩) | exit
    · exact .pure fun s hs => hs
    · refine .update_to (At (x.p2p true true clean)) (fun s hs => ?_) ?_
      · exact hs.1.cancel (hstop.p2p true true clean) (hclosing' true true) (by simp [TaskId.component])
          (fun _ _ => hs.2) nofun
      refine .andThen waitForWorkerShutdown_meets (fun _ => ?_) (fun _ s hs => hs)
      refine .update_to (At (x.p2p true false clean)) (fun s hs => ?_) ?_
      · have hask : At _ (s.ask .p2pDriver .close) :=
          hs.1.cancel (hstop.p2p true false clean) (hclosing' true false) (by simp [TaskId.component]) nofun
            (fun _ => hs.2)
        exact { hask with }
      refine joinTask_p2pDriver_meets.post fun result s hs => ?_
      rcases result with error | ⟨⟩
      · exact .of_at hs
      · exact hs.weaken fun hclean => ⟨hclean, rfl⟩
    · exact .pure fun s hs => hs

theorem shutdown_meets {clean : Prop} (hstop : x.MayStop .p2p) (hclosing : x.kept.Closing d) :
    Meets none (fun s => At (x.p2p true true clean) s ∧ s.now + limit = d) (shutdown limit)
      (fun result => At (x.p2p false false (clean ∧ result = .ok ()))) Orderly := by
  have hbroken : Meets none (Broken x) abortAndJoin (fun _ => At (x.p2p false false False)) Orderly :=
    .of_exists fun driver => .of_exists fun worker => abortAndJoin_meets hstop
  refine .timeout (fun s hs => hs.2) ((shutdownOrdered_meets hstop hclosing).pre fun s hs =>
    ⟨hs.1, (Nat.le_add_right _ _).trans hs.2.le⟩) ?_ (fun result => ?_) ?_
  · rintro s ⟨driver, worker, hs⟩ hbefore
    exact hs.orderly ⟨hclosing.1, hclosing.2⟩ hbefore
  · rcases result with error | ⟨⟩
    · exact hbroken.bind fun _ => .pure fun s hs => hs.weaken nofun
    · exact .pure fun s hs => hs.weaken And.left
  · exact hbroken.bind fun _ => .pure fun s hs => hs.weaken nofun

end P2pService

end

end PulsarVerifier
