import PulsarVerifier.Lib.Program
import PulsarVerifier.Store.Record

/-!
# The tasks of the process

The process spawns a task for each component and keeps the handle of the task in the component.  The state here is what
the owner of the components has and sees: the handles, what the tasks do by themselves, the clock, and the answers of
what is not modelled.  `asks` records each time the owner tells a task to stop, with what was running then, and
`awaited` the task that the owner waits for; no computation reads them.

`At` is what holds wherever the owner waits: a task whose handle is held has been neither aborted nor awaited to its
end, and one whose handle is not held has been awaited to its end, but for the tasks listed as abandoned.
-/

namespace PulsarVerifier

inductive TaskId
  | submissionRpc
  | listener
  | p2pDriver
  | p2pWorker
  | verification
  | rpc
  deriving DecidableEq

def TaskId.all : List TaskId := [.submissionRpc, .listener, .p2pDriver, .p2pWorker, .verification, .rpc]

/-- The components in `RuntimeComponents`; the verification worker is a task and its token. -/
inductive Component
  | submissionRpc
  | listener
  | p2p
  | verification
  | rpc
  deriving DecidableEq

def TaskId.component : TaskId → Component
  | .submissionRpc => .submissionRpc
  | .listener => .listener
  | .p2pDriver => .p2p
  | .p2pWorker => .p2p
  | .verification => .verification
  | .rpc => .rpc

/-- The place in the order of the shutdown. -/
def Component.rank : Component → Nat
  | .submissionRpc => 0
  | .listener => 1
  | .p2p => 2
  | .verification => 3
  | .rpc => 4

inductive JoinError
  | cancelled
  | panicked
  deriving DecidableEq

/-- The errors of the process: those of the components, and those that only the lifecycle of the process has. -/
inductive AppError
  | component (error : Error)
  | task (error : JoinError)
  | taskExitedUnexpectedly (task : String)
  | shutdownTimeout (timeout : Duration)
  | signal (source : IoError)
  | p2pIdentity (message : String)
  | noirInitialization (message : String)
  | rpcBind (source : IoError)
  | rpcServer (message : String)
  deriving DecidableEq

abbrev AppResult := Except AppError Unit

abbrev TaskResult := Except JoinError AppResult

def unexpectedTaskError (name : String) : TaskResult → AppError
  | .ok (.ok ()) => .taskExitedUnexpectedly name
  | .ok (.error error) => error
  | .error error => .task error

def taskResult : TaskResult → AppResult
  | .ok result => result
  | .error error => .error (.task error)

@[simp]
theorem taskResult_eq_ok_iff {result : TaskResult} : taskResult result = .ok () ↔ result = .ok (.ok ()) := by
  rcases result with error | error | ⟨⟩ <;> simp [taskResult]

/-- A task, and whether it has been aborted. -/
inductive TaskState
  | unspawned
  | running (aborted : Bool)
  /-- it has ended and its handle has not been awaited since -/
  | ended (aborted : Bool) (result : TaskResult)
  | joined (aborted : Bool) (result : TaskResult)
  deriving DecidableEq

namespace TaskState

def abort : TaskState → TaskState
  | .running _ => .running true
  | .ended _ result => .ended true result
  | state => state

def isJoined : TaskState → Bool
  | .joined _ _ => true
  | _ => false

def isRunning : TaskState → Bool
  | .running _ => true
  | _ => false

/-- The task ends by itself, or because it was aborted. -/
def finish (result : TaskResult) : TaskState → TaskState
  | .running aborted => .ended aborted result
  | state => state

/-- Spawned, never aborted, its end not yet taken notice of. -/
inductive Live : TaskState → Prop
  | running : Live (.running false)
  | ended (result : TaskResult) : Live (.ended false result)

/-- There is no such task any more. -/
inductive Settled : TaskState → Prop
  | unspawned : Settled .unspawned
  | joined (aborted : Bool) (result : TaskResult) : Settled (.joined aborted result)

/-- Aborted, its end not awaited. -/
inductive Abandoned : TaskState → Prop
  | running : Abandoned (.running true)
  | ended (result : TaskResult) : Abandoned (.ended true result)

/-- The task was not spawned, or it ended by itself and without an error. -/
inductive Clean : TaskState → Prop
  | unspawned : Clean .unspawned
  | joined : Clean (.joined false (.ok (.ok ())))

theorem Live.finish {state : TaskState} (h : state.Live) (result : TaskResult) : (state.finish result).Live := by
  cases h
  · exact .ended result
  · exact .ended _

theorem Settled.finish {state : TaskState} (h : state.Settled) (result : TaskResult) :
    state.finish result = state := by
  cases h <;> rfl

theorem Abandoned.finish {state : TaskState} (h : state.Abandoned) (result : TaskResult) :
    (state.finish result).Abandoned := by
  cases h
  · exact .ended result
  · exact .ended _

theorem Clean.finish {state : TaskState} (h : state.Clean) (result : TaskResult) : (state.finish result).Clean := by
  cases h
  · exact .unspawned
  · exact .joined

theorem Live.isJoined {state : TaskState} (h : state.Live) : state.isJoined = false := by
  cases h <;> rfl

theorem Abandoned.isJoined {state : TaskState} (h : state.Abandoned) : state.isJoined = false := by
  cases h <;> rfl

theorem Live.abort {state : TaskState} (h : state.Live) : state.abort.Abandoned := by
  cases h
  · exact .running
  · exact .ended _

theorem Settled.isRunning {state : TaskState} (h : state.Settled) : state.isRunning = false := by
  cases h <;> rfl

theorem Abandoned.eq_running {state : TaskState} (h : state.Abandoned) (hrunning : state.isRunning = true) :
    state = .running true := by
  cases h with
  | running => rfl
  | ended result => cases hrunning

end TaskState

/-- How a task is told to stop. -/
inductive AskKind
  /-- the driver is asked to finish the requests it has -/
  | drain
  /-- the token of the task is cancelled -/
  | cancel
  /-- the last client of the driver that the process has is dropped -/
  | close
  | abort
  deriving DecidableEq

/-- A task was told to stop: when, and what held then. -/
structure Ask where
  task : TaskId
  kind : AskKind
  time : Instant
  /-- the tasks that ran, aborted or not -/
  running : List TaskId
  /-- those of them that had been aborted -/
  aborted : List TaskId
  /-- the tasks that had been awaited to their end -/
  joined : List TaskId
  /-- the servers whose health service reported that they serve -/
  serving : List TaskId
  /-- the driver has answered that it is drained -/
  drained : Bool
  /-- all components had been started -/
  started : Bool
  /-- the deadline of the shutdown, once one was requested -/
  deadline : Option Instant

/-- What the process itself has. -/
@[ext]
structure Kept where
  /-- the handle of the task is held -/
  handles : TaskId → Bool
  /-- the components that exist -/
  components : Component → Bool
  serving : TaskId → Bool
  started : Bool
  deadline : Option Instant
  socket : Bool

namespace Kept

def release (k : Kept) (task : TaskId) : Kept :=
  { k with handles := fun other => if other = task then false else k.handles other }

def hold (k : Kept) (task : TaskId) : Kept :=
  { k with handles := fun other => if other = task then true else k.handles other }

def take (k : Kept) (component : Component) : Kept :=
  { k with components := fun other => if other = component then false else k.components other }

def put (k : Kept) (component : Component) : Kept :=
  { k with components := fun other => if other = component then true else k.components other }

def setServing (k : Kept) (task : TaskId) (status : Bool) : Kept :=
  { k with serving := fun other => if other = task then status else k.serving other }

theorem release_eq_self {k : Kept} {task : TaskId} (h : k.handles task = false) : k.release task = k := by
  have hhandles : (fun other => if other = task then false else k.handles other) = k.handles := by
    funext other
    split
    · rename_i heq
      rw [heq, h]
    · rfl
  rw [release, hhandles]

end Kept

structure Runtime where
  kept : Kept
  asks : List Ask
  now : Instant
  tasks : TaskId → TaskState
  /-- the answers of calls that are not modelled -/
  answers : List AppResult
  /-- the driver has said whether it is ready, or has dropped the channel -/
  driverReady : Option (Option AppResult)
  listenerReady : Bool
  /-- a client for the mailbox of the driver is held -/
  driverClient : Bool
  draining : Bool
  drained : Option AppResult
  /-- `ControlServer::wait_for_shutdown` returns -/
  control : Option AppResult
  /-- `wait_for_signal` returns -/
  signal : Option AppResult
  /-- the task whose handle alone the owner awaits, or awaited last -/
  awaited : Option TaskId

namespace Runtime

def setTask (s : Runtime) (task : TaskId) (state : TaskState) : Runtime :=
  { s with tasks := fun other => if other = task then state else s.tasks other }

def release (s : Runtime) (task : TaskId) : Runtime := { s with kept := s.kept.release task }

def asking (s : Runtime) (task : TaskId) (kind : AskKind) : Ask where
  task := task
  kind := kind
  time := s.now
  running := TaskId.all.filter fun other => (s.tasks other).isRunning
  aborted := TaskId.all.filter fun other => s.tasks other = .running true
  joined := TaskId.all.filter fun other => (s.tasks other).isJoined
  serving := TaskId.all.filter s.kept.serving
  drained := s.drained = some (.ok ())
  started := s.kept.started
  deadline := s.kept.deadline

def ask (s : Runtime) (task : TaskId) (kind : AskKind) : Runtime := { s with asks := s.asks ++ [s.asking task kind] }

def abort (s : Runtime) (task : TaskId) : Runtime := (s.ask task .abort).setTask task (s.tasks task).abort

def spawn (s : Runtime) (task : TaskId) : Runtime :=
  { s.setTask task (.running false) with kept := s.kept.hold task }

end Runtime

/-- What happens around the owner of the components. -/
inductive Happening
  | elapse (duration : Duration)
  | ends (task : TaskId) (result : TaskResult)
  | answer (result : AppResult)
  | driverReady (result : Option AppResult)
  | listenerReady
  | drained (result : AppResult)
  | control (result : AppResult)
  | signal (result : AppResult)
  deriving DecidableEq

def Runtime.happen (s : Runtime) : Happening → Runtime
  | .elapse duration => { s with now := s.now + duration }
  | .ends task result => s.setTask task ((s.tasks task).finish result)
  | .answer result => { s with answers := s.answers ++ [result] }
  | .driverReady result => { s with driverReady := s.driverReady.or (some result) }
  | .listenerReady => { s with listenerReady := s.listenerReady || decide (s.tasks .listener = .running false) }
  -- the reply goes through a channel that the request made
  | .drained result => if s.draining then { s with drained := s.drained.or (some result) } else s
  | .control result => { s with control := s.control.or (some result) }
  | .signal result => { s with signal := s.signal.or (some result) }

theorem Runtime.happen_frame (s : Runtime) (event : Happening) :
    (s.happen event).driverClient = s.driverClient ∧ (s.happen event).awaited = s.awaited := by
  cases event with
  | drained result =>
    simp only [happen]
    split <;> exact ⟨rfl, rfl⟩
  | elapse | ends | answer | driverReady | listenerReady | control | signal => exact ⟨rfl, rfl⟩

instance : Surrounded Runtime Happening := ⟨Runtime.now, Runtime.happen⟩

abbrev Owner (α : Type) := Program Runtime Happening α

open Program

/-- The wait for one of the alternatives; `task` is the one whose handle alone is awaited, if it is a wait for one. -/
def awaitFor {α : Type} (task : Option TaskId) (ready : Runtime → List (α × Runtime)) : Owner α := do
  update fun s => { s with awaited := task }
  await ready

/-! ### Handles -/

def joinReady (task : TaskId) (s : Runtime) : List (TaskResult × Runtime) :=
  match s.tasks task with
  | .ended aborted result => [(result, s.setTask task (.joined aborted result))]
  | _ => []

/-- The handle of the task is ready; it is dropped afterwards. -/
def exitReady (task : TaskId) (s : Runtime) : List (TaskResult × Runtime) :=
  (joinReady task s).map fun (result, s) => (result, s.release task)

/-- A handle is about to be polled. -/
def poll (task : TaskId) : Owner Unit := do
  if (← read (·.tasks task)).isJoined then panicWith "JoinHandle polled after completion"

def expectHandle (task : TaskId) (message : String) : Owner Unit := do
  if ← read (·.kept.handles task) then poll task else panicWith message

def join (task : TaskId) : Owner TaskResult := do
  poll task
  awaitFor (some task) (joinReady task)

/-- `abort_task`, and `abort_and_join` of the components that have one task. -/
def abortTask (task : TaskId) : Owner Unit := do
  if ← read (·.kept.handles task) then
    update fun s => (s.release task).abort task
    let _ ← join task

/-- A call of something that is not modelled: it answers at some time. -/
def call : Owner AppResult :=
  awaitFor none fun s => match s.answers with
    | [] => []
    | result :: answers => [(result, { s with answers })]

/-! ### What holds while the owner waits -/

/-- A task is told to stop in the right order, and gracefully only if that is possible. -/
structure Ask.Proper (ask : Ask) : Prop where
  /-- No task of a component that stops before this one runs any more.  Only during a failed start the verification
  server stops before the others, and a listener whose start was interrupted may still run though it was aborted. -/
  order : ask.task = .rpc ∧ ask.started = false ∨
    ∀ task ∈ ask.running, ask.task.component.rank ≤ task.component.rank ∨
      task = .listener ∧ task ∈ ask.aborted ∧ ask.started = false
  /-- The token of the verification worker is also cancelled before it is aborted. -/
  graceful : ask.kind = .abort ∨ ask.task = .verification ∨
    ask.serving = [] ∧ ∃ deadline, ask.deadline = some deadline ∧
      (ask.kind = .drain ∨ ask.task.component ≠ .p2p → ask.time ≤ deadline)
  drained : ask.task = .p2pWorker → ask.kind = .cancel → ask.drained = true
  closed : ask.kind = .close → TaskId.p2pWorker ∈ ask.joined

/-- Whenever the owner waits.  After the deadline of the shutdown it waits only for a task that it has aborted. -/
structure Orderly (s : Runtime) : Prop where
  proper : ∀ ask ∈ s.asks, ask.Proper
  bounded : ∀ deadline, s.kept.deadline = some deadline →
    s.now < deadline ∨ ∃ task, s.awaited = some task ∧ s.tasks task = .running true

/-- What is known about a state. -/
structure Known where
  kept : Kept
  /-- the tasks that were aborted and not awaited -/
  abandoned : List TaskId
  /-- every task that has stopped did so by itself and without an error -/
  clean : Prop
  /-- a shutdown was requested -/
  requested : Prop

structure At (x : Known) (s : Runtime) : Prop where
  kept : s.kept = x.kept
  live : ∀ task, x.kept.handles task = true → (s.tasks task).Live
  settled : ∀ task, x.kept.handles task = false →
    (s.tasks task).Settled ∨ task ∈ x.abandoned ∧ (s.tasks task).Abandoned
  clean : x.clean → ∀ task, x.kept.handles task = false → (s.tasks task).Clean
  requested : x.requested → s.control = some (.ok ()) ∨ s.signal = some (.ok ())
  proper : ∀ ask ∈ s.asks, ask.Proper

/-- Only the task of a listener whose start was interrupted has been aborted and not awaited. -/
def Known.Attended (x : Known) : Prop := ∀ task ∈ x.abandoned, task = .listener ∧ x.kept.started = false

/-- A task of the component may be told to stop: no component that stops before it is there any more. -/
def Known.MayStop (x : Known) (component : Component) : Prop :=
  x.Attended ∧ (component = .rpc ∧ x.kept.started = false ∨
    ∀ task, x.kept.handles task = true → component.rank ≤ task.component.rank)

namespace At

variable {x x' : Known} {s s' : Runtime} {task : TaskId} {result : TaskResult} {clean : Prop}

theorem weaken (h : At x s) (hclean : clean → x.clean) : At { x with clean } s :=
  { h with clean := fun hc => h.clean (hclean hc) }

theorem weaken_both {requested : Prop} (h : At x s) (hclean : clean → x.clean) (hrequested : requested → x.requested) :
    At { x with clean, requested } s :=
  { h with clean := fun hc => h.clean (hclean hc), requested := fun hr => h.requested (hrequested hr) }

theorem of_setTask {state : TaskState} (h : At x s)
    (hhandles : ∀ other, other ≠ task → x'.kept.handles other = x.kept.handles other)
    (habandoned : ∀ other, other ≠ task → other ∈ x.abandoned → other ∈ x'.abandoned)
    (hclean : x'.clean → x.clean) (hrequested : x'.requested → x.requested)
    (hlive : x'.kept.handles task = true → state.Live)
    (hsettled : x'.kept.handles task = false → state.Settled ∨ task ∈ x'.abandoned ∧ state.Abandoned)
    (hstate : x'.clean → x'.kept.handles task = false → state.Clean) :
    At x' { s.setTask task state with kept := x'.kept } := by
  refine ⟨rfl, fun other hother => ?_, fun other hother => ?_, fun hc other hother => ?_,
    fun hr => h.requested (hrequested hr), h.proper⟩
  all_goals
    simp only [Runtime.setTask]
    split
    · rename_i heq
      subst heq
      first | exact hlive hother | exact hsettled hother | exact hstate hc hother
    · rename_i hne
      have hother := (hhandles other hne).symm.trans hother
      first
      | exact h.live other hother
      | exact (h.settled other hother).imp_right (.imp_left (habandoned other hne))
      | exact h.clean (hclean hc) other hother

theorem happen (h : At x s) (event : Happening) : At x (s.happen event) := by
  have hor : ∀ {o : Option AppResult} (result), o = some (.ok ()) → o.or (some result) = some (.ok ()) := by
    rintro _ result rfl
    rfl
  cases event with
  | ends task result =>
    have hends : At x { s.setTask task ((s.tasks task).finish result) with kept := x.kept } := by
      refine h.of_setTask (fun _ _ => rfl) (fun _ _ => id) id id (fun hheld => (h.live task hheld).finish result)
        (fun hheld => ?_) (fun hc hheld => (h.clean hc task hheld).finish result)
      rcases h.settled task hheld with hs | ⟨hmem, hs⟩
      · exact .inl ((hs.finish result).symm ▸ hs)
      · exact .inr ⟨hmem, hs.finish result⟩
    rw [← h.kept] at hends
    exact hends
  | drained result =>
    simp only [Runtime.happen]
    split
    · exact { h with }
    · exact h
  | control result =>
    exact { h with requested := fun hr => (h.requested hr).imp_left (hor result) }
  | signal result =>
    exact { h with requested := fun hr => (h.requested hr).imp_right (hor result) }
  | elapse | answer | driverReady | listenerReady =>
    exact { h with }

/-- Only tasks whose handles are held run, and those that have been abandoned. -/
theorem of_running (h : At x s) (hrunning : (s.tasks task).isRunning = true) :
    x.kept.handles task = true ∨ task ∈ x.abandoned ∧ s.tasks task = .running true := by
  cases hheld : x.kept.handles task with
  | true => exact .inl rfl
  | false =>
    rcases h.settled task hheld with hs | ⟨hmem, hs⟩
    · exact Bool.noConfusion (hs.isRunning.symm.trans hrunning)
    · exact .inr ⟨hmem, hs.eq_running hrunning⟩

theorem order (h : At x s) (hstop : x.MayStop task.component) (kind : AskKind) :
    task = .rpc ∧ (s.asking task kind).started = false ∨
      ∀ other ∈ (s.asking task kind).running, task.component.rank ≤ other.component.rank ∨
        other = .listener ∧ other ∈ (s.asking task kind).aborted ∧ (s.asking task kind).started = false := by
  have hstarted : (s.asking task kind).started = x.kept.started := congrArg Kept.started h.kept
  rw [hstarted]
  obtain ⟨hattended, ⟨hrpc, hnot⟩ | hfirst⟩ := hstop
  · refine .inl ⟨?_, hnot⟩
    cases task <;> first | rfl | cases hrpc
  · refine .inr fun other hother => ?_
    obtain ⟨hall, hrunning⟩ := List.mem_filter.1 hother
    rcases h.of_running hrunning with hheld | ⟨hmem, haborted⟩
    · exact .inl (hfirst other hheld)
    · obtain ⟨hlistener, hnot⟩ := hattended other hmem
      exact .inr ⟨hlistener, List.mem_filter.2 ⟨hall, decide_eq_true haborted⟩, hnot⟩

theorem ask {kind : AskKind} (h : At x s) (hproper : (s.asking task kind).Proper) : At x (s.ask task kind) := by
  refine { h with proper := fun ask hask => ?_ }
  rcases List.mem_append.1 hask with hask | hask
  · exact h.proper ask hask
  · rw [List.mem_singleton.1 hask]
    exact hproper

theorem abort (h : At x s) (hheld : x.kept.handles task = true) (hstop : x.MayStop task.component) :
    At { x with kept := x.kept.release task, abandoned := task :: x.abandoned, clean := False }
      ((s.release task).abort task) := by
  have hask : At x (s.ask task .abort) := h.ask ⟨h.order hstop .abort, .inl rfl, nofun, nofun⟩
  have habort : At { x with kept := x.kept.release task, abandoned := task :: x.abandoned, clean := False }
      { (s.ask task .abort).setTask task (s.tasks task).abort with kept := x.kept.release task } :=
    hask.of_setTask (fun _ hne => if_neg hne) (fun _ _ => List.mem_cons_of_mem _) nofun id
      (fun hother => Bool.noConfusion ((if_pos rfl).symm.trans hother))
      (fun _ => .inr ⟨List.mem_cons_self, (h.live task hheld).abort⟩) nofun
  rw [← h.kept] at habort ⊢
  exact habort

theorem mem_joinReady :
    (result, s') ∈ joinReady task s ↔
      ∃ aborted, s.tasks task = .ended aborted result ∧ s' = s.setTask task (.joined aborted result) := by
  unfold joinReady
  split
  · rename_i aborted result' heq
    simp only [List.mem_singleton, Prod.mk.injEq, heq, TaskState.ended.injEq]
    constructor
    · rintro ⟨rfl, rfl⟩
      exact ⟨aborted, ⟨rfl, rfl⟩, rfl⟩
    · rintro ⟨_, ⟨rfl, rfl⟩, rfl⟩
      exact ⟨rfl, rfl⟩
  · rename_i hended
    constructor
    · nofun
    · rintro ⟨aborted, heq, -⟩
      exact absurd heq (hended aborted result)

theorem joined (h : At x s) (hheld : x.kept.handles task = true) (hready : (result, s') ∈ joinReady task s) :
    At { x with kept := x.kept.release task, clean := x.clean ∧ result = .ok (.ok ()) } (s'.release task) := by
  obtain ⟨aborted, hended, rfl⟩ := mem_joinReady.1 hready
  have hlive := h.live task hheld
  rw [hended] at hlive
  cases hlive
  have hjoined : At { x with kept := x.kept.release task, clean := x.clean ∧ result = .ok (.ok ()) }
      { s.setTask task (.joined false result) with kept := x.kept.release task } := by
    refine h.of_setTask (fun _ hne => if_neg hne) (fun _ _ => id) And.left id
      (fun hother => Bool.noConfusion ((if_pos rfl).symm.trans hother)) (fun _ => .inl (.joined _ _)) ?_
    rintro ⟨-, rfl⟩ -
    exact .joined
  rw [← h.kept] at hjoined ⊢
  exact hjoined

theorem mem_exitReady :
    (result, s') ∈ exitReady task s ↔ ∃ t, (result, t) ∈ joinReady task s ∧ s' = t.release task := by
  simp only [exitReady, List.mem_map, Prod.mk.injEq, Prod.exists]
  constructor
  · rintro ⟨_, t, hmem, rfl, rfl⟩
    exact ⟨t, hmem, rfl⟩
  · rintro ⟨t, hmem, rfl⟩
    exact ⟨result, t, hmem, rfl, rfl⟩

theorem exit (h : At x s) (hheld : x.kept.handles task = true) (hready : (result, s') ∈ exitReady task s) :
    At { x with kept := x.kept.release task, clean := x.clean ∧ result = .ok (.ok ()) } s' := by
  obtain ⟨t, hmem, rfl⟩ := mem_exitReady.1 hready
  exact h.joined hheld hmem

theorem joined_abandoned (h : At { x with abandoned := task :: x.abandoned } s) (hheld : x.kept.handles task = false)
    (hclean : ¬x.clean) (hready : (result, s') ∈ joinReady task s) : At x s' := by
  obtain ⟨aborted, -, rfl⟩ := mem_joinReady.1 hready
  have hjoined : At x { s.setTask task (.joined aborted result) with kept := x.kept } :=
    h.of_setTask (fun _ _ => rfl) (fun _ hne hmem => (List.mem_cons.1 hmem).resolve_left hne) id id
      (fun hother => Bool.noConfusion (hheld.symm.trans hother)) (fun _ => .inl (.joined _ _))
      (fun hc => absurd hc hclean)
  rw [← h.kept] at hjoined
  exact hjoined

theorem spawn (h : At x s) : At { x with kept := x.kept.hold task } (s.spawn task) := by
  have hspawn : At { x with kept := x.kept.hold task }
      { s.setTask task (.running false) with kept := x.kept.hold task } :=
    h.of_setTask (fun _ hne => if_neg hne) (fun _ _ => id) id id (fun _ => .running)
      (fun hother => Bool.noConfusion ((if_pos rfl).symm.trans hother))
      (fun _ hother => Bool.noConfusion ((if_pos rfl).symm.trans hother))
  rw [← h.kept] at hspawn ⊢
  exact hspawn

end At

/-! ### What the operations on handles do -/

section

variable {x : Known} {task : TaskId} {deadline : Option Nat}

theorem awaitFor_meets {α : Type} {P E : Runtime → Prop} {Q : α → Runtime → Prop} {awaited : Option TaskId}
    {ready : Runtime → List (α × Runtime)} (hset : ∀ s, P s → P { s with awaited })
    (hP : ∀ s event, P s → P (s.happen event)) (hQ : ∀ s a s', P s → (a, s') ∈ ready s → Q a s')
    (hE : ∀ s, P s → s.awaited = awaited → ready s = [] → E s) : Meets deadline P (awaitFor awaited ready) Q E := by
  refine .update_to (fun s => P s ∧ s.awaited = awaited) (fun s hs => ⟨hset s hs, rfl⟩) (.await ?_ ?_ ?_)
  · exact fun s event hs => ⟨hP s event hs.1, (s.happen_frame event).2.trans hs.2⟩
  · exact fun s a s' hs => hQ s a s' hs.1
  · exact fun s hs => hE s hs.1 hs.2

theorem awaitFor_at_meets {α : Type} {E : Runtime → Prop} {Q : α → Runtime → Prop} {awaited : Option TaskId}
    {ready : Runtime → List (α × Runtime)} (hQ : ∀ s a s', At x s → (a, s') ∈ ready s → Q a s')
    (hE : ∀ s, At x s → E s) : Meets deadline (At x) (awaitFor awaited ready) Q E :=
  awaitFor_meets (fun _ hs => { hs with }) (fun _ event hs => hs.happen event) hQ fun s hs _ _ => hE s hs

theorem poll_meets {P E : Runtime → Prop} (h : ∀ s, P s → (s.tasks task).isJoined = false) :
    Meets deadline P (poll task) (fun _ => P) E := by
  refine (Meets.read fun s hs => ⟨h s hs, hs⟩ : Meets deadline P _ (fun state s => state.isJoined = false ∧ P s) E).bind
    fun state => ?_
  cases hstate : state.isJoined with
  | true => exact .of_false fun s hs => Bool.noConfusion hs.1
  | false => exact .pure fun s hs => hs.2

theorem At.handles_eq {s : Runtime} (h : At x s) : s.kept.handles task = x.kept.handles task := by
  rw [h.kept]

theorem At.components_eq {s : Runtime} {component : Component} (h : At x s) :
    s.kept.components component = x.kept.components component := by
  rw [h.kept]

theorem At.orderly_of_none {s : Runtime} (h : At x s) (hdeadline : x.kept.deadline = none) : Orderly s := by
  refine ⟨h.proper, ?_⟩
  rw [h.kept, hdeadline]
  nofun

theorem expectHandle_meets {message : String} {E : Runtime → Prop} (hheld : x.kept.handles task = true) :
    Meets deadline (At x) (expectHandle task message) (fun _ => At x) E := by
  refine .read_eq (fun s hs => hs.handles_eq) ?_
  rw [hheld]
  exact poll_meets fun s hs => (hs.live task hheld).isJoined

theorem join_meets (hheld : x.kept.handles task = true) :
    Meets deadline (At x) (join task)
      (fun result s =>
        At { x with kept := x.kept.release task, clean := x.clean ∧ result = .ok (.ok ()) } (s.release task))
      (At x) :=
  (poll_meets fun _ hs => (hs.live task hheld).isJoined).bind fun _ =>
    awaitFor_at_meets (fun _ _ _ hs hready => hs.joined hheld hready) fun _ hs => hs

theorem abandoned_happen {s : Runtime} (h : (s.tasks task).Abandoned) (event : Happening) :
    ((s.happen event).tasks task).Abandoned := by
  cases event with
  | ends other result =>
    simp only [Runtime.happen, Runtime.setTask]
    split
    · rename_i heq
      exact (heq ▸ h).finish result
    · exact h
  | drained result =>
    simp only [Runtime.happen]
    split <;> exact h
  | elapse | answer | driverReady | listenerReady | control | signal => exact h

/-- The owner waits for an aborted task as long as it takes. -/
theorem join_abandoned_meets (hheld : x.kept.handles task = false) (hclean : ¬x.clean) :
    Meets deadline (fun s => At { x with abandoned := task :: x.abandoned } s ∧ (s.tasks task).Abandoned) (join task)
      (fun _ => At x) Orderly := by
  refine (poll_meets fun _ hs => hs.2.isJoined).bind fun _ => ?_
  refine awaitFor_meets (fun _ hs => ⟨{ hs.1 with }, hs.2⟩)
    (fun _ event hs => ⟨hs.1.happen event, abandoned_happen hs.2 event⟩)
    (fun _ _ _ hs hready => hs.1.joined_abandoned hheld hclean hready) fun s hs hawaited hready => ?_
  refine ⟨hs.1.proper, fun _ _ => .inr ⟨task, hawaited, ?_⟩⟩
  have habandoned := hs.2
  unfold joinReady at hready
  generalize s.tasks task = state at habandoned hready
  cases habandoned with
  | running => rfl
  | ended result => cases hready

theorem abortTask_meets (hstop : x.MayStop task.component) :
    Meets deadline (At x) (abortTask task) (fun _ => At { x with kept := x.kept.release task, clean := False })
      Orderly := by
  refine .read_eq (fun s hs => hs.handles_eq) ?_
  cases hheld : x.kept.handles task with
  | false =>
    refine .pure fun s hs => ?_
    rw [Kept.release_eq_self hheld]
    exact hs.weaken nofun
  | true =>
    refine .update_to (fun s =>
      At { x with kept := x.kept.release task, abandoned := task :: x.abandoned, clean := False } s ∧
        (s.tasks task).Abandoned) (fun s hs => ⟨hs.abort hheld hstop, ?_⟩) ?_
    · simp only [Runtime.abort, Runtime.setTask, if_pos]
      exact (hs.live task hheld).abort
    · refine (join_abandoned_meets (x := { x with kept := x.kept.release task, clean := False }) (if_pos rfl) id).bind
        fun _ => ?_
      exact .pure fun _ hs => hs

theorem call_meets (hdeadline : x.kept.deadline = none) : Meets deadline (At x) call (fun _ => At x) Orderly := by
  refine awaitFor_at_meets (fun s result s' hs hready => ?_) fun s hs => hs.orderly_of_none hdeadline
  split at hready
  · cases hready
  · cases List.mem_singleton.1 hready
    exact { hs with }

end

end PulsarVerifier
