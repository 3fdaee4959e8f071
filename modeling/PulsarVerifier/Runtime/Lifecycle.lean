import PulsarVerifier.Runtime.App

/-!
# No task outlives the process

What is known after each stage of `App.run`: while the components are started and while they run every component holds
the handles of its tasks, and afterwards the components are stopped one after the other in the order of their ranks.
-/

namespace PulsarVerifier

open Program

theorem Component.rank_injective {a b : Component} (h : a.rank = b.rank) : a = b := by
  cases a <;> cases b <;> first | rfl | cases h

theorem TaskId.eq_of_component {a b : TaskId} (hone : b.component ≠ .p2p) (h : a.component = b.component) : a = b := by
  cases a <;> cases b <;> first | rfl | exact absurd rfl hone | cases h

namespace Kept

/-- The component is gone, and so are its tasks. -/
def without (k : Kept) (component : Component) : Kept :=
  { k with
    components := fun other => if other = component then false else k.components other
    handles := fun task => if task.component = component then false else k.handles task }

/-- A handle is held by a component that is there. -/
def Housed (k : Kept) : Prop :=
  ∀ task, task ≠ .verification → k.handles task = true → k.components task.component = true

/-- Every component that is there holds the handles of its tasks. -/
def Running (k : Kept) : Prop :=
  ∀ task, k.handles task = (decide (task = .verification) || k.components task.component)

/-- Only components from this rank on hold handles. -/
def From (k : Kept) (rank : Nat) : Prop := ∀ task, k.handles task = true → rank ≤ task.component.rank

variable {k : Kept} {component : Component} {task : TaskId} {rank : Nat}

theorem Running.housed (h : k.Running) : k.Housed := by
  intro task hne hheld
  rw [h task, decide_eq_false hne] at hheld
  exact hheld

theorem handles_of_without (h : (k.without component).handles task = true) :
    task.component ≠ component ∧ k.handles task = true := by
  simp only [without] at h
  split at h
  · cases h
  · exact ⟨‹_›, h⟩

theorem handles_of_release {other : TaskId} (h : (k.release other).handles task = true) :
    task ≠ other ∧ k.handles task = true := by
  simp only [release] at h
  split at h
  · cases h
  · exact ⟨‹_›, h⟩

theorem Housed.without (h : k.Housed) (component : Component) : (k.without component).Housed := by
  intro task hne hheld
  obtain ⟨hcomponent, hheld⟩ := handles_of_without hheld
  exact (if_neg hcomponent).trans (h task hne hheld)

theorem Housed.release (h : k.Housed) (task : TaskId) : (k.release task).Housed :=
  fun other hne hheld => h other hne (handles_of_release hheld).2

theorem Running.without (h : k.Running) (hne : component ≠ .verification) : (k.without component).Running := by
  intro task
  simp only [Kept.without]
  split
  · rename_i heq
    have htask : task ≠ .verification := by
      rintro rfl
      exact hne heq.symm
    rw [decide_eq_false htask]
    rfl
  · exact h task

theorem From.without (h : k.From component.rank) : (k.without component).From (component.rank + 1) := by
  intro task hheld
  obtain ⟨hne, hheld⟩ := handles_of_without hheld
  exact Nat.lt_of_le_of_ne (h task hheld) fun heq => hne (Component.rank_injective heq.symm)

theorem From.release_verification (h : k.From Component.verification.rank) :
    (k.release .verification).From (Component.verification.rank + 1) := by
  intro task hheld
  obtain ⟨hne, hheld⟩ := handles_of_release hheld
  refine Nat.lt_of_le_of_ne (h task hheld) fun heq => hne ?_
  have hcomponent := Component.rank_injective heq
  cases task <;> first | rfl | cases hcomponent

theorem From.handles_eq_false (h : k.From 5) (task : TaskId) : k.handles task = false := by
  by_contra hheld
  have hrank := h task (Bool.of_not_eq_false hheld)
  cases task <;> exact absurd hrank (by decide)

theorem without_eq_self (h : k.Housed) (hne : component ≠ .verification) (habsent : k.components component = false) :
    k.without component = k := by
  ext task
  · simp only [without]
    split
    · rename_i heq
      subst heq
      have htask : task ≠ .verification := by
        rintro rfl
        exact hne rfl
      by_contra hheld
      exact Bool.noConfusion (habsent.symm.trans (h task htask (Bool.of_not_eq_false (Ne.symm hheld))))
    · rfl
  · simp only [without]
    split
    · rename_i heq
      rw [heq, habsent]
    · rfl
  all_goals rfl

theorem take_release (hone : task.component ≠ .p2p) :
    (k.take task.component).release task = k.without task.component := by
  ext other
  · by_cases heq : other = task
    · exact (if_pos heq).trans (if_pos (congrArg TaskId.component heq)).symm
    · exact (if_neg heq).trans (if_neg fun hcomponent => heq (TaskId.eq_of_component hone hcomponent)).symm
  all_goals rfl

theorem take_withP2p : (k.take .p2p).withP2p false false = k.without .p2p := by
  ext other
  · cases other <;> rfl
  all_goals rfl

theorem withP2p_eq_self {driver worker : Bool} (hdriver : k.handles .p2pDriver = driver)
    (hworker : k.handles .p2pWorker = worker) : k.withP2p driver worker = k := by
  subst hdriver hworker
  ext other
  · cases other <;> rfl
  all_goals rfl

end Kept

section

variable {x : Known} {component : Component} {d : Instant} {total : Duration}

theorem whenThere_meets {deadline : Option Nat} {P E : Runtime → Prop} {Q : Unit → Runtime → Prop} {body : Owner Unit}
    (hP : ∀ s, P s → At x s) (hthere : x.kept.components component = true → Meets deadline P body Q E)
    (habsent : x.kept.components component = false → ∀ s, P s → Q () s) :
    Meets deadline P (whenThere component body) Q E := by
  refine .read_eq (fun s hs => (hP s hs).components_eq) ?_
  cases h : x.kept.components component with
  | false => exact .pure (habsent h)
  | true => exact hthere h

/-! ### Stopping at once -/

theorem Known.Attended.of_started {k : Kept} {clean requested : Prop} (h : x.Attended)
    (hstarted : k.started = x.kept.started) : Known.Attended ⟨k, x.abandoned, clean, requested⟩ :=
  fun task hmem => ⟨(h task hmem).1, hstarted.trans (h task hmem).2⟩

theorem Known.Attended.mayStop {k : Kept} {clean requested : Prop} (h : x.Attended) (hfrom : k.From component.rank)
    (hstarted : k.started = x.kept.started) : Known.MayStop ⟨k, x.abandoned, clean, requested⟩ component :=
  ⟨h.of_started hstarted, .inr hfrom⟩

/-- What stops a component that has been taken, with its tasks. -/
def Stops (x : Known) (component : Component) (forceShutdown : Owner Unit) : Prop :=
  Meets none (At { x with kept := x.kept.take component }) forceShutdown
    (fun _ => At { x with kept := x.kept.without component, clean := False }) Orderly

theorem stops_abortTask (task : TaskId) (hone : task.component ≠ .p2p) (hstop : x.MayStop task.component) :
    Stops x task.component (abortTask task) := by
  unfold Stops
  rw [← Kept.take_release hone]
  exact abortTask_meets hstop

theorem stops_p2p (hstop : x.MayStop .p2p) : Stops x .p2p P2pService.forceShutdown := by
  obtain ⟨driver, hdriver⟩ : ∃ driver, x.kept.handles .p2pDriver = driver := ⟨_, rfl⟩
  obtain ⟨worker, hworker⟩ : ∃ worker, x.kept.handles .p2pWorker = worker := ⟨_, rfl⟩
  have hself : (x.kept.take .p2p).withP2p driver worker = x.kept.take .p2p := Kept.withP2p_eq_self hdriver hworker
  have hforce : Meets none (At (Known.p2p { x with kept := x.kept.take .p2p } driver worker x.clean))
      P2pService.forceShutdown
      (fun _ => At (Known.p2p { x with kept := x.kept.take .p2p } false false False)) Orderly :=
    P2pService.forceShutdown_meets hstop
  unfold Stops
  rw [Known.p2p, hself, Known.p2p, Kept.take_withP2p] at hforce
  exact hforce

theorem takeAndForce_meets {forceShutdown : Owner Unit} (hhoused : x.kept.Housed) (hne : component ≠ .verification)
    (hstops : Stops x component forceShutdown) :
    Meets none (At x) (takeAndForce component forceShutdown)
      (fun _ => At { x with kept := x.kept.without component, clean := False }) Orderly := by
  refine whenThere_meets (fun _ hs => hs) (fun _ => ?_) fun habsent s hs => ?_
  · refine .update_to (At { x with kept := x.kept.take component }) (fun s hs => ?_) hstops
    exact { hs with kept := congrArg (Kept.take · component) hs.kept }
  · rw [Kept.without_eq_self hhoused hne habsent]
    exact hs.weaken nofun

/-- The token of the verification worker is cancelled, and its task aborted. -/
theorem abortVerification_meets (hstop : x.MayStop .verification) :
    Meets none (At x) (do update (·.ask .verification .cancel); abortTask .verification)
      (fun _ => At { x with kept := x.kept.release .verification, clean := False }) Orderly := by
  refine .update_to (At x) (fun s hs => ?_) (abortTask_meets hstop)
  have horder := hs.order (show x.MayStop TaskId.verification.component from hstop) .cancel
  exact hs.ask ⟨horder, .inr (.inl rfl), nofun, nofun⟩

def AllStopped (x : Known) (s : Runtime) : Prop :=
  ∃ k : Kept, (∀ task, k.handles task = false) ∧ k.started = x.kept.started ∧ At { x with kept := k } s

theorem stops_submissionRpc (hstop : x.MayStop .submissionRpc) :
    Stops x .submissionRpc SubmissionRpcServer.forceShutdown :=
  stops_abortTask .submissionRpc (by decide) hstop

theorem stops_listener (hstop : x.MayStop .listener) : Stops x .listener PulsarListener.forceShutdown :=
  stops_abortTask .listener (by decide) hstop

theorem stops_rpc (hstop : x.MayStop .rpc) : Stops x .rpc RpcServer.forceShutdown :=
  stops_abortTask .rpc (by decide) hstop

/-- The components stop in the order of their ranks. -/
theorem forceShutdownComponents_meets (hhoused : x.kept.Housed) (hattended : x.Attended) :
    Meets none (At x) forceShutdownComponents (fun _ => AllStopped { x with clean := False }) Orderly := by
  have h₀ : x.kept.From Component.submissionRpc.rank := fun _ _ => Nat.zero_le _
  have h₁ : (x.kept.without .submissionRpc).From Component.listener.rank := h₀.without
  have h₂ : ((x.kept.without .submissionRpc).without .listener).From Component.p2p.rank := h₁.without
  have h₃ : (((x.kept.without .submissionRpc).without .listener).without .p2p).From Component.verification.rank :=
    h₂.without
  have h₄ : ((((x.kept.without .submissionRpc).without .listener).without .p2p).release .verification).From
      Component.rpc.rank := h₃.release_verification
  have hhoused₁ := hhoused.without .submissionRpc
  have hhoused₂ := hhoused₁.without .listener
  have hhoused₃ := (hhoused₂.without .p2p).release .verification
  refine (takeAndForce_meets hhoused (by decide) (stops_submissionRpc (hattended.mayStop h₀ rfl))).bind fun _ => ?_
  refine (takeAndForce_meets hhoused₁ (by decide) (stops_listener (hattended.mayStop h₁ rfl))).bind fun _ => ?_
  refine (takeAndForce_meets hhoused₂ (by decide) (stops_p2p (hattended.mayStop h₂ rfl))).bind fun _ => ?_
  refine (abortVerification_meets (hattended.mayStop h₃ rfl)).bind fun _ => ?_
  refine (takeAndForce_meets hhoused₃ (by decide) (stops_rpc (hattended.mayStop h₄ rfl))).post fun _ s hs => ?_
  exact ⟨_, Kept.From.handles_eq_false h₄.without, rfl, hs⟩

theorem cleanupStartup_meets (hhoused : x.kept.Housed) (hstarted : x.kept.started = false)
    (hsubmission : x.kept.handles .submissionRpc = false) (hattended : x.Attended) :
    Meets none (At x) cleanupStartup (fun _ => AllStopped { x with clean := False }) Orderly := by
  have h₁ : (x.kept.without .rpc).From Component.listener.rank := by
    intro task hheld
    cases task with
    | submissionRpc => exact Bool.noConfusion (hsubmission.symm.trans hheld)
    | listener | p2pDriver | p2pWorker | verification | rpc => decide
  have h₂ : ((x.kept.without .rpc).without .listener).From Component.p2p.rank := h₁.without
  have h₃ : (((x.kept.without .rpc).without .listener).without .p2p).From Component.verification.rank := h₂.without
  have hhoused₁ := hhoused.without .rpc
  have hhoused₂ := hhoused₁.without .listener
  refine (takeAndForce_meets hhoused (by decide) (stops_rpc ⟨hattended, .inl ⟨rfl, hstarted⟩⟩)).bind fun _ => ?_
  refine (takeAndForce_meets hhoused₁ (by decide) (stops_listener (hattended.mayStop h₁ rfl))).bind fun _ => ?_
  refine (takeAndForce_meets hhoused₂ (by decide) (stops_p2p (hattended.mayStop h₂ rfl))).bind fun _ => ?_
  refine (abortVerification_meets (hattended.mayStop h₃ rfl)).post fun _ s hs =>
    ⟨(((x.kept.without .rpc).without .listener).without .p2p).release .verification, fun task => ?_, rfl, hs⟩
  cases task <;> first | rfl | exact hsubmission

/-! ### A requested shutdown -/

theorem preserveFirstError_eq_none_iff {first : Option AppError} {result : AppResult} :
    preserveFirstError first result = none ↔ first = none ∧ result = .ok () := by
  cases result <;> simp [preserveFirstError]

theorem resultError_eq_none_iff {result : AppResult} : resultError result = none ↔ result = .ok () := by
  cases result <;> simp [resultError]

/-- What stops a component that has been taken before the deadline, or at once if the deadline has passed. -/
theorem shutdownBefore_meets {forceShutdown : Owner Unit} {shutdown : Duration → Owner AppResult}
    (hforce : Stops x component forceShutdown)
    (hshutdown : ∀ limit, Meets none (fun s => At { x with kept := x.kept.take component } s ∧ s.now + limit = d)
      (shutdown limit)
      (fun result => At { x with kept := x.kept.without component, clean := x.clean ∧ result = .ok () }) Orderly) :
    Meets none (At { x with kept := x.kept.take component }) (shutdownBefore forceShutdown shutdown d total)
      (fun result => At { x with kept := x.kept.without component, clean := x.clean ∧ result = .ok () }) Orderly := by
  refine Meets.bind (Q := fun now s => At { x with kept := x.kept.take component } s ∧ s.now = now)
    (.read fun s hs => ⟨hs, rfl⟩) fun now => ?_
  split
  · rename_i hle
    refine ((hshutdown (d - now)).pre fun s hs => ⟨hs.1, by rw [hs.2, Nat.add_sub_cancel' hle]⟩).bind fun result => ?_
    split
    · exact .pure fun s hs => hs.weaken nofun
    · exact .pure fun s hs => hs
  · exact (hforce.pre fun s hs => hs.1).bind fun _ => .pure fun s hs => hs.weaken nofun

/-- What is known if there has been no error so far. -/
def Known.unless (x : Known) (first : Option AppError) : Known :=
  { x with clean := first = none, requested := first = none }

theorem takeAndShutdown_meets {shutdown : Owner AppResult} {first : Option AppError} (hhoused : x.kept.Housed)
    (hne : component ≠ .verification)
    (hshutdown : x.kept.components component = true →
      Meets none (At { x.unless first with kept := x.kept.take component }) shutdown
        (fun result =>
          At { x.unless first with kept := x.kept.without component, clean := first = none ∧ result = .ok () })
        Orderly) :
    Meets none (At (x.unless first)) (takeAndShutdown component first shutdown)
      (fun first => At (Known.unless { x with kept := x.kept.without component } first)) Orderly := by
  refine .read_eq (fun s hs => hs.components_eq) ?_
  show Meets none _ (if x.kept.components component = true then _ else _) _ _
  cases hthere : x.kept.components component with
  | false =>
    refine .pure fun s hs => ?_
    rw [Kept.without_eq_self hhoused hne hthere]
    exact hs
  | true =>
    refine .update_to (At { x.unless first with kept := x.kept.take component }) (fun s hs => ?_) ?_
    · exact { hs with kept := congrArg (Kept.take · component) hs.kept }
    · exact (hshutdown hthere).bind fun result => .pure fun s hs =>
        hs.weaken_both preserveFirstError_eq_none_iff.1 fun h => (preserveFirstError_eq_none_iff.1 h).1

theorem shutdownTask_taken_meets (task : TaskId) {name : String} {limit : Duration} (hone : task.component ≠ .p2p)
    (hstop : x.MayStop task.component) (hclosing : x.kept.Closing d) :
    Meets none (fun s => At { x with kept := x.kept.take task.component } s ∧ s.now + limit = d)
      (shutdownTask task name limit)
      (fun result => At { x with kept := x.kept.without task.component, clean := x.clean ∧ result = .ok () })
      Orderly := by
  rw [← Kept.take_release hone]
  exact shutdownTask_meets hone hstop ⟨hclosing.deadline, hclosing.serving⟩

theorem takeAndShutdown_task_meets {first : Option AppError} (task : TaskId) {name : String}
    (hne : task.component ≠ .verification) (hone : task.component ≠ .p2p) (hhoused : x.kept.Housed)
    (hstop : x.MayStop task.component) (hclosing : x.kept.Closing d) :
    Meets none (At (x.unless first))
      (takeAndShutdown task.component first (shutdownBefore (abortTask task) (shutdownTask task name) d total))
      (fun first => At (Known.unless { x with kept := x.kept.without task.component } first)) Orderly := by
  refine takeAndShutdown_meets hhoused hne fun _ => ?_
  refine shutdownBefore_meets (x := x.unless first) (stops_abortTask task hone hstop) fun _ => ?_
  exact shutdownTask_taken_meets task hone hstop hclosing

theorem takeAndShutdown_p2p_meets {first : Option AppError} (hrunning : x.kept.Running) (hstop : x.MayStop .p2p)
    (hclosing : x.kept.Closing d) :
    Meets none (At (x.unless first)) (takeAndShutdown .p2p first (shutdownP2p d total))
      (fun first => At (Known.unless { x with kept := x.kept.without .p2p } first)) Orderly := by
  refine takeAndShutdown_meets hrunning.housed (by decide) fun hthere => ?_
  refine shutdownBefore_meets (x := x.unless first) (stops_p2p hstop) fun limit => ?_
  have hself : (x.kept.take .p2p).withP2p true true = x.kept.take .p2p :=
    Kept.withP2p_eq_self ((hrunning .p2pDriver).trans hthere) ((hrunning .p2pWorker).trans hthere)
  have hshutdown : Meets none
      (fun s => At (Known.p2p { x.unless first with kept := x.kept.take .p2p } true true (first = none)) s ∧
        s.now + limit = d)
      (P2pService.shutdown limit)
      (fun result => At (Known.p2p { x.unless first with kept := x.kept.take .p2p } false false
        (first = none ∧ result = .ok ()))) Orderly :=
    P2pService.shutdown_meets hstop ⟨hclosing.deadline, hclosing.serving⟩
  simp only [Known.p2p, hself, Kept.take_withP2p] at hshutdown
  exact hshutdown

theorem shutdownVerification_meets (hstop : x.MayStop .verification) (hclosing : x.kept.Closing d) :
    Meets none (At x) (shutdownVerification d total)
      (fun result => At { x with kept := x.kept.release .verification, clean := x.clean ∧ result = .ok () })
      Orderly := by
  refine .update_to (At x) (fun s hs => ?_) ?_
  · have horder := hs.order (show x.MayStop TaskId.verification.component from hstop) .cancel
    exact hs.ask ⟨horder, .inr (.inl rfl), nofun, nofun⟩
  refine Meets.bind (Q := fun now s => At x s ∧ s.now = now) (.read fun s hs => ⟨hs, rfl⟩) fun now => ?_
  split
  · rename_i hle
    exact (joinWithin_meets hstop hclosing).pre fun s hs => ⟨hs.1, by rw [hs.2, Nat.add_sub_cancel' hle]⟩
  · exact ((abortTask_meets hstop).pre fun s hs => hs.1).bind fun _ => .pure fun s hs => hs.weaken nofun

/-- A server reports that it serves only while it is there. -/
def Kept.Reports (k : Kept) : Prop :=
  ∀ task, k.serving task = true → (task = .rpc ∨ task = .submissionRpc) ∧ k.components task.component = true

theorem Kept.setServing_eq_self {k : Kept} {task : TaskId} (h : k.serving task = false) :
    k.setServing task false = k := by
  ext other
  case serving =>
    simp only [setServing]
    split
    · rename_i heq
      rw [heq, h]
    · rfl
  all_goals rfl

theorem markNotServing_meets (task : TaskId)
    (hserving : x.kept.serving task = true → x.kept.components task.component = true) :
    Meets none (At x) (whenThere task.component (setNotServing task))
      (fun _ => At { x with kept := x.kept.setServing task false }) Orderly := by
  refine whenThere_meets (fun _ hs => hs) (fun _ => .update fun s hs => ?_) fun habsent s hs => ?_
  · exact { hs with kept := congrArg (Kept.setServing · task false) hs.kept }
  · have hnot : x.kept.serving task = false := by
      by_contra h
      exact Bool.noConfusion (habsent.symm.trans (hserving (Bool.of_not_eq_false h)))
    rw [Kept.setServing_eq_self hnot]
    exact hs

/-- The components stop in the order of their ranks, each before the deadline or at once. -/
theorem shutdownInOrder_meets {first : Option AppError} (hrunning : x.kept.Running) (hclosing : x.kept.Closing d)
    (hattended : x.Attended) :
    Meets none (At (x.unless first)) (shutdownInOrder first d total) (fun first => AllStopped (x.unless first))
      Orderly := by
  obtain ⟨k₁, hk₁⟩ : ∃ k₁, k₁ = x.kept.without .submissionRpc := ⟨_, rfl⟩
  obtain ⟨k₂, hk₂⟩ : ∃ k₂, k₂ = k₁.without .listener := ⟨_, rfl⟩
  obtain ⟨k₃, hk₃⟩ : ∃ k₃, k₃ = k₂.without .p2p := ⟨_, rfl⟩
  have hclosing₁ : k₁.Closing d := hk₁ ▸ ⟨hclosing.1, hclosing.2⟩
  have hclosing₂ : k₂.Closing d := hk₂ ▸ ⟨hclosing₁.1, hclosing₁.2⟩
  have hclosing₃ : k₃.Closing d := hk₃ ▸ ⟨hclosing₂.1, hclosing₂.2⟩
  have hrunning₁ : k₁.Running := hk₁ ▸ hrunning.without (by decide)
  have hrunning₂ : k₂.Running := hk₂ ▸ hrunning₁.without (by decide)
  have hrunning₃ : k₃.Running := hk₃ ▸ hrunning₂.without (by decide)
  have h₀ : x.kept.From Component.submissionRpc.rank := fun _ _ => Nat.zero_le _
  have h₁ : k₁.From Component.listener.rank := hk₁ ▸ h₀.without
  have h₂ : k₂.From Component.p2p.rank := hk₂ ▸ h₁.without
  have h₃ : k₃.From Component.verification.rank := hk₃ ▸ h₂.without
  have h₄ : (k₃.release .verification).From Component.rpc.rank := h₃.release_verification
  have hs₁ : k₁.started = x.kept.started := hk₁ ▸ rfl
  have hs₂ : k₂.started = x.kept.started := hk₂ ▸ hs₁
  have hs₃ : k₃.started = x.kept.started := hk₃ ▸ hs₂
  refine (takeAndShutdown_task_meets .submissionRpc (by decide) (by decide) hrunning.housed (hattended.mayStop h₀ rfl)
    hclosing).bind fun first => ?_
  rw [TaskId.component, ← hk₁]
  refine (takeAndShutdown_task_meets (x := { x with kept := k₁ }) .listener (by decide) (by decide) hrunning₁.housed
    (hattended.mayStop h₁ hs₁) hclosing₁).bind fun first => ?_
  rw [TaskId.component, ← hk₂]
  refine (takeAndShutdown_p2p_meets (x := { x with kept := k₂ }) hrunning₂ (hattended.mayStop h₂ hs₂) hclosing₂).bind
    fun first => ?_
  rw [← hk₃]
  refine (shutdownVerification_meets (x := Known.unless { x with kept := k₃ } first) (hattended.mayStop h₃ hs₃)
    hclosing₃).bind fun result => ?_
  refine ((takeAndShutdown_task_meets (x := { x with kept := k₃.release .verification }) .rpc (by decide) (by decide)
    (hrunning₃.housed.release _) (hattended.mayStop h₄ hs₃) ⟨hclosing₃.1, hclosing₃.2⟩).pre fun s hs => ?_).post
    fun first s hs => ?_
  · exact hs.weaken_both preserveFirstError_eq_none_iff.1 fun h => (preserveFirstError_eq_none_iff.1 h).1
  · exact ⟨_, Kept.From.handles_eq_false h₄.without, hs₃, hs⟩

/-- After a shutdown was requested every task has been awaited to its end.  If there was no error, every task ended by
itself. -/
theorem shutdownRequested_meets {request : AppResult} (hrunning : x.kept.Running) (hreports : x.kept.Reports)
    (hattended : x.Attended) (hclean : x.clean) (hrequested : request = .ok () → x.requested) :
    Meets none (At x) (shutdownRequested request total)
      (fun result => AllStopped { x with clean := result = .ok (), requested := result = .ok () }) Orderly := by
  refine .read_any fun now => ?_
  refine .update_to (At { x with kept := { x.kept with deadline := some (now + total) } }) (fun s hs => ?_) ?_
  · exact { hs with kept := congrArg (fun k : Kept => { k with deadline := some (now + total) }) hs.kept }
  refine (markNotServing_meets (x := { x with kept := { x.kept with deadline := some (now + total) } }) .rpc
    fun h => (hreports .rpc h).2).bind fun _ => ?_
  refine (markNotServing_meets
    (x := { x with kept := Kept.setServing { x.kept with deadline := some (now + total) } .rpc false })
    .submissionRpc fun h => (hreports .submissionRpc h).2).bind fun _ => ?_
  obtain ⟨k, hk⟩ : ∃ k, k = (Kept.setServing { x.kept with deadline := some (now + total) } .rpc false).setServing
    .submissionRpc false := ⟨_, rfl⟩
  have hclosing : k.Closing (now + total) := by
    subst hk
    refine ⟨rfl, fun task => ?_⟩
    by_contra h
    have hserving : x.kept.serving task = true := by
      cases task <;> first | exact Bool.of_not_eq_false h | exact absurd rfl h
    rcases (hreports task hserving).1 with rfl | rfl
    · exact absurd rfl h
    · exact absurd rfl h
  have hrunning : k.Running := hk ▸ hrunning
  have hstarted : k.started = x.kept.started := by rw [hk]; rfl
  dsimp only at hk ⊢
  rw [← hk]
  refine ((shutdownInOrder_meets (x := { x with kept := k }) hrunning hclosing
    (hattended.of_started hstarted)).pre fun s hs => ?_).bind fun first => ?_
  · exact hs.weaken_both (fun _ => hclean) fun h => hrequested (resultError_eq_none_iff.1 h)
  cases first with
  | none =>
    refine .pure fun s ⟨k', hhandles, hkept, hs⟩ => ⟨k', hhandles, hkept.trans hstarted, ?_⟩
    exact hs.weaken_both (fun _ => rfl) fun _ => rfl
  | some error =>
    refine .pure fun s ⟨k', hhandles, hkept, hs⟩ => ⟨k', hhandles, hkept.trans hstarted, ?_⟩
    exact hs.weaken_both nofun nofun

/-! ### The end of the process -/

/-- What `App.run` guarantees when it returns. -/
structure Stopped (result : AppResult) (s : Runtime) : Prop where
  settled : ∀ task, (s.tasks task).Settled ∨ task = .listener ∧ s.kept.started = false ∧ (s.tasks task).Abandoned
  requested : result = .ok () → s.control = some (.ok ()) ∨ s.signal = some (.ok ())
  clean : result = .ok () → s.kept.started = true → ∀ task, (s.tasks task).Clean
  proper : ∀ ask ∈ s.asks, ask.Proper

theorem Stopped.of_at {result : AppResult} {s : Runtime} (h : At x s) (hhandles : ∀ task, x.kept.handles task = false)
    (hattended : x.Attended)
    (hrequested : result = .ok () → x.requested) (hclean : result = .ok () → x.kept.started = true → x.clean) :
    Stopped result s := by
  refine ⟨fun task => ?_, fun hok => h.requested (hrequested hok), fun hok hstarted task => ?_, h.proper⟩
  · rw [h.kept]
    refine (h.settled task (hhandles task)).imp_right fun ⟨hmem, hs⟩ => ?_
    exact ⟨(hattended task hmem).1, (hattended task hmem).2, hs⟩
  · rw [h.kept] at hstarted
    exact h.clean (hclean hok hstarted) task (hhandles task)

/-- What the end of the wait leaves. -/
def AppExit.Leaves (x : Known) : AppExit → Runtime → Prop
  | .requested result => At { x with requested := result = .ok () }
  | _ => fun s => ∃ task, At { x with kept := x.kept.release task, clean := False } s

theorem Kept.Running.handles_of_components {k : Kept} {task : TaskId} (h : k.Running)
    (hthere : k.components task.component = true) : k.handles task = true := by
  rw [h task, hthere, Bool.or_true]

theorem Kept.Running.handles_verification {k : Kept} (h : k.Running) : k.handles .verification = true :=
  (h .verification).trans (Bool.true_or _)

theorem expectTasks_meets (hrunning : x.kept.Running) :
    Meets none (At x) (whenThere .p2p P2pService.expectTasks) (fun _ => At x) Orderly := by
  refine whenThere_meets (fun _ hs => hs) (fun hthere => ?_) fun _ s hs => hs
  exact (expectHandle_meets ((hrunning .p2pDriver).trans hthere)).bind fun _ =>
    expectHandle_meets ((hrunning .p2pWorker).trans hthere)

theorem expectComponents_meets (hrunning : x.kept.Running) :
    Meets none (At x) expectComponents (fun _ => At x) Orderly := by
  have hone : ∀ (task : TaskId) (message : String),
      Meets none (At x) (whenThere task.component (expectHandle task message)) (fun _ => At x) Orderly :=
    fun task message => whenThere_meets (fun _ hs => hs)
      (fun hthere => expectHandle_meets (hrunning.handles_of_components hthere)) fun _ s hs => hs
  refine (expectTasks_meets hrunning).bind fun _ => (hone .listener _).bind fun _ => ?_
  refine (expectHandle_meets hrunning.handles_verification).bind fun _ => ?_
  exact (hone .rpc _).bind fun _ => hone .submissionRpc _

theorem At.exit_of_running {task : TaskId} {result : TaskResult} {s s' : Runtime} (h : At x s)
    (hthere : x.kept.handles task = true) (hready : (result, s') ∈ exitReady task s) :
    ∃ task, At { x with kept := x.kept.release task, clean := False } s' :=
  ⟨task, (h.exit hthere hready).weaken nofun⟩

theorem appExitReady_leaves {exit : AppExit} {s s' : Runtime} (h : At x s) (hrunning : x.kept.Running)
    (hready : (exit, s') ∈ appExitReady s) : exit.Leaves x s' := by
  have hif : ∀ {α : Type} {component : Component} {a : α} {l : List α},
      a ∈ (if s.kept.components component = true then l else []) → x.kept.components component = true ∧ a ∈ l := by
    intro α component a l hmem
    rw [h.kept] at hmem
    split at hmem
    · exact ⟨‹_›, hmem⟩
    · cases hmem
  simp only [appExitReady, List.mem_append, List.mem_map, Prod.mk.injEq, Prod.exists, Option.mem_toList] at hready
  rcases hready with (((((⟨result, hcontrol, rfl, rfl⟩ | ⟨result, hsignal, rfl, rfl⟩) | ⟨exit, _, hmem, rfl, rfl⟩) |
    ⟨result, _, hmem, rfl, rfl⟩) | ⟨result, _, hmem, rfl, rfl⟩) | ⟨result, _, hmem, rfl, rfl⟩) |
    ⟨result, _, hmem, rfl, rfl⟩
  · exact { h with requested := fun hok => .inl (hok ▸ hcontrol) }
  · exact { h with requested := fun hok => .inr (hok ▸ hsignal) }
  · obtain ⟨hthere, hmem⟩ := hif hmem
    obtain ⟨result, hmem | hmem⟩ := P2pService.of_mem_exitReady hmem
    · exact h.exit_of_running ((hrunning .p2pDriver).trans hthere) hmem
    · exact h.exit_of_running ((hrunning .p2pWorker).trans hthere) hmem
  · obtain ⟨hthere, hmem⟩ := hif hmem
    exact h.exit_of_running ((hrunning .listener).trans hthere) hmem
  · exact h.exit_of_running hrunning.handles_verification hmem
  · obtain ⟨hthere, hmem⟩ := hif hmem
    exact h.exit_of_running ((hrunning .rpc).trans hthere) hmem
  · obtain ⟨hthere, hmem⟩ := hif hmem
    exact h.exit_of_running ((hrunning .submissionRpc).trans hthere) hmem

theorem waitForAppExit_meets (hrunning : x.kept.Running) (hdeadline : x.kept.deadline = none) :
    Meets none (At x) waitForAppExit (fun exit => exit.Leaves x) Orderly := by
  refine (expectComponents_meets hrunning).bind fun _ => ?_
  exact awaitFor_at_meets (fun _ _ _ hs hready => appExitReady_leaves hs hrunning hready) fun s hs =>
    hs.orderly_of_none hdeadline

theorem handleAppExit_meets {exit : AppExit} (hrunning : x.kept.Running) (hreports : x.kept.Reports)
    (hattended : x.Attended) (hclean : x.clean) :
    Meets none (exit.Leaves x) (handleAppExit exit total) Stopped Orderly := by
  have hfail : ∀ error, Meets none (fun s => ∃ task, At { x with kept := x.kept.release task, clean := False } s)
      (handleAppExit.failWith error) Stopped Orderly := by
    refine fun error => .of_exists fun task => ?_
    have hattended' : Known.Attended { x with kept := x.kept.release task, clean := False } := hattended
    refine (forceShutdownComponents_meets (hrunning.housed.release task) hattended').bind fun _ => .pure ?_
    rintro s ⟨k, hhandles, hstarted, hs⟩
    exact .of_at hs hhandles (hattended.of_started hstarted) nofun nofun
  cases exit with
  | requested result =>
    refine (shutdownRequested_meets (x := { x with requested := result = .ok () }) hrunning hreports hattended hclean
      id).post ?_
    rintro result s ⟨k, hhandles, hstarted, hs⟩
    exact .of_at hs hhandles (hattended.of_started hstarted) id fun hok _ => hok
  | p2pTask | listenerTask | verificationTask | rpcTask | submissionRpcTask => exact hfail _

/-! ### The start -/

def Known.starting (k : Kept) : Known := ⟨k, [], True, False⟩

/-- The start has failed: what is there can be stopped.  Only the task of a listener whose start was dropped may have
been left alone. -/
def Failing (requested : Prop) (s : Runtime) : Prop :=
  ∃ k abandoned, k.Housed ∧ k.started = false ∧ k.handles .submissionRpc = false ∧
    (∀ task ∈ abandoned, task = .listener) ∧ At ⟨k, abandoned, False, requested⟩ s

theorem failStartup_meets {requested : Prop} {result : AppResult} (hresult : result = .ok () → requested) :
    Meets none (Failing requested) (failStartup result) Stopped Orderly := by
  refine .of_exists fun k => .of_exists fun abandoned => ?_
  refine .of_fact fun hhoused => .of_fact fun hstarted => .of_fact fun hsubmission => .of_fact fun habandoned => ?_
  refine (cleanupStartup_meets (x := ⟨k, abandoned, False, requested⟩) hhoused hstarted hsubmission
    fun task hmem => ⟨habandoned task hmem, hstarted⟩).bind fun _ => .pure ?_
  rintro s ⟨k', hhandles, hstarted', hs⟩
  refine .of_at hs hhandles (fun task hmem => ⟨habandoned task hmem, hstarted'.trans hstarted⟩) hresult ?_
  exact fun _ h => Bool.noConfusion ((hstarted'.trans hstarted).symm.trans h)

/-- While the components are started, before the process runs. -/
structure Kept.Stage (k : Kept) : Prop where
  running : k.Running
  reports : k.Reports
  started : k.started = false
  deadline : k.deadline = none

theorem Kept.Housed.of_handles {k k' : Kept} (h : k.Housed) (hcomponents : k'.components = k.components)
    (hhandles : ∀ task, k'.handles task = true → k.handles task = true) : k'.Housed := by
  intro task hne hheld
  rw [hcomponents]
  exact h task hne (hhandles task hheld)

/-- What a branch of the `select!` beside the start of the listener leaves. -/
def ListenerStartup.Leaves (x : Known) : ListenerStartup → Runtime → Prop
  | .shutdown result => At { x with clean := False, requested := result = .ok () }
  | .p2pTask _ | .verificationTask _ => fun s =>
    ∃ task, task ≠ .listener ∧ At { x with kept := x.kept.release task, clean := False } s
  | .started | .disabled => fun _ => False

theorem startupReady_leaves {startup : ListenerStartup} {s s' : Runtime} (h : At x s)
    (hdriver : x.kept.components .p2p = true → x.kept.handles .p2pDriver = true)
    (hworker : x.kept.components .p2p = true → x.kept.handles .p2pWorker = true)
    (hverification : x.kept.handles .verification = true) (hready : (startup, s') ∈ startupReady s) :
    startup.Leaves x s' := by
  simp only [startupReady, List.mem_append, List.mem_map, Prod.mk.injEq, Prod.exists, Option.mem_toList,
    h.kept] at hready
  rcases hready with ((⟨result, hcontrol, rfl, rfl⟩ | ⟨result, hsignal, rfl, rfl⟩) | ⟨exit, _, hmem, rfl, rfl⟩) |
    ⟨result, _, hmem, rfl, rfl⟩
  · exact { h with clean := nofun, requested := fun hok => .inl (hok ▸ hcontrol) }
  · exact { h with clean := nofun, requested := fun hok => .inr (hok ▸ hsignal) }
  · split at hmem
    · rename_i hthere
      obtain ⟨result, hmem | hmem⟩ := P2pService.of_mem_exitReady hmem
      · exact ⟨.p2pDriver, nofun, (h.exit (hdriver hthere) hmem).weaken nofun⟩
      · exact ⟨.p2pWorker, nofun, (h.exit (hworker hthere) hmem).weaken nofun⟩
    · cases hmem
  · exact ⟨.verification, nofun, (h.exit hverification hmem).weaken nofun⟩

/-- What `startListener` leaves. -/
def ListenerStartup.Left (k : Kept) : Except AppError ListenerStartup → Runtime → Prop
  | .ok .started => At (.starting ((k.hold .listener).put .listener))
  | .ok .disabled => At (.starting k)
  | .ok (.shutdown result) => Failing (result = .ok ())
  | .ok (.p2pTask _) | .ok (.verificationTask _) | .error _ => Failing False

theorem ListenerStartup.Leaves.left {k : Kept} {startup : ListenerStartup} {s : Runtime}
    (h : startup.Leaves (.starting k) s) (hstage : k.Stage) (hsubmission : k.handles .submissionRpc = false) :
    ListenerStartup.Left k (.ok startup) s := by
  have hrelease : ∀ task, At { Known.starting k with kept := k.release task, clean := False } s → Failing False s :=
    fun task hs => ⟨k.release task, [], hstage.running.housed.release task, hstage.started,
      by simp [Kept.release, hsubmission], nofun, hs⟩
  cases startup with
  | started | disabled => exact h.elim
  | shutdown result => exact ⟨k, [], hstage.running.housed, hstage.started, hsubmission, nofun, h⟩
  | p2pTask | verificationTask =>
    obtain ⟨task, -, hs⟩ := h
    exact hrelease task hs

theorem ListenerStartup.Leaves.dropped {k : Kept} {startup : ListenerStartup} {s : Runtime}
    (h : startup.Leaves (.starting (k.hold .listener)) s) (hstage : k.Stage)
    (hsubmission : k.handles .submissionRpc = false) :
    ListenerStartup.Left k (.ok startup) ((s.release .listener).abort .listener) := by
  have hfailing : ∀ (k' : Kept) (requested : Prop), At ⟨k', [], False, requested⟩ s → k'.handles .listener = true →
      k'.components = k.components → k'.started = false →
      (∀ task, k'.handles task = true → task = .listener ∨ k.handles task = true) →
      Failing requested ((s.release .listener).abort .listener) := by
    intro k' requested hs hheld hcomponents hstarted hhandles
    have hsub : k'.handles .submissionRpc = false := by
      by_contra hsub
      rcases hhandles .submissionRpc (Bool.of_not_eq_false hsub) with hsub | hsub
      · cases hsub
      · exact Bool.noConfusion (hsubmission.symm.trans hsub)
    have hstop : Known.MayStop ⟨k', [], False, requested⟩ .listener := by
      refine ⟨nofun, .inr fun task hheld => ?_⟩
      cases task with
      | submissionRpc => exact Bool.noConfusion (hsub.symm.trans hheld)
      | listener | p2pDriver | p2pWorker | verification | rpc => decide
    refine ⟨k'.release .listener, [.listener], ?_, hstarted, hsub, by simp, hs.abort hheld hstop⟩
    refine hstage.running.housed.of_handles hcomponents fun task hheld => ?_
    obtain ⟨hne, hheld⟩ := Kept.handles_of_release hheld
    exact (hhandles task hheld).resolve_left hne
  have hhold : ∀ task, (k.hold .listener).handles task = true → task = .listener ∨ k.handles task = true := by
    intro task hheld
    simp only [Kept.hold] at hheld
    split at hheld
    · exact .inl ‹_›
    · exact .inr hheld
  cases startup with
  | started | disabled => exact h.elim
  | shutdown result => exact hfailing (k.hold .listener) _ h rfl rfl hstage.started hhold
  | p2pTask | verificationTask =>
    obtain ⟨task, hne, hs⟩ := h
    exact hfailing ((k.hold .listener).release task) _ hs (if_neg hne.symm) rfl hstage.started fun other hheld =>
      hhold other (Kept.handles_of_release hheld).2

theorem listenerStartReady_leaves {k : Kept} {outcome : AppResult ⊕ ListenerStartup} {s s' : Runtime}
    (h : At (.starting (k.hold .listener)) s) (hstage : k.Stage) (hsubmission : k.handles .submissionRpc = false)
    (hready : (outcome, s') ∈ listenerStartReady s) :
    Sum.elim (IfOk (fun _ => At (.starting (k.hold .listener))) (Failing False))
      (fun startup => startup.Leaves (.starting (k.hold .listener))) outcome s' := by
  simp only [listenerStartReady, List.mem_append, List.mem_map, Prod.mk.injEq, Prod.exists] at hready
  rcases hready with ⟨result, _, hmem, rfl, rfl⟩ | ⟨startup, _, hmem, rfl, rfl⟩
  · unfold PulsarListener.startReady at hmem
    split at hmem
    · cases List.mem_singleton.1 hmem
      exact h
    · simp only [List.mem_map, Prod.mk.injEq, Prod.exists] at hmem
      obtain ⟨result, _, hmem, rfl, rfl⟩ := hmem
      refine ⟨(k.hold .listener).release .listener, [], ?_, hstage.started, hsubmission, nofun,
        (h.exit rfl hmem).weaken nofun⟩
      refine hstage.running.housed.of_handles rfl fun task hheld => ?_
      obtain ⟨hne, hheld⟩ := Kept.handles_of_release hheld
      exact (if_neg hne).symm.trans hheld
  · exact startupReady_leaves h (hstage.running .p2pDriver).trans (hstage.running .p2pWorker).trans
      hstage.running.handles_verification hmem

theorem startListener_meets {k : Kept} {enabled : Bool} (hstage : k.Stage)
    (hsubmission : k.handles .submissionRpc = false) :
    Meets none (At (.starting k)) (startListener enabled) (ListenerStartup.Left k) Orderly := by
  have hdriver : k.components .p2p = true → k.handles .p2pDriver = true := (hstage.running .p2pDriver).trans
  have hworker : k.components .p2p = true → k.handles .p2pWorker = true := (hstage.running .p2pWorker).trans
  cases enabled with
  | false => exact .pure fun s hs => hs
  | true =>
    refine (expectTasks_meets hstage.running).bind fun _ => ?_
    refine (expectHandle_meets hstage.running.handles_verification).bind fun _ => ?_
    refine Meets.bind (Q := fun _ => At (.starting k)) (.choose fun _ _ hs => hs) fun polled => ?_
    refine .read_any fun empty => ?_
    split
    · refine Meets.bind (Q := fun startup => startup.Leaves (.starting k)) (awaitFor_at_meets
        (fun s startup s' hs hready => ?_) fun s hs => hs.orderly_of_none hstage.deadline) fun startup => ?_
      · exact startupReady_leaves hs hdriver hworker hstage.running.handles_verification hready
      · exact .pure fun s hs => hs.left hstage hsubmission
    · refine .andThen (call_meets hstage.deadline) (fun _ => ?_) fun error s hs => ?_
      · refine .update_to (At (.starting (k.hold .listener))) (fun s hs => hs.spawn) ?_
        refine Meets.bind (awaitFor_at_meets
          (fun s outcome s' hs hready => listenerStartReady_leaves hs hstage hsubmission hready)
          fun s hs => hs.orderly_of_none hstage.deadline) fun outcome => ?_
        rcases outcome with (error | ⟨⟩) | startup
        · exact .pure fun s hs => hs
        · refine .update_to (At (.starting ((k.hold .listener).put .listener))) (fun s hs => ?_) (.pure fun s hs => hs)
          exact { hs with kept := congrArg (Kept.put · .listener) hs.kept }
        · exact .update_to (ListenerStartup.Left k (.ok startup)) (fun s hs => hs.dropped hstage hsubmission)
            (.pure fun s hs => hs)
      · exact ⟨k, [], hstage.running.housed, hstage.started, hsubmission, nofun, hs.weaken nofun⟩

theorem Kept.Running.start {k : Kept} (h : k.Running) (task : TaskId) (hone : task.component ≠ .p2p) :
    ((k.hold task).put task.component).Running := by
  intro other
  simp only [hold, put]
  by_cases heq : other = task
  · rw [if_pos heq, if_pos (congrArg TaskId.component heq), Bool.or_true]
  · rw [if_neg heq, if_neg fun hcomponent => heq (TaskId.eq_of_component hone hcomponent)]
    exact h other

theorem Kept.Reports.put {k : Kept} (h : k.Reports) (component : Component) : (k.put component).Reports := by
  intro task hserving
  refine ⟨(h task hserving).1, ?_⟩
  simp only [Kept.put]
  split
  · rfl
  · exact (h task hserving).2

theorem Kept.Stage.listener {k : Kept} (h : k.Stage) : ((k.hold .listener).put .listener).Stage :=
  ⟨h.running.start .listener (by decide), (show (k.hold .listener).Reports from h.reports).put .listener, h.started,
    h.deadline⟩

theorem Kept.Stage.server {k : Kept} {task : TaskId} (h : k.Stage) (htask : task = .rpc ∨ task = .submissionRpc) :
    (((k.setServing task true).hold task).put task.component).Stage := by
  have hone : task.component ≠ .p2p := by
    rcases htask with rfl | rfl
    · decide
    · decide
  refine ⟨Running.start (show (k.setServing task true).Running from h.running) task hone, fun other hserving => ?_,
    h.started, h.deadline⟩
  by_cases heq : other = task
  · exact ⟨heq ▸ htask, if_pos (congrArg TaskId.component heq)⟩
  · exact h.reports.put task.component other ((if_neg heq).symm.trans hserving)

theorem startComponent_meets {k : Kept} (task : TaskId) {enabled : Bool} {start : Owner AppResult} (hstage : k.Stage)
    (htask : task = .rpc ∨ task = .submissionRpc)
    (hstart : enabled = true → Meets none (At (.starting k)) start
      (IfOk (fun _ => At (.starting ((k.setServing task true).hold task))) (At (.starting k))) Orderly) :
    Meets none (At (.starting k)) (startComponent enabled task.component start)
      (IfOk (fun _ s => ∃ k' : Kept, k'.Stage ∧
          (∀ component, component ≠ task.component → k'.components component = k.components component) ∧
          At (.starting k') s) (At (.starting k))) Orderly := by
  cases enabled with
  | false => exact .pure fun s hs => ⟨k, hstage, fun _ _ => rfl, hs⟩
  | true =>
    refine .andThen (hstart rfl) (fun _ => ?_) fun _ s hs => hs
    refine .update_to (At (.starting (((k.setServing task true).hold task).put task.component))) (fun s hs => ?_)
      (.pure fun s hs => ⟨_, hstage.server htask, fun _ hne => if_neg hne, hs⟩)
    exact { hs with kept := congrArg (Kept.put · task.component) hs.kept }

theorem Kept.Stage.failing {k : Kept} {s : Runtime} (h : k.Stage) (hsubmission : k.components .submissionRpc = false)
    (hs : At (.starting k) s) : Failing False s :=
  ⟨k, [], h.running.housed, h.started, (h.running .submissionRpc).trans hsubmission, nofun, hs.weaken nofun⟩

theorem submissionStart_meets {config : SubmissionConfig} {maxProofBytes : Nat} (hdeadline : x.kept.deadline = none) :
    Meets none (At x) (SubmissionRpcServer.start config maxProofBytes)
      (IfOk (fun _ => At { x with kept := (x.kept.setServing .submissionRpc true).hold .submissionRpc }) (At x))
      Orderly := by
  unfold SubmissionRpcServer.start
  split
  · exact .pure fun s hs => hs
  · exact startServer_meets hdeadline

theorem startServers_meets {k : Kept} {config : AppConfig} {submissionChain : Option Unit} (hstage : k.Stage)
    (hsubmission : k.components .submissionRpc = false) (hchain : config.submission.enabled = submissionChain.isSome) :
    Meets none (At (.starting k)) (startServers config submissionChain) Stopped Orderly := by
  refine (startComponent_meets .rpc hstage (.inl rfl) fun _ => startServer_meets hstage.deadline).bind fun result => ?_
  rcases result with error | ⟨⟩
  · exact (failStartup_meets nofun).pre fun s hs => hstage.failing hsubmission hs
  refine .of_exists fun k => .of_fact fun hstage => .of_fact fun hcomponents => ?_
  replace hsubmission : k.components .submissionRpc = false := (hcomponents .submissionRpc nofun).trans hsubmission
  refine (startComponent_meets .submissionRpc hstage (.inr rfl) fun henabled => ?_).bind fun result => ?_
  · rw [hchain] at henabled
    obtain ⟨⟨⟩, rfl⟩ := Option.isSome_iff_exists.1 henabled
    exact submissionStart_meets hstage.deadline
  rcases result with error | ⟨⟩
  · exact (failStartup_meets nofun).pre fun s hs => hstage.failing hsubmission hs
  refine .of_exists fun k => .of_fact fun hstage => .of_fact fun _ => ?_
  refine .update_to (At (.starting { k with started := true })) (fun s hs => ?_) ?_
  · exact { hs with kept := congrArg (fun k : Kept => { k with started := true }) hs.kept }
  refine (waitForAppExit_meets (x := .starting { k with started := true }) hstage.running hstage.deadline).bind
    fun exit => ?_
  exact handleAppExit_meets hstage.running hstage.reports nofun trivial

/-! ### The whole run -/

/-- The control socket is bound, and nothing else is there. -/
def Kept.bound : Kept where
  handles := fun _ => false
  components := fun _ => false
  serving := fun _ => false
  started := false
  deadline := none
  socket := true

def Runtime.fresh (now : Instant) : Runtime where
  kept := { Kept.bound with socket := false }
  asks := []
  now := now
  tasks := fun _ => .unspawned
  answers := []
  driverReady := none
  listenerReady := false
  driverClient := false
  draining := false
  drained := none
  control := none
  signal := none
  awaited := none

theorem Stopped.of_bound {error : AppError} {s : Runtime} (h : At { Known.starting .bound with clean := False } s) :
    Stopped (.error error) s :=
  .of_at h (fun _ => rfl) nofun nofun nofun

/-- The P2P service is started if it is enabled, and then the verification worker. -/
theorem startP2p_meets {enabled : Bool} :
    Meets none (At (.starting .bound)) (startComponent enabled .p2p P2pService.start)
      (IfOk (fun _ s => ∃ k : Kept, (k.hold .verification).Stage ∧ k.components .submissionRpc = false ∧
          (k.components .p2p = true → s.driverClient = true) ∧ At (.starting k) s)
        (At { Known.starting .bound with clean := False })) Orderly := by
  have hself : Kept.bound.withP2p false false = .bound := Kept.withP2p_eq_self rfl rfl
  cases enabled with
  | false =>
    refine .pure fun s hs => ⟨.bound, ⟨fun task => ?_, fun _ => Bool.noConfusion, rfl, rfl⟩, rfl, Bool.noConfusion, hs⟩
    cases task <;> rfl
  | true =>
    have hstart : Meets none (At ((Known.starting .bound).p2p false false True)) P2pService.start
        (IfOk (fun _ s => At ((Known.starting .bound).p2p true true True) s ∧ s.driverClient = true)
          (At ((Known.starting .bound).p2p false false False))) Orderly :=
      P2pService.start_meets rfl ⟨nofun, .inr fun _ hheld => Bool.noConfusion hheld⟩
    simp only [Known.p2p, Known.starting, hself] at hstart
    refine .andThen hstart (fun _ => ?_) fun _ s hs => hs
    refine .update_to (fun s => At (.starting ((Kept.bound.withP2p true true).put .p2p)) s ∧ s.driverClient = true)
      (fun s hs => ⟨?_, hs.2⟩) (.pure fun s hs => ⟨(Kept.bound.withP2p true true).put .p2p,
        ⟨fun task => ?_, fun _ => Bool.noConfusion, rfl, rfl⟩, rfl, fun _ => hs.2, hs.1⟩)
    · exact { hs.1 with kept := congrArg (Kept.put · .p2p) hs.1.kept }
    · cases task <;> rfl

theorem validatorSetUpdater_meets {k : Kept} :
    Meets none (fun s => (k.components .p2p = true → s.driverClient = true) ∧ At (.starting k) s)
      (whenThere .p2p P2pService.validatorSetUpdater) (fun _ => At (.starting k)) Orderly := by
  refine whenThere_meets (fun _ hs => hs.2) (fun hthere => ?_) fun _ s hs => hs.2
  refine .read_eq (fun s hs => hs.1 hthere) (.pure fun s hs => hs.2)

theorem startRest_meets {k : Kept} {config : AppConfig} {submissionChain : Option Unit}
    (hchain : config.submission.enabled = submissionChain.isSome) (hstage : (k.hold .verification).Stage)
    (hsubmission : k.components .submissionRpc = false) :
    Meets none (fun s => (k.components .p2p = true → s.driverClient = true) ∧ At (.starting k) s)
      (App.startRest config submissionChain) Stopped Orderly := by
  refine validatorSetUpdater_meets.bind fun _ => ?_
  refine .update_to (At (.starting (k.hold .verification))) (fun s hs => hs.spawn) ?_
  refine (startListener_meets hstage ((hstage.running .submissionRpc).trans hsubmission)).bind fun outcome => ?_
  rcases outcome with error | _ | _ | result | exit | result
  · exact failStartup_meets nofun
  · exact startServers_meets hstage.listener hsubmission hchain
  · exact startServers_meets hstage hsubmission hchain
  · exact failStartup_meets id
  · exact failStartup_meets nofun
  · exact failStartup_meets nofun

theorem runBound_meets {config : AppConfig} :
    Meets none (At (.starting .bound)) (App.runBound config) Stopped Orderly := by
  have hcall : Meets none (At (.starting .bound)) call (fun _ => At (.starting .bound)) Orderly := call_meets rfl
  have herror : ∀ (error : AppError) s, At (.starting .bound) s → Stopped (.error error) s :=
    fun error s hs => .of_bound (hs.weaken nofun)
  refine hcall.andThen (fun _ => ?_) herror
  refine Meets.andThen (Q := fun _ => At (.starting .bound)) ?_ (fun _ => ?_) herror
  · split
    · exact hcall
    · exact .pure fun s hs => hs
  refine Meets.andThen (Q := IfOk (fun chain s => config.submission.enabled = chain.isSome ∧ At (.starting .bound) s)
    (At (.starting .bound))) ?_ (fun chain => ?_) herror
  · cases config.submission.enabled with
    | true => exact hcall.andThen (fun _ => .pure fun s hs => ⟨rfl, hs⟩) fun _ s hs => hs
    | false => exact .pure fun s hs => ⟨rfl, hs⟩
  refine .of_fact fun hchain => startP2p_meets.andThen (fun _ => ?_) fun _ s hs => .of_bound hs
  exact .of_exists fun k => .of_fact fun hstage => .of_fact fun hsubmission => startRest_meets hchain hstage hsubmission

theorem run_meets {config : AppConfig} {now : Instant} :
    Meets none (· = Runtime.fresh now) (App.run config) (fun result s => Stopped result s ∧ s.kept.socket = false)
      Orderly := by
  have hfresh : At (.starting { Kept.bound with socket := false }) (.fresh now) :=
    ⟨rfl, nofun, fun _ _ => .inl .unspawned, fun _ _ _ => .unspawned, nofun, nofun⟩
  refine Meets.pre (P := At (.starting { Kept.bound with socket := false })) ?_ fun s hs => hs ▸ hfresh
  refine (call_meets rfl).andThen (fun _ => ?_) fun error s hs =>
    ⟨.of_at hs (fun _ => rfl) nofun nofun nofun, by rw [hs.kept]; rfl⟩
  refine .update_to (At (.starting .bound)) (fun s hs => ?_) (runBound_meets.bind fun result => ?_)
  · exact { hs with kept := congrArg (fun k : Kept => { k with socket := true }) hs.kept }
  · refine .update_to (fun s => Stopped result s ∧ s.kept.socket = false) (fun s hs => ⟨?_, rfl⟩) (.pure fun s hs => hs)
    exact ⟨hs.settled, hs.requested, hs.clean, hs.proper⟩

end

namespace App

variable {config : AppConfig} {now : Instant} {schedule rest : Schedule Happening} {progress : Progress AppResult}
  {s : Runtime}

theorem ends_of_run (h : App.run config none (.fresh now) schedule = (progress, s, rest)) :
    Ends none (fun result s => Stopped result s ∧ s.kept.socket = false) Orderly (progress, s, rest) := by
  rw [← h]
  exact run_meets _ schedule rfl

/-- `App.run` never panics: no `expect` fails and no handle is polled after it has returned.  When it returns, the
control socket is removed and every task that was spawned has been awaited to its end; only the task of a listener whose
start was interrupted has been aborted and not awaited. -/
theorem run_leaves_no_task (h : App.run config none (.fresh now) schedule = (progress, s, rest)) :
    (∀ message, progress ≠ .panicked message) ∧
    ∀ result, progress = .done result →
      s.kept.socket = false ∧
      ∀ task, (s.tasks task).Settled ∨ task = .listener ∧ s.kept.started = false ∧ (s.tasks task).Abandoned := by
  refine ⟨(ends_of_run h).ne_panicked, fun result hdone => ?_⟩
  obtain ⟨hstopped, hsocket⟩ := (ends_of_run h).of_done hdone
  exact ⟨hsocket, hstopped.settled⟩

def fullConfig : AppConfig where
  noirEnabled := true
  p2pEnabled := true
  listenerEnabled := true
  rpcEnabled := true
  submission := ⟨true, ⟨true, 50052⟩, 1024, 16⟩
  maxProofBytes := 1024
  shutdownTimeout := 10

def startEvents : List Happening :=
  [.answer (.ok ()), .answer (.ok ()), .answer (.ok ()), .answer (.ok ()), .answer (.ok ()),
    .driverReady (some (.ok ())), .answer (.ok ()), .listenerReady, .answer (.ok ()), .answer (.ok ())]

/-- A shutdown is requested, and every task ends when it is told to. -/
def gracefulSchedule : Schedule Happening where
  coming := startEvents ++ [.control (.ok ()), .ends .submissionRpc (.ok (.ok ())), .elapse 3,
    .ends .listener (.ok (.ok ())), .drained (.ok ()), .ends .p2pWorker (.ok (.ok ())), .ends .p2pDriver (.ok (.ok ())),
    .ends .verification (.ok (.ok ())), .ends .rpc (.ok (.ok ()))]
  picks := []

private theorem graceful_done : (App.run fullConfig none (.fresh 0) gracefulSchedule).1 = .done (.ok ()) := by
  decide +kernel

private theorem graceful_started :
    (App.run fullConfig none (.fresh 0) gracefulSchedule).2.1.kept.started = true := by
  decide +kernel

theorem run_leaves_no_task_graceful :
    (App.run fullConfig none (.fresh 0) gracefulSchedule).1 = .done (.ok ()) ∧
    ∀ task, (((App.run fullConfig none (.fresh 0) gracefulSchedule).2.1).tasks task).Settled := by
  refine ⟨graceful_done, fun task =>
    (((run_leaves_no_task (Prod.ext graceful_done rfl)).2 _ rfl).2 task).resolve_right ?_⟩
  rintro ⟨-, hnot, -⟩
  exact Bool.noConfusion (graceful_started.symm.trans hnot)

/-- However far `App.run` has come, every task was told to stop only after the components that stop before it had no
task left, but for an aborted listener whose start was interrupted, and gracefully only after both servers had reported
that they no longer serve.  The P2P worker was told to stop only after the driver was drained, and the mailbox of the
driver was closed only after the worker had been awaited to its end. -/
theorem run_stops_in_order (h : App.run config none (.fresh now) schedule = (progress, s, rest)) :
    ∀ ask ∈ s.asks, ask.Proper :=
  (ends_of_run h).elim (fun _ _ hQ => hQ.1.proper) (fun _ hE => hE.proper)

theorem run_stops_in_order_graceful :
    (App.run fullConfig none (.fresh 0) gracefulSchedule).2.1.asks.map (fun ask => (ask.task, ask.kind)) =
      [(.submissionRpc, .cancel), (.listener, .cancel), (.p2pDriver, .drain), (.p2pWorker, .cancel),
        (.p2pDriver, .close), (.verification, .cancel), (.rpc, .cancel)] ∧
    ∀ ask ∈ (App.run fullConfig none (.fresh 0) gracefulSchedule).2.1.asks, ask.Proper :=
  ⟨by decide +kernel, run_stops_in_order (Prod.ext graceful_done rfl)⟩

/-- Once the deadline of a requested shutdown has passed, `App.run` waits only for a task that it has aborted. -/
theorem run_waits_for_aborted {deadline : Instant}
    (h : App.run config none (.fresh now) schedule = (.waiting, s, rest)) (hdeadline : s.kept.deadline = some deadline)
    (hpassed : deadline ≤ s.now) : ∃ task, s.awaited = some task ∧ s.tasks task = .running true := by
  have hwaits : Orderly s := (ends_of_run h).of_waiting rfl
  exact (hwaits.bounded deadline hdeadline).resolve_left (Nat.not_lt.2 hpassed)

/-- A shutdown is requested, and its deadline passes before the submission server has ended. -/
def lateSchedule : Schedule Happening where
  coming := startEvents ++ [.control (.ok ()), .elapse 20]
  picks := []

theorem run_waits_for_aborted_late :
    (App.run fullConfig none (.fresh 0) lateSchedule).2.1.now = 20 ∧
    (App.run fullConfig none (.fresh 0) lateSchedule).2.1.awaited = some .submissionRpc ∧
    (App.run fullConfig none (.fresh 0) lateSchedule).2.1.tasks .submissionRpc = .running true := by
  have hwaiting : (App.run fullConfig none (.fresh 0) lateSchedule).1 = .waiting := by decide +kernel
  have hdeadline : (App.run fullConfig none (.fresh 0) lateSchedule).2.1.kept.deadline = some 10 := by decide +kernel
  have hnow : (App.run fullConfig none (.fresh 0) lateSchedule).2.1.now = 20 := by decide +kernel
  have hawaited : (App.run fullConfig none (.fresh 0) lateSchedule).2.1.awaited = some .submissionRpc := by
    decide +kernel
  have hlate : ∃ task, (App.run fullConfig none (.fresh 0) lateSchedule).2.1.awaited = some task ∧
      (App.run fullConfig none (.fresh 0) lateSchedule).2.1.tasks task = .running true :=
    run_waits_for_aborted (Prod.ext hwaiting rfl) hdeadline (by rw [hnow]; decide)
  obtain ⟨task, htask, haborted⟩ := hlate
  have hsubmission : .submissionRpc = task := Option.some.inj (hawaited.symm.trans htask)
  exact ⟨hnow, hawaited, hsubmission ▸ haborted⟩

/-- `App.run` succeeds only if a shutdown was requested, through the control socket or by a signal.  If it had started
all components, each of their tasks has ended by itself and without an error. -/
theorem run_succeeds (h : App.run config none (.fresh now) schedule = (.done (.ok ()), s, rest)) :
    (s.control = some (.ok ()) ∨ s.signal = some (.ok ())) ∧
    (s.kept.started = true → ∀ task, (s.tasks task).Clean) := by
  have hstopped : Stopped (.ok ()) s := ((ends_of_run h).of_done rfl).1
  exact ⟨hstopped.requested rfl, hstopped.clean rfl⟩

theorem run_succeeds_graceful :
    (App.run fullConfig none (.fresh 0) gracefulSchedule).2.1.kept.started = true ∧
    ∀ task, ((App.run fullConfig none (.fresh 0) gracefulSchedule).2.1.tasks task).Clean :=
  ⟨graceful_started, (run_succeeds (Prod.ext graceful_done rfl)).2 graceful_started⟩

end App

end PulsarVerifier
