import PulsarVerifier.P2p.Progress

/-!
# The wakes of a retrieval

A wake carries the generation that its retrieval had when it was scheduled, and `handle_wake` takes a wake whose
generation is not the present one for an old one.  The generations of a new entry start from zero again, while the wakes
of an entry that was removed sleep on: such a wake can be taken for one of the new entry (`stale_wake_acts`).  It cannot
as long as no entry is created while a wake of its identifier sleeps (`latest_wake_acts`).
-/

namespace PulsarVerifier

/-- Both early returns of `handle_wake` are passed: the query is cleared, and the retrieval is enqueued or stopped. -/
def Worker.WakeActs (w : Worker) (wake : RetrievalWake) : Prop :=
  ∃ state, w.entry wake.verificationId = some state ∧ state.timerGeneration = wake.generation ∧ state.finished = false

def Worker.timer (w : Worker) (id : VerificationId) : Option UInt64 := (w.entry id).map RetrievalState.timerGeneration

theorem Worker.handleWake_of_not_acts {w : Worker} {wake : RetrievalWake} (h : ¬w.WakeActs wake) (now : Instant) :
    w.handleWake wake now = w.goto .idle := by
  unfold handleWake
  split
  · rfl
  · rename_i state hentry
    refine if_pos ?_
    by_contra hpassed
    rw [Bool.or_eq_true, decide_eq_true_eq, not_or, not_not, Bool.not_eq_true] at hpassed
    exact h ⟨state, hentry, hpassed⟩

/-! ### The history of the wakes -/

inductive TimerEvent
  | created (id : VerificationId)
  | scheduled (id : VerificationId)
  deriving DecidableEq

/-- What is left of a list beside the sleeping wakes: a wake is taken, or `drain` drops all of them. -/
def WorkerAction.keep {α : Type} (sleeping : List α) : WorkerAction → List α
  | .select (.wake i _) => sleeping.eraseIdx i
  | .select .stop => []
  | _ => sleeping

/-- The worker task with a history variable: for each sleeping wake, what happened since it was scheduled. -/
structure TimedTask where
  task : WorkerTask
  since : List (List TimerEvent)

namespace TimedTask

def newWakes (s t : WorkerTask) (a : WorkerAction) : List RetrievalWake :=
  t.worker.wakes.drop (a.keep s.worker.wakes).length

/-- The entries that a step creates and the retries that it schedules. -/
def shown (s t : WorkerTask) (a : WorkerAction) : List TimerEvent :=
  (t.worker.retrievals.keys.filter fun id => (s.worker.entry id).isNone).map .created ++
    (newWakes s t a).map fun wake => .scheduled wake.verificationId

def next (s : TimedTask) (a : WorkerAction) : Option TimedTask :=
  (s.task.next a).map fun t =>
    { task := t
      since := (a.keep s.since).map (· ++ shown s.task t a) ++ (newWakes s.task t a).map fun _ => [] }

def initial (localPeerId : PeerId) (config : P2pConfig) : TimedTask := ⟨.initial localPeerId config, []⟩

def lts (localPeerId : PeerId) (config : P2pConfig) : Lts TimedTask WorkerAction :=
  .ofNext (· = initial localPeerId config) next

/-- The identifier for which the step creates an entry: `ensure_retrieval` finds that its record waits for content, and
there is no retrieval of it. -/
def creates (s : WorkerTask) : WorkerAction → Option VerificationId
  | .store (.record (some record)) _ =>
    match s.worker.control with
    | .store (.get id _) =>
      if ProofStore.waitingForContent record.value ∧ s.worker.entry id = none then some id else none
    | _ => none
  | _ => none

/-- While a wake sleeps, no entry is created for its identifier, and the generation of its retrieval has a successor. -/
def Orderly (s : TimedTask) (a : WorkerAction) : Prop :=
  ∀ wake ∈ s.task.worker.wakes,
    creates s.task a ≠ some wake.verificationId ∧ s.task.worker.timer wake.verificationId ≠ some 0xFFFFFFFFFFFFFFFF

instance (s : TimedTask) (a : WorkerAction) : Decidable (s.Orderly a) :=
  inferInstanceAs (Decidable (∀ wake ∈ s.task.worker.wakes,
    creates s.task a ≠ some wake.verificationId ∧ s.task.worker.timer wake.verificationId ≠ some 0xFFFFFFFFFFFFFFFF))

end TimedTask

/-! ### What a step does to the wakes -/

namespace Worker

variable {w w' w'' : Worker} {id id' : VerificationId} {state state' : RetrievalState} {rest : List VerificationId}

theorem timer_setEntry :
    (w.setEntry id state).timer id' = if id' = id then some state.timerGeneration else w.timer id' := by
  unfold timer
  rw [entry_setEntry]
  split <;> rfl

theorem timer_removeEntry : (w.removeEntry id).timer id' = if id' = id then none else w.timer id' := by
  unfold timer
  rw [entry_removeEntry]
  split <;> rfl

theorem timer_setEntry_same (h : w.entry id = some state) (hsame : state'.timerGeneration = state.timerGeneration) :
    (w.setEntry id state').timer id' = w.timer id' := by
  rw [timer_setEntry]
  split
  · rename_i hid
    rw [hid, timer, h, hsame]
    rfl
  · rfl

theorem timer_of_unmarked
    (h : (w'.entry id).map RetrievalState.unmarked = (w.entry id).map RetrievalState.unmarked) :
    w'.timer id = w.timer id := by
  have htimer : ∀ w : Worker,
      w.timer id = ((w.entry id).map RetrievalState.unmarked).map RetrievalState.timerGeneration := by
    intro w
    rw [Option.map_map]
    rfl
  rw [htimer, h, ← htimer]

@[simp] theorem timer_enqueue : (w.enqueue id).timer id' = w.timer id' := timer_of_unmarked unmarked_enqueue

@[simp] theorem timer_drivePending : (w.drivePending rest).timer id = w.timer id :=
  timer_of_unmarked unmarked_drivePending

@[simp] theorem timer_ensureNext : (w.ensureNext rest).timer id = w.timer id := by
  cases rest <;> rfl

@[simp] theorem timer_announceNext {ids : List VerificationId} : (w.announceNext ids).timer id = w.timer id := by
  cases ids <;> rfl

@[simp] theorem timer_addAttempted {peer : PeerId} : (w.addAttempted id peer).timer id' = w.timer id' := by
  unfold addAttempted
  split
  · rfl
  · rename_i state hentry
    exact timer_setEntry_same hentry rfl

@[simp] theorem timer_startQuery {queryId : QueryId} {now : Instant} :
    (w.startQuery id queryId now).timer id' = w.timer id' := by
  unfold startQuery
  split
  · rfl
  · rename_i state hentry
    exact timer_setEntry_same hentry rfl

/-- Every entry keeps its generation, is gone, or has the next generation. -/
def Ticks (w w' : Worker) : Prop :=
  ∀ id, w'.timer id = w.timer id ∨ w'.timer id = none ∨ w'.timer id = (w.timer id).map (· + 1)

theorem ticks_of_timer (h : ∀ id, w'.timer id = w.timer id) : w.Ticks w' := fun id => .inl (h id)

theorem Ticks.then_same (h : w.Ticks w') (hsame : ∀ id, w''.timer id = w'.timer id) : w.Ticks w'' := by
  intro id
  rw [hsame id]
  exact h id

theorem ticks_removeEntry : w.Ticks (w.removeEntry id) := by
  intro id'
  rw [timer_removeEntry]
  split
  · exact .inr (.inl rfl)
  · exact .inl rfl

theorem ticks_setEntry (h : w.entry id = some state) (hnext : state'.timerGeneration = state.timerGeneration + 1) :
    w.Ticks (w.setEntry id state') := by
  intro id'
  rw [timer_setEntry]
  split
  · rename_i hid
    rw [hid, timer, h, hnext]
    exact .inr (.inr rfl)
  · exact .inl rfl

theorem ticks_stopRetrieval : w.Ticks (w.stopRetrieval id) := by
  unfold stopRetrieval
  split
  · exact ticks_of_timer fun _ => rfl
  · rename_i state hentry
    split
    · exact ticks_removeEntry
    · exact ticks_setEntry hentry rfl

theorem ticks_stopExpired : w.Ticks (w.stopExpired id) :=
  ticks_stopRetrieval (w := { w with expired := insert id w.expired })

theorem ticks_clearQuery : w.Ticks (w.clearQuery id) := by
  unfold clearQuery
  split
  · exact ticks_of_timer fun _ => rfl
  · rename_i state hentry
    exact ticks_setEntry hentry rfl

theorem ticks_startRequest {requestId : ProofRequestId} {peer : PeerId} {now : Instant} :
    w.Ticks (w.startRequest id requestId peer now) := by
  unfold startRequest
  split
  · exact ticks_of_timer fun _ => rfl
  · rename_i state hentry
    exact ticks_setEntry hentry rfl

theorem timer_stopRetrieval_of_ne (h : id' ≠ id) : (w.stopRetrieval id).timer id' = w.timer id' := by
  unfold stopRetrieval
  split
  · rfl
  · split
    · exact timer_removeEntry.trans (if_neg h)
    · exact timer_setEntry.trans (if_neg h)

theorem ticks_resumeWaiting {waiting : List VerificationId} : w.Ticks (w.resumeWaiting waiting) := by
  have hother : ∀ (ids : List VerificationId) (w : Worker) {id : VerificationId}, id ∉ ids →
      (ids.foldl stopRetrieval w).timer id = w.timer id := by
    intro ids
    induction ids with
    | nil => exact fun w _ _ => rfl
    | cons id ids ih =>
      intro w id' hid'
      rw [List.mem_cons, not_or] at hid'
      exact (ih _ hid'.2).trans (timer_stopRetrieval_of_ne hid'.1)
  have hloop : ∀ (ids : List VerificationId) (w : Worker), ids.Nodup → w.Ticks (ids.foldl stopRetrieval w) := by
    intro ids
    induction ids with
    | nil => exact fun w _ => ticks_of_timer fun _ => rfl
    | cons id ids ih =>
      intro w hnodup id'
      obtain ⟨hid, hnodup⟩ := List.nodup_cons.1 hnodup
      rw [List.foldl_cons]
      by_cases heq : id' = id
      · rw [heq, hother ids _ hid]
        exact ticks_stopRetrieval id
      · rw [← timer_stopRetrieval_of_ne (w := w) heq]
        exact ih _ hnodup id'
  exact (hloop _ w (w.retrievals.nodupKeys.filter _)).then_same fun _ => timer_ensureNext

theorem timer_finishRequest {requestId : ProofRequestId} {peer : PeerId} {succeeded : Bool} {now : Instant}
    (h : w.finishRequest id requestId peer succeeded now = .ok w') (id' : VerificationId) :
    w'.timer id' = none ∨ w'.timer id' = w.timer id' := by
  have hremoved : ∀ w : Worker, (w.removeEntry id).timer id' = none ∨ (w.removeEntry id).timer id' = w.timer id' := by
    intro w
    rw [timer_removeEntry]
    split
    · exact .inl rfl
    · exact .inr rfl
  unfold finishRequest at h
  split at h
  · cases h
    exact .inr rfl
  · rename_i state hentry
    dsimp only at h
    split_ifs at h <;> cases h
    · exact .inr rfl
    · exact hremoved { w with activeRetrievals := w.activeRetrievals - 1 }
    · exact hremoved { w with activeRetrievals := w.activeRetrievals - 1, expired := insert id w.expired }
    · exact .inr (timer_enqueue.trans
        (timer_setEntry_same (w := { w with activeRetrievals := w.activeRetrievals - 1 }) hentry rfl))

theorem ticks_afterFinish {draining : Bool} {result : Except String Worker} (h : ∀ w', result = .ok w' → w.Ticks w') :
    w.Ticks (w.afterFinish draining result) := by
  unfold afterFinish
  split
  · exact ticks_of_timer fun _ => rfl
  · rename_i w'
    split
    · exact h w' rfl
    · exact (h w' rfl).then_same fun _ => timer_drivePending

theorem ticks_finishRequest {requestId : ProofRequestId} {peer : PeerId} {succeeded : Bool} {now : Instant}
    (h : w.finishRequest id requestId peer succeeded now = .ok w') : w.Ticks w' := by
  intro id'
  rcases timer_finishRequest h id' with hnone | hsame
  · exact .inr (.inl hnone)
  · exact .inl hsame

theorem ticks_stop_finished {requestId : ProofRequestId} {peer : PeerId} {succeeded : Bool} {now : Instant}
    (h : w.finishRequest id requestId peer succeeded now = .ok w') : w.Ticks (w'.stopRetrieval id) := by
  intro id'
  have hstop : w'.Ticks (w'.stopRetrieval id) := ticks_stopRetrieval
  specialize hstop id'
  rcases timer_finishRequest h id' with hnone | hsame
  · rw [hnone] at hstop
    rcases hstop with hstop | hstop | hstop <;> exact .inr (.inl hstop)
  · rw [hsame] at hstop
    exact hstop

theorem ticks_resumeAttached {requestId : ProofRequestId} {peer : PeerId} {stored : Except Error StoreChange}
    {now : Instant} {draining : Bool} : w.Ticks (w.resumeAttached requestId peer id stored now draining) := by
  unfold resumeAttached
  split
  · exact ticks_afterFinish fun _ => ticks_finishRequest
  · exact ticks_afterFinish fun _ => ticks_finishRequest
  · exact ticks_afterFinish fun _ => ticks_finishRequest
  · refine ticks_afterFinish fun w' hresult id' => ?_
    cases hfinished : w.finishRequest id requestId peer true now with
    | error message =>
      rw [hfinished] at hresult
      cases hresult
    | ok finished =>
      rw [hfinished] at hresult
      cases hresult
      exact ticks_stop_finished hfinished id'
  · exact ticks_of_timer fun _ => rfl

theorem ticks_handleDriverEvent {now : Instant} {draining : Bool} {event : DriverEvent} :
    w.Ticks (w.handleDriverEvent now draining event) := by
  have hgoto : ∀ control, w.Ticks (w.goto control) := fun _ => ticks_of_timer fun _ => rfl
  cases event with
  | proofRequested requestId peer id | proofReceived requestId peer id proof => exact hgoto _
  | proofNotFound requestId peer id | proofRequestFailed requestId peer id reason =>
    exact ticks_afterFinish fun _ => ticks_finishRequest
  | availabilityAnnounced peer id =>
    simp only [handleDriverEvent]
    split
    · exact hgoto _
    · exact hgoto _
  | providersDiscovered queryId id providers =>
    simp only [handleDriverEvent]
    split_ifs
    · exact hgoto _
    · exact ticks_clearQuery.then_same fun _ => timer_drivePending.trans timer_enqueue
    · exact hgoto _
  | peerConnected peer =>
    simp only [handleDriverEvent]
    split
    · exact hgoto _
    · exact hgoto _
  | listening address | peerDisconnected peer => exact hgoto _

theorem ticks_handleStoreEvent {draining : Bool} {event : ProofStoreEvent} :
    w.Ticks (w.handleStoreEvent draining event) := by
  unfold handleStoreEvent
  split
  · exact ticks_of_timer fun _ => rfl
  · cases event with
    | verificationObserved id => exact ticks_of_timer fun _ => rfl
    | proofStored id source | proofEvicted id cause => exact ticks_stopRetrieval.then_same fun _ => rfl
    | verificationChanged id state => exact ticks_stopRetrieval.then_same fun _ => timer_drivePending

theorem ticks_handleWake {wake : RetrievalWake} {now : Instant} : w.Ticks (w.handleWake wake now) := by
  unfold handleWake
  split
  · exact ticks_of_timer fun _ => rfl
  · rename_i state hentry
    have hsame : ∀ id, (w.setEntry wake.verificationId { state with query := none }).timer id = w.timer id :=
      fun id => timer_setEntry_same hentry rfl
    dsimp only
    split_ifs
    · exact ticks_of_timer fun _ => rfl
    · intro id
      rw [← hsame id]
      exact ticks_stopExpired id
    · exact ticks_of_timer fun id => timer_drivePending.trans (timer_enqueue.trans (hsame id))

theorem ticks_resumeProviders {attempted : Finset PeerId} {providers : List PeerId} {input : WorkerInput}
    (h : w.resumeProviders id attempted rest providers input = some w') : w.Ticks w' := by
  unfold resumeProviders at h
  split at h
  · split_ifs at h <;> cases h
    · exact ticks_of_timer fun _ => timer_drivePending
    · exact ticks_stopExpired.then_same fun _ => timer_drivePending
    · exact ticks_of_timer fun _ => rfl
  · split at h
    · cases h
    · split_ifs at h <;> cases h
      · exact ticks_stopExpired.then_same fun _ => timer_drivePending
      · exact ticks_of_timer fun _ => timer_drivePending.trans timer_enqueue
      · exact ticks_of_timer fun _ => rfl

theorem ticks_resumeRequestProof {peer : PeerId} {reply : Except Error ProofRequestId} {input : WorkerInput} :
    w.Ticks (w.resumeRequestProof id peer rest reply input) := by
  unfold resumeRequestProof
  split
  · exact ticks_startRequest.then_same fun _ => timer_drivePending
  · exact ticks_of_timer fun _ => timer_addAttempted
  · exact ticks_stopRetrieval.then_same fun _ => timer_drivePending
  · exact ticks_of_timer fun _ => rfl

theorem ticks_scheduleRetry {delay : Duration} {now : Instant} (h : w.scheduleRetry id delay now = some (.ok w')) :
    w.Ticks w' := by
  unfold scheduleRetry at h
  split at h
  · cases h
    exact ticks_of_timer fun _ => rfl
  · rename_i state hentry
    split at h
    · cases h
    · dsimp only at h
      split_ifs at h
      cases h
      exact ticks_setEntry hentry rfl

theorem ticks_resumeQueryAvailability {reply : Except Error QueryId} {input : WorkerInput}
    (h : w.resumeQueryAvailability id rest reply input = some w') : w.Ticks w' := by
  unfold resumeQueryAvailability at h
  split at h
  · split at h
    · cases h
    · cases h
      exact ticks_of_timer fun _ => rfl
    · rename_i retried hretry
      cases h
      intro id'
      have hticks := ticks_scheduleRetry hretry id'
      rw [timer_startQuery] at hticks
      rw [timer_drivePending]
      exact hticks
  · cases h
    exact ticks_stopRetrieval.then_same fun _ => timer_drivePending
  · cases h
    exact ticks_of_timer fun _ => rfl

theorem ticks_resumeCall {input : WorkerInput} {call : DriverCall} {reply : Except Error Reply}
    (h : w.resumeCall input call reply = some w') : w.Ticks w' := by
  unfold resumeCall at h
  split at h
  · cases h
    exact ticks_of_timer fun _ => rfl
  · cases h
    exact ticks_of_timer fun _ => timer_drivePending
  · cases h
    exact ticks_of_timer fun _ => timer_drivePending
  · cases h
    exact ticks_of_timer fun _ => timer_announceNext
  · cases h
    exact ticks_of_timer fun _ => timer_announceNext
  · exact ticks_resumeProviders h
  · cases h
    exact ticks_resumeRequestProof
  · cases h
    exact ticks_resumeRequestProof
  · exact ticks_resumeQueryAvailability h
  · exact ticks_resumeQueryAvailability h
  · cases h
    exact ticks_of_timer fun _ => rfl
  · cases h

/-- `ensure_retrieval` changes the generations of the entries as `stop_retrieval` does, but it may create an entry. -/
theorem ticks_resumeGet {record : Option (Arc ProofRecord)}
    (h : ∀ found, record = some found → ProofStore.waitingForContent found.value = true → w.entry id = none →
      id' ≠ id) :
    (w.resumeGet id rest record).timer id' = w.timer id' ∨ (w.resumeGet id rest record).timer id' = none ∨
      (w.resumeGet id rest record).timer id' = (w.timer id').map (· + 1) := by
  unfold resumeGet
  split
  · rename_i hwaiting
    obtain ⟨found, hfound, hwaiting⟩ := (Option.any_eq_true _ _).1 hwaiting
    refine .inl (timer_drivePending.trans (timer_enqueue.trans ?_))
    split
    · rfl
    · rename_i hnone
      exact timer_setEntry.trans (if_neg (h found hfound hwaiting (Option.not_isSome_iff_eq_none.1 hnone)))
  · exact (ticks_stopRetrieval.then_same fun _ => timer_ensureNext) id'

theorem ticks_resumeStore {now : Instant} {draining : Bool} {access : StoreAccess} {answer : StoreAnswer}
    (h : w.resumeStore now draining access answer = some w')
    (hcreates : ∀ id rest found, access = .get id rest → answer = .record (some found) →
      ProofStore.waitingForContent found.value = true → w.entry id = none → id' ≠ id) :
    w'.timer id' = w.timer id' ∨ w'.timer id' = none ∨ w'.timer id' = (w.timer id').map (· + 1) := by
  unfold resumeStore at h
  split at h
  · cases h
    exact .inl rfl
  · cases h
    exact .inl rfl
  · cases h
    exact ticks_resumeAttached id'
  · cases h
    exact .inl rfl
  · cases h
    exact ticks_resumeWaiting id'
  · rename_i id rest record
    cases h
    exact ticks_resumeGet fun found hfound => hcreates id rest found rfl (congrArg _ hfound)
  · cases h

/-- A retry is scheduled: one more wake, with the next generation of its retrieval. -/
structure Schedules (w w' : Worker) (id : VerificationId) (generation : UInt64) : Prop where
  before : w.timer id = some generation
  after : w'.timer id = some (generation + 1)
  wakes : ∃ due, w'.wakes = w.wakes ++ [⟨id, generation + 1, due⟩]

theorem scheduleRetry_schedules {delay : Duration} {now : Instant} (h : w.scheduleRetry id delay now = some (.ok w')) :
    w'.wakes = w.wakes ∨ ∃ generation, w.Schedules w' id generation := by
  unfold scheduleRetry at h
  split at h
  · cases h
    exact .inl rfl
  · rename_i state hentry
    split at h
    · cases h
    · dsimp only at h
      split_ifs at h
      cases h
      refine .inr ⟨state.timerGeneration, by rw [timer, hentry]; rfl, ?_, _, rfl⟩
      exact congrArg (Option.map RetrievalState.timerGeneration) (entry_setEntry.trans (if_pos rfl))

theorem resumeQueryAvailability_schedules {reply : Except Error QueryId} {input : WorkerInput}
    (h : w.resumeQueryAvailability id rest reply input = some w') :
    w'.wakes = w.wakes ∨ ∃ generation, w.Schedules w' id generation := by
  unfold resumeQueryAvailability at h
  split at h
  · rename_i queryId
    have hstarted : (w.startQuery id queryId input.now).wakes = w.wakes := wakes_of_frame frame_startQuery
    split at h
    · cases h
    · cases h
      exact .inl rfl
    · rename_i retried hretry
      cases h
      have hdriven : (retried.drivePending rest).wakes = retried.wakes := wakes_of_frame frame_drivePending
      rcases scheduleRetry_schedules hretry with hsame | ⟨generation, hbefore, hafter, due, hwakes⟩
      · exact .inl (hdriven.trans (hsame.trans hstarted))
      · refine .inr ⟨generation, timer_startQuery.symm.trans hbefore, timer_drivePending.trans hafter, due, ?_⟩
        rw [hdriven, hwakes, hstarted]
  · cases h
    exact .inl (wakes_of_frame (frame_drivePending.trans frame_stopRetrieval))
  · cases h
    exact .inl rfl

theorem resumeCall_schedules {input : WorkerInput} {call : DriverCall} {reply : Except Error Reply}
    (h : w.resumeCall input call reply = some w') :
    w'.wakes = w.wakes ∨ ∃ id generation, w.Schedules w' id generation := by
  rcases resumeCall_frame h with hframe | ⟨id, rest, result, hquery⟩
  · exact .inl (wakes_of_frame hframe)
  · exact (resumeQueryAvailability_schedules hquery).imp_right fun hscheduled => ⟨id, hscheduled⟩

end Worker

namespace WorkerTask

variable {s t : WorkerTask} {a : WorkerAction}

/-- A step schedules no retry, or it is a reply and schedules one. -/
inductive WakeStep (s t : WorkerTask) : WorkerAction → Prop
  | kept {a : WorkerAction} (h : t.worker.wakes = a.keep s.worker.wakes) : WakeStep s t a
  | scheduled (input : WorkerInput) (reply : Except Error Reply) {id : VerificationId} {generation : UInt64}
    (h : s.worker.Schedules t.worker id generation) : WakeStep s t (.reply input reply)

theorem wakeStep_select {event : WorkerEvent} (h : s.select event = some t) : WakeStep s t (.select event) := by
  refine .kept ?_
  unfold select at h
  split at h
  · split_ifs at h
    cases h
    rfl
  · cases h
    exact Worker.wakes_of_frame Worker.frame_handleDriverEvent
  · rename_i event
    split_ifs at h
    · cases h
      rfl
    · cases h
      refine (Worker.wakes_of_frame Worker.frame_handleStoreEvent).trans ?_
      unfold Worker.recordObserved
      split <;> rfl
  · split_ifs at h
    · cases h
      rfl
    · cases h
      rfl
  · cases h
    rfl
  · split at h
    · cases h
    · split_ifs at h
      cases h
      exact Worker.wakes_of_frame Worker.frame_handleWake
  · split_ifs at h
    cases h
    rfl

theorem wakeStep_next (hnext : s.next a = some t) : WakeStep s t a := by
  unfold next at hnext
  split at hnext
  · split at hnext
    · exact wakeStep_select hnext
    · cases hnext
  · split at hnext
    · cases hnext
      exact .kept rfl
    · cases hnext
  · split at hnext
    · obtain ⟨worker, hresume, rfl⟩ := Option.map_eq_some_iff.1 hnext
      rcases Worker.resumeCall_schedules hresume with hwakes | ⟨id, generation, hscheduled⟩
      · exact .kept hwakes
      · exact .scheduled _ _ hscheduled
    · cases hnext
  · split at hnext
    · obtain ⟨worker, hresume, rfl⟩ := Option.map_eq_some_iff.1 hnext
      exact .kept (Worker.wakes_of_frame (Worker.frame_resumeStore hresume))
    · cases hnext

theorem ticks_select {event : WorkerEvent} (h : s.select event = some t) : s.worker.Ticks t.worker := by
  have hsame : s.worker.Ticks s.worker := Worker.ticks_of_timer fun _ => rfl
  unfold select at h
  split at h
  · split_ifs at h
    cases h
    exact hsame
  · cases h
    exact Worker.ticks_handleDriverEvent
  · rename_i event
    split_ifs at h
    · cases h
      exact Worker.ticks_handleStoreEvent
    · cases h
      intro id
      have hobserved : (s.worker.recordObserved event).timer id = s.worker.timer id := by
        unfold Worker.recordObserved
        split <;> rfl
      rw [← hobserved]
      exact Worker.ticks_handleStoreEvent id
  · split_ifs at h <;> cases h
    · exact hsame
    · exact hsame
  · cases h
    exact hsame
  · split at h
    · cases h
    · split_ifs at h
      cases h
      exact Worker.ticks_handleWake (w := { s.worker with wakes := _ })
  · split_ifs at h
    cases h
    exact hsame

theorem ticks_next (hnext : s.next a = some t) {id : VerificationId} (hcreates : TimedTask.creates s a ≠ some id) :
    t.worker.timer id = s.worker.timer id ∨ t.worker.timer id = none ∨
      t.worker.timer id = (s.worker.timer id).map (· + 1) := by
  unfold next at hnext
  split at hnext
  · split at hnext
    · exact ticks_select hnext id
    · cases hnext
  · split at hnext
    · cases hnext
      exact .inl rfl
    · cases hnext
  · split at hnext
    · obtain ⟨worker, hresume, rfl⟩ := Option.map_eq_some_iff.1 hnext
      exact Worker.ticks_resumeCall hresume id
    · cases hnext
  · rename_i answer now
    split at hnext
    · rename_i access hcontrol
      obtain ⟨worker, hresume, rfl⟩ := Option.map_eq_some_iff.1 hnext
      exact Worker.ticks_resumeStore hresume (fun id' rest found haccess hanswer hwaiting hnone heq => hcreates (by
        subst haccess hanswer heq
        simp [TimedTask.creates, hcontrol, hwaiting, hnone]))
    · cases hnext

end WorkerTask

/-! ### The invariant -/

/-- As long as the retrieval of a wake exists, it is the one that scheduled the wake, and a wake with its present
generation is the last one that it scheduled. -/
def Worker.Timely (w : Worker) (wake : RetrievalWake) (since : List TimerEvent) : Prop :=
  ∀ generation, w.timer wake.verificationId = some generation →
    .created wake.verificationId ∉ since ∧ wake.generation.toNat ≤ generation.toNat ∧
      (wake.generation = generation → .scheduled wake.verificationId ∉ since)

namespace TimedTask

variable {s t : WorkerTask} {a : WorkerAction} {id : VerificationId}

theorem not_created_of_timer {generation : UInt64} (h : s.worker.timer id = some generation) :
    .created id ∉ shown s t a := by
  unfold shown
  intro hmem
  rcases List.mem_append.1 hmem with hmem | hmem
  · obtain ⟨id', hid', heq⟩ := List.mem_map.1 hmem
    cases heq
    have hnone : s.worker.entry id = none := by simpa using (List.mem_filter.1 hid').2
    rw [Worker.timer, hnone] at h
    cases h
  · obtain ⟨_, -, heq⟩ := List.mem_map.1 hmem
    cases heq

theorem mem_newWakes_of_scheduled (h : .scheduled id ∈ shown s t a) :
    ∃ wake ∈ newWakes s t a, wake.verificationId = id := by
  unfold shown at h
  rcases List.mem_append.1 h with h | h
  · obtain ⟨_, -, heq⟩ := List.mem_map.1 h
    cases heq
  · obtain ⟨wake, hwake, heq⟩ := List.mem_map.1 h
    cases heq
    exact ⟨wake, hwake, rfl⟩

theorem ne_add_one (generation : UInt64) : generation ≠ generation + 1 := by
  intro h
  have hnat := congrArg UInt64.toNat h
  have hlt := generation.toNat_lt
  rw [UInt64.toNat_add, UInt64.toNat_one] at hnat
  omega

theorem toNat_add_one {generation : UInt64} (h : generation ≠ 0xFFFFFFFFFFFFFFFF) :
    (generation + 1).toNat = generation.toNat + 1 := by
  have hne : generation.toNat ≠ 2 ^ 64 - 1 := fun heq => h (UInt64.toNat_inj.1 heq)
  have hlt := generation.toNat_lt
  rw [UInt64.toNat_add, UInt64.toNat_one]
  omega

theorem timely_step {wake : RetrievalWake} {since : List TimerEvent} (h : s.worker.Timely wake since)
    (hnext : s.next a = some t) (hcreates : creates s a ≠ some wake.verificationId)
    (hlast : s.worker.timer wake.verificationId ≠ some 0xFFFFFFFFFFFFFFFF)
    (hscheduled : .scheduled wake.verificationId ∈ shown s t a →
      ∃ generation, s.worker.timer wake.verificationId = some generation ∧
        t.worker.timer wake.verificationId = some (generation + 1)) :
    t.worker.Timely wake (since ++ shown s t a) := by
  intro generation' hafter
  -- the entry was there before the step, and its generation has not become smaller
  obtain ⟨generation, hbefore, hgrows⟩ : ∃ generation, s.worker.timer wake.verificationId = some generation ∧
      generation.toNat ≤ generation'.toNat := by
    rcases WorkerTask.ticks_next hnext hcreates with hsame | hnone | hbumped
    · exact ⟨generation', hsame.symm.trans hafter, le_refl _⟩
    · rw [hnone] at hafter
      cases hafter
    · obtain ⟨generation, hbefore, rfl⟩ := Option.map_eq_some_iff.1 (hbumped.symm.trans hafter)
      refine ⟨generation, hbefore, ?_⟩
      rw [toNat_add_one fun heq => hlast (heq ▸ hbefore)]
      exact Nat.le_succ _
  obtain ⟨hcreated, hle, hlatest⟩ := h generation hbefore
  refine ⟨?_, hle.trans hgrows, fun heq => ?_⟩
  · exact List.not_mem_append hcreated (not_created_of_timer hbefore)
  · have hsame : wake.generation = generation := UInt64.toNat_inj.1 (le_antisymm hle (heq ▸ hgrows))
    refine List.not_mem_append (hlatest hsame) fun hmem => ?_
    -- a new retry has the next generation, which is another one
    obtain ⟨before, hbefore', hafter'⟩ := hscheduled hmem
    rw [hbefore] at hbefore'
    cases hbefore'
    rw [hafter] at hafter'
    cases hafter'
    rw [hsame] at heq
    exact ne_add_one generation heq

theorem forall₂_keep {α β : Type} {R : α → β → Prop} {l : List α} {l' : List β} (h : List.Forall₂ R l l')
    (a : WorkerAction) : List.Forall₂ R (a.keep l) (a.keep l') := by
  have herase : ∀ i, List.Forall₂ R (l.eraseIdx i) (l'.eraseIdx i) := by
    induction h with
    | nil => exact fun i => .nil
    | cons hhead htail ih =>
      intro i
      cases i with
      | zero => exact htail
      | succ i => exact .cons hhead (ih i)
  unfold WorkerAction.keep
  split
  · exact herase _
  · exact .nil
  · exact h

def AllTimely (s : TimedTask) : Prop := List.Forall₂ s.task.worker.Timely s.task.worker.wakes s.since

theorem AllTimely.next {s t : TimedTask} (h : s.AllTimely) (horderly : s.Orderly a) (hnext : s.next a = some t) :
    t.AllTimely := by
  obtain ⟨task, htask, rfl⟩ := Option.map_eq_some_iff.1 hnext
  have hboth := (List.forall₂_and_left _ _).2 ⟨horderly, h⟩
  unfold AllTimely
  dsimp only
  cases WorkerTask.wakeStep_next htask with
  | kept hwakes =>
    have hnew : newWakes s.task task a = [] := by
      unfold newWakes
      rw [hwakes, List.drop_length]
    rw [hnew, hwakes, List.map_nil, List.append_nil, List.forall₂_map_right_iff]
    refine (forall₂_keep hboth a).imp fun wake since htimely =>
      timely_step htimely.2 htask htimely.1.1 htimely.1.2 fun hmem => ?_
    obtain ⟨_, hmem, -⟩ := mem_newWakes_of_scheduled hmem
    rw [hnew] at hmem
    cases hmem
  | scheduled input reply hscheduled =>
    obtain ⟨hbefore, hafter, due, hwakes⟩ := hscheduled
    rename_i id generation
    have hnew : newWakes s.task task (.reply input reply) = [⟨id, generation + 1, due⟩] := by
      unfold newWakes
      rw [hwakes]
      exact List.drop_left
    rw [hnew, hwakes]
    refine List.rel_append ?_ (.cons ?_ .nil)
    · rw [List.forall₂_map_right_iff]
      refine hboth.imp fun wake since htimely =>
        timely_step htimely.2 htask htimely.1.1 htimely.1.2 fun hmem => ?_
      obtain ⟨wake', hmem, heq⟩ := mem_newWakes_of_scheduled hmem
      rw [hnew, List.mem_singleton] at hmem
      subst hmem
      rw [← heq]
      exact ⟨generation, hbefore, hafter⟩
    · intro generation' hgeneration
      rw [hafter] at hgeneration
      cases hgeneration
      exact ⟨List.not_mem_nil, le_refl _, fun _ => List.not_mem_nil⟩

theorem reachable_allTimely {localPeerId : PeerId} {config : P2pConfig} {s : TimedTask}
    (h : ((lts localPeerId config).restrict Orderly).Reachable s) : s.AllTimely := by
  refine h.invariant (P := AllTimely) ?_ ?_
  · rintro s rfl
    exact .nil
  · intro s a t _ hs hst
    exact hs.next hst.2 hst.1

/-- The history restricts nothing: every run of the worker task has one. -/
theorem exists_timed {localPeerId : PeerId} {config : P2pConfig}
    (h : (WorkerTask.lts localPeerId config).Reachable s) :
    ∃ timed, (lts localPeerId config).Reachable timed ∧ timed.task = s := by
  refine h.simulates (R := fun s (timed : TimedTask) => timed.task = s) ?_ ?_
  · rintro s rfl
    exact ⟨_, rfl, rfl⟩
  · rintro s a t timed rfl hst
    exact .inr ⟨a, _, congrArg (Option.map _) hst, rfl⟩

/-- A wake that acts was scheduled by the retrieval that it acts on, and this retrieval has scheduled no other since. -/
theorem latest_wake_acts {localPeerId : PeerId} {config : P2pConfig} {s : TimedTask}
    (hs : ((lts localPeerId config).restrict Orderly).Reachable s) {i : Nat} {wake : RetrievalWake}
    (hwake : s.task.worker.wakes[i]? = some wake) (hacts : s.task.worker.WakeActs wake) :
    ∃ since, s.since[i]? = some since ∧
      .created wake.verificationId ∉ since ∧ .scheduled wake.verificationId ∉ since := by
  have htimely := reachable_allTimely hs
  obtain ⟨state, hentry, hgeneration, -⟩ := hacts
  obtain ⟨hi, hget⟩ := List.getElem?_eq_some_iff.1 hwake
  have hi' : i < s.since.length := htimely.length_eq ▸ hi
  have hat := htimely.get hi hi'
  rw [List.get_eq_getElem, List.get_eq_getElem, hget] at hat
  obtain ⟨hcreated, -, hlast⟩ := hat state.timerGeneration (by rw [Worker.timer, hentry]; rfl)
  exact ⟨_, List.getElem?_eq_getElem hi', hcreated, hlast hgeneration.symm⟩

/-! ### Two runs -/

/-- Nobody provides the proof, and a query is sent. -/
private def queried (delay : Duration) : List WorkerAction :=
  WorkerTask.calls 0 (.providers []) ++ WorkerTask.calls delay (.queryId NetworkOutcome.calm.queryId)

/-- The worker reconciles an empty store and takes the observation of `id`. -/
private def observed (id : VerificationId) : List WorkerAction :=
  [.select (.storeEvent (.verificationObserved id)), .store .waitingRecord 0]

private def started (id : VerificationId) : List WorkerAction :=
  [.store (.ids []) 0] ++ WorkerTask.calls 0 .unit ++ [.store (.ids []) 0] ++ observed id

/-- The record of `id` is evicted and `id` is observed again; both retrievals send a query. -/
private def observedAgain (id : VerificationId) : List WorkerAction :=
  started id ++ queried 0 ++ [.select (.storeEvent (.proofEvicted id .size))] ++ WorkerTask.calls 0 .unit ++
    observed id ++ queried 1

private theorem length_watched : (List.replicate verificationIdLen (1 : UInt8)).length = verificationIdLen :=
  List.length_replicate

private def watched : VerificationId := ⟨⟨List.replicate verificationIdLen 1, length_watched⟩⟩

private def actsOn (w : Worker) (wake : RetrievalWake) : Bool :=
  (w.entry wake.verificationId).any fun state => state.timerGeneration == wake.generation && !state.finished

private theorem wakeActs_of_actsOn {w : Worker} {wake : RetrievalWake} (h : actsOn w wake = true) :
    w.WakeActs wake := by
  obtain ⟨state, hentry, hacts⟩ := (Option.any_eq_true _ _).1 h
  rw [Bool.and_eq_true, beq_iff_eq, Bool.not_eq_true'] at hacts
  exact ⟨state, hentry, hacts⟩

/-- The wake after the second query acts, once the one after the first query has acted. -/
theorem latest_wake_acts_again :
    ∃ s wake since, ((lts .here .small).restrict Orderly).Reachable s ∧ s.task.worker.wakes[0]? = some wake ∧
      s.task.worker.WakeActs wake ∧ s.since[0]? = some since ∧
      .created wake.verificationId ∉ since ∧ .scheduled wake.verificationId ∉ since := by
  have hrun : (Lts.exec (Lts.guarded next Orderly) (initial .here .small)
      (started watched ++ queried 0 ++ [.select (.wake 0 0)] ++ queried 1)).any (fun s =>
        (s.task.worker.wakes[0]?).any fun wake => actsOn s.task.worker wake) = true := by
    decide +kernel
  obtain ⟨s, hs, htest⟩ := (Option.any_eq_true _ _).1 hrun
  obtain ⟨wake, hwake, hacts⟩ := (Option.any_eq_true _ _).1 htest
  have hreachable : ((lts .here .small).restrict Orderly).Reachable s := ⟨_, _, rfl, Lts.run_restrict_of_exec hs⟩
  obtain ⟨since, hsince, hlatest⟩ := latest_wake_acts hreachable hwake (wakeActs_of_actsOn hacts)
  exact ⟨s, wake, since, hreachable, hwake, wakeActs_of_actsOn hacts, hsince, hlatest⟩

/-- The wake of a retrieval that was removed clears the query of the next retrieval of its identifier, which has a wake
of its own that is not yet due. -/
theorem stale_wake_acts :
    ∃ s wake since t, (lts .here .small).Reachable s ∧ s.task.worker.wakes[0]? = some wake ∧
      s.task.worker.WakeActs wake ∧ s.since[0]? = some since ∧
      .created wake.verificationId ∈ since ∧ .scheduled wake.verificationId ∈ since ∧
      s.next (.select (.wake 0 0)) = some t ∧
      (s.task.worker.entry wake.verificationId).any (·.query.isSome) = true ∧
      (t.task.worker.entry wake.verificationId).any (·.query.isNone) = true := by
  have hrun : (Lts.exec next (initial .here .small) (observedAgain watched)).any (fun s =>
      (s.task.worker.wakes[0]?).any fun wake => actsOn s.task.worker wake &&
        ((s.since[0]?).any (fun since =>
          decide (.created wake.verificationId ∈ since) && decide (.scheduled wake.verificationId ∈ since)) &&
        (s.next (.select (.wake 0 0))).any (fun t =>
          (s.task.worker.entry wake.verificationId).any (·.query.isSome) &&
            (t.task.worker.entry wake.verificationId).any (·.query.isNone)))) = true := by
    decide +kernel
  obtain ⟨s, hs, htest⟩ := (Option.any_eq_true _ _).1 hrun
  obtain ⟨wake, hwake, htest⟩ := (Option.any_eq_true _ _).1 htest
  simp only [Bool.and_eq_true, Option.any_eq_true, decide_eq_true_eq] at htest
  obtain ⟨hacts, ⟨since, hsince, hcreated, hscheduled⟩, t, ht, ⟨before, hbefore, hquery⟩, after, hafter,
    hcleared⟩ := htest
  refine ⟨s, wake, since, t, ⟨_, _, rfl, Lts.run_of_exec hs⟩, hwake, wakeActs_of_actsOn hacts, hsince, hcreated,
    hscheduled, ht, ?_, ?_⟩
  · rw [hbefore]
    exact hquery
  · rw [hafter]
    exact hcleared

end TimedTask

end PulsarVerifier
