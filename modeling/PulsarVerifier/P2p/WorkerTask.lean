import PulsarVerifier.Lib.Lts
import PulsarVerifier.Lib.Table
import PulsarVerifier.P2p.Bookkeeping

/-!
# The worker under any driver and store

The worker task on its own: the driver may send any events and any replies, the store may answer anything, and wakes,
store events and the stop come in any order.  Every entry with an active request has one slot (`Slots`): a request is
started only by the reply to `request_proof`, and that call is made only while a slot is free.
-/

namespace PulsarVerifier

inductive StoreAnswer
  | proof (proof : Option Proof)
  | stored (result : Except Error StoreChange)
  /-- the events of the operation are published -/
  | published
  | ids (ids : List VerificationId)
  | record (record : Option (Arc ProofRecord))

/-- What the worker finds in `select!`, or in the queues of `drain`. -/
inductive WorkerEvent
  | stop
  | driverEvent (event : DriverEvent) (now : Instant)
  | storeEvent (event : ProofStoreEvent)
  | lagged
  | closed (error : Error)
  | wake (i : Nat) (now : Instant)
  /-- both queues of `drain` are empty -/
  | drained

inductive WorkerAction
  | select (event : WorkerEvent)
  /-- the command of the worker goes into the mailbox -/
  | send
  | reply (input : WorkerInput) (reply : Except Error Reply)
  | store (answer : StoreAnswer) (now : Instant)

/-- The worker goes on after an access to the store. -/
def Worker.resumeStore (w : Worker) (now : Instant) (draining : Bool) : StoreAccess → StoreAnswer → Option Worker
  | .getProof requestId _, .proof proof => some (w.call (.respondProof requestId proof) .respondProof)
  | .attachDownloadedProof requestId peer id _, .stored result =>
    some (w.goto (.store (.attached requestId peer id result)))
  | .attached requestId peer id stored, .published => some (w.resumeAttached requestId peer id stored now draining)
  | .locallyAvailableProofs, .ids ids => some (w.call (.replaceLocalProofs ids) (.replaceLocalProofs ids))
  | .recordsWaitingForContent, .ids ids => some (w.resumeWaiting ids)
  | .get id rest, .record record => some (w.resumeGet id rest record)
  | _, _ => none

/-- The history after a store event was taken outside a drain. -/
def Worker.recordObserved (w : Worker) : ProofStoreEvent → Worker
  | .verificationObserved id => { w with expired := w.expired.erase id }
  | _ => w

/-- The worker task, and whether it is in `drain`. -/
structure WorkerTask where
  worker : Worker
  draining : Bool

namespace WorkerTask

/-- One round of the loop that the handlers are called from. -/
def select (s : WorkerTask) : WorkerEvent → Option WorkerTask
  | .stop =>
    if s.draining then none
    else some { worker := { s.worker with pending := [], wakes := [] }, draining := true }
  | .driverEvent event now => some { s with worker := s.worker.handleDriverEvent now s.draining event }
  | .storeEvent event =>
    if s.draining then some { s with worker := s.worker.handleStoreEvent true event }
    else some { s with worker := (s.worker.recordObserved event).handleStoreEvent false event }
  | .lagged =>
    if s.draining then some s else some { s with worker := s.worker.goto (.store .locallyAvailableProofs) }
  | .closed error => some { s with worker := s.worker.fail error }
  | .wake i now =>
    match s.worker.wakes[i]? with
    | none => none
    | some wake =>
      if !s.draining ∧ wake.due ≤ now then
        some { s with worker := { s.worker with wakes := s.worker.wakes.eraseIdx i }.handleWake wake now }
      else none
  | .drained => if s.draining then some { s with worker := s.worker.goto (.returned (.ok ())) } else none

def next (s : WorkerTask) : WorkerAction → Option WorkerTask
  | .select event =>
    match s.worker.control with
    | .idle => s.select event
    | _ => none
  | .send =>
    match s.worker.control with
    | .sending _ call => some { s with worker := s.worker.goto (.waiting call) }
    | _ => none
  | .reply input reply =>
    match s.worker.control with
    | .waiting call => (s.worker.resumeCall input call reply).map fun worker => { s with worker }
    | _ => none
  | .store answer now =>
    match s.worker.control with
    | .store access => (s.worker.resumeStore now s.draining access answer).map fun worker => { s with worker }
    | _ => none

def initial (localPeerId : PeerId) (config : P2pConfig) : WorkerTask :=
  { worker := .new localPeerId config, draining := false }

/-- All orders of driver events, replies, store events, wakes and the stop. -/
def lts (localPeerId : PeerId) (config : P2pConfig) : Lts WorkerTask WorkerAction :=
  .ofNext (· = initial localPeerId config) next

end WorkerTask

/-! ### What no function changes -/

namespace Worker

variable {w w' : Worker} {id : VerificationId} {rest : List VerificationId}

/-- The identity of the node and its configuration. -/
def node (w : Worker) : PeerId × P2pConfig := (w.localPeerId, w.config)

/-- The node and the sleeping wakes. -/
def frame (w : Worker) : (PeerId × P2pConfig) × List RetrievalWake := (w.node, w.wakes)

theorem node_of_frame (h : w'.frame = w.frame) : w'.node = w.node := congrArg Prod.fst h

theorem wakes_of_frame (h : w'.frame = w.frame) : w'.wakes = w.wakes := congrArg Prod.snd h

@[simp] theorem frame_setEntry {state : RetrievalState} : (w.setEntry id state).frame = w.frame := rfl

@[simp] theorem frame_removeEntry : (w.removeEntry id).frame = w.frame := rfl

@[simp] theorem frame_goto {control : Control} : (w.goto control).frame = w.frame := rfl

@[simp] theorem frame_call {command : DriverCommand} {call : DriverCall} : (w.call command call).frame = w.frame := rfl

@[simp] theorem frame_fail {error : Error} : (w.fail error).frame = w.frame := rfl

@[simp] theorem frame_enqueue : (w.enqueue id).frame = w.frame := by
  unfold enqueue
  split
  · rfl
  · split_ifs <;> rfl

@[simp] theorem frame_stopRetrieval : (w.stopRetrieval id).frame = w.frame := by
  unfold stopRetrieval
  split
  · rfl
  · split_ifs <;> rfl

@[simp] theorem frame_stopExpired : (w.stopExpired id).frame = w.frame := frame_stopRetrieval

@[simp] theorem frame_clearQuery : (w.clearQuery id).frame = w.frame := by
  unfold clearQuery
  split <;> rfl

@[simp] theorem frame_addAttempted {peer : PeerId} : (w.addAttempted id peer).frame = w.frame := by
  unfold addAttempted
  split <;> rfl

@[simp] theorem frame_startRequest {requestId : ProofRequestId} {peer : PeerId} {now : Instant} :
    (w.startRequest id requestId peer now).frame = w.frame := by
  unfold startRequest
  split <;> rfl

@[simp] theorem frame_startQuery {queryId : QueryId} {now : Instant} :
    (w.startQuery id queryId now).frame = w.frame := by
  unfold startQuery
  split <;> rfl

@[simp] theorem frame_ensureNext : (w.ensureNext rest).frame = w.frame := by
  cases rest <;> rfl

@[simp] theorem frame_announceNext {ids : List VerificationId} : (w.announceNext ids).frame = w.frame := by
  cases ids <;> rfl

@[simp] theorem frame_drivePending : (w.drivePending rest).frame = w.frame := by
  have hloop : ∀ pending (w : Worker), (drivePendingFrom rest pending w).frame = w.frame := by
    intro pending
    induction pending with
    | nil => exact fun w => frame_ensureNext
    | cons id pending ih =>
      intro w
      rw [drivePendingFrom]
      split
      · split
        · exact ih w
        · dsimp only
          split_ifs
          · exact ih _
          · rfl
      · exact frame_ensureNext
  exact hloop w.pending w

theorem frame_resumeGet {record : Option (Arc ProofRecord)} : (w.resumeGet id rest record).frame = w.frame := by
  unfold resumeGet
  split
  · dsimp only
    split <;> simp
  · simp

theorem frame_resumeWaiting {waiting : List VerificationId} : (w.resumeWaiting waiting).frame = w.frame := by
  have hloop : ∀ (ids : List VerificationId) (w : Worker), (ids.foldl stopRetrieval w).frame = w.frame := by
    intro ids
    induction ids with
    | nil => exact fun w => rfl
    | cons id ids ih => exact fun w => (ih _).trans frame_stopRetrieval
  rw [resumeWaiting, frame_ensureNext, hloop]

theorem frame_finishRequest {requestId : ProofRequestId} {peer : PeerId} {succeeded : Bool} {now : Instant}
    (h : w.finishRequest id requestId peer succeeded now = .ok w') : w'.frame = w.frame := by
  unfold finishRequest at h
  split at h
  · cases h
    rfl
  · dsimp only at h
    split_ifs at h
    · cases h
      rfl
    · cases h
      rfl
    · cases h
      rfl
    · cases h
      exact frame_enqueue

theorem frame_afterFinish {draining : Bool} {result : Except String Worker}
    (h : ∀ w', result = .ok w' → w'.frame = w.frame) : (w.afterFinish draining result).frame = w.frame := by
  cases result with
  | error message => rfl
  | ok w' =>
    unfold afterFinish
    dsimp only
    split <;> simp [h w' rfl]

theorem frame_resumeAttached {requestId : ProofRequestId} {peer : PeerId} {stored : Except Error StoreChange}
    {now : Instant} {draining : Bool} : (w.resumeAttached requestId peer id stored now draining).frame = w.frame := by
  unfold resumeAttached
  split
  · exact frame_afterFinish fun _ => frame_finishRequest
  · exact frame_afterFinish fun _ => frame_finishRequest
  · exact frame_afterFinish fun _ => frame_finishRequest
  · refine frame_afterFinish fun w' h => ?_
    cases hresult : w.finishRequest id requestId peer true now with
    | error message => rw [hresult] at h; cases h
    | ok w'' =>
      rw [hresult] at h
      cases h
      exact frame_stopRetrieval.trans (frame_finishRequest hresult)
  · rfl

theorem frame_handleDriverEvent {now : Instant} {draining : Bool} {event : DriverEvent} :
    (w.handleDriverEvent now draining event).frame = w.frame := by
  unfold handleDriverEvent
  split
  · rfl
  · rfl
  · exact frame_afterFinish fun _ => frame_finishRequest
  · exact frame_afterFinish fun _ => frame_finishRequest
  · split <;> rfl
  · split_ifs <;> simp
  · split <;> rfl
  · rfl
  · rfl

theorem frame_handleStoreEvent {draining : Bool} {event : ProofStoreEvent} :
    (w.handleStoreEvent draining event).frame = w.frame := by
  unfold handleStoreEvent
  split
  · rfl
  · cases event <;> simp

theorem frame_handleWake {wake : RetrievalWake} {now : Instant} : (w.handleWake wake now).frame = w.frame := by
  unfold handleWake
  split
  · rfl
  · dsimp only
    split_ifs <;> simp

theorem node_handleWake {wake : RetrievalWake} {now : Instant} : (w.handleWake wake now).node = w.node :=
  node_of_frame frame_handleWake

theorem frame_resumeProviders {attempted : Finset PeerId} {providers : List PeerId} {input : WorkerInput}
    (h : w.resumeProviders id attempted rest providers input = some w') : w'.frame = w.frame := by
  unfold resumeProviders at h
  split at h
  · split_ifs at h <;> cases h <;> simp
  · split at h
    · cases h
    · split_ifs at h <;> cases h <;> simp

theorem frame_resumeRequestProof {peer : PeerId} {reply : Except Error ProofRequestId} {input : WorkerInput} :
    (w.resumeRequestProof id peer rest reply input).frame = w.frame := by
  unfold resumeRequestProof
  split <;> simp [tryRetrieve]

theorem node_resumeQueryAvailability {reply : Except Error QueryId} {input : WorkerInput}
    (h : w.resumeQueryAvailability id rest reply input = some w') : w'.node = w.node := by
  unfold resumeQueryAvailability at h
  split at h
  · rename_i queryId
    have hstarted : (w.startQuery id queryId input.now).node = w.node := node_of_frame frame_startQuery
    split at h
    · cases h
    · cases h
      rfl
    · rename_i hretry
      cases h
      refine (node_of_frame frame_drivePending).trans ?_
      unfold scheduleRetry at hretry
      split at hretry
      · cases hretry
        exact hstarted
      · split at hretry
        · cases hretry
        · dsimp only at hretry
          split_ifs at hretry
          cases hretry
          exact hstarted
  · cases h
    exact node_of_frame (frame_drivePending.trans frame_stopRetrieval)
  · cases h
    rfl

theorem resumeCall_frame {input : WorkerInput} {call : DriverCall} {reply : Except Error Reply}
    (h : w.resumeCall input call reply = some w') :
    w'.frame = w.frame ∨ ∃ id rest result, w.resumeQueryAvailability id rest result input = some w' := by
  unfold resumeCall at h
  split at h
  · cases h
    exact .inl rfl
  · cases h
    exact .inl frame_drivePending
  · cases h
    exact .inl frame_drivePending
  · cases h
    exact .inl frame_announceNext
  · cases h
    exact .inl frame_announceNext
  · exact .inl (frame_resumeProviders h)
  · cases h
    exact .inl frame_resumeRequestProof
  · cases h
    exact .inl frame_resumeRequestProof
  · exact .inr ⟨_, _, _, h⟩
  · exact .inr ⟨_, _, _, h⟩
  · cases h
    exact .inl rfl
  · cases h

theorem node_resumeCall {input : WorkerInput} {call : DriverCall} {reply : Except Error Reply}
    (h : w.resumeCall input call reply = some w') : w'.node = w.node := by
  rcases resumeCall_frame h with hframe | ⟨id, rest, result, hquery⟩
  · exact node_of_frame hframe
  · exact node_resumeQueryAvailability hquery

theorem frame_resumeStore {access : StoreAccess} {answer : StoreAnswer} {now : Instant} {draining : Bool}
    (h : w.resumeStore now draining access answer = some w') : w'.frame = w.frame := by
  unfold resumeStore at h
  split at h
  · cases h
    rfl
  · cases h
    rfl
  · cases h
    exact frame_resumeAttached
  · cases h
    rfl
  · cases h
    exact frame_resumeWaiting
  · cases h
    exact frame_resumeGet
  · cases h

end Worker

/-! ### Where a handler leaves the worker -/

def Control.Asks : Control → Prop
  | .sending _ (.requestProof _ _ _) | .waiting (.requestProof _ _ _) => True
  | _ => False

/-- The worker does not call `request_proof`, and it has not panicked. -/
def Control.Quiet : Control → Prop
  | .sending _ (.requestProof _ _ _) | .waiting (.requestProof _ _ _) | .panicked _ => False
  | _ => True

namespace Worker

variable {w w' : Worker} {id : VerificationId} {rest : List VerificationId}

theorem Driven.quiet (h : w.Driven rest) : w.control.Quiet := h.on trivial (fun _ _ => trivial) fun _ _ _ => trivial

theorem EventMove.quiet {draining : Bool} {event : DriverEvent} (h : w.EventMove draining event w')
    (hcounted : w.ledger.Counted) : w'.control.Quiet :=
  h.on (fun h => h.quiet) (fun hnot => absurd hcounted hnot) fun _ _ => trivial

theorem quiet_handleStoreEvent {event : ProofStoreEvent} : (w.handleStoreEvent false event).control.Quiet := by
  unfold handleStoreEvent
  rw [if_neg Bool.false_ne_true]
  cases event with
  | verificationChanged id state => exact driven_drivePending.quiet
  | _ => trivial

theorem ReplyMove.quiet {call : DriverCall} {reply : Except Error Reply} (h : w.ReplyMove call reply w') :
    w'.control.Quiet ∨ (w'.control.Asks ∧ w'.ledger = w.ledger ∧ ∃ id attempted rest peers,
      call = .providers id attempted rest ∧ reply = .ok (.providers peers)) :=
  h.on (P := fun control => control.Quiet ∨ (control.Asks ∧ _)) (fun h => .inl h.quiet) (.inl trivial)
    (fun _ _ _ => .inl trivial) (.inl trivial) (fun _ _ _ => .inl trivial) (fun _ _ => .inl trivial)
    (fun id attempted rest peers _ hcall hreply _ hledger =>
      .inr ⟨trivial, hledger, id, attempted, rest, peers, hcall, hreply⟩)
    fun _ _ _ _ => .inl trivial

theorem free_of_resumeProviders {attempted : Finset PeerId} {providers : List PeerId} {input : WorkerInput}
    (h : w.resumeProviders id attempted rest providers input = some w') :
    w'.control.Quiet ∨ w.activeRetrievals < w.config.maxConcurrentRetrievals := by
  unfold resumeProviders at h
  split at h
  · split_ifs at h
    · cases h
      exact .inl driven_drivePending.quiet
    · cases h
      exact .inl driven_drivePending.quiet
    · cases h
      exact .inl trivial
  · split at h
    · cases h
    · split_ifs at h with hpassed hfull
      · cases h
        exact .inl driven_drivePending.quiet
      · cases h
        exact .inl driven_drivePending.quiet
      · exact .inr (not_le.1 hfull)

/-! ### Slots -/

/-- Every entry with an active request has a slot; there are no more slots than configured, and one of them is free
while the worker calls `request_proof`.  A call is part of a retrieval that is live and has no request. -/
structure Slots (w : Worker) (config : P2pConfig) : Prop where
  configured : w.config = config
  ledger : w.ledger.Consistent
  bounded : w.activeRetrievals ≤ config.maxConcurrentRetrievals
  asking : w.control.Quiet ∨ (w.control.Asks ∧ w.activeRetrievals < config.maxConcurrentRetrievals)
  sending : ∀ command call, w.control = .sending command call → ∀ id ∈ call.retrieval, w.ledger.Idle id
  waiting : ∀ call, w.control = .waiting call → ∀ id ∈ call.retrieval, w.ledger.Idle id

theorem slots_new (localPeerId : PeerId) (config : P2pConfig) : (new localPeerId config).Slots config where
  configured := rfl
  ledger :=
    { counted := ⟨∅, fun id => by simp [Ledger.active, ledger_jobs, new, entry], rfl⟩
      stopped := fun id job hjob => by simp [ledger_jobs, new, entry] at hjob }
  bounded := Nat.zero_le _
  asking := .inl trivial
  sending _ _ h := nomatch h
  waiting _ h := nomatch h

variable {config : P2pConfig}

theorem Slots.of_calm (h : w.Slots config) (hcalm : w.ledger.Calm w'.ledger) (hnode : w'.node = w.node)
    (hposed : w'.Posed) (hquiet : w'.control.Quiet) : w'.Slots config where
  configured := (congrArg Prod.snd hnode).trans h.configured
  ledger := h.ledger.calm hcalm
  bounded := hcalm.1.trans_le h.bounded
  asking := .inl hquiet
  sending command call hcontrol := (hposed.2 command call hcontrol).2
  waiting call hcontrol := absurd hcontrol (hposed.1 call)

theorem Slots.of_finishMove {request : ProofRequestId × PeerId} {succeeded : Bool} (h : w.Slots config)
    (hmove : w.FinishMove id request succeeded w') (hnode : w'.node = w.node) : w'.Slots config := by
  have hdriven := hmove.driven h.ledger.counted
  rcases hmove.requests with hcalm | ⟨hactive, job, hjob, hcalm⟩
  · exact h.of_calm hcalm hnode hdriven.posed hdriven.quiet
  · have hslots : w'.activeRetrievals = w.activeRetrievals - 1 := hcalm.1
    have hledger := h.ledger.finish (by rw [hactive]; rfl) hjob
    refine ⟨(congrArg Prod.snd hnode).trans h.configured, hledger.calm hcalm, ?_, .inl hdriven.quiet,
      fun command call hcall => (hdriven.posed.2 command call hcall).2,
      fun call hcall => absurd hcall (hdriven.posed.1 call)⟩
    rw [hslots]
    exact (Nat.sub_le _ _).trans h.bounded

theorem Slots.driverEvent (h : w.Slots config) (event : DriverEvent) (now : Instant) (draining : Bool) :
    (w.handleDriverEvent now draining event).Slots config := by
  have hnode : (w.handleDriverEvent now draining event).node = w.node := node_of_frame frame_handleDriverEvent
  have hmove := w.handleDriverEvent_move now draining event
  have hposed := hmove.posed
  have hquiet := hmove.quiet h.ledger.counted
  generalize w.handleDriverEvent now draining event = w' at hnode hposed hmove hquiet ⊢
  cases hmove with
  | requested | received | announced | reconcile => exact h.of_calm (.refl _) hnode hposed hquiet
  | finished _ _ _ _ _ _ _ hmove => exact h.of_finishMove hmove hnode
  | driven _ _ _ _ hledger => exact h.of_calm (calm_of_ledger hledger) hnode hposed hquiet

theorem Slots.attached (h : w.Slots config) (requestId : ProofRequestId) (peer : PeerId) (id : VerificationId)
    (stored : Except Error StoreChange) (now : Instant) (draining : Bool) :
    (w.resumeAttached requestId peer id stored now draining).Slots config := by
  rcases w.resumeAttached_move requestId peer id stored now draining with
    ⟨succeeded, hmove, -⟩ | ⟨error, -, hfail, -⟩
  · exact h.of_finishMove hmove (node_of_frame frame_resumeAttached)
  · rw [hfail]
    exact h.of_calm (.refl _) rfl posed_goto_returned trivial

theorem Slots.store {access : StoreAccess} {answer : StoreAnswer} {now : Instant} {draining : Bool}
    (h : w.Slots config) (hresume : w.resumeStore now draining access answer = some w') : w'.Slots config := by
  unfold resumeStore at hresume
  split at hresume
  · cases hresume
    exact h.of_calm (.refl _) rfl (posed_call trivial (fun _ hid => nomatch hid)) trivial
  · cases hresume
    exact h.of_calm (.refl _) rfl posed_goto_store trivial
  · cases hresume
    exact h.attached _ _ _ _ _ _
  · cases hresume
    exact h.of_calm (.refl _) rfl (posed_call rfl (fun _ hid => nomatch hid)) trivial
  · cases hresume
    exact h.of_calm calm_resumeWaiting (node_of_frame frame_resumeWaiting) driven_resumeWaiting.posed
      driven_resumeWaiting.quiet
  · cases hresume
    exact h.of_calm calm_resumeGet (node_of_frame frame_resumeGet) driven_resumeGet.posed driven_resumeGet.quiet
  · cases hresume

theorem Slots.reply {input : WorkerInput} {call : DriverCall} {reply : Except Error Reply} (h : w.Slots config)
    (hcontrol : w.control = .waiting call) (hresume : w.resumeCall input call reply = some w') : w'.Slots config := by
  have hmove := resumeCall_move hresume
  have hnode := node_resumeCall hresume
  have hposed := hmove.posed (h.waiting call hcontrol)
  rcases hmove.quiet with hquiet | ⟨hasks, hledger, id, attempted, rest, peers, rfl, rfl⟩
  · rcases hmove.requests with ⟨hcalm, -⟩ | ⟨id, peer, rest, requestId, rfl, rfl, hledger⟩
    · exact h.of_calm hcalm hnode hposed hquiet
    · have hidle : w.ledger.Idle id := h.waiting _ hcontrol id rfl
      have hslots : w'.activeRetrievals = w.activeRetrievals + 1 :=
        (congrArg Ledger.slots hledger).trans (Ledger.slots_start hidle)
      have hfree : w.activeRetrievals < config.maxConcurrentRetrievals := by
        rcases h.asking with hquiet | ⟨-, hfree⟩
        · rw [hcontrol] at hquiet
          exact hquiet.elim
        · exact hfree
      refine ⟨(congrArg Prod.snd hnode).trans h.configured, hledger ▸ h.ledger.start hidle, ?_, .inl hquiet,
        fun command call hcall => (hposed.2 command call hcall).2, fun call hcall => absurd hcall (hposed.1 call)⟩
      rw [hslots]
      exact hfree
  · have hslots : w'.activeRetrievals = w.activeRetrievals := congrArg Ledger.slots hledger
    rcases free_of_resumeProviders hresume with hquiet | hfree
    · exact h.of_calm (calm_of_ledger hledger) hnode hposed hquiet
    · rw [h.configured] at hfree
      refine ⟨(congrArg Prod.snd hnode).trans h.configured, hledger ▸ h.ledger, hslots.trans_le h.bounded,
        .inr ⟨hasks, hslots.trans_lt hfree⟩,
        fun command call hcall => (hposed.2 command call hcall).2, fun call hcall => absurd hcall (hposed.1 call)⟩

theorem Slots.send {command : DriverCommand} {call : DriverCall} (h : w.Slots config)
    (hcontrol : w.control = .sending command call) : (w.goto (.waiting call)).Slots config where
  configured := h.configured
  ledger := h.ledger
  bounded := h.bounded
  asking := by
    have hasking := h.asking
    rw [hcontrol] at hasking
    cases call <;> exact hasking
  sending _ _ hcall := nomatch hcall
  waiting call' hcall := by
    cases hcall
    exact h.sending command call hcontrol

/-- The slots are as many as the entries with an active request. -/
theorem Slots.activeRetrievals_eq (h : w.Slots config) :
    w.activeRetrievals = w.retrievals.entries.countP fun e => e.2.active.isSome := by
  obtain ⟨ids, hids, hcard⟩ := h.ledger.counted
  refine hcard.symm.trans (AList.card_eq_countP fun id => ?_)
  rw [hids, Ledger.active, ledger_jobs, entry]
  cases w.retrievals.lookup id with
  | none => simp
  | some state => simp [RetrievalState.job]

theorem Slots.finished (h : w.Slots config) {state : RetrievalState} (hentry : w.entry id = some state)
    (hfinished : state.finished = true) : state.active.isSome = true := by
  refine h.ledger.stopped id state.job ?_ hfinished
  rw [ledger_jobs, hentry]
  rfl

/-- `checked_sub` finds a slot. -/
theorem Slots.finishRequest (h : w.Slots config) (requestId : ProofRequestId) (peer : PeerId) (succeeded : Bool)
    (now : Instant) (message : String) : w.finishRequest id requestId peer succeeded now ≠ .error message := by
  intro hresult
  rcases finishRequest_cases hresult with ⟨hok, -⟩ | ⟨_, -, hactive, hslots⟩ | ⟨-, _, hok, -⟩
  · cases hok
  · have hpos := h.ledger.counted.slots_pos (k := id) (by rw [hactive]; rfl)
    omega
  · cases hok

theorem Slots.not_panicked (h : w.Slots config) (message : String) : w.control ≠ .panicked message := by
  intro hcontrol
  rcases h.asking with hquiet | ⟨hasks, -⟩
  · rw [hcontrol] at hquiet
    exact hquiet
  · rw [hcontrol] at hasks
    exact hasks

end Worker

namespace WorkerTask

variable {s t : WorkerTask} {config : P2pConfig}

theorem slots_select {event : WorkerEvent} (h : s.worker.Slots config) (hidle : s.worker.control = .idle)
    (hselect : s.select event = some t) : t.worker.Slots config := by
  have hposed : s.worker.Posed := Worker.posed_of_idle hidle
  have hquiet : s.worker.control.Quiet := by
    rw [hidle]
    trivial
  unfold select at hselect
  split at hselect
  · split_ifs at hselect
    cases hselect
    exact h.of_calm (.refl _) rfl hposed hquiet
  · cases hselect
    exact h.driverEvent _ _ _
  · rename_i event
    split_ifs at hselect
    · cases hselect
      exact h.of_calm (.refl _) rfl (Worker.posed_of_idle rfl) trivial
    · cases hselect
      -- only the history changes before the event is handled
      have hobserved : (s.worker.recordObserved event).Slots config := by
        unfold Worker.recordObserved
        split
        · exact h.of_calm (.refl _) rfl hposed hquiet
        · exact h
      exact hobserved.of_calm Worker.calm_handleStoreEvent (Worker.node_of_frame Worker.frame_handleStoreEvent)
        Worker.posed_handleStoreEvent Worker.quiet_handleStoreEvent
  · split_ifs at hselect
    · cases hselect
      exact h
    · cases hselect
      exact h.of_calm (.refl _) rfl Worker.posed_goto_store trivial
  · cases hselect
    exact h.of_calm (.refl _) rfl Worker.posed_goto_returned trivial
  · split at hselect
    · cases hselect
    · split_ifs at hselect
      cases hselect
      exact h.of_calm Worker.calm_handleWake Worker.node_handleWake Worker.driven_handleWake.posed
        Worker.driven_handleWake.quiet
  · split_ifs at hselect
    cases hselect
    exact h.of_calm (.refl _) rfl Worker.posed_goto_returned trivial

theorem slots_next {a : WorkerAction} (h : s.worker.Slots config) (hnext : s.next a = some t) :
    t.worker.Slots config := by
  unfold next at hnext
  split at hnext
  · split at hnext
    · rename_i hidle
      exact slots_select h hidle hnext
    · cases hnext
  · split at hnext
    · rename_i hcontrol
      cases hnext
      exact h.send hcontrol
    · cases hnext
  · split at hnext
    · rename_i hcontrol
      obtain ⟨worker, hresume, rfl⟩ := Option.map_eq_some_iff.1 hnext
      exact h.reply hcontrol hresume
    · cases hnext
  · split at hnext
    · obtain ⟨worker, hresume, rfl⟩ := Option.map_eq_some_iff.1 hnext
      exact h.store hresume
    · cases hnext

theorem node_next {a : WorkerAction} (hnext : s.next a = some t) : t.worker.node = s.worker.node := by
  have hselect : ∀ {event}, s.select event = some t → t.worker.node = s.worker.node := by
    intro event h
    unfold select at h
    split at h
    · split_ifs at h
      cases h
      rfl
    · cases h
      exact Worker.node_of_frame Worker.frame_handleDriverEvent
    · rename_i event
      split_ifs at h
      · cases h
        rfl
      · cases h
        refine (Worker.node_of_frame Worker.frame_handleStoreEvent).trans ?_
        unfold Worker.recordObserved
        split <;> rfl
    · split_ifs at h <;> cases h <;> rfl
    · cases h
      rfl
    · split at h
      · cases h
      · split_ifs at h
        cases h
        exact Worker.node_handleWake
    · split_ifs at h
      cases h
      rfl
  unfold next at hnext
  split at hnext
  · split at hnext
    · exact hselect hnext
    · cases hnext
  · split at hnext
    · cases hnext
      rfl
    · cases hnext
  · split at hnext
    · obtain ⟨worker, hresume, rfl⟩ := Option.map_eq_some_iff.1 hnext
      exact Worker.node_resumeCall hresume
    · cases hnext
  · split at hnext
    · obtain ⟨worker, hresume, rfl⟩ := Option.map_eq_some_iff.1 hnext
      exact Worker.node_of_frame (Worker.frame_resumeStore hresume)
    · cases hnext

theorem reachable_slots {localPeerId : PeerId} (h : (lts localPeerId config).Reachable s) : s.worker.Slots config := by
  refine h.invariant (P := fun s => s.worker.Slots config) ?_ ?_
  · rintro s rfl
    exact Worker.slots_new localPeerId config
  · intro s a t _ hs hnext
    exact slots_next hs hnext

/-! ### Parts of runs -/

/-- The worker calls the driver and gets `reply`; a retry is delayed by `delay`. -/
def calls (delay : Duration) (reply : Reply) : List WorkerAction := [.send, .reply ⟨0, delay, 0, 0⟩ (.ok reply)]

end WorkerTask

/-- A record of the chain, without content. -/
def StoreAnswer.waitingRecord : StoreAnswer := .record (some ⟨0, ⟨⟨some 0, none, none, none, none⟩, none⟩⟩)

end PulsarVerifier
