import PulsarVerifier.Lib.Ledger
import PulsarVerifier.P2p.Worker

/-!
# The bookkeeping of the worker

The retrievals of the worker are a ledger of jobs: `Worker.ledger` forgets deadlines, attempts, queries, timers and the
queue.  Every function of the worker acts on the ledger as one of its operations, and ends at a known point of control;
the invariants of the service are proved from these lemmas.
-/

namespace PulsarVerifier

def RetrievalState.job (state : RetrievalState) : Job (ProofRequestId × PeerId) := ⟨state.active, state.finished⟩

def DriverCall.Sends : DriverCall → DriverCommand → Prop
  | .respondProof, .respondProof _ _ => True
  | .announceStored, .announce _ => True
  | .announceLocal _, .announce _ => True
  | .forgetLocalProof, .forgetLocalProof _ => True
  | .replaceLocalProofs ids, .replaceLocalProofs ids' => ids' = ids
  | .providers id _ _, .providers id' => id' = id
  | .requestProof id peer _, .requestProof peer' id' => id' = id ∧ peer' = peer
  | .queryAvailability id _, .queryAvailability id' => id' = id
  | _, _ => False

/-- The errors that the caller handles itself. -/
def DriverCall.Absorbs : DriverCall → Error → Prop
  | .requestProof _ _ _, .p2pAuthorization _ => True
  | .requestProof _ _ _, .p2pDraining => True
  | .queryAvailability _ _, .p2pDraining => True
  | _, _ => False

/-- The identifier whose retrieval a call is part of. -/
def DriverCall.retrieval : DriverCall → Option VerificationId
  | .providers id _ _ | .requestProof id _ _ | .queryAvailability id _ => some id
  | _ => none

namespace Worker

variable {w : Worker} {id : VerificationId}

/-- The retrievals as a ledger. -/
def ledger (w : Worker) : Ledger VerificationId (ProofRequestId × PeerId) where
  jobs id := (w.entry id).map RetrievalState.job
  slots := w.activeRetrievals
  expired := w.expired

/-! ### Functions without a wait -/

theorem entry_setEntry {state : RetrievalState} {id' : VerificationId} :
    (w.setEntry id state).entry id' = if id' = id then some state else w.entry id' := by
  unfold entry setEntry
  by_cases h : id' = id
  · rw [if_pos h, h, AList.lookup_insert]
  · rw [if_neg h, AList.lookup_insert_ne h]

theorem ledger_jobs : w.ledger.jobs id = (w.entry id).map RetrievalState.job := rfl

@[simp] theorem ledger_goto {control : Control} : (w.goto control).ledger = w.ledger := rfl

@[simp] theorem ledger_call {command : DriverCommand} {call : DriverCall} :
    (w.call command call).ledger = w.ledger := rfl

@[simp] theorem ledger_fail {error : Error} : (w.fail error).ledger = w.ledger := rfl

@[simp] theorem ledger_wakes {wakes : List RetrievalWake} : { w with wakes }.ledger = w.ledger := rfl

@[simp] theorem ledger_pending {pending : List VerificationId} : { w with pending }.ledger = w.ledger := rfl

theorem ledger_setEntry {state : RetrievalState} :
    (w.setEntry id state).ledger = w.ledger.set id (some state.job) := by
  ext id' : 1
  · rw [Ledger.jobs_set, ledger_jobs, entry_setEntry]
    by_cases h : id' = id
    · rw [if_pos h, if_pos h]
      rfl
    · rw [if_neg h, if_neg h]
      rfl
  · rfl
  · rfl

theorem ledger_removeEntry : (w.removeEntry id).ledger = w.ledger.set id none := by
  ext id' : 1
  · rw [Ledger.jobs_set, ledger_jobs, entry, removeEntry, AList.lookup_erase_eq_ite]
    split
    · rfl
    · rfl
  · rfl
  · rfl

theorem ledger_setEntry_same {state state' : RetrievalState} (h : w.entry id = some state)
    (hjob : state'.job = state.job) : (w.setEntry id state').ledger = w.ledger := by
  rw [ledger_setEntry]
  apply Ledger.set_self
  rw [ledger_jobs, h, hjob]
  rfl

@[simp] theorem ledger_enqueue : (w.enqueue id).ledger = w.ledger := by
  unfold enqueue
  split
  · rfl
  · rename_i state h
    split_ifs
    · rfl
    · exact ledger_setEntry_same h rfl

@[simp] theorem ledger_clearQuery : (w.clearQuery id).ledger = w.ledger := by
  unfold clearQuery
  split
  · rfl
  · rename_i state h
    exact ledger_setEntry_same h rfl

@[simp] theorem ledger_addAttempted {peer : PeerId} : (w.addAttempted id peer).ledger = w.ledger := by
  unfold addAttempted
  split
  · rfl
  · rename_i state h
    exact ledger_setEntry_same h rfl

@[simp] theorem ledger_startQuery {queryId : QueryId} {now : Instant} :
    (w.startQuery id queryId now).ledger = w.ledger := by
  unfold startQuery
  split
  · rfl
  · rename_i state h
    exact ledger_setEntry_same h rfl

@[simp] theorem ledger_stopRetrieval : (w.stopRetrieval id).ledger = w.ledger.stop id := by
  unfold stopRetrieval Ledger.stop
  split
  · rename_i h
    rw [ledger_jobs, h]
    exact (Ledger.set_self (by rw [ledger_jobs, h]; rfl)).symm
  · rename_i state h
    rw [ledger_jobs, h]
    split_ifs with hactive
    · have hstopped : state.job.stopped = none := by
        simp [RetrievalState.job, Option.isNone_iff_eq_none.1 hactive, Job.stopped]
      rw [ledger_removeEntry, Option.map_some, Option.bind_some, hstopped]
    · obtain ⟨request, hrequest⟩ := Option.ne_none_iff_exists.1 (mt Option.isNone_iff_eq_none.2 hactive)
      rw [ledger_setEntry, Option.map_some, Option.bind_some]
      simp [RetrievalState.job, ← hrequest, Job.stopped]

@[simp] theorem ledger_stopExpired : (w.stopExpired id).ledger = (w.ledger.expire id).stop id :=
  ledger_stopRetrieval

theorem ledger_startRequest {requestId : ProofRequestId} {peer : PeerId} {now : Instant} :
    (w.startRequest id requestId peer now).ledger = w.ledger.start id (requestId, peer) := by
  unfold startRequest Ledger.start
  rw [ledger_jobs]
  split
  · rename_i h
    rw [h]
    rfl
  · rename_i state h
    rw [h]
    ext id' : 1
    · exact congrArg (·.jobs id') ledger_setEntry
    · rfl
    · rfl

/-- The retry after a query always finds a deadline: `startQuery` has set one. -/
theorem scheduleRetry_startQuery {queryId : QueryId} {now later : Instant} {delay : Duration}
    {result : Except String Worker} (h : (w.startQuery id queryId now).scheduleRetry id delay later = some result) :
    ∃ w', result = .ok w' ∧ w'.ledger = w.ledger := by
  unfold scheduleRetry at h
  split at h
  · cases h
    exact ⟨_, rfl, ledger_startQuery⟩
  · rename_i state hentry
    have hdeadline : (activeDeadline state).isSome := by
      unfold startQuery at hentry
      split at hentry
      · rename_i hnone
        rw [hnone] at hentry
        cases hentry
      · rw [entry_setEntry, if_pos rfl] at hentry
        cases hentry
        rename_i state _
        simp only [activeDeadline]
        cases state.transferDeadline <;> rfl
    split at h
    · rename_i hnone
      rw [hnone] at hdeadline
      cases hdeadline
    · dsimp only at h
      split_ifs at h
      cases h
      refine ⟨_, rfl, ledger_wakes.trans ?_⟩
      rw [ledger_setEntry_same hentry]
      · exact ledger_startQuery
      · rfl

/-- What `finish_request` does: nothing for a request that is not the one in flight; otherwise the retrieval is over,
out of time, or waits for its next request. -/
theorem finishRequest_cases {requestId : ProofRequestId} {peer : PeerId} {succeeded : Bool} {now : Instant}
    {result : Except String Worker} (h : w.finishRequest id requestId peer succeeded now = result) :
    (result = .ok w ∧ w.ledger.active id ≠ some (requestId, peer)) ∨
    (∃ message, result = .error message ∧ w.ledger.active id = some (requestId, peer) ∧ w.ledger.slots = 0) ∨
    (w.ledger.active id = some (requestId, peer) ∧ ∃ w', result = .ok w' ∧
      ((w'.ledger = w.ledger.finish id none ∧ (succeeded = true ∨ ¬ w.ledger.Live id)) ∨
        w'.ledger = (w.ledger.finish id none).expire id ∨
        (w'.ledger = w.ledger.finish id (some ⟨none, false⟩) ∧ succeeded = false))) := by
  unfold finishRequest at h
  split at h
  · rename_i hentry
    refine .inl ⟨h.symm, ?_⟩
    simp [Ledger.active, ledger_jobs, hentry]
  · rename_i state hentry
    have hactive : w.ledger.active id = state.active := by
      simp [Ledger.active, ledger_jobs, hentry, RetrievalState.job]
    rw [hactive]
    split_ifs at h with hrequest hslots hover hpassed
    · exact .inl ⟨h.symm, hrequest⟩
    · exact .inr (.inl ⟨_, h.symm, not_not.1 hrequest, hslots⟩)
    · refine .inr (.inr ⟨not_not.1 hrequest, _, h.symm, .inl ⟨?_, ?_⟩⟩)
      · rw [ledger_removeEntry]
        rfl
      · rcases Bool.or_eq_true_iff.1 hover with hsucceeded | hfinished
        · exact .inl hsucceeded
        · refine .inr (fun hlive => ?_)
          obtain ⟨job, hjob, hunfinished⟩ := hlive
          rw [ledger_jobs, hentry] at hjob
          cases hjob
          rw [RetrievalState.job, hfinished] at hunfinished
          cases hunfinished
    · refine .inr (.inr ⟨not_not.1 hrequest, _, h.symm, .inr (.inl ?_)⟩)
      rw [ledger_removeEntry]
      rfl
    · rw [Bool.or_eq_true, not_or, Bool.not_eq_true, Bool.not_eq_true] at hover
      refine .inr (.inr ⟨not_not.1 hrequest, _, h.symm, .inr (.inr ⟨?_, hover.1⟩)⟩)
      rw [ledger_enqueue, ledger_setEntry]
      simp only [RetrievalState.job, hover.2]
      rfl

/-! ### `drive_pending`, `ensure_retrieval` and `reconcile_store` -/

/-- Where `drive_pending` leaves the worker: at the end of its handler, at the next identifier of a reconciliation, or
in a retrieval that is live and has no request. -/
def Driven (rest : List VerificationId) (w : Worker) : Prop :=
  (w.control = .idle ∧ rest = []) ∨ (∃ id rest', rest = id :: rest' ∧ w.control = .store (.get id rest')) ∨
    ∃ id attempted, w.control = .sending (.providers id) (.providers id attempted rest) ∧ w.ledger.Idle id

variable {rest : List VerificationId}

@[simp] theorem ledger_ensureNext : (w.ensureNext rest).ledger = w.ledger := by
  cases rest <;> rfl

theorem driven_ensureNext : (w.ensureNext rest).Driven rest := by
  cases rest with
  | nil => exact .inl ⟨rfl, rfl⟩
  | cons id rest => exact .inr (.inl ⟨id, rest, rfl, rfl⟩)

/-- The loop of `drive_pending` changes flags of the queue only. -/
theorem drivePendingFrom_spec (pending : List VerificationId) (w : Worker) :
    (drivePendingFrom rest pending w).ledger = w.ledger ∧ (drivePendingFrom rest pending w).Driven rest := by
  induction pending generalizing w with
  | nil => exact ⟨ledger_ensureNext, driven_ensureNext⟩
  | cons id pending ih =>
    rw [drivePendingFrom]
    split
    · split
      · exact ih w
      · rename_i state hentry
        have hledger : (w.setEntry id { state with queued := false }).ledger = w.ledger :=
          ledger_setEntry_same hentry rfl
        split_ifs with hbusy
        · -- the retrieval was stopped or has a request: the loop goes on
          exact ⟨(ih _).1.trans hledger, (ih _).2⟩
        · refine ⟨hledger, .inr (.inr ⟨id, _, rfl, ?_⟩)⟩
          rw [Bool.or_eq_true, not_or, Bool.not_eq_true, Bool.not_eq_true] at hbusy
          have hnone : state.active = none := by simpa using hbusy.2
          change (w.setEntry id { state with queued := false }).ledger.Idle id
          rw [hledger, Ledger.Idle, ledger_jobs, hentry]
          simp [RetrievalState.job, hbusy.1, hnone]
    · exact ⟨ledger_ensureNext, driven_ensureNext⟩

@[simp] theorem ledger_drivePending : (w.drivePending rest).ledger = w.ledger := (drivePendingFrom_spec w.pending w).1

theorem driven_drivePending : (w.drivePending rest).Driven rest := (drivePendingFrom_spec w.pending w).2

theorem Driven.on {P : Control → Prop} (h : w.Driven rest) (hidle : P .idle)
    (hget : ∀ id rest, P (.store (.get id rest)))
    (hproviders : ∀ id attempted rest, P (.sending (.providers id) (.providers id attempted rest))) : P w.control := by
  rcases h with ⟨hcontrol, -⟩ | ⟨id, rest', -, hcontrol⟩ | ⟨id, attempted, hcontrol, -⟩
  · exact hcontrol ▸ hidle
  · exact hcontrol ▸ hget id rest'
  · exact hcontrol ▸ hproviders id attempted rest

theorem driven_resumeGet {record : Option (Arc ProofRecord)} : (w.resumeGet id rest record).Driven rest := by
  unfold resumeGet
  split
  · exact driven_drivePending
  · exact driven_ensureNext

theorem ledger_resumeGet {record : Option (Arc ProofRecord)} :
    (w.resumeGet id rest record).ledger =
      if record.any fun e => ProofStore.waitingForContent e.value then w.ledger.ensure id else w.ledger.stop id := by
  unfold resumeGet
  split
  · dsimp only
    rw [ledger_drivePending, ledger_enqueue]
    unfold Ledger.ensure
    cases hentry : w.entry id with
    | some state =>
      simp only [Option.isSome_some, if_true]
      exact (Ledger.set_self (by rw [ledger_jobs, hentry]; rfl)).symm
    | none =>
      simp only [Option.isSome_none, Bool.false_eq_true, if_false]
      rw [ledger_setEntry, ledger_jobs, hentry]
      rfl
  · rw [ledger_ensureNext, ledger_stopRetrieval]

@[simp] theorem ledger_announceNext {ids : List VerificationId} : (w.announceNext ids).ledger = w.ledger := by
  cases ids <;> rfl

private theorem ledger_foldl_stopRetrieval {ids : List VerificationId} :
    (ids.foldl stopRetrieval w).ledger = ids.foldl Ledger.stop w.ledger := by
  induction ids generalizing w with
  | nil => rfl
  | cons id ids ih => rw [List.foldl_cons, List.foldl_cons, ih, ledger_stopRetrieval]

theorem ledger_resumeWaiting {waiting : List VerificationId} :
    (w.resumeWaiting waiting).ledger = w.ledger.stopOthers waiting := by
  rw [resumeWaiting, ledger_ensureNext, ledger_foldl_stopRetrieval]
  ext id : 1
  · rw [Ledger.jobs_foldl_stop]
    simp only [Ledger.stopOthers, List.mem_filter, decide_eq_true_eq]
    by_cases hwaiting : id ∈ waiting
    · simp [hwaiting]
    · by_cases hkey : id ∈ w.retrievals.keys
      · simp [hwaiting, hkey]
      · have hnone : w.ledger.jobs id = none := by
          rw [ledger_jobs, entry, AList.lookup_eq_none.2 (fun h => hkey (AList.mem_keys.1 h))]
          rfl
        simp [hkey, hnone]
  · exact Ledger.slots_foldl_stop
  · exact Ledger.expired_foldl_stop

theorem driven_resumeWaiting {waiting : List VerificationId} : (w.resumeWaiting waiting).Driven waiting :=
  driven_ensureNext

/-! ### Replies -/

/-- What the worker does with a reply. -/
inductive ReplyMove (w : Worker) : DriverCall → Except Error Reply → Worker → Prop
  | responded : ReplyMove w .respondProof (.ok .unit) (w.goto .idle)
  | stored (call : DriverCall) (w' : Worker) (hcall : call = .announceStored ∨ call = .forgetLocalProof)
      (hledger : w'.ledger = w.ledger) (hdriven : w'.Driven []) : ReplyMove w call (.ok .unit) w'
  | announce (call : DriverCall) (ids : List VerificationId)
      (hcall : call = .replaceLocalProofs ids ∨ call = .announceLocal ids) :
    ReplyMove w call (.ok .unit) (w.announceNext ids)
  | retrieved (call : DriverCall) (reply : Reply) (w' : Worker) (rest : List VerificationId)
      (hcall : (∃ id attempted, call = .providers id attempted rest) ∨ ∃ id, call = .queryAvailability id rest)
      (hledger : w'.ledger = w.ledger) (hdriven : w'.Driven rest) : ReplyMove w call (.ok reply) w'
  | outOfTime (id : VerificationId) (attempted : Finset PeerId) (rest : List VerificationId) (reply : Reply)
      (w' : Worker) (hledger : w'.ledger = (w.ledger.expire id).stop id) (hdriven : w'.Driven rest) :
    ReplyMove w (.providers id attempted rest) (.ok reply) w'
  | query (id : VerificationId) (attempted : Finset PeerId) (rest : List VerificationId) (reply : Reply) :
    ReplyMove w (.providers id attempted rest) (.ok reply)
      (w.call (.queryAvailability id) (.queryAvailability id rest))
  | request (id : VerificationId) (attempted : Finset PeerId) (rest : List VerificationId) (peers : List PeerId)
      (peer : PeerId) (hpeer : peer ∈ peers) :
    ReplyMove w (.providers id attempted rest) (.ok (.providers peers))
      (w.call (.requestProof peer id) (.requestProof id peer rest))
  | requested (id : VerificationId) (peer : PeerId) (rest : List VerificationId) (requestId : ProofRequestId)
      (w' : Worker) (hledger : w'.ledger = w.ledger.start id (requestId, peer)) (hdriven : w'.Driven rest) :
    ReplyMove w (.requestProof id peer rest) (.ok (.requestId requestId)) w'
  | unauthorized (id : VerificationId) (peer : PeerId) (rest : List VerificationId) (message : String)
      (attempted : Finset PeerId) (w' : Worker) (hledger : w'.ledger = w.ledger)
      (hcontrol : w'.control = .sending (.providers id) (.providers id attempted rest)) :
    ReplyMove w (.requestProof id peer rest) (.error (.p2pAuthorization message)) w'
  | draining (call : DriverCall) (id : VerificationId) (rest : List VerificationId) (w' : Worker)
      (hcall : (∃ peer, call = .requestProof id peer rest) ∨ call = .queryAvailability id rest)
      (hledger : w'.ledger = w.ledger.stop id) (hdriven : w'.Driven rest) :
    ReplyMove w call (.error .p2pDraining) w'
  | failed (call : DriverCall) (error : Error) (hfailed : ¬ call.Absorbs error) :
    ReplyMove w call (.error error) (w.fail error)

private theorem resumeProviders_move {attempted : Finset PeerId} {providers : List PeerId} {input : WorkerInput}
    {w' : Worker} (h : w.resumeProviders id attempted rest providers input = some w') :
    ReplyMove w (.providers id attempted rest) (.ok (.providers providers)) w' := by
  have hcall : (∃ id' attempted', DriverCall.providers id attempted rest = .providers id' attempted' rest) ∨
      ∃ id', DriverCall.providers id attempted rest = .queryAvailability id' rest := .inl ⟨id, attempted, rfl⟩
  unfold resumeProviders at h
  split at h
  · split_ifs at h
    · cases h
      exact .retrieved _ _ _ rest hcall ledger_drivePending driven_drivePending
    · cases h
      refine .outOfTime id attempted rest _ _ ?_ driven_drivePending
      rw [ledger_drivePending, ledger_stopExpired]
    · cases h
      exact .query id attempted rest _
  · split at h
    · cases h
    · rename_i peer hpeer
      have hmem : peer ∈ providers := List.mem_of_mem_filter (List.mem_of_getElem? hpeer)
      split_ifs at h
      · cases h
        refine .outOfTime id attempted rest _ _ ?_ driven_drivePending
        rw [ledger_drivePending, ledger_stopExpired]
      · cases h
        refine .retrieved _ _ _ rest hcall ?_ driven_drivePending
        rw [ledger_drivePending, ledger_enqueue]
      · cases h
        exact .request id attempted rest providers peer hmem

private theorem resumeRequestProof_move {peer : PeerId} {input : WorkerInput} (reply : Except Error ProofRequestId) :
    ReplyMove w (.requestProof id peer rest) (reply.map .requestId)
      (w.resumeRequestProof id peer rest reply input) := by
  unfold resumeRequestProof
  split
  · rename_i requestId
    refine .requested id peer rest requestId _ ?_ driven_drivePending
    rw [ledger_drivePending, ledger_startRequest]
  · rename_i message
    exact .unauthorized id peer rest message _ _ ledger_addAttempted rfl
  · refine .draining _ id rest _ (.inl ⟨peer, rfl⟩) ?_ driven_drivePending
    rw [ledger_drivePending, ledger_stopRetrieval]
  · rename_i error hauthorized hdraining
    refine .failed _ error (fun habsorbs => ?_)
    unfold DriverCall.Absorbs at habsorbs
    split at habsorbs <;> simp_all

private theorem resumeQueryAvailability_move {reply : Except Error QueryId} {input : WorkerInput} {w' : Worker}
    (h : w.resumeQueryAvailability id rest reply input = some w') :
    ReplyMove w (.queryAvailability id rest) (reply.map .queryId) w' := by
  unfold resumeQueryAvailability at h
  split at h
  · split at h
    · cases h
    · -- a query has just set the deadline that `schedule_retry` expects
      rename_i message hretry
      obtain ⟨retried, hok, -⟩ := scheduleRetry_startQuery hretry
      cases hok
    · rename_i hretry
      cases h
      obtain ⟨retried, hok, hledger⟩ := scheduleRetry_startQuery hretry
      cases hok
      refine .retrieved _ _ _ rest (.inr ⟨id, rfl⟩) ?_ driven_drivePending
      rw [ledger_drivePending, hledger]
  · cases h
    refine .draining _ id rest _ (.inr rfl) ?_ driven_drivePending
    rw [ledger_drivePending, ledger_stopRetrieval]
  · rename_i error hdraining
    cases h
    refine .failed _ error (fun habsorbs => ?_)
    unfold DriverCall.Absorbs at habsorbs
    split at habsorbs <;> simp_all

theorem resumeCall_move {input : WorkerInput} {call : DriverCall} {reply : Except Error Reply} {w' : Worker}
    (h : w.resumeCall input call reply = some w') : ReplyMove w call reply w' := by
  unfold resumeCall at h
  split at h
  · cases h
    exact .responded
  · cases h
    exact .stored _ _ (.inl rfl) ledger_drivePending driven_drivePending
  · cases h
    exact .stored _ _ (.inr rfl) ledger_drivePending driven_drivePending
  · cases h
    exact .announce _ _ (.inl rfl)
  · cases h
    exact .announce _ _ (.inr rfl)
  · exact resumeProviders_move h
  · rename_i requestId
    cases h
    exact resumeRequestProof_move (.ok requestId)
  · rename_i error
    cases h
    exact resumeRequestProof_move (.error error)
  · exact resumeQueryAvailability_move h
  · exact resumeQueryAvailability_move h
  · rename_i hrequest hquery
    cases h
    refine .failed _ _ (fun habsorbs => ?_)
    unfold DriverCall.Absorbs at habsorbs
    split at habsorbs <;> simp_all
  · cases h

theorem ReplyMove.on {P : Control → Prop} {call : DriverCall} {reply : Except Error Reply} {w' : Worker}
    (h : w.ReplyMove call reply w') (hdriven : ∀ {w : Worker} {rest}, w.Driven rest → P w.control) (hidle : P .idle)
    (hproviders : ∀ id attempted rest, P (.sending (.providers id) (.providers id attempted rest)))
    (hsnapshot : P (.store .recordsWaitingForContent))
    (hannounce : ∀ id ids, call = .replaceLocalProofs (id :: ids) ∨ call = .announceLocal (id :: ids) →
      P (.sending (.announce id) (.announceLocal ids)))
    (hquery : ∀ id rest, P (.sending (.queryAvailability id) (.queryAvailability id rest)))
    (hrequest : ∀ id attempted rest peers peer, call = .providers id attempted rest → reply = .ok (.providers peers) →
      peer ∈ peers → w'.ledger = w.ledger → P (.sending (.requestProof peer id) (.requestProof id peer rest)))
    (hfailed : ∀ error, reply = .error error → ¬ call.Absorbs error → w' = w.fail error →
      P (.returned (.error error))) : P w'.control := by
  cases h with
  | responded => exact hidle
  | announce call ids hcall =>
    cases ids with
    | nil => exact hsnapshot
    | cons id ids => exact hannounce id ids hcall
  | query id attempted rest reply => exact hquery id rest
  | request id attempted rest peers peer hpeer => exact hrequest id attempted rest peers peer rfl rfl hpeer rfl
  | failed call error habsorbs => exact hfailed error rfl habsorbs rfl
  | unauthorized id _ rest _ attempted _ _ hcontrol => exact hcontrol ▸ hproviders id attempted rest
  | stored _ _ _ _ h | retrieved _ _ _ _ _ _ h | outOfTime _ _ _ _ _ _ h | requested _ _ _ _ _ _ h
  | draining _ _ _ _ _ _ h => exact hdriven h

theorem ReplyMove.ledger {call : DriverCall} {reply : Except Error Reply} {w' : Worker}
    (h : w.ReplyMove call reply w') :
    (∃ id peer rest requestId, call = .requestProof id peer rest ∧ reply = .ok (.requestId requestId) ∧
        w'.ledger = w.ledger.start id (requestId, peer)) ∨
      (∀ id peer rest, call = .requestProof id peer rest → ∀ requestId, reply ≠ .ok (.requestId requestId)) ∧
        (w'.ledger = w.ledger ∨ (∃ id, w'.ledger = (w.ledger.expire id).stop id) ∨
          reply = .error .p2pDraining ∧ ∃ id, w'.ledger = w.ledger.stop id) := by
  cases h with
  | requested id peer rest requestId _ hledger => exact .inl ⟨id, peer, rest, requestId, rfl, rfl, hledger⟩
  | responded => exact .inr ⟨nofun, .inl rfl⟩
  | announce _ _ hcall =>
    refine .inr ⟨fun id peer rest heq => ?_, .inl ledger_announceNext⟩
    rcases hcall with rfl | rfl <;> cases heq
  | query | request => exact .inr ⟨nofun, .inl rfl⟩
  | failed => exact .inr ⟨(fun _ _ _ _ _ hreply => nomatch hreply), .inl rfl⟩
  | unauthorized _ _ _ _ _ _ hledger => exact .inr ⟨(fun _ _ _ _ _ hreply => nomatch hreply), .inl hledger⟩
  | stored _ _ hcall hledger =>
    refine .inr ⟨fun id peer rest heq => ?_, .inl hledger⟩
    rcases hcall with rfl | rfl <;> cases heq
  | retrieved _ _ _ _ hcall hledger =>
    refine .inr ⟨fun id peer rest heq => ?_, .inl hledger⟩
    rcases hcall with ⟨_, _, rfl⟩ | ⟨_, rfl⟩ <;> cases heq
  | outOfTime id _ _ _ _ hledger => exact .inr ⟨nofun, .inr (.inl ⟨id, hledger⟩)⟩
  | draining _ id _ _ _ hledger =>
    exact .inr ⟨(fun _ _ _ _ _ hreply => nomatch hreply), .inr (.inr ⟨rfl, id, hledger⟩)⟩

/-! ### Handlers -/

theorem afterFinish_ok {draining : Bool} {w' : Worker} :
    (w.afterFinish draining (.ok w')).ledger = w'.ledger ∧ (w.afterFinish draining (.ok w')).Driven [] := by
  simp only [afterFinish]
  split
  · exact ⟨rfl, .inl ⟨rfl, rfl⟩⟩
  · exact ⟨ledger_drivePending, driven_drivePending⟩

/-- What becomes of a retrieval whose request is reported to be over. -/
inductive FinishMove (w : Worker) (id : VerificationId) (request : ProofRequestId × PeerId) (succeeded : Bool) :
    Worker → Prop
  | skipped (w' : Worker) (hactive : w.ledger.active id ≠ some request) (hledger : w'.ledger = w.ledger)
      (hdriven : w'.Driven []) : FinishMove w id request succeeded w'
  | stopped (w' : Worker) (hsucceeded : succeeded = true) (hactive : w.ledger.active id ≠ some request)
      (hledger : w'.ledger = w.ledger.stop id) (hdriven : w'.Driven []) : FinishMove w id request succeeded w'
  | ended (w' : Worker) (hactive : w.ledger.active id = some request) (hover : succeeded = true ∨ ¬ w.ledger.Live id)
      (hledger : w'.ledger = w.ledger.finish id none) (hdriven : w'.Driven []) : FinishMove w id request succeeded w'
  | outOfTime (w' : Worker) (hactive : w.ledger.active id = some request)
      (hledger : w'.ledger = (w.ledger.finish id none).expire id) (hdriven : w'.Driven []) :
    FinishMove w id request succeeded w'
  | kept (w' : Worker) (hactive : w.ledger.active id = some request)
      (hledger : w'.ledger = w.ledger.finish id (some ⟨none, false⟩)) (hdriven : w'.Driven []) :
    FinishMove w id request succeeded w'
  | panicked (message : String) (hactive : w.ledger.active id = some request) (hslots : w.ledger.slots = 0) :
    FinishMove w id request succeeded (w.goto (.panicked message))

theorem afterFinish_move {requestId : ProofRequestId} {peer : PeerId} {succeeded draining : Bool} {now : Instant} :
    FinishMove w id (requestId, peer) succeeded
      (w.afterFinish draining (w.finishRequest id requestId peer succeeded now)) := by
  generalize hresult : w.finishRequest id requestId peer succeeded now = result
  rcases finishRequest_cases hresult with ⟨rfl, hactive⟩ | ⟨message, rfl, hactive, hslots⟩ | ⟨hactive, w', rfl, hcases⟩
  · exact .skipped _ hactive afterFinish_ok.1 afterFinish_ok.2
  · exact .panicked message hactive hslots
  · rcases hcases with ⟨hledger, hover⟩ | hledger | ⟨hledger, -⟩
    · exact .ended _ hactive hover (afterFinish_ok.1.trans hledger) afterFinish_ok.2
    · exact .outOfTime _ hactive (afterFinish_ok.1.trans hledger) afterFinish_ok.2
    · exact .kept _ hactive (afterFinish_ok.1.trans hledger) afterFinish_ok.2

theorem FinishMove.landed {request : ProofRequestId × PeerId} {succeeded : Bool} {w' : Worker}
    (h : w.FinishMove id request succeeded w') :
    w'.Driven [] ∨ ∃ message, w' = w.goto (.panicked message) ∧ ¬ w.ledger.Counted := by
  cases h with
  | skipped _ _ _ hdriven | stopped _ _ _ _ hdriven | ended _ _ _ _ hdriven | outOfTime _ _ _ hdriven
  | kept _ _ _ hdriven => exact .inl hdriven
  | panicked message hactive hslots =>
    refine .inr ⟨message, rfl, fun hcounted => ?_⟩
    have hpos := hcounted.slots_pos (k := id) (by rw [hactive]; rfl)
    omega

theorem FinishMove.driven {request : ProofRequestId × PeerId} {succeeded : Bool} {w' : Worker}
    (h : w.FinishMove id request succeeded w') (hcounted : w.ledger.Counted) : w'.Driven [] :=
  h.landed.resolve_right fun ⟨_, _, hnot⟩ => hnot hcounted

/-- The end of the handler of a downloaded proof. -/
theorem resumeAttached_move (w : Worker) (requestId : ProofRequestId) (peer : PeerId) (id : VerificationId)
    (stored : Except Error StoreChange) (now : Instant) (draining : Bool) :
    (∃ succeeded, FinishMove w id (requestId, peer) succeeded
        (w.resumeAttached requestId peer id stored now draining) ∧
      (succeeded = true → (∃ change, stored = .ok change) ∨ ∃ id', stored = .error (.proofNotObserved id'))) ∨
    ∃ error, stored = .error error ∧ w.resumeAttached requestId peer id stored now draining = w.fail error ∧
      (∀ id', error ≠ .verificationIdMismatch id') ∧ (∀ id' n m, error ≠ .proofTooLarge id' n m) ∧
      ∀ id', error ≠ .proofNotObserved id' := by
  unfold resumeAttached
  split
  · rename_i change
    exact .inl ⟨true, afterFinish_move, fun _ => .inl ⟨change, rfl⟩⟩
  · exact .inl ⟨false, afterFinish_move, fun h => nomatch h⟩
  · exact .inl ⟨false, afterFinish_move, fun h => nomatch h⟩
  · rename_i id'
    refine .inl ⟨true, ?_, fun _ => .inr ⟨id', rfl⟩⟩
    generalize hresult : w.finishRequest id requestId peer true now = result
    rcases finishRequest_cases hresult with ⟨rfl, hactive⟩ | ⟨message, rfl, hactive, hslots⟩ |
      ⟨hactive, w', rfl, hcases⟩
    · refine .stopped _ rfl hactive ?_ afterFinish_ok.2
      exact afterFinish_ok.1.trans ledger_stopRetrieval
    · exact .panicked message hactive hslots
    · -- the retrieval is gone, and stopping it again changes nothing
      have hgone : w'.ledger.jobs id = none → (w'.stopRetrieval id).ledger = w'.ledger := by
        intro hnone
        rw [ledger_stopRetrieval, Ledger.stop, hnone]
        exact Ledger.set_self hnone
      rcases hcases with ⟨hledger, hover⟩ | hledger | ⟨-, hfalse⟩
      · refine .ended _ hactive hover ?_ afterFinish_ok.2
        refine afterFinish_ok.1.trans ((hgone ?_).trans hledger)
        simp [hledger, Ledger.finish]
      · refine .outOfTime _ hactive ?_ afterFinish_ok.2
        refine afterFinish_ok.1.trans ((hgone ?_).trans hledger)
        simp [hledger, Ledger.finish, Ledger.expire]
      · cases hfalse
  · rename_i error hmismatch hlarge hobserved
    exact .inr ⟨error, rfl, rfl, fun id' h => hmismatch id' (by rw [h]), fun id' n m h => hlarge id' n m (by rw [h]),
      fun id' h => hobserved id' (by rw [h])⟩

/-- What the worker does with a driver event. -/
inductive EventMove (w : Worker) (draining : Bool) : DriverEvent → Worker → Prop
  | requested (requestId : InboundProofRequestId) (peer : PeerId) (id : VerificationId) :
    EventMove w draining (.proofRequested requestId peer id) (w.goto (.store (.getProof requestId id)))
  | received (requestId : ProofRequestId) (peer : PeerId) (id : VerificationId) (proof : Proof) :
    EventMove w draining (.proofReceived requestId peer id proof)
      (w.goto (.store (.attachDownloadedProof requestId peer id proof)))
  | finished (event : DriverEvent) (requestId : ProofRequestId) (peer : PeerId) (id : VerificationId) (w' : Worker)
      (hevent : event.answered = some (requestId, peer, id)) (hrequested : event.requested = none)
      (hmove : FinishMove w id (requestId, peer) false w') : EventMove w draining event w'
  | announced (peer : PeerId) (id : VerificationId) (hdraining : draining = false) :
    EventMove w draining (.availabilityAnnounced peer id) (w.goto (.store (.get id [])))
  | reconcile (peer : PeerId) (hdraining : draining = false) :
    EventMove w draining (.peerConnected peer) (w.goto (.store .locallyAvailableProofs))
  | driven (event : DriverEvent) (w' : Worker) (hanswered : event.answered = none) (hrequested : event.requested = none)
      (hledger : w'.ledger = w.ledger) (hdriven : w'.Driven []) : EventMove w draining event w'

theorem handleDriverEvent_move (w : Worker) (now : Instant) (draining : Bool) (event : DriverEvent) :
    EventMove w draining event (w.handleDriverEvent now draining event) := by
  have hidle : (w.goto .idle).Driven [] := .inl ⟨rfl, rfl⟩
  cases event with
  | proofRequested requestId peer id => exact .requested requestId peer id
  | proofReceived requestId peer id proof => exact .received requestId peer id proof
  | proofNotFound requestId peer id | proofRequestFailed requestId peer id reason =>
    exact .finished _ requestId peer id _ rfl rfl afterFinish_move
  | availabilityAnnounced peer id =>
    simp only [handleDriverEvent]
    split
    · exact .driven _ _ rfl rfl rfl hidle
    · rename_i hnot
      rw [Bool.or_eq_true, not_or, Bool.not_eq_true] at hnot
      exact .announced peer id hnot.1
  | providersDiscovered queryId id providers =>
    simp only [handleDriverEvent]
    split_ifs
    · exact .driven _ _ rfl rfl rfl hidle
    · refine .driven _ _ rfl rfl ?_ driven_drivePending
      rw [ledger_drivePending, ledger_enqueue, ledger_clearQuery]
    · exact .driven _ _ rfl rfl rfl hidle
  | peerConnected peer =>
    simp only [handleDriverEvent]
    split
    · exact .driven _ _ rfl rfl rfl hidle
    · rename_i hnot
      exact .reconcile peer (by simpa using hnot)
  | listening address | peerDisconnected peer => exact .driven _ _ rfl rfl rfl hidle

theorem EventMove.on {P : Control → Prop} {draining : Bool} {event : DriverEvent} {w' : Worker}
    (h : w.EventMove draining event w') (hdriven : ∀ {w : Worker}, w.Driven [] → P w.control)
    (hpanicked : ¬ w.ledger.Counted → ∀ message, P (.panicked message))
    (hstore : ∀ access, (∀ requestId peer id stored, access ≠ .attached requestId peer id stored) →
      P (.store access)) : P w'.control := by
  cases h with
  | requested | received | announced | reconcile => exact hstore _ nofun
  | finished _ _ _ _ _ _ _ hmove =>
    rcases hmove.landed with h | ⟨message, rfl, hnot⟩
    · exact hdriven h
    · exact hpanicked hnot message
  | driven _ _ _ _ _ h => exact hdriven h

theorem resumeAttached_on {P : Control → Prop} {requestId : ProofRequestId} {peer : PeerId}
    {stored : Except Error StoreChange} {now : Instant} {draining : Bool}
    (hdriven : ∀ {w : Worker}, w.Driven [] → P w.control) (hpanicked : ∀ message, P (.panicked message))
    (hfailed : ∀ error, P (.returned (.error error))) :
    P (w.resumeAttached requestId peer id stored now draining).control := by
  rcases resumeAttached_move w requestId peer id stored now draining with ⟨succeeded, hmove, -⟩ | ⟨error, -, hfail, -⟩
  · rcases hmove.landed with h | ⟨message, heq, -⟩
    · exact hdriven h
    · exact heq ▸ hpanicked message
  · exact hfail ▸ hfailed error

/-- A wake is out of date, finds the retrieval out of time, or drives it on. -/
theorem handleWake_cases (wake : RetrievalWake) (now : Instant) :
    ((w.handleWake wake now).ledger = w.ledger ∧ (w.handleWake wake now).Driven []) ∨
      ((w.handleWake wake now).ledger = (w.ledger.expire wake.verificationId).stop wake.verificationId ∧
        (w.handleWake wake now).control = .idle) := by
  unfold handleWake
  split
  · exact .inl ⟨rfl, .inl ⟨rfl, rfl⟩⟩
  · rename_i state hentry
    have hledger : (w.setEntry wake.verificationId { state with query := none }).ledger = w.ledger :=
      ledger_setEntry_same hentry rfl
    dsimp only
    split_ifs
    · exact .inl ⟨rfl, .inl ⟨rfl, rfl⟩⟩
    · refine .inr ⟨?_, rfl⟩
      rw [ledger_goto, ledger_stopExpired, hledger]
    · refine .inl ⟨?_, driven_drivePending⟩
      rw [ledger_drivePending, ledger_enqueue, hledger]

theorem driven_handleWake {wake : RetrievalWake} {now : Instant} : (w.handleWake wake now).Driven [] := by
  rcases handleWake_cases (w := w) wake now with ⟨-, hdriven⟩ | ⟨-, hcontrol⟩
  · exact hdriven
  · exact .inl ⟨hcontrol, rfl⟩

/-! ### Requests -/

variable {w' : Worker}

theorem calm_of_ledger (h : w'.ledger = w.ledger) : w.ledger.Calm w'.ledger := by
  rw [h]
  exact .refl _

theorem calm_resumeGet {record : Option (Arc ProofRecord)} : w.ledger.Calm (w.resumeGet id rest record).ledger := by
  rw [ledger_resumeGet]
  split
  · exact Ledger.calm_ensure
  · exact Ledger.calm_stop

theorem calm_resumeWaiting {waiting : List VerificationId} : w.ledger.Calm (w.resumeWaiting waiting).ledger := by
  rw [ledger_resumeWaiting]
  exact Ledger.calm_stopOthers

theorem calm_handleStoreEvent {event : ProofStoreEvent} : w.ledger.Calm (w.handleStoreEvent false event).ledger := by
  have hstop : ∀ id, w.ledger.Calm (w.stopRetrieval id).ledger := by
    intro id
    rw [ledger_stopRetrieval]
    exact Ledger.calm_stop
  unfold handleStoreEvent
  rw [if_neg Bool.false_ne_true]
  cases event with
  | verificationObserved id => exact .refl _
  | proofStored id source | proofEvicted id cause => exact hstop id
  | verificationChanged id state =>
    rw [ledger_drivePending]
    exact hstop id

theorem calm_handleWake {wake : RetrievalWake} {now : Instant} : w.ledger.Calm (w.handleWake wake now).ledger := by
  rcases handleWake_cases (w := w) wake now with ⟨hledger, -⟩ | ⟨hledger, -⟩
  · exact calm_of_ledger hledger
  · rw [hledger]
    exact Ledger.calm_expire_stop

theorem ReplyMove.requests {call : DriverCall} {reply : Except Error Reply} (h : w.ReplyMove call reply w') :
    (w.ledger.Calm w'.ledger ∧ ∀ id peer rest, call = .requestProof id peer rest →
      ∀ requestId, reply ≠ .ok (.requestId requestId)) ∨
    ∃ id peer rest requestId, call = .requestProof id peer rest ∧
      reply = .ok (.requestId requestId) ∧ w'.ledger = w.ledger.start id (requestId, peer) := by
  rcases h.ledger with hstarted | ⟨hnot, hsame | ⟨id, hledger⟩ | ⟨-, id, hledger⟩⟩
  · exact .inr hstarted
  · exact .inl ⟨calm_of_ledger hsame, hnot⟩
  · exact .inl ⟨hledger ▸ Ledger.calm_expire_stop, hnot⟩
  · exact .inl ⟨hledger ▸ Ledger.calm_stop, hnot⟩

/-- The request of `id` is over, and its retrieval is gone or waits for the next one. -/
def Finishes (w w' : Worker) (id : VerificationId) (request : ProofRequestId × PeerId) : Prop :=
  w.ledger.active id = some request ∧ ∃ job : Option (Job (ProofRequestId × PeerId)),
    (job = none ∨ job = some ⟨none, false⟩) ∧ (w.ledger.finish id job).Calm w'.ledger

theorem FinishMove.requests {request : ProofRequestId × PeerId} {succeeded : Bool}
    (h : w.FinishMove id request succeeded w') : w.ledger.Calm w'.ledger ∨ w.Finishes w' id request := by
  cases h with
  | skipped _ _ hledger => exact .inl (calm_of_ledger hledger)
  | stopped _ _ _ hledger =>
    rw [hledger]
    exact .inl Ledger.calm_stop
  | panicked => exact .inl (.refl _)
  | ended _ hactive _ hledger =>
    refine .inr ⟨hactive, none, .inl rfl, ?_⟩
    rw [hledger]
    exact .refl _
  | outOfTime _ hactive hledger =>
    refine .inr ⟨hactive, none, .inl rfl, ?_⟩
    rw [hledger]
    exact .refl (w.ledger.finish id none)
  | kept _ hactive hledger =>
    refine .inr ⟨hactive, some ⟨none, false⟩, .inr rfl, ?_⟩
    rw [hledger]
    exact .refl _

/-! ### Calls -/

/-- The worker does not wait for a reply, and a call it is about to make is a proper one: the command is the one of
the call, and the retrieval it belongs to is live and has no request. -/
def Posed (w : Worker) : Prop :=
  (∀ call, w.control ≠ .waiting call) ∧
    ∀ command call, w.control = .sending command call →
      call.Sends command ∧ ∀ id ∈ call.retrieval, w.ledger.Idle id

theorem posed_of_idle (h : w.control = .idle) : w.Posed :=
  ⟨(fun _ hcall => nomatch h.symm.trans hcall), (fun _ _ hcall => nomatch h.symm.trans hcall)⟩

theorem posed_goto_store {access : StoreAccess} : (w.goto (.store access)).Posed :=
  ⟨(fun _ h => nomatch h), (fun _ _ h => nomatch h)⟩

theorem posed_goto_returned {result : Except Error Unit} : (w.goto (.returned result)).Posed :=
  ⟨(fun _ h => nomatch h), (fun _ _ h => nomatch h)⟩

theorem posed_call {command : DriverCommand} {call : DriverCall} (hsends : call.Sends command)
    (hidle : ∀ id ∈ call.retrieval, w.ledger.Idle id) : (w.call command call).Posed := by
  refine ⟨(fun _ h => nomatch h), fun _ _ h => ?_⟩
  cases h
  exact ⟨hsends, hidle⟩

theorem posed_of_providers {attempted : Finset PeerId}
    (hcontrol : w.control = .sending (.providers id) (.providers id attempted rest)) (hidle : w.ledger.Idle id) :
    w.Posed := by
  refine ⟨fun call hcall => ?_, fun command call hcall => ?_⟩
  · cases hcontrol.symm.trans hcall
  · cases hcontrol.symm.trans hcall
    exact ⟨rfl, fun id' hid => Option.some.inj hid ▸ hidle⟩

theorem Driven.posed (h : w.Driven rest) : w.Posed := by
  rcases h with ⟨hcontrol, -⟩ | ⟨id, rest', -, hcontrol⟩ | ⟨id, attempted, hcontrol, hidle⟩
  · exact posed_of_idle hcontrol
  · exact ⟨(fun _ h => nomatch hcontrol.symm.trans h), (fun _ _ h => nomatch hcontrol.symm.trans h)⟩
  · exact posed_of_providers hcontrol hidle

theorem ReplyMove.posed {call : DriverCall} {reply : Except Error Reply}
    (h : w.ReplyMove call reply w') (hidle : ∀ id ∈ call.retrieval, w.ledger.Idle id) : w'.Posed := by
  cases h with
  | responded => exact posed_of_idle rfl
  | stored _ _ _ _ hdriven => exact hdriven.posed
  | announce _ ids _ =>
    cases ids with
    | nil => exact posed_goto_store
    | cons id ids => exact posed_call trivial (fun _ hid => by cases hid)
  | retrieved _ _ _ _ _ _ hdriven | outOfTime _ _ _ _ _ _ hdriven => exact hdriven.posed
  | query id attempted rest reply => exact posed_call rfl hidle
  | request id attempted rest peers peer _ => exact posed_call ⟨rfl, rfl⟩ hidle
  | requested _ _ _ _ _ _ hdriven => exact hdriven.posed
  | unauthorized id peer rest message attempted _ hledger hcontrol =>
    exact posed_of_providers hcontrol (hledger ▸ hidle id rfl)
  | draining _ _ _ _ _ _ hdriven => exact hdriven.posed
  | failed => exact posed_goto_returned

theorem FinishMove.posed {request : ProofRequestId × PeerId} {succeeded : Bool}
    (h : w.FinishMove id request succeeded w') : w'.Posed := by
  rcases h.landed with hdriven | ⟨message, rfl, -⟩
  · exact hdriven.posed
  · exact ⟨(fun _ h => nomatch h), (fun _ _ h => nomatch h)⟩

theorem posed_resumeAttached {requestId : ProofRequestId} {peer : PeerId} {stored : Except Error StoreChange}
    {now : Instant} {draining : Bool} : (w.resumeAttached requestId peer id stored now draining).Posed := by
  rcases resumeAttached_move w requestId peer id stored now draining with ⟨succeeded, hmove, -⟩ | ⟨error, -, hfail, -⟩
  · exact hmove.posed
  · rw [hfail]
    exact posed_goto_returned

theorem EventMove.posed {draining : Bool} {event : DriverEvent} (h : w.EventMove draining event w') : w'.Posed := by
  cases h with
  | requested | received | announced | reconcile => exact posed_goto_store
  | finished _ _ _ _ _ _ _ hmove => exact hmove.posed
  | driven _ _ _ _ _ hdriven => exact hdriven.posed

theorem posed_handleStoreEvent {event : ProofStoreEvent} : (w.handleStoreEvent false event).Posed := by
  unfold handleStoreEvent
  rw [if_neg Bool.false_ne_true]
  cases event with
  | verificationObserved id => exact posed_goto_store
  | proofStored id source | proofEvicted id cause => exact posed_call trivial (fun _ hid => by cases hid)
  | verificationChanged id state => exact driven_drivePending.posed

end Worker

end PulsarVerifier
