import PulsarVerifier.P2p.Progress

/-!
# The course of a retrieval

What a retrieval has done so far is in its entry: the peers it has asked are those it has attempted, the one of its
active request, and the one that `request_proof` is being called for.  `Course` is the part of an entry that these facts
are about, and `CourseStep` says what a step of the worker does to the courses.  A run keeps a record of what the
retrievals do (`Seen`), and `life` is the part of the record that belongs to the present entry of an identifier.
-/

namespace PulsarVerifier

/-! ### The record -/

/-- What a retrieval is seen to do; the deadlines are those of its entry before the step. -/
inductive Seen
  /-- `request_proof` is called, after the check of the transfer deadline at `now` -/
  | asked (peer : PeerId) (now : Instant) (deadline : Option Instant)
  /-- the request has started -/
  | started (now : Instant)
  /-- `query_availability` is called, after the check of the active deadline at `now` -/
  | queried (now : Instant) (deadline : Option Instant)
  /-- a retry is scheduled, with the time that is left to the active deadline -/
  | retried (round : Nat) (delay left : Duration)
  /-- the entry is removed -/
  | removed
  deriving DecidableEq

/-- The life of an entry so far, and what is seen next. -/
def Seen.after (life : List Seen) : Seen → List Seen
  | .removed => []
  | seen => life ++ [seen]

/-- What the present entry of `id` has done; a removed entry leaves nothing. -/
def life (id : VerificationId) (record : List (VerificationId × Seen)) : List Seen :=
  record.foldl (fun life entry => if entry.1 = id then entry.2.after life else life) []

def askedPeers (life : List Seen) : List PeerId :=
  life.filterMap fun
    | .asked peer _ _ => some peer
    | _ => none

def startTimes (life : List Seen) : List Instant :=
  life.filterMap fun
    | .started now => some now
    | _ => none

theorem life_append_of_ne {id : VerificationId} {record seen : List (VerificationId × Seen)}
    (h : ∀ entry ∈ seen, entry.1 ≠ id) : life id (record ++ seen) = life id record := by
  unfold life
  rw [List.foldl_append]
  generalize record.foldl _ [] = before
  induction seen with
  | nil => rfl
  | cons entry seen ih =>
    rw [List.foldl_cons, if_neg (h entry List.mem_cons_self)]
    exact ih fun entry hentry => h entry (List.mem_cons_of_mem _ hentry)

theorem life_append_self {id : VerificationId} {record : List (VerificationId × Seen)} {seen : Seen} :
    life id (record ++ [(id, seen)]) = seen.after (life id record) := by
  unfold life
  rw [List.foldl_append, List.foldl_cons, if_pos rfl, List.foldl_nil]

theorem life_append {id id' : VerificationId} {record : List (VerificationId × Seen)} {seen : Seen}
    (h : seen ≠ .removed) : life id (record ++ [(id', seen)]) = life id record ++ if id' = id then [seen] else [] := by
  by_cases hid : id' = id
  · subst hid
    rw [life_append_self, if_pos rfl]
    cases seen with
    | removed => exact absurd rfl h
    | _ => rfl
  · rw [life_append_of_ne (by simpa using hid), if_neg hid, List.append_nil]

theorem askedPeers_append {life life' : List Seen} : askedPeers (life ++ life') = askedPeers life ++ askedPeers life' :=
  List.filterMap_append ..

theorem startTimes_append {life life' : List Seen} : startTimes (life ++ life') = startTimes life ++ startTimes life' :=
  List.filterMap_append ..

theorem life_append_removed {id : VerificationId} {record : List (VerificationId × Seen)} {ids : List VerificationId} :
    life id (record ++ ids.map (·, .removed)) = if id ∈ ids then [] else life id record := by
  induction ids generalizing record with
  | nil => simp
  | cons id' ids ih =>
    rw [List.map_cons, List.append_cons, ih]
    by_cases hid : id' = id
    · subst hid
      rw [life_append_self, if_pos List.mem_cons_self]
      exact ite_self _
    · rw [life_append_of_ne (by simpa using hid)]
      simp [Ne.symm hid]

/-! ### Courses -/

/-- The part of an entry that bounds its requests. -/
structure Course where
  transferDeadline : Option Instant
  attempted : Finset PeerId
  active : Option (ProofRequestId × PeerId)

def RetrievalState.course (state : RetrievalState) : Course := ⟨state.transferDeadline, state.attempted, state.active⟩

/-- The retrieval and the peer that `request_proof` is called for. -/
def Control.asked : Control → Option (VerificationId × PeerId)
  | .sending _ (.requestProof id peer _) | .waiting (.requestProof id peer _) => some (id, peer)
  | _ => none

/-- The retrieval that calls `query_availability` next. -/
def Control.queries : Control → Option VerificationId
  | .sending _ (.queryAvailability id _) => some id
  | _ => none

/-- The retrieval that `providers` is called for, and the peers it had attempted. -/
def Control.polled : Control → Option (VerificationId × Finset PeerId)
  | .sending _ (.providers id attempted _) | .waiting (.providers id attempted _) => some (id, attempted)
  | _ => none

/-- The peer that `request_proof` is called for, by this retrieval. -/
def Control.askedBy (control : Control) (id : VerificationId) : Option PeerId :=
  (control.asked.filter (·.1 = id)).map Prod.snd

/-- What the life of an entry and its course have to do with each other. -/
structure Lives (localPeerId : PeerId) (timeout : Duration) (life : List Seen) (course : Course) : Prop where
  once : (askedPeers life).Nodup
  others : localPeerId ∉ askedPeers life
  deadline : course.transferDeadline = (startTimes life).head?.map (· + timeout)

/-- The times and delays of what is seen are within their bounds. -/
def Seen.Within (config : P2pConfig) : Seen → Prop
  | .asked _ now deadline | .queried now deadline => ∀ d ∈ deadline, now < d
  | .retried round delay left =>
    delay ≤ Worker.retryCap config.retrievalInitialBackoff config.retrievalMaxBackoff round ∧ delay ≤ left
  | _ => True

namespace Worker

variable {w w' w'' : Worker} {id id' : VerificationId} {state state' : RetrievalState} {rest : List VerificationId}

def course (w : Worker) (id : VerificationId) : Option Course := (w.entry id).map RetrievalState.course

theorem course_setEntry :
    (w.setEntry id state).course id' = if id' = id then some state.course else w.course id' := by
  unfold course
  rw [entry_setEntry]
  split <;> rfl

theorem course_removeEntry : (w.removeEntry id).course id' = if id' = id then none else w.course id' := by
  unfold course
  rw [entry_removeEntry]
  split <;> rfl

theorem course_setEntry_same (h : w.entry id = some state) (hcourse : state'.course = state.course) :
    (w.setEntry id state').course id' = w.course id' := by
  rw [course_setEntry]
  split
  · rename_i hid
    rw [hid, course, h, hcourse]
    rfl
  · rfl

theorem course_of_unmarked
    (h : (w'.entry id).map RetrievalState.unmarked = (w.entry id).map RetrievalState.unmarked) :
    w'.course id = w.course id := by
  have hcourse : ∀ w : Worker, w.course id = ((w.entry id).map RetrievalState.unmarked).map RetrievalState.course := by
    intro w
    rw [Option.map_map]
    rfl
  rw [hcourse, h, ← hcourse]

@[simp] theorem course_enqueue : (w.enqueue id).course id' = w.course id' := course_of_unmarked unmarked_enqueue

@[simp] theorem course_drivePending : (w.drivePending rest).course id = w.course id :=
  course_of_unmarked unmarked_drivePending

@[simp] theorem course_ensureNext : (w.ensureNext rest).course id = w.course id := by
  cases rest <;> rfl

@[simp] theorem course_announceNext {ids : List VerificationId} : (w.announceNext ids).course id = w.course id := by
  cases ids <;> rfl

@[simp] theorem course_clearQuery : (w.clearQuery id).course id' = w.course id' := by
  unfold clearQuery
  split
  · rfl
  · rename_i state hentry
    exact course_setEntry_same hentry rfl

theorem course_startQuery {queryId : QueryId} {now : Instant} :
    (w.startQuery id queryId now).course id' = w.course id' := by
  unfold startQuery
  split
  · rfl
  · rename_i state hentry
    exact course_setEntry_same hentry rfl

theorem course_scheduleRetry {delay : Duration} {now : Instant} (h : w.scheduleRetry id delay now = some (.ok w')) :
    w'.course id' = w.course id' := by
  unfold scheduleRetry at h
  split at h
  · cases h
    rfl
  · rename_i state hentry
    split at h
    · cases h
    · dsimp only at h
      split_ifs at h
      cases h
      exact course_setEntry_same hentry rfl

theorem course_startRequest {requestId : ProofRequestId} {peer : PeerId} {now : Instant}
    (h : w.entry id = some state) :
    (w.startRequest id requestId peer now).course id' =
      if id' = id then some
        { state.course with
          transferDeadline := some (state.transferDeadline.getD (now + w.config.retrievalTimeout))
          active := some (requestId, peer) }
      else w.course id' := by
  rw [startRequest, h]
  exact course_setEntry

theorem course_addAttempted {peer : PeerId} (h : w.entry id = some state) :
    (w.addAttempted id peer).course id' =
      if id' = id then some { state.course with attempted := insert peer state.attempted } else w.course id' := by
  rw [addAttempted, h]
  exact course_setEntry

/-- Every entry has kept its course, or is gone. -/
def Keeps (w w' : Worker) : Prop := ∀ id, w'.course id = none ∨ w'.course id = w.course id

theorem Keeps.trans (h : w.Keeps w') (h' : w'.Keeps w'') : w.Keeps w'' := by
  intro id
  rcases h' id with hnone | hsame
  · exact .inl hnone
  · rw [hsame]
    exact h id

theorem keeps_of_course (h : ∀ id, w'.course id = w.course id) : w.Keeps w' := fun id => .inr (h id)

theorem keeps_stopRetrieval : w.Keeps (w.stopRetrieval id) := by
  intro id'
  unfold stopRetrieval
  split
  · exact .inr rfl
  · rename_i state hentry
    split
    · rw [course_removeEntry]
      split
      · exact .inl rfl
      · exact .inr rfl
    · exact .inr (course_setEntry_same hentry rfl)

theorem course_stopRetrieval (h : w.entry id = some state) (hactive : state.active = none) :
    (w.stopRetrieval id).course id = none := by
  rw [stopRetrieval, h]
  dsimp only
  rw [hactive]
  exact course_removeEntry.trans (if_pos rfl)

theorem keeps_stopExpired : w.Keeps (w.stopExpired id) :=
  keeps_stopRetrieval (w := { w with expired := insert id w.expired })

theorem keeps_resumeWaiting {waiting : List VerificationId} : w.Keeps (w.resumeWaiting waiting) := by
  have hloop : ∀ (ids : List VerificationId) (w : Worker), w.Keeps (ids.foldl stopRetrieval w) := by
    intro ids
    induction ids with
    | nil => exact fun w => keeps_of_course fun _ => rfl
    | cons id ids ih => exact fun w => keeps_stopRetrieval.trans (ih _)
  exact (hloop _ w).trans (keeps_of_course fun _ => course_ensureNext)

/-- The entry tells that the peer was asked, or it is being asked. -/
def Knows (w : Worker) (id : VerificationId) (course : Course) (peer : PeerId) : Prop :=
  peer ∈ course.attempted ∨ (∃ requestId, course.active = some (requestId, peer)) ∨ w.control.askedBy id = some peer

/-- No peer is being asked, no query is made, and `providers` is called with the peers that were attempted. -/
structure Poised (w : Worker) : Prop where
  asked : w.control.asked = none
  queries : w.control.queries = none
  polled : ∀ id attempted, w.control.polled = some (id, attempted) →
    (w.course id).map Course.attempted = some attempted

theorem poised_of_control (hasked : w.control.asked = none) (hqueries : w.control.queries = none)
    (hpolled : w.control.polled = none) : w.Poised :=
  ⟨hasked, hqueries, fun _ _ h => nomatch hpolled.symm.trans h⟩

theorem poised_ensureNext : (w.ensureNext rest).Poised := by
  cases rest <;> exact poised_of_control rfl rfl rfl

theorem poised_tryRetrieve (h : (w.course id).isSome) : (w.tryRetrieve id rest).Poised := by
  refine ⟨rfl, rfl, fun id' attempted hpolled => ?_⟩
  cases hpolled
  change (w.course id).map Course.attempted = some (((w.entry id).map (·.attempted)).getD ∅)
  unfold course at h ⊢
  cases hentry : w.entry id with
  | none =>
    rw [hentry] at h
    cases h
  | some state => rfl

theorem poised_drivePending : (w.drivePending rest).Poised := by
  have hloop : ∀ pending (w : Worker), (drivePendingFrom rest pending w).Poised := by
    intro pending
    induction pending with
    | nil => exact fun w => poised_ensureNext
    | cons id pending ih =>
      intro w
      rw [drivePendingFrom]
      split
      · split
        · exact ih w
        · dsimp only
          split_ifs
          · exact ih _
          · refine poised_tryRetrieve ?_
            change ((w.setEntry id _).course id).isSome
            rw [course_setEntry, if_pos rfl]
            rfl
      · exact poised_ensureNext
  exact hloop w.pending w

/-! ### What a step does to the courses -/

/-- What a step does to the courses of the entries, and what is seen of it. -/
inductive CourseStep (w w' : Worker) : List (VerificationId × Seen) → Prop
  | kept (hkeeps : w.Keeps w') (hpoised : w'.Poised) : CourseStep w w' []
  /-- the command of a call goes into the mailbox -/
  | sent (hcourse : ∀ id, w'.course id = w.course id) (hasked : w'.control.asked = w.control.asked)
      (hqueries : w'.control.queries = none) (hpolled : w'.control.polled = w.control.polled) : CourseStep w w' []
  | created {id : VerificationId} (hnone : w.course id = none) (hnew : w'.course id = some RetrievalState.new.course)
      (hothers : ∀ id', id' ≠ id → w'.course id' = w.course id') (hpoised : w'.Poised) : CourseStep w w' []
  | queried {id : VerificationId} {course : Course} {now : Instant} {deadline : Option Instant}
      (htime : ∀ d ∈ deadline, now < d) (hcourse : w.course id = some course)
      (hsame : ∀ id, w'.course id = w.course id) (hasked : w'.control.asked = none)
      (hqueries : w'.control.queries = some id) (hpolled : w'.control.polled = none) :
    CourseStep w w' [(id, .queried now deadline)]
  | retried {id : VerificationId} {course : Course} {round : Nat} {delay left : Duration}
      (hdelay : delay ≤ retryCap w.config.retrievalInitialBackoff w.config.retrievalMaxBackoff round)
      (hleft : delay ≤ left) (hcourse : w.course id = some course) (hsame : ∀ id, w'.course id = w.course id)
      (hpoised : w'.Poised) : CourseStep w w' [(id, .retried round delay left)]
  | asked {id : VerificationId} {course : Course} {peer : PeerId} {now : Instant} {deadline : Option Instant}
      (htime : ∀ d ∈ deadline, now < d) (hcourse : w.course id = some course) (hidle : course.active = none)
      (hasked : w.control.asked = none) (hnew : peer ∉ course.attempted) (hlocal : peer ≠ w.localPeerId)
      (hsame : ∀ id, w'.course id = w.course id) (hasked' : w'.control.asked = some (id, peer))
      (hqueries : w'.control.queries = none) (hpolled : w'.control.polled = none) :
    CourseStep w w' [(id, .asked peer now deadline)]
  | started {id : VerificationId} {course : Course} {peer : PeerId} {requestId : ProofRequestId} {now : Instant}
      (hasked : w.control.asked = some (id, peer)) (hcourse : w.course id = some course)
      (hidle : course.active = none)
      (hstarted : w'.course id = some
        { course with
          transferDeadline := some (course.transferDeadline.getD (now + w.config.retrievalTimeout))
          active := some (requestId, peer) })
      (hothers : ∀ id', id' ≠ id → w'.course id' = w.course id') (hpoised : w'.Poised) :
    CourseStep w w' [(id, .started now)]
  /-- the request of an entry has failed, or was not made -/
  | attempted {id : VerificationId} {course : Course} {peer : PeerId}
      (hpeer : (∃ requestId, course.active = some (requestId, peer)) ∨
        (course.active = none ∧ w.control.asked = some (id, peer)))
      (hcourse : w.course id = some course)
      (hattempted : w'.course id = some { course with active := none, attempted := insert peer course.attempted })
      (hothers : ∀ id', id' ≠ id → w'.course id' = w.course id') (hpoised : w'.Poised) : CourseStep w w' []

theorem CourseStep.keeps (h : w.Keeps w') (hsame : ∀ id, w''.course id = w'.course id) (hpoised : w''.Poised) :
    w.CourseStep w'' [] :=
  .kept (h.trans (keeps_of_course hsame)) hpoised

theorem courseStep_goto {control : Control} (hasked : control.asked = none) (hqueries : control.queries = none)
    (hpolled : control.polled = none) : w.CourseStep (w.goto control) [] :=
  .kept (keeps_of_course fun _ => rfl) (poised_of_control hasked hqueries hpolled)

theorem courseStep_drivePending (h : w.Keeps w') : w.CourseStep (w'.drivePending rest) [] :=
  .keeps h (fun _ => course_drivePending) poised_drivePending

theorem finishRequest_course {requestId : ProofRequestId} {peer : PeerId} {succeeded : Bool} {now : Instant}
    (h : w.finishRequest id requestId peer succeeded now = .ok w') :
    w.Keeps w' ∨ (succeeded = false ∧ ∃ course, course.active = some (requestId, peer) ∧ w.course id = some course ∧
      w'.course id = some { course with active := none, attempted := insert peer course.attempted } ∧
      ∀ id', id' ≠ id → w'.course id' = w.course id') := by
  have hremoved : ∀ (slots : Nat) (expired : Finset VerificationId),
      w.Keeps ({ w with activeRetrievals := slots, expired }.removeEntry id) := by
    intro slots expired id'
    rw [course_removeEntry]
    split
    · exact .inl rfl
    · exact .inr rfl
  unfold finishRequest at h
  split at h
  · cases h
    exact .inl (keeps_of_course fun _ => rfl)
  · rename_i state hentry
    split_ifs at h with hother hslots hover hpassed
    · cases h
      exact .inl (keeps_of_course fun _ => rfl)
    · cases h
      exact .inl (hremoved _ _)
    · cases h
      exact .inl (hremoved _ _)
    · cases h
      rw [Bool.or_eq_true, not_or, Bool.not_eq_true, Bool.not_eq_true] at hover
      refine .inr ⟨hover.1, state.course, not_not.1 hother, ?_, ?_, fun id' hne => ?_⟩
      · rw [course, hentry]
        rfl
      · rw [course_enqueue, course_setEntry, if_pos rfl]
        rfl
      · rw [course_enqueue, course_setEntry, if_neg hne]
        rfl

theorem courseStep_afterFinish {requestId : ProofRequestId} {peer : PeerId} {succeeded draining : Bool}
    {now : Instant} :
    w.CourseStep (w.afterFinish draining (w.finishRequest id requestId peer succeeded now)) [] := by
  unfold afterFinish
  split
  · exact courseStep_goto rfl rfl rfl
  · rename_i w' hfinish
    have hend : ∀ id', (if draining then w'.goto .idle else w'.drivePending []).course id' = w'.course id' := by
      intro id'
      split
      · rfl
      · exact course_drivePending
    have hpoised : (if draining then w'.goto .idle else w'.drivePending []).Poised := by
      split
      · exact poised_of_control rfl rfl rfl
      · exact poised_drivePending
    rcases finishRequest_course hfinish with hkeeps | ⟨-, course, hactive, hcourse, hattempted, hothers⟩
    · exact .keeps hkeeps hend hpoised
    · exact .attempted (.inl ⟨requestId, hactive⟩) hcourse ((hend id).trans hattempted)
        (fun id' hne => (hend id').trans (hothers id' hne)) hpoised

theorem courseStep_resumeAttached {requestId : ProofRequestId} {peer : PeerId} {stored : Except Error StoreChange}
    {now : Instant} {draining : Bool} :
    w.CourseStep (w.resumeAttached requestId peer id stored now draining) [] := by
  unfold resumeAttached
  split
  · exact courseStep_afterFinish
  · exact courseStep_afterFinish
  · exact courseStep_afterFinish
  · -- a request that has succeeded leaves no entry behind
    cases hfinish : w.finishRequest id requestId peer true now with
    | error message => exact courseStep_goto rfl rfl rfl
    | ok w' =>
      have hkeeps : w.Keeps (w'.stopRetrieval id) := by
        rcases finishRequest_course hfinish with hkeeps | ⟨hfailed, -⟩
        · exact hkeeps.trans keeps_stopRetrieval
        · cases hfailed
      change w.CourseStep (if draining then _ else _) []
      split
      · exact .keeps hkeeps (fun _ => rfl) (poised_of_control rfl rfl rfl)
      · exact courseStep_drivePending hkeeps
  · exact courseStep_goto rfl rfl rfl

theorem courseStep_handleDriverEvent {now : Instant} {draining : Bool} {event : DriverEvent} :
    w.CourseStep (w.handleDriverEvent now draining event) [] := by
  unfold handleDriverEvent
  split
  · exact courseStep_goto rfl rfl rfl
  · exact courseStep_goto rfl rfl rfl
  · exact courseStep_afterFinish
  · exact courseStep_afterFinish
  · split <;> exact courseStep_goto rfl rfl rfl
  · split_ifs
    · exact courseStep_goto rfl rfl rfl
    · exact courseStep_drivePending (keeps_of_course fun _ => course_enqueue.trans course_clearQuery)
    · exact courseStep_goto rfl rfl rfl
  · split <;> exact courseStep_goto rfl rfl rfl
  · exact courseStep_goto rfl rfl rfl
  · exact courseStep_goto rfl rfl rfl

theorem keeps_handleStoreEvent (w : Worker) (draining : Bool) (event : ProofStoreEvent) :
    w.Keeps (w.handleStoreEvent draining event) ∧ (w.handleStoreEvent draining event).Poised := by
  unfold handleStoreEvent
  split
  · exact ⟨keeps_of_course fun _ => rfl, poised_of_control rfl rfl rfl⟩
  · split
    · exact ⟨keeps_of_course fun _ => rfl, poised_of_control rfl rfl rfl⟩
    · exact ⟨keeps_stopRetrieval, poised_of_control rfl rfl rfl⟩
    · exact ⟨keeps_stopRetrieval, poised_of_control rfl rfl rfl⟩
    · exact ⟨keeps_stopRetrieval.trans (keeps_of_course fun _ => course_drivePending), poised_drivePending⟩

theorem keeps_handleWake (w : Worker) (wake : RetrievalWake) (now : Instant) :
    w.Keeps (w.handleWake wake now) ∧ (w.handleWake wake now).Poised := by
  unfold handleWake
  split
  · exact ⟨keeps_of_course fun _ => rfl, poised_of_control rfl rfl rfl⟩
  · rename_i state hentry
    have hsame : w.Keeps (w.setEntry wake.verificationId { state with query := none }) :=
      keeps_of_course fun _ => course_setEntry_same hentry rfl
    dsimp only
    split_ifs
    · exact ⟨keeps_of_course fun _ => rfl, poised_of_control rfl rfl rfl⟩
    · exact ⟨hsame.trans keeps_stopExpired, poised_of_control rfl rfl rfl⟩
    · refine ⟨hsame.trans (keeps_of_course fun _ => ?_), poised_drivePending⟩
      exact course_drivePending.trans course_enqueue

theorem courseStep_resumeGet {record : Option (Arc ProofRecord)} : w.CourseStep (w.resumeGet id rest record) [] := by
  unfold resumeGet
  split
  · dsimp only
    split
    · exact courseStep_drivePending (keeps_of_course fun _ => course_enqueue)
    · rename_i hmissing
      rw [Bool.not_eq_true, Option.isSome_eq_false_iff, Option.isNone_iff_eq_none] at hmissing
      have hnone : w.course id = none := by
        rw [course, hmissing]
        rfl
      refine .created hnone ?_ (fun id' hne => ?_) poised_drivePending
      · rw [course_drivePending, course_enqueue, course_setEntry, if_pos rfl]
      · rw [course_drivePending, course_enqueue, course_setEntry, if_neg hne]
  · exact .keeps keeps_stopRetrieval (fun _ => course_ensureNext) poised_ensureNext

theorem courseStep_resumeStore {access : StoreAccess} {answer : StoreAnswer} {now : Instant} {draining : Bool}
    (h : w.resumeStore now draining access answer = some w') : w.CourseStep w' [] := by
  unfold resumeStore at h
  split at h
  · cases h
    exact courseStep_goto rfl rfl rfl
  · cases h
    exact courseStep_goto rfl rfl rfl
  · cases h
    exact courseStep_resumeAttached
  · cases h
    exact courseStep_goto rfl rfl rfl
  · cases h
    exact .kept keeps_resumeWaiting poised_ensureNext
  · cases h
    exact courseStep_resumeGet
  · cases h

/-! ### Replies -/

/-- What is seen after the reply of `providers`. -/
def seenProviders (w : Worker) (id : VerificationId) (now : Instant) : Control → List (VerificationId × Seen)
  | .sending _ (.requestProof _ peer _) => [(id, .asked peer now ((w.entry id).bind RetrievalState.transferDeadline))]
  | .sending _ (.queryAvailability _ _) => [(id, .queried now ((w.entry id).bind activeDeadline))]
  | _ => []

def seenRetry (w : Worker) (id : VerificationId) (queryId : QueryId) (input : WorkerInput) : Seen :=
  let deadline := ((w.startQuery id queryId input.now).entry id).bind activeDeadline
  .retried (((w.entry id).map RetrievalState.retryRound).getD 0) input.delay (deadline.getD 0 - input.later)

/-- What is seen when the worker takes a reply. -/
def seenReply (w : Worker) (input : WorkerInput) (reply : Except Error Reply) (w' : Worker) :
    List (VerificationId × Seen) :=
  match w.control, reply with
  | .waiting (.providers id _ _), _ => w.seenProviders id input.now w'.control
  | .waiting (.requestProof id _ _), .ok _ => [(id, .started input.now)]
  | .waiting (.queryAvailability id _), .ok (.queryId queryId) => [(id, w.seenRetry id queryId input)]
  | _, _ => []

theorem seenProviders_driven {now : Instant} (h : w'.Driven rest) : w.seenProviders id now w'.control = [] := by
  rcases h with ⟨hcontrol, -⟩ | ⟨id', rest', -, hcontrol⟩ | ⟨id', attempted, hcontrol, -⟩ <;> rw [hcontrol] <;> rfl

theorem lt_of_not_passed {deadline : Option Instant} {now : Instant} (h : ¬passed deadline now = true) :
    ∀ d ∈ deadline, now < d := by
  rintro d rfl
  exact not_le.1 fun hle => h (decide_eq_true hle)

theorem course_of_idle (h : w.ledger.Idle id) : ∃ course, w.course id = some course ∧ course.active = none := by
  unfold Ledger.Idle at h
  rw [ledger_jobs] at h
  obtain ⟨state, hentry, hjob⟩ := Option.map_eq_some_iff.1 h
  refine ⟨state.course, ?_, congrArg Job.active hjob⟩
  rw [course, hentry]
  rfl

theorem courseStep_resumeProviders {attempted : Finset PeerId} {providers : List PeerId} {input : WorkerInput}
    (hcontrol : w.control = .waiting (.providers id attempted rest))
    (hpolled : (w.course id).map Course.attempted = some attempted) (hidle : w.ledger.Idle id)
    (h : w.resumeProviders id attempted rest providers input = some w') :
    w.CourseStep w' (w.seenProviders id input.now w'.control) := by
  obtain ⟨course, hcourse, hactive⟩ := course_of_idle hidle
  have hattempted : course.attempted = attempted := by
    rw [hcourse] at hpolled
    exact Option.some.inj hpolled
  have hdriven : ∀ w' : Worker, w.Keeps w' →
      w.CourseStep (w'.drivePending rest) (w.seenProviders id input.now (w'.drivePending rest).control) := by
    intro w' hkeeps
    rw [seenProviders_driven driven_drivePending]
    exact courseStep_drivePending hkeeps
  unfold resumeProviders at h
  split at h
  · split_ifs at h with hquery hpassed
    · cases h
      exact hdriven w (keeps_of_course fun _ => rfl)
    · cases h
      exact hdriven _ keeps_stopExpired
    · cases h
      exact .queried (lt_of_not_passed hpassed) hcourse (fun _ => rfl) rfl rfl rfl
  · split at h
    · cases h
    · rename_i peer hpeer
      split_ifs at h with hpassed hfull
      · cases h
        exact hdriven _ keeps_stopExpired
      · cases h
        exact hdriven _ (keeps_of_course fun _ => course_enqueue)
      · cases h
        have hcandidate : peer ≠ w.localPeerId ∧ peer ∉ attempted := by
          simpa using List.of_mem_filter (List.mem_of_getElem? hpeer)
        refine .asked (lt_of_not_passed hpassed) hcourse hactive ?_ ?_ hcandidate.1 (fun _ => rfl) rfl rfl rfl
        · rw [hcontrol]
          rfl
        · rw [hattempted]
          exact hcandidate.2

theorem courseStep_resumeRequestProof {peer : PeerId} {reply : Except Error ProofRequestId} {input : WorkerInput}
    (hcontrol : w.control = .waiting (.requestProof id peer rest)) (hidle : w.ledger.Idle id) :
    w.CourseStep (w.resumeRequestProof id peer rest reply input)
      (match reply with
        | .ok _ => [(id, .started input.now)]
        | .error _ => []) := by
  obtain ⟨course, hcourse, hactive⟩ := course_of_idle hidle
  have hasked : w.control.asked = some (id, peer) := by
    rw [hcontrol]
    rfl
  obtain ⟨state, hentry, rfl⟩ := Option.map_eq_some_iff.1 hcourse
  unfold resumeRequestProof
  split
  · refine .started hasked hcourse hactive (course_drivePending.trans ((course_startRequest hentry).trans (if_pos rfl)))
      (fun id' hne => ?_) poised_drivePending
    rw [course_drivePending, course_startRequest hentry, if_neg hne]
  · have hattempted : ∀ id', ((w.addAttempted id peer).tryRetrieve id rest).course id' =
        if id' = id then some { state.course with active := none, attempted := insert peer state.attempted }
        else w.course id' := by
      intro id'
      rw [← hactive]
      exact course_addAttempted hentry
    have hcourse' := (hattempted id).trans (if_pos rfl)
    refine .attempted (.inr ⟨hactive, hasked⟩) hcourse hcourse' (fun id' hne => (hattempted id').trans (if_neg hne)) ?_
    refine poised_tryRetrieve ?_
    exact Option.isSome_of_eq_some hcourse'
  · exact courseStep_drivePending keeps_stopRetrieval
  · exact courseStep_goto rfl rfl rfl

theorem knows_resumeRequestProof {peer : PeerId} {reply : Except Error ProofRequestId} {input : WorkerInput}
    {course : Course} (hidle : w.ledger.Idle id) (h : w.resumeRequestProof id peer rest reply input = w')
    (hrunning : w'.Running) (hcourse : w'.course id = some course) :
    w'.Knows id course peer := by
  obtain ⟨before, hbefore, hactive⟩ := course_of_idle hidle
  obtain ⟨state, hentry, rfl⟩ := Option.map_eq_some_iff.1 hbefore
  unfold resumeRequestProof at h
  split at h <;> subst h
  · rw [course_drivePending, course_startRequest hentry, if_pos rfl] at hcourse
    cases hcourse
    exact .inr (.inl ⟨_, rfl⟩)
  · change (w.addAttempted id peer).course id = _ at hcourse
    rw [course_addAttempted hentry, if_pos rfl] at hcourse
    cases hcourse
    exact .inl (Finset.mem_insert_self _ _)
  · rw [course_drivePending, course_stopRetrieval hentry hactive] at hcourse
    cases hcourse
  · exact absurd rfl (hrunning _)

theorem scheduleRetry_delay {delay : Duration} {now : Instant} (hentry : w.entry id = some state)
    (h : w.scheduleRetry id delay now = some (.ok w')) :
    ∃ deadline, activeDeadline state = some deadline ∧
      delay ≤ jitterBound (retryCap w.config.retrievalInitialBackoff w.config.retrievalMaxBackoff state.retryRound)
        (deadline - now) := by
  unfold scheduleRetry at h
  rw [hentry] at h
  dsimp only at h
  split at h
  · cases h
  · rename_i deadline hdeadline
    split_ifs at h with hdelay
    exact ⟨deadline, hdeadline, hdelay⟩

theorem courseStep_resumeQueryAvailability {queryId : QueryId} {input : WorkerInput} (hidle : w.ledger.Idle id)
    (h : w.resumeQueryAvailability id rest (.ok queryId) input = some w') :
    w.CourseStep w' [(id, w.seenRetry id queryId input)] := by
  obtain ⟨course, hcourse, hactive⟩ := course_of_idle hidle
  obtain ⟨state, hentry, rfl⟩ := Option.map_eq_some_iff.1 hcourse
  unfold resumeQueryAvailability at h
  dsimp only at h
  split at h
  · cases h
  · rename_i message hretry
    obtain ⟨retried, hok, -⟩ := scheduleRetry_startQuery hretry
    cases hok
  · rename_i w' hretry
    cases h
    let queried : RetrievalState :=
      { state with
        discoveryDeadline := some (state.discoveryDeadline.getD (input.now + w.config.retrievalTimeout))
        query := some queryId }
    have hstart : w.startQuery id queryId input.now = w.setEntry id queried := by
      unfold startQuery
      rw [hentry]
    have hqueried : (w.startQuery id queryId input.now).entry id = some queried := by
      rw [hstart, entry_setEntry, if_pos rfl]
    obtain ⟨deadline, hdeadline, hdelay⟩ := scheduleRetry_delay hqueried hretry
    have hseen : w.seenRetry id queryId input = .retried state.retryRound input.delay (deadline - input.later) := by
      unfold seenRetry
      rw [hqueried, hentry, Option.bind_some, hdeadline]
      rfl
    rw [hseen]
    rw [hstart] at hdelay
    have hbounds := le_min_iff.1 (hdelay.trans (min_le_left _ _))
    refine .retried hbounds.1 hbounds.2 hcourse (fun id' => ?_) poised_drivePending
    rw [course_drivePending, course_scheduleRetry hretry, course_startQuery]

theorem courseStep_announceNext {ids : List VerificationId} : w.CourseStep (w.announceNext ids) [] := by
  refine .kept (keeps_of_course fun _ => course_announceNext) ?_
  cases ids <;> exact poised_of_control rfl rfl rfl

theorem courseStep_resumeCall {config : P2pConfig} {input : WorkerInput} {call : DriverCall}
    {reply : Except Error Reply} (hslots : w.Slots config) (hpolled : ∀ id attempted,
      w.control.polled = some (id, attempted) → (w.course id).map Course.attempted = some attempted)
    (hcontrol : w.control = .waiting call) (h : w.resumeCall input call reply = some w') :
    w.CourseStep w' (w.seenReply input reply w') := by
  have hidle := hslots.waiting call hcontrol
  unfold seenReply
  rw [hcontrol] at hpolled ⊢
  unfold resumeCall at h
  split at h
  · cases h
    exact courseStep_goto rfl rfl rfl
  · cases h
    exact courseStep_drivePending (keeps_of_course fun _ => rfl)
  · cases h
    exact courseStep_drivePending (keeps_of_course fun _ => rfl)
  · cases h
    exact courseStep_announceNext
  · cases h
    exact courseStep_announceNext
  · exact courseStep_resumeProviders hcontrol (hpolled _ _ rfl) (hidle _ rfl) h
  · cases h
    exact courseStep_resumeRequestProof hcontrol (hidle _ rfl)
  · cases h
    exact courseStep_resumeRequestProof hcontrol (hidle _ rfl)
  · exact courseStep_resumeQueryAvailability (hidle _ rfl) h
  · unfold resumeQueryAvailability at h
    split at h
    · rename_i heq
      cases heq
    · cases h
      exact courseStep_drivePending keeps_stopRetrieval
    · cases h
      exact courseStep_goto rfl rfl rfl
  · cases h
    cases call <;> exact courseStep_goto rfl rfl rfl
  · cases h

end Worker

/-! ### Runs -/

namespace WorkerTask

variable {s t : WorkerTask} {a : WorkerAction} {config : P2pConfig}

def removedIds (w w' : Worker) : List VerificationId := w.retrievals.keys.filter fun id => (w'.entry id).isNone

/-- What is seen of the retrievals in a step. -/
def seen (s : WorkerTask) (a : WorkerAction) (t : WorkerTask) : List (VerificationId × Seen) :=
  (match a with
    | .reply input reply => s.worker.seenReply input reply t.worker
    | _ => []) ++ (removedIds s.worker t.worker).map (·, .removed)

/-- The worker task with a record of what its retrievals do. -/
def recordedLts (localPeerId : PeerId) (config : P2pConfig) :
    Lts (WorkerTask × List (VerificationId × Seen)) WorkerAction :=
  .ofNext (fun s => s.1 = initial localPeerId config ∧ s.2 = []) (Lts.recorded next seen)

theorem courseStep_select {event : WorkerEvent} (hidle : s.worker.control = .idle) (h : s.select event = some t) :
    s.worker.CourseStep t.worker [] := by
  have hpoised : s.worker.Poised := Worker.poised_of_control (by rw [hidle]; rfl) (by rw [hidle]; rfl)
    (by rw [hidle]; rfl)
  unfold select at h
  split at h
  · split_ifs at h
    cases h
    exact .kept (Worker.keeps_of_course fun _ => rfl) ⟨hpoised.asked, hpoised.queries, hpoised.polled⟩
  · cases h
    exact Worker.courseStep_handleDriverEvent
  · rename_i event
    split_ifs at h
    · cases h
      obtain ⟨hkeeps, hpoised⟩ := s.worker.keeps_handleStoreEvent true event
      exact .kept hkeeps hpoised
    · cases h
      have hobserved : s.worker.Keeps (s.worker.recordObserved event) := by
        unfold Worker.recordObserved
        split <;> exact Worker.keeps_of_course fun _ => rfl
      obtain ⟨hkeeps, hpoised⟩ := (s.worker.recordObserved event).keeps_handleStoreEvent false event
      exact .kept (hobserved.trans hkeeps) hpoised
  · split_ifs at h
    · cases h
      exact .kept (Worker.keeps_of_course fun _ => rfl) hpoised
    · cases h
      exact Worker.courseStep_goto rfl rfl rfl
  · cases h
    exact Worker.courseStep_goto rfl rfl rfl
  · split at h
    · cases h
    · rename_i i now _ wake hwake
      split_ifs at h
      cases h
      obtain ⟨hkeeps, hpoised⟩ := { s.worker with wakes := s.worker.wakes.eraseIdx i }.keeps_handleWake wake now
      exact .kept hkeeps hpoised
  · split_ifs at h
    cases h
    exact Worker.courseStep_goto rfl rfl rfl

theorem courseStep_next (hslots : s.worker.Slots config)
    (hpolled : ∀ id attempted, s.worker.control.polled = some (id, attempted) →
      (s.worker.course id).map Course.attempted = some attempted) (h : s.next a = some t) :
    ∃ seen', s.worker.CourseStep t.worker seen' ∧
      s.seen a t = seen' ++ (removedIds s.worker t.worker).map (·, .removed) := by
  unfold next at h
  split at h
  · split at h
    · rename_i hidle
      exact ⟨[], courseStep_select hidle h, rfl⟩
    · cases h
  · split at h
    · rename_i call hcontrol
      cases h
      refine ⟨[], .sent (fun _ => rfl) ?_ rfl ?_, rfl⟩
      · rw [hcontrol]
        cases call <;> rfl
      · rw [hcontrol]
        cases call <;> rfl
    · cases h
  · split at h
    · rename_i hcontrol
      obtain ⟨worker, hresume, rfl⟩ := Option.map_eq_some_iff.1 h
      exact ⟨_, Worker.courseStep_resumeCall hslots hpolled hcontrol hresume, rfl⟩
    · cases h
  · split at h
    · obtain ⟨worker, hresume, rfl⟩ := Option.map_eq_some_iff.1 h
      exact ⟨[], Worker.courseStep_resumeStore hresume, rfl⟩
    · cases h

end WorkerTask

end PulsarVerifier
