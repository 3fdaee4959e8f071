import PulsarVerifier.P2p.Slots

/-!
# No retrieval stalls

Outside a drain, a retrieval that is not finished has something ahead of it: the answer to its request, a place in the
queue while all slots are taken, or the wake of its query.  `try_retrieve` works on one retrieval at a time, and only
that one may have nothing ahead while the worker waits for the driver (`Tracked`); `drive_pending` stops only when the
queue is empty or the slots are full (`Full`).
-/

namespace PulsarVerifier

/-- The retrieval that `try_retrieve` works on. -/
def Control.retrieving : Control → Option VerificationId
  | .sending _ call | .waiting call => call.retrieval
  | _ => none

def RetrievalState.unmarked (state : RetrievalState) : RetrievalState := { state with queued := false }

namespace Worker

variable {w w' : Worker} {id : VerificationId} {state : RetrievalState} {rest : List VerificationId}
  {busy busy' : Option VerificationId}

/-- What is ahead of a retrieval: a queued one is in the queue, one with a query has its wake, and one with neither of
them has a request, or it is the one that `try_retrieve` works on. -/
structure Followed (pending : List VerificationId) (wakes : List RetrievalWake) (busy : Option VerificationId)
    (id : VerificationId) (state : RetrievalState) : Prop where
  queued : state.queued = true → id ∈ pending
  query : state.query.isSome = true →
    ∃ wake ∈ wakes, wake.verificationId = id ∧ wake.generation = state.timerGeneration
  going : busy = some id ∨ state.active.isSome = true ∨ state.queued = true ∨ state.query.isSome = true

/-- Every retrieval that is not finished is followed. -/
def Tracked (w : Worker) (busy : Option VerificationId) : Prop :=
  ∀ id state, w.entry id = some state → state.finished = false →
    Followed w.pending w.wakes busy id state

/-- A retrieval is left in the queue only while all slots are taken. -/
def Full (w : Worker) : Prop :=
  ∀ id state, w.entry id = some state → state.finished = false → state.queued = true →
    w.config.maxConcurrentRetrievals ≤ w.activeRetrievals

/-- The two workers differ in the retrieval of `id` only. -/
structure SameElsewhere (w w' : Worker) (id : VerificationId) : Prop where
  entry : ∀ id', id' ≠ id → w'.entry id' = w.entry id'
  pending : ∀ id', id' ≠ id → id' ∈ w.pending → id' ∈ w'.pending
  wakes : ∀ wake, wake.verificationId ≠ id → wake ∈ w.wakes → wake ∈ w'.wakes

theorem entry_removeEntry {id' : VerificationId} :
    (w.removeEntry id).entry id' = if id' = id then none else w.entry id' :=
  AList.lookup_erase_eq_ite ..

theorem sameElsewhere_setEntry : w.SameElsewhere (w.setEntry id state) id where
  entry id' h := by rw [entry_setEntry, if_neg h]
  pending _ _ h := h
  wakes _ _ h := h

theorem sameElsewhere_removeEntry : w.SameElsewhere (w.removeEntry id) id where
  entry id' h := by rw [entry_removeEntry, if_neg h]
  pending _ _ h := h
  wakes _ _ h := h

theorem Tracked.update (h : w.Tracked busy) (hsame : w.SameElsewhere w' id)
    (hbusy : ∀ id', id' ≠ id → busy = some id' → busy' = some id')
    (hnew : ∀ state, w'.entry id = some state → state.finished = false →
      Followed w'.pending w'.wakes busy' id state) :
    w'.Tracked busy' := by
  intro id' state hentry hfinished
  by_cases hid : id' = id
  · subst hid
    exact hnew state hentry hfinished
  · rw [hsame.entry id' hid] at hentry
    have hold := h id' state hentry hfinished
    refine ⟨fun hqueued => hsame.pending id' hid (hold.queued hqueued), fun hquery => ?_, ?_⟩
    · obtain ⟨wake, hwake, rfl, hgeneration⟩ := hold.query hquery
      exact ⟨wake, hsame.wakes wake hid hwake, rfl, hgeneration⟩
    · rcases hold.going with hid' | hgoing
      · exact .inl (hbusy id' hid hid')
      · exact .inr hgoing

/-! ### Marks of the queue -/

theorem unmarked_setEntry {id' : VerificationId} {queued : Bool} (h : w.entry id = some state) :
    ((w.setEntry id { state with queued }).entry id').map RetrievalState.unmarked =
      (w.entry id').map RetrievalState.unmarked := by
  rw [entry_setEntry]
  split
  · rename_i hid
    rw [hid, h]
    rfl
  · rfl

theorem unmarked_enqueue {id' : VerificationId} :
    ((w.enqueue id).entry id').map RetrievalState.unmarked = (w.entry id').map RetrievalState.unmarked := by
  unfold Worker.enqueue
  split
  · rfl
  · rename_i state hentry
    split_ifs
    · rfl
    · exact unmarked_setEntry hentry

theorem unmarked_drivePending :
    ((w.drivePending rest).entry id).map RetrievalState.unmarked = (w.entry id).map RetrievalState.unmarked := by
  have hnext : ∀ w : Worker, (w.ensureNext rest).entry id = w.entry id := by
    intro w
    cases rest <;> rfl
  have hloop : ∀ pending (w : Worker), ((drivePendingFrom rest pending w).entry id).map RetrievalState.unmarked =
      (w.entry id).map RetrievalState.unmarked := by
    intro pending
    induction pending with
    | nil => exact fun w => congrArg _ (hnext { w with pending := [] })
    | cons id' pending ih =>
      intro w
      rw [drivePendingFrom]
      split
      · split
        · exact ih w
        · rename_i state hentry
          dsimp only
          split_ifs
          · exact (ih _).trans (unmarked_setEntry hentry)
          · exact unmarked_setEntry hentry
      · exact congrArg _ (hnext { w with pending := id' :: pending })
  exact hloop w.pending w

/-! ### Functions without a wait -/

theorem Tracked.of_entry_none (h : w.Tracked busy) (hnone : w.entry id = none)
    (hothers : ∀ id', id' ≠ id → busy = some id' → busy' = some id') : w.Tracked busy' := by
  refine h.update ⟨fun _ _ => rfl, fun _ _ h => h, fun _ _ h => h⟩ hothers fun state hentry => ?_
  rw [hnone] at hentry
  cases hentry

/-- A retrieval that is enqueued is not stuck, whatever it was before. -/
theorem Tracked.enqueue (h : w.Tracked busy) (hbusy : ∀ id', busy = some id' → id' = id) :
    (w.enqueue id).Tracked none := by
  have hothers : ∀ id', id' ≠ id → busy = some id' → none = some id' := fun id' hne hid => absurd (hbusy id' hid) hne
  unfold Worker.enqueue
  split
  · rename_i hnone
    exact h.of_entry_none hnone hothers
  · rename_i state hentry
    split_ifs with hskip
    · refine h.update ⟨fun _ _ => rfl, fun _ _ h => h, fun _ _ h => h⟩ hothers fun state' hentry' hfinished => ?_
      obtain rfl : state = state' := Option.some.inj (hentry.symm.trans hentry')
      have hold := h id state hentry hfinished
      refine ⟨hold.queued, hold.query, .inr ?_⟩
      rw [hfinished, Bool.or_false, Bool.or_eq_true] at hskip
      exact hskip.elim (fun hqueued => .inr (.inl hqueued)) .inl
    · refine h.update ⟨sameElsewhere_setEntry.entry, fun _ _ hmem => List.mem_append_left _ hmem,
        fun _ _ h => h⟩ hothers
        fun state' hentry' hfinished => ?_
      obtain rfl : { state with queued := true } = state' := by
        have hset : (w.setEntry id { state with queued := true }).entry id = some state' := hentry'
        rw [entry_setEntry, if_pos rfl] at hset
        exact Option.some.inj hset
      exact ⟨fun _ => List.mem_append_right _ List.mem_cons_self, (h id state hentry hfinished).query,
        .inr (.inr (.inl rfl))⟩

theorem Tracked.stopRetrieval (h : w.Tracked busy) (hbusy : ∀ id', id' ≠ id → busy = some id' → busy' = some id') :
    (w.stopRetrieval id).Tracked busy' := by
  unfold Worker.stopRetrieval
  split
  · rename_i hnone
    refine h.update ⟨fun _ _ => rfl, fun _ _ h => h, fun _ _ h => h⟩ hbusy fun state hentry => ?_
    rw [hnone] at hentry
    cases hentry
  · split
    · refine h.update sameElsewhere_removeEntry hbusy fun state hentry => ?_
      rw [entry_removeEntry, if_pos rfl] at hentry
      cases hentry
    · refine h.update sameElsewhere_setEntry hbusy fun state hentry hfinished => ?_
      rw [entry_setEntry, if_pos rfl] at hentry
      cases hentry
      cases hfinished

theorem Tracked.stopExpired (h : w.Tracked (some id)) : (w.stopExpired id).Tracked none :=
  Tracked.stopRetrieval (w := { w with expired := insert id w.expired }) h
    fun _ hne hid => absurd (Option.some.inj hid).symm hne

theorem Full.stopRetrieval (h : w.Full) : (w.stopRetrieval id).Full := by
  have hsame : (w.stopRetrieval id).config = w.config ∧ (w.stopRetrieval id).activeRetrievals = w.activeRetrievals := by
    refine ⟨congrArg Prod.snd (node_of_frame (frame_stopRetrieval (w := w))), ?_⟩
    exact congrArg Ledger.slots ledger_stopRetrieval
  intro id' state hentry hfinished hqueued
  rw [hsame.1, hsame.2]
  refine h id' state ?_ hfinished hqueued
  unfold Worker.stopRetrieval at hentry
  split at hentry
  · exact hentry
  · split at hentry
    · rw [entry_removeEntry] at hentry
      split at hentry
      · cases hentry
      · exact hentry
    · rw [entry_setEntry] at hentry
      split at hentry
      · cases hentry
        cases hfinished
      · exact hentry

theorem Tracked.clearQuery (h : w.Tracked none) : (w.clearQuery id).Tracked (some id) := by
  have hothers : ∀ id', id' ≠ id → none = some id' → some id = some id' := fun _ _ hid => nomatch hid
  unfold Worker.clearQuery
  split
  · rename_i hnone
    exact h.of_entry_none hnone hothers
  · rename_i state hentry
    refine h.update sameElsewhere_setEntry hothers fun state' hentry' hfinished => ?_
    rw [entry_setEntry, if_pos rfl] at hentry'
    cases hentry'
    exact ⟨(h id state hentry hfinished).queued, (fun hquery => nomatch hquery), .inl rfl⟩

theorem Tracked.addAttempted {peer : PeerId} (h : w.Tracked busy) : (w.addAttempted id peer).Tracked busy := by
  unfold Worker.addAttempted
  split
  · exact h
  · rename_i state hentry
    refine h.update sameElsewhere_setEntry (fun _ _ hid => hid) fun state' hentry' hfinished => ?_
    rw [entry_setEntry, if_pos rfl] at hentry'
    cases hentry'
    have hold := h id state hentry hfinished
    exact ⟨hold.queued, hold.query, hold.going⟩

theorem Tracked.startRequest {requestId : ProofRequestId} {peer : PeerId} {now : Instant} (h : w.Tracked (some id)) :
    (w.startRequest id requestId peer now).Tracked none := by
  have hothers : ∀ id', id' ≠ id → some id = some id' → none = some id' :=
    fun id' hne hid => absurd (Option.some.inj hid).symm hne
  unfold Worker.startRequest
  split
  · rename_i hnone
    exact h.of_entry_none hnone hothers
  · rename_i state hentry
    refine h.update ⟨sameElsewhere_setEntry.entry, fun _ _ h => h, fun _ _ h => h⟩ hothers
      fun state' hentry' hfinished => ?_
    change (w.setEntry id _).entry id = some state' at hentry'
    rw [entry_setEntry, if_pos rfl] at hentry'
    cases hentry'
    exact ⟨(h id state hentry hfinished).queued, (fun hquery => nomatch hquery), .inr (.inl rfl)⟩

theorem Tracked.scheduleRetry {queryId : QueryId} {now later : Instant} {delay : Duration} (h : w.Tracked (some id))
    (hretry : (w.startQuery id queryId now).scheduleRetry id delay later = some (.ok w')) : w'.Tracked none := by
  have hothers : ∀ id', id' ≠ id → some id = some id' → none = some id' :=
    fun id' hne hid => absurd (Option.some.inj hid).symm hne
  unfold Worker.startQuery at hretry
  split at hretry
  · rename_i hnone
    rw [Worker.scheduleRetry, hnone] at hretry
    cases hretry
    refine h.update ⟨fun _ _ => rfl, fun _ _ h => h, fun _ _ h => h⟩ hothers fun state hentry => ?_
    rw [hnone] at hentry
    cases hentry
  · rename_i state hentry
    unfold Worker.scheduleRetry at hretry
    rw [entry_setEntry, if_pos rfl] at hretry
    dsimp only at hretry
    split at hretry
    · cases hretry
    · split_ifs at hretry
      cases hretry
      refine h.update ⟨fun id' hne => ?_, fun _ _ h => h, fun _ _ hmem => List.mem_append_left _ hmem⟩ hothers
        fun state' hentry' hfinished => ?_
      · change ((w.setEntry id _).setEntry id _).entry id' = w.entry id'
        rw [entry_setEntry, if_neg hne, entry_setEntry, if_neg hne]
      · change ((w.setEntry id _).setEntry id _).entry id = some state' at hentry'
        rw [entry_setEntry, if_pos rfl] at hentry'
        cases hentry'
        refine ⟨(h id state hentry hfinished).queued, fun _ => ?_, .inr (.inr (.inr rfl))⟩
        exact ⟨_, List.mem_append_right _ List.mem_cons_self, rfl, rfl⟩

theorem Tracked.finishRequest {requestId : ProofRequestId} {peer : PeerId} {succeeded : Bool} {now : Instant}
    (h : w.Tracked none) (hfinish : w.finishRequest id requestId peer succeeded now = .ok w') : w'.Tracked none := by
  have hothers : ∀ id', id' ≠ id → none = some id' → none = some id' := fun _ _ hid => hid
  have hremoved : ∀ w' : Worker, w.SameElsewhere w' id → w'.entry id = none → w'.Tracked none := by
    intro w' hsame hnone
    refine h.update hsame hothers fun state hentry => ?_
    rw [hnone] at hentry
    cases hentry
  unfold Worker.finishRequest at hfinish
  split at hfinish
  · cases hfinish
    exact h
  · rename_i state hentry
    dsimp only at hfinish
    split_ifs at hfinish
    · cases hfinish
      exact h
    · cases hfinish
      exact hremoved _ ⟨sameElsewhere_removeEntry.entry, fun _ _ h => h, fun _ _ h => h⟩
        ((entry_removeEntry (w := w)).trans (if_pos rfl))
    · cases hfinish
      exact hremoved _ ⟨sameElsewhere_removeEntry.entry, fun _ _ h => h, fun _ _ h => h⟩
        ((entry_removeEntry (w := w)).trans (if_pos rfl))
    · cases hfinish
      -- the retrieval has no request any more, and is enqueued for the next one
      refine Tracked.enqueue ?_ fun id' (hid : some id = some id') => (Option.some.inj hid).symm
      refine h.update ⟨sameElsewhere_setEntry.entry, fun _ _ h => h, fun _ _ h => h⟩ (fun _ _ hid => nomatch hid)
        fun state' hentry' hfinished => ?_
      change (w.setEntry id _).entry id = some state' at hentry'
      rw [entry_setEntry, if_pos rfl] at hentry'
      cases hentry'
      have hold := h id state hentry hfinished
      exact ⟨hold.queued, hold.query, .inl rfl⟩

/-! ### Where a handler leaves the retrievals -/

/-- Every retrieval is followed, and the queue is worked on unless the slots are full. -/
structure Steady (w : Worker) : Prop where
  tracked : w.Tracked w.control.retrieving
  full : w.control.retrieving = none → w.Full

theorem Steady.goto (h : w.Steady) {control : Control} (hidle : w.control.retrieving = none)
    (hcontrol : control.retrieving = none) : (w.goto control).Steady := by
  have htracked := h.tracked
  rw [hidle] at htracked
  refine ⟨?_, fun _ => h.full hidle⟩
  change w.Tracked control.retrieving
  rw [hcontrol]
  exact htracked

theorem steady_ensureNext (htracked : w.Tracked none) (hfull : w.Full) : (w.ensureNext rest).Steady := by
  cases rest with
  | nil | cons id rest => exact ⟨htracked, fun _ => hfull⟩

/-- The loop of `drive_pending`: a retrieval that is taken out of the queue is retrieved next, was stopped, or has a
request. -/
theorem steady_drivePendingFrom (pending : List VerificationId) (w : Worker) (h : { w with pending }.Tracked none) :
    (drivePendingFrom rest pending w).Steady := by
  induction pending generalizing w with
  | nil =>
    refine steady_ensureNext h fun id state hentry hfinished hqueued => ?_
    cases (h id state hentry hfinished).queued hqueued
  | cons id pending ih =>
    rw [drivePendingFrom]
    split
    · split
      · rename_i hnone
        have hsame : { w with pending := id :: pending }.SameElsewhere { w with pending } id :=
          ⟨fun _ _ => rfl, fun id' hne hmem => (List.mem_cons.1 hmem).resolve_left hne, fun _ _ h => h⟩
        refine ih w (h.update hsame (fun _ _ hid => hid) fun state hentry => ?_)
        change w.entry id = some state at hentry
        rw [hnone] at hentry
        cases hentry
      · rename_i state hentry
        -- the entry without the mark, while `pending` is what is left of the queue
        have hpopped : ∀ busy, (busy = some id ∨ state.finished = true ∨ state.active.isSome = true) →
            { w.setEntry id { state with queued := false } with pending }.Tracked busy := by
          intro busy hcase
          have hsame : { w with pending := id :: pending }.SameElsewhere
              { w.setEntry id { state with queued := false } with pending } id :=
            ⟨sameElsewhere_setEntry.entry, fun id' hne hmem => (List.mem_cons.1 hmem).resolve_left hne, fun _ _ h => h⟩
          refine h.update hsame (by rintro _ _ ⟨⟩) fun state' hentry' hfinished => ?_
          change (w.setEntry id _).entry id = some state' at hentry'
          rw [entry_setEntry, if_pos rfl] at hentry'
          cases hentry'
          refine ⟨(by rintro ⟨⟩), (h id state hentry hfinished).query, ?_⟩
          rcases hcase with hbusy | hstopped | hactive
          · exact .inl hbusy
          · rw [hfinished] at hstopped
            cases hstopped
          · exact .inr (.inl hactive)
        dsimp only
        split_ifs with hskip
        · rw [Bool.or_eq_true] at hskip
          exact ih _ (hpopped none (.inr hskip))
        · exact ⟨hpopped (some id) (.inl rfl), (by rintro ⟨⟩)⟩
    · rename_i hslots
      exact steady_ensureNext h fun _ _ _ _ _ => not_lt.1 hslots

theorem Tracked.drivePending (h : w.Tracked none) : (w.drivePending rest).Steady :=
  steady_drivePendingFrom w.pending w h

theorem Tracked.resumeGet {record : Option (Arc ProofRecord)} (h : w.Tracked none) (hfull : w.Full) :
    (w.resumeGet id rest record).Steady := by
  unfold Worker.resumeGet
  split
  · refine Tracked.drivePending ?_
    split
    · exact h.enqueue (fun _ hid => nomatch hid)
    · -- a new retrieval has nothing ahead until it is enqueued
      refine Tracked.enqueue ?_ fun id' (hid : some id = some id') => (Option.some.inj hid).symm
      refine h.update sameElsewhere_setEntry (fun _ _ hid => nomatch hid) fun state hentry _ => ?_
      rw [entry_setEntry, if_pos rfl] at hentry
      cases hentry
      exact ⟨(fun hqueued => nomatch hqueued), (fun hquery => nomatch hquery), .inl rfl⟩
  · exact steady_ensureNext (h.stopRetrieval fun _ _ hid => hid) hfull.stopRetrieval

theorem Tracked.resumeWaiting {waiting : List VerificationId} (h : w.Tracked none) (hfull : w.Full) :
    (w.resumeWaiting waiting).Steady := by
  have hloop : ∀ (ids : List VerificationId) (w : Worker), w.Tracked none → w.Full →
      (ids.foldl Worker.stopRetrieval w).Tracked none ∧ (ids.foldl Worker.stopRetrieval w).Full := by
    intro ids
    induction ids with
    | nil => exact fun w h hfull => ⟨h, hfull⟩
    | cons id ids ih => exact fun w h hfull => ih _ (h.stopRetrieval fun _ _ hid => hid) hfull.stopRetrieval
  obtain ⟨htracked, hfull⟩ := hloop _ w h hfull
  exact steady_ensureNext htracked hfull

/-! ### Replies -/

/-- After the reply of `providers` the retrieval waits for its query, is out of time, is queued, or goes on. -/
theorem Tracked.resumeProviders {attempted : Finset PeerId} {providers : List PeerId} {input : WorkerInput}
    (h : w.Tracked (some id)) (hresume : w.resumeProviders id attempted rest providers input = some w') :
    w'.Steady := by
  have hothers : ∀ id', id' ≠ id → some id = some id' → none = some id' :=
    fun id' hne hid => absurd (Option.some.inj hid).symm hne
  unfold Worker.resumeProviders at hresume
  split at hresume
  · split_ifs at hresume with hquery
    · cases hresume
      obtain ⟨state, hentry, hsome⟩ := (Option.any_eq_true _ _).1 hquery
      refine Tracked.drivePending (h.update ⟨fun _ _ => rfl, fun _ _ h => h, fun _ _ h => h⟩ hothers
        fun state' hentry' hfinished => ?_)
      obtain rfl : state = state' := Option.some.inj (hentry.symm.trans hentry')
      have hold := h id state hentry hfinished
      exact ⟨hold.queued, hold.query, .inr (.inr (.inr hsome))⟩
    · cases hresume
      exact Tracked.drivePending h.stopExpired
    · cases hresume
      exact ⟨h, (fun hnone => nomatch hnone)⟩
  · split at hresume
    · cases hresume
    · split_ifs at hresume
      · cases hresume
        exact Tracked.drivePending h.stopExpired
      · cases hresume
        exact Tracked.drivePending (h.enqueue fun id' hid => (Option.some.inj hid).symm)
      · cases hresume
        exact ⟨h, (fun hnone => nomatch hnone)⟩

def Running (w : Worker) : Prop := ∀ result, w.control ≠ .returned result

theorem Tracked.resumeRequestProof {peer : PeerId} {reply : Except Error ProofRequestId} {input : WorkerInput}
    (h : w.Tracked (some id)) (hrunning : (w.resumeRequestProof id peer rest reply input).Running) :
    (w.resumeRequestProof id peer rest reply input).Steady := by
  unfold Worker.resumeRequestProof at hrunning ⊢
  split at hrunning
  · exact h.startRequest.drivePending
  · exact ⟨h.addAttempted, (fun hnone => nomatch hnone)⟩
  · exact (h.stopRetrieval fun id' hne hid => absurd (Option.some.inj hid).symm hne).drivePending
  · exact absurd rfl (hrunning _)

theorem Tracked.resumeQueryAvailability {reply : Except Error QueryId} {input : WorkerInput} (h : w.Tracked (some id))
    (hresume : w.resumeQueryAvailability id rest reply input = some w') (hrunning : w'.Running) : w'.Steady := by
  unfold Worker.resumeQueryAvailability at hresume
  split at hresume
  · split at hresume
    · cases hresume
    · rename_i hretry
      obtain ⟨_, hok, -⟩ := scheduleRetry_startQuery hretry
      cases hok
    · rename_i hretry
      cases hresume
      exact (h.scheduleRetry hretry).drivePending
  · cases hresume
    exact (h.stopRetrieval fun id' hne hid => absurd (Option.some.inj hid).symm hne).drivePending
  · cases hresume
    exact absurd rfl (hrunning _)

theorem Steady.reply {input : WorkerInput} {call : DriverCall} {reply : Except Error Reply} (h : w.Steady)
    (hcontrol : w.control = .waiting call) (hresume : w.resumeCall input call reply = some w') (hrunning : w'.Running) :
    w'.Steady := by
  have htracked := h.tracked
  have hfull := h.full
  rw [hcontrol] at htracked hfull
  unfold Worker.resumeCall at hresume
  split at hresume
  · cases hresume
    exact ⟨htracked, fun _ => hfull rfl⟩
  · cases hresume
    exact Tracked.drivePending htracked
  · cases hresume
    exact Tracked.drivePending htracked
  · cases hresume
    rename_i ids
    cases ids <;> exact ⟨htracked, fun _ => hfull rfl⟩
  · cases hresume
    rename_i ids
    cases ids <;> exact ⟨htracked, fun _ => hfull rfl⟩
  · exact Tracked.resumeProviders htracked hresume
  · cases hresume
    exact Tracked.resumeRequestProof htracked hrunning
  · cases hresume
    exact Tracked.resumeRequestProof htracked hrunning
  · exact Tracked.resumeQueryAvailability htracked hresume hrunning
  · exact Tracked.resumeQueryAvailability htracked hresume hrunning
  · cases hresume
    exact absurd rfl (hrunning _)
  · cases hresume

/-! ### Handlers -/

theorem Steady.afterFinish {result : Except String Worker} (h : w.Steady) (hidle : w.control.retrieving = none)
    (hresult : ∀ w', result = .ok w' → w'.Tracked none) : (w.afterFinish false result).Steady := by
  cases result with
  | error message => exact h.goto hidle rfl
  | ok w' => exact (hresult w' rfl).drivePending

theorem Steady.resumeAttached (h : w.Steady) (hidle : w.control.retrieving = none) (requestId : ProofRequestId)
    (peer : PeerId) (id : VerificationId) (stored : Except Error StoreChange) (now : Instant) :
    (w.resumeAttached requestId peer id stored now false).Steady := by
  have htracked : w.Tracked none := hidle ▸ h.tracked
  unfold Worker.resumeAttached
  split
  · exact h.afterFinish hidle fun _ => htracked.finishRequest
  · exact h.afterFinish hidle fun _ => htracked.finishRequest
  · exact h.afterFinish hidle fun _ => htracked.finishRequest
  · refine h.afterFinish hidle fun w' hresult => ?_
    cases hfinish : w.finishRequest id requestId peer true now with
    | error message =>
      rw [hfinish] at hresult
      cases hresult
    | ok w'' =>
      rw [hfinish] at hresult
      cases hresult
      exact (htracked.finishRequest hfinish).stopRetrieval fun _ _ hid => hid
  · exact h.goto hidle rfl

theorem Steady.driverEvent (h : w.Steady) (hidle : w.control.retrieving = none) (event : DriverEvent) (now : Instant) :
    (w.handleDriverEvent now false event).Steady := by
  have htracked : w.Tracked none := hidle ▸ h.tracked
  unfold Worker.handleDriverEvent
  split
  · exact h.goto hidle rfl
  · exact h.goto hidle rfl
  · exact h.afterFinish hidle fun _ => htracked.finishRequest
  · exact h.afterFinish hidle fun _ => htracked.finishRequest
  · split <;> exact h.goto hidle rfl
  · rw [if_neg Bool.false_ne_true]
    split
    · -- the retrieval whose query is cleared is enqueued in the same step
      exact (htracked.clearQuery.enqueue fun id' hid => (Option.some.inj hid).symm).drivePending
    · exact h.goto hidle rfl
  · exact h.goto hidle rfl
  · exact h.goto hidle rfl
  · exact h.goto hidle rfl

theorem Steady.storeEvent (h : w.Steady) (hidle : w.control.retrieving = none) (event : ProofStoreEvent) :
    (w.handleStoreEvent false event).Steady := by
  have htracked : w.Tracked none := hidle ▸ h.tracked
  have hstop : ∀ id, (w.stopRetrieval id).Tracked none := fun id => htracked.stopRetrieval fun _ _ hid => hid
  unfold Worker.handleStoreEvent
  rw [if_neg Bool.false_ne_true]
  cases event with
  | verificationObserved id => exact h.goto hidle rfl
  | proofStored id source | proofEvicted id cause => exact ⟨hstop id, fun _ => (h.full hidle).stopRetrieval⟩
  | verificationChanged id state => exact (hstop id).drivePending

theorem Steady.wake {i : Nat} {wake : RetrievalWake} {now : Instant} (h : w.Steady)
    (hidle : w.control.retrieving = none) (hwake : w.wakes[i]? = some wake) :
    ({ w with wakes := w.wakes.eraseIdx i }.handleWake wake now).Steady := by
  have htracked : w.Tracked none := hidle ▸ h.tracked
  have hkept : ∀ other ∈ w.wakes, other ≠ wake → other ∈ w.wakes.eraseIdx i := by
    intro other hmem hne
    obtain ⟨j, hj⟩ := List.getElem?_of_mem hmem
    refine List.mem_eraseIdx_iff_getElem?.2 ⟨j, fun hij => hne ?_, hj⟩
    rw [hij, hwake] at hj
    exact (Option.some.inj hj).symm
  have hsame : ∀ w' : Worker, (∀ id', id' ≠ wake.verificationId → w'.entry id' = w.entry id') →
      w'.pending = w.pending → w'.wakes = w.wakes.eraseIdx i → w.SameElsewhere w' wake.verificationId := by
    intro w' hentry hpending hwakes
    refine ⟨hentry, fun _ _ hmem => hpending ▸ hmem, fun other hne hmem => ?_⟩
    rw [hwakes]
    exact hkept other hmem fun heq => hne (congrArg RetrievalWake.verificationId heq)
  -- an old wake is not the one a query waits for
  have hold : (∀ state, w.entry wake.verificationId = some state → state.finished = false →
      state.timerGeneration ≠ wake.generation) → ({ w with wakes := w.wakes.eraseIdx i }.goto .idle).Steady := by
    intro hstale
    refine ⟨htracked.update (hsame _ (fun _ _ => rfl) rfl rfl) (fun _ _ hid => hid) fun state hentry hfinished => ?_,
      fun _ => h.full hidle⟩
    have hbefore := htracked _ state hentry hfinished
    refine ⟨hbefore.queued, fun hquery => ?_, hbefore.going⟩
    obtain ⟨other, hmem, hid, hgeneration⟩ := hbefore.query hquery
    refine ⟨other, hkept other hmem fun heq => hstale state hentry hfinished ?_, hid, hgeneration⟩
    rw [← hgeneration, heq]
  unfold Worker.handleWake
  split
  · rename_i hnone
    refine hold fun state hentry => ?_
    have hnone' : w.entry wake.verificationId = none := hnone
    rw [hnone'] at hentry
    cases hentry
  · rename_i state hentry
    have hentry' : w.entry wake.verificationId = some state := hentry
    have hcleared : ({ w with wakes := w.wakes.eraseIdx i }.setEntry wake.verificationId
        { state with query := none }).Tracked (some wake.verificationId) := by
      refine htracked.update (hsame _ sameElsewhere_setEntry.entry rfl rfl) (fun _ _ hid => nomatch hid)
        fun state' hentry'' hfinished => ?_
      rw [entry_setEntry, if_pos rfl] at hentry''
      cases hentry''
      exact ⟨(htracked _ state hentry' hfinished).queued, (fun hquery => nomatch hquery), .inl rfl⟩
    dsimp only
    split_ifs with hskip
    · refine hold fun state' hentry'' hfinished => ?_
      obtain rfl : state = state' := Option.some.inj (hentry'.symm.trans hentry'')
      rw [hfinished, Bool.or_false, decide_eq_true_eq] at hskip
      exact hskip
    · refine ⟨hcleared.stopExpired, fun _ => Full.stopRetrieval ?_⟩
      intro id' state' hentry'' hfinished hqueued
      change (w.setEntry wake.verificationId { state with query := none }).entry id' = some state' at hentry''
      rw [entry_setEntry] at hentry''
      split at hentry''
      · cases hentry''
        exact h.full hidle _ state hentry' hfinished hqueued
      · exact h.full hidle id' state' hentry'' hfinished hqueued
    · exact (hcleared.enqueue fun id' hid => (Option.some.inj hid).symm).drivePending

theorem query_handleWake {wake : RetrievalWake} {now : Instant} (hentry : w.entry wake.verificationId = some state)
    (hfinished : state.finished = false) (hgeneration : wake.generation = state.timerGeneration)
    {state' : RetrievalState} (hafter : (w.handleWake wake now).entry wake.verificationId = some state') :
    state'.query = none := by
  rw [Worker.handleWake, hentry] at hafter
  dsimp only at hafter
  rw [hgeneration, if_neg (by simp [hfinished])] at hafter
  split at hafter
  · change (Worker.stopRetrieval _ _).entry _ = some state' at hafter
    unfold Worker.stopRetrieval at hafter
    split at hafter
    · rename_i hnone
      rw [hnone] at hafter
      cases hafter
    · split at hafter
      · rw [entry_removeEntry, if_pos rfl] at hafter
        cases hafter
      · rw [entry_setEntry, if_pos rfl] at hafter
        cases hafter
        rfl
  · have hunmarked : (some state').map RetrievalState.unmarked = _ :=
      (congrArg _ hafter).symm.trans (unmarked_drivePending.trans unmarked_enqueue)
    rw [entry_setEntry, if_pos rfl] at hunmarked
    exact congrArg RetrievalState.query (Option.some.inj hunmarked)

theorem Steady.store {access : StoreAccess} {answer : StoreAnswer} {now : Instant} (h : w.Steady)
    (hcontrol : w.control = .store access) (hresume : w.resumeStore now false access answer = some w') : w'.Steady := by
  have hidle : w.control.retrieving = none := by
    rw [hcontrol]
    rfl
  have htracked : w.Tracked none := hidle ▸ h.tracked
  unfold Worker.resumeStore at hresume
  split at hresume
  · cases hresume
    exact h.goto hidle rfl
  · cases hresume
    exact h.goto hidle rfl
  · cases hresume
    exact h.resumeAttached hidle _ _ _ _ _
  · cases hresume
    exact h.goto hidle rfl
  · cases hresume
    exact htracked.resumeWaiting (h.full hidle)
  · cases hresume
    exact htracked.resumeGet (h.full hidle)
  · cases hresume

end Worker

/-! ### The worker task -/

namespace WorkerTask

variable {s t : WorkerTask}

/-- Outside a drain, and until `run` returns, every retrieval is followed. -/
def Progresses (s : WorkerTask) : Prop := s.draining = false → s.worker.Running → s.worker.Steady

theorem steady_select {event : WorkerEvent} (h : s.worker.Steady) (hidle : s.worker.control = .idle)
    (hdraining : s.draining = false) (hselect : s.select event = some t) : t.Progresses := by
  have hretrieving : s.worker.control.retrieving = none := by
    rw [hidle]
    rfl
  intro hafter hrunning
  unfold select at hselect
  rw [hdraining] at hselect
  split at hselect
  · cases hselect
    cases hafter
  · cases hselect
    exact h.driverEvent hretrieving _ _
  · rename_i event
    cases hselect
    refine Worker.Steady.storeEvent ?_ ?_ event
    · cases event <;> exact ⟨h.tracked, h.full⟩
    · cases event <;> exact hretrieving
  · cases hselect
    exact h.goto hretrieving rfl
  · cases hselect
    exact absurd rfl (hrunning _)
  · split at hselect
    · cases hselect
    · rename_i hwake
      split_ifs at hselect
      cases hselect
      exact h.wake hretrieving hwake
  · cases hselect

theorem draining_select {event : WorkerEvent} (h : s.draining = true) (hselect : s.select event = some t) :
    t.draining = true := by
  unfold select at hselect
  rw [h] at hselect
  split at hselect
  · cases hselect
  · cases hselect
    rfl
  · cases hselect
    rfl
  · cases hselect
    exact h
  · cases hselect
    rfl
  · split at hselect
    · cases hselect
    · cases hselect
  · cases hselect
    rfl

theorem Progresses.next {a : WorkerAction} (h : s.Progresses) (hnext : s.next a = some t) : t.Progresses := by
  have hsteady : ∀ control, s.worker.control = control → (∀ result, control ≠ .returned result) → s.draining = false →
      s.worker.Steady := by
    rintro control rfl hrunning hdraining
    exact h hdraining hrunning
  unfold WorkerTask.next at hnext
  split at hnext
  · split at hnext
    · rename_i hidle
      cases hdraining : s.draining with
      | false => exact steady_select (hsteady _ hidle (fun _ h => nomatch h) hdraining) hidle hdraining hnext
      | true =>
        intro hafter
        rw [draining_select hdraining hnext] at hafter
        cases hafter
    · cases hnext
  · split at hnext
    · rename_i call hcontrol
      cases hnext
      intro hdraining _
      have hs := hsteady _ hcontrol (fun _ h => nomatch h) hdraining
      obtain ⟨htracked, hfull⟩ := hs
      rw [hcontrol] at htracked hfull
      exact ⟨htracked, hfull⟩
    · cases hnext
  · split at hnext
    · rename_i hcontrol
      obtain ⟨worker, hresume, rfl⟩ := Option.map_eq_some_iff.1 hnext
      intro hdraining hrunning
      exact (hsteady _ hcontrol (fun _ h => nomatch h) hdraining).reply hcontrol hresume hrunning
    · cases hnext
  · split at hnext
    · rename_i hcontrol
      obtain ⟨worker, hresume, rfl⟩ := Option.map_eq_some_iff.1 hnext
      intro hdraining _
      have hdraining' : s.draining = false := hdraining
      rw [hdraining'] at hresume
      exact (hsteady _ hcontrol (fun _ h => nomatch h) hdraining).store hcontrol hresume
    · cases hnext

theorem reachable_progresses {localPeerId : PeerId} {config : P2pConfig} (h : (lts localPeerId config).Reachable s) :
    s.Progresses := by
  refine h.invariant (P := Progresses) ?_ ?_
  · rintro s rfl _ _
    refine ⟨fun id state hentry => ?_, fun _ id state hentry => ?_⟩
    · cases hentry
    · cases hentry
  · intro s a t _ hs hnext
    exact hs.next hnext

end WorkerTask

/-- Outside a drain and between two handlers, every retrieval that is not finished has an active request, or is in the
queue while all slots are taken, or has a query and the wake that goes with it; and when that wake is due, it is not
taken for an old one, but ends the query.  The deadline that `schedule_retry` expects is always there, and the worker
never panics. -/
theorem retrieval_never_stalls (localPeerId : PeerId) (config : P2pConfig) (s : WorkerTask)
    (hs : (WorkerTask.lts localPeerId config).Reachable s) :
    (s.draining = false → s.worker.control = .idle →
      ∀ id state, s.worker.entry id = some state → state.finished = false →
        (state.active.isSome = true ∨
          (state.queued = true ∧ id ∈ s.worker.pending ∧
            s.worker.activeRetrievals = config.maxConcurrentRetrievals) ∨
          (state.query.isSome = true ∧
            ∃ wake ∈ s.worker.wakes, wake.verificationId = id ∧ wake.generation = state.timerGeneration)) ∧
        ∀ i wake now, s.worker.wakes[i]? = some wake → wake.verificationId = id →
          wake.generation = state.timerGeneration → wake.due ≤ now →
          ∃ t, s.next (.select (.wake i now)) = some t ∧
            ∀ state', t.worker.entry id = some state' → state'.query = none) ∧
    (∀ id queryId now delay later message,
      (s.worker.startQuery id queryId now).scheduleRetry id delay later ≠ some (.error message)) ∧
    ∀ message, s.worker.control ≠ .panicked message := by
  have hslots := WorkerTask.reachable_slots hs
  refine ⟨fun hdraining hidle id state hentry hfinished => ⟨?_, fun i wake now hwake hid hgeneration hdue => ?_⟩,
    fun id queryId now delay later message hretry => ?_, hslots.not_panicked⟩
  · have hsteady := WorkerTask.reachable_progresses hs hdraining fun result hreturned => by
      rw [hidle] at hreturned
      cases hreturned
    have hnone : s.worker.control.retrieving = none := by
      rw [hidle]
      rfl
    have hfollowed := hsteady.tracked id state hentry hfinished
    rcases hfollowed.going with hbusy | hactive | hqueued | hquery
    · rw [hnone] at hbusy
      cases hbusy
    · exact .inl hactive
    · refine .inr (.inl ⟨hqueued, hfollowed.queued hqueued, le_antisymm hslots.bounded ?_⟩)
      rw [← hslots.configured]
      exact hsteady.full hnone id state hentry hfinished hqueued
    · exact .inr (.inr ⟨hquery, hfollowed.query hquery⟩)
  · subst hid
    refine ⟨{ s with worker := { s.worker with wakes := s.worker.wakes.eraseIdx i }.handleWake wake now }, ?_, ?_⟩
    · simp only [WorkerTask.next, hidle, WorkerTask.select, hwake, hdraining]
      exact if_pos ⟨rfl, hdue⟩
    · intro state' hafter
      exact Worker.query_handleWake (w := { s.worker with wakes := s.worker.wakes.eraseIdx i }) hentry hfinished
        hgeneration hafter
  · obtain ⟨_, hok, -⟩ := Worker.scheduleRetry_startQuery hretry
    cases hok

open WorkerTask in
/-- A worker with one slot and three records of the chain: a peer provides the first proof, nobody the second one. -/
private def crowdedRetrievals (waiting queried queued : VerificationId) : List WorkerAction :=
  [.store (.ids []) 0] ++ calls 0 .unit ++ [.store (.ids [queried, waiting, queued]) 0, .store .waitingRecord 0] ++
    calls 0 (.providers []) ++ calls 0 (.queryId NetworkOutcome.calm.queryId) ++ [.store .waitingRecord 0] ++
    calls 0 (.providers [.there]) ++ calls 0 (.requestId 1) ++ [.store .waitingRecord 0]

private theorem length_repeated (n : UInt8) : (List.replicate verificationIdLen n).length = verificationIdLen :=
  List.length_replicate

/-- The identifier that is the byte `n` repeated. -/
private def repeated (n : UInt8) : VerificationId := ⟨⟨List.replicate verificationIdLen n, length_repeated n⟩⟩

/-- A retrieval with its request, one with its wake and one in the queue, side by side. -/
theorem retrieval_never_stalls_crowded :
    ∃ s active queried queued, (WorkerTask.lts .here { P2pConfig.small with
      maxConcurrentRetrievals := 1 }).Reachable s ∧
      s.draining = false ∧ s.worker.control = .idle ∧
      (s.worker.entry (repeated 1) = some active ∧ active.finished = false ∧ active.active.isSome = true) ∧
      (s.worker.entry (repeated 2) = some queried ∧ queried.finished = false ∧ queried.active = none ∧
        ∃ wake ∈ s.worker.wakes, wake.verificationId = repeated 2 ∧ wake.generation = queried.timerGeneration) ∧
      (s.worker.entry (repeated 3) = some queued ∧ queued.finished = false ∧ queued.active = none ∧
        repeated 3 ∈ s.worker.pending ∧ s.worker.activeRetrievals = 1) := by
  have hrun : (Lts.exec WorkerTask.next
      (WorkerTask.initial .here { P2pConfig.small with maxConcurrentRetrievals := 1 })
      (crowdedRetrievals (repeated 1) (repeated 2) (repeated 3))).any (fun s =>
        (!s.draining && s.worker.control.isIdle) &&
        ((s.worker.entry (repeated 1)).any (fun state => !state.finished && state.active.isSome) &&
        ((s.worker.entry (repeated 2)).any (fun state => !state.finished && (state.active.isNone && !state.queued)) &&
        (s.worker.entry (repeated 3)).any
          (fun state => !state.finished && (state.active.isNone && state.query.isNone))))) = true := by
    decide +kernel
  obtain ⟨s, hs, htest⟩ := (Option.any_eq_true _ _).1 hrun
  simp only [Bool.and_eq_true, Option.any_eq_true, Bool.not_eq_true', Option.isNone_iff_eq_none] at htest
  obtain ⟨⟨hdraining, hrest⟩, ⟨active, hentry₁, hlive₁, hactive₁⟩, ⟨queried, hentry₂, hlive₂, hactive₂, hqueued₂⟩,
    ⟨queued, hentry₃, hlive₃, hactive₃, hquery₃⟩⟩ := htest
  have hidle := Control.isIdle_iff.1 hrest
  have hreachable : (WorkerTask.lts .here { P2pConfig.small with maxConcurrentRetrievals := 1 }).Reachable s :=
    ⟨_, _, rfl, Lts.run_of_exec hs⟩
  have hstates := (retrieval_never_stalls _ _ s hreachable).1 hdraining hidle
  refine ⟨s, active, queried, queued, hreachable, hdraining, hidle, ⟨hentry₁, hlive₁, hactive₁⟩,
    ⟨hentry₂, hlive₂, hactive₂, ?_⟩, ⟨hentry₃, hlive₃, hactive₃, ?_⟩⟩
  · rcases (hstates _ queried hentry₂ hlive₂).1 with hactive | ⟨hqueued, -⟩ | ⟨-, hwake⟩
    · rw [hactive₂] at hactive
      cases hactive
    · rw [hqueued₂] at hqueued
      cases hqueued
    · exact hwake
  · rcases (hstates _ queued hentry₃ hlive₃).1 with hactive | ⟨-, hpending, hslots⟩ | ⟨hquery, -⟩
    · rw [hactive₃] at hactive
      cases hactive
    · exact ⟨hpending, hslots⟩
    · rw [hquery₃] at hquery
      cases hquery

end PulsarVerifier
