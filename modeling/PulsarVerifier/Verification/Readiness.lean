import PulsarVerifier.Store.Content
import PulsarVerifier.Verification.System

/-!
# No ready record is lost

The worker learns of a ready record by its `Queued` event, by the snapshot it takes after a lag, or by reading the
record again when it commits a job of the same identifier.  It forgets a pending identifier on a `ProofEvicted` event.
Events arrive in the order in which they are sent, and a record that comes after an eviction sends its `Queued` event
after the eviction has sent its own: behind every `ProofEvicted` event of a queued record there is a `Queued` event
(`Renewed`).  So the mechanisms cover each other, and a worker that waits has every queued record pending, active or
announced (`queued_attended`).
-/

namespace PulsarVerifier

/-! ### What is pending -/

namespace VerificationWorker

variable {w : VerificationWorker} {id id' : VerificationId}

/-- The pending identifiers are listed once, and none of them has a job. -/
structure Tidy (w : VerificationWorker) : Prop where
  nodup : w.pending.Nodup
  mem_iff : ∀ id, id ∈ w.pending ↔ id ∈ w.pendingIds
  inactive : ∀ id ∈ w.pending, id ∉ w.activeIds

@[simp] theorem enqueue_activeIds (w : VerificationWorker) (id : VerificationId) :
    (w.enqueue id).activeIds = w.activeIds := by
  unfold enqueue
  split <;> rfl

@[simp] theorem enqueue_phase (w : VerificationWorker) (id : VerificationId) : (w.enqueue id).phase = w.phase := by
  unfold enqueue
  split <;> rfl

@[simp] theorem removePending_activeIds (w : VerificationWorker) (id : VerificationId) :
    (w.removePending id).activeIds = w.activeIds := by
  unfold removePending
  split <;> rfl

theorem handleStoreResult_event {w' : VerificationWorker} {keys : List VerificationId} {event : ProofStoreEvent}
    (h : w.handleStoreResult keys (.event event) = .ok w') :
    (∃ id, event = .verificationChanged id .queued ∧ w' = w.enqueue id) ∨
    (∃ id cause, event = .proofEvicted id cause ∧ w' = w.removePending id) ∨ w' = w := by
  unfold handleStoreResult at h
  split at h
  · rename_i id hevent
    cases hevent
    cases h
    exact .inl ⟨id, rfl, rfl⟩
  · rename_i id cause hevent
    cases hevent
    cases h
    exact .inr (.inl ⟨id, cause, rfl, rfl⟩)
  · cases h
    exact .inr (.inr rfl)
  · rename_i hevent
    cases hevent
  · rename_i hevent
    cases hevent

namespace Tidy

theorem mem_enqueue (hw : w.Tidy) : id' ∈ (w.enqueue id).pending ↔ id' ∈ w.pending ∨ (id' = id ∧ id ∉ w.activeIds) := by
  unfold enqueue
  split
  · rename_i hnew
    simp [hnew.1]
  · rename_i hold
    refine (or_iff_left_of_imp ?_).symm
    rintro ⟨rfl, hactive⟩
    rw [hw.mem_iff]
    by_contra hpending
    exact hold ⟨hactive, hpending⟩

theorem enqueue (hw : w.Tidy) (id : VerificationId) : (w.enqueue id).Tidy := by
  refine ⟨?_, ?_, ?_⟩
  · unfold VerificationWorker.enqueue
    split
    · rename_i hnew
      rw [List.nodup_append]
      refine ⟨hw.nodup, List.nodup_singleton _, fun a ha b hb => ?_⟩
      rintro rfl
      rw [List.mem_singleton.1 hb] at ha
      exact hnew.2 ((hw.mem_iff id).1 ha)
    · exact hw.nodup
  · intro id'
    unfold VerificationWorker.enqueue
    split
    · simp [hw.mem_iff, or_comm]
    · exact hw.mem_iff id'
  · intro id' hid'
    rw [enqueue_activeIds]
    rcases hw.mem_enqueue.1 hid' with hold | ⟨rfl, hactive⟩
    · exact hw.inactive id' hold
    · exact hactive

theorem mem_removePending (hw : w.Tidy) : id' ∈ (w.removePending id).pending ↔ id' ∈ w.pending ∧ id' ≠ id := by
  unfold VerificationWorker.removePending
  split
  · simp
  · rename_i hnot
    refine (and_iff_left_of_imp ?_).symm
    rintro hid' rfl
    exact hnot ((hw.mem_iff id').1 hid')

theorem removePending (hw : w.Tidy) (id : VerificationId) : (w.removePending id).Tidy := by
  refine ⟨?_, ?_, ?_⟩
  · unfold VerificationWorker.removePending
    split
    · exact hw.nodup.filter _
    · exact hw.nodup
  · intro id'
    unfold VerificationWorker.removePending
    split
    · simp [hw.mem_iff, and_comm]
    · exact hw.mem_iff id'
  · intro id' hid'
    rw [removePending_activeIds]
    exact hw.inactive id' (hw.mem_removePending.1 hid').1

theorem withPhase (hw : w.Tidy) (phase : WorkerPhase) : ({ w with phase } : VerificationWorker).Tidy :=
  ⟨hw.nodup, hw.mem_iff, hw.inactive⟩

theorem of_pending_nil (h : w.pending = []) (h' : w.pendingIds = ∅) : w.Tidy :=
  ⟨by rw [h]; exact List.nodup_nil, by simp [h, h'], by simp [h]⟩

theorem foldl_enqueue (hw : w.Tidy) (ready : List VerificationId) :
    (ready.foldl VerificationWorker.enqueue w).Tidy ∧
    (ready.foldl VerificationWorker.enqueue w).activeIds = w.activeIds ∧
    ∀ id, id ∈ (ready.foldl VerificationWorker.enqueue w).pending ↔
      id ∈ w.pending ∨ (id ∈ ready ∧ id ∉ w.activeIds) := by
  induction ready generalizing w with
  | nil => exact ⟨hw, rfl, by simp⟩
  | cons first ready ih =>
    obtain ⟨htidy, hactive, hmem⟩ := ih (hw.enqueue first)
    refine ⟨htidy, hactive.trans (enqueue_activeIds w first), fun id => ?_⟩
    rw [List.foldl_cons, hmem, hw.mem_enqueue, enqueue_activeIds, List.mem_cons, or_assoc]
    refine or_congr_right ?_
    constructor
    · rintro (⟨rfl, hinactive⟩ | ⟨hready, hinactive⟩)
      · exact ⟨.inl rfl, hinactive⟩
      · exact ⟨.inr hready, hinactive⟩
    · rintro ⟨rfl | hready, hinactive⟩
      · exact .inl ⟨rfl, hinactive⟩
      · exact .inr ⟨hready, hinactive⟩

end Tidy

end VerificationWorker

section

variable [Sha256] {s t : VerificationSystem} {a : VerificationAction}

theorem ProofStore.beginVerification_verificationId {store : ProofStore} {id : VerificationId} {job : VerificationJob}
    (h : (store.beginVerification id).result = .ok (some job)) : job.verificationId = id := by
  rcases store.beginVerification_cases id with ⟨-, hnone, -⟩ | ⟨r, proof, -, -, hsome⟩
  · cases hnone.symm.trans h
  · cases hsome.symm.trans h
    rfl

theorem VerificationEffect.tidy (heffect : VerificationEffect s a t) (hs : s.worker.Tidy) : t.worker.Tidy := by
  have hpopped : ∀ {id rest}, s.worker.pending = id :: rest → (s.worker.popped id rest).Tidy ∧ id ∉ rest := by
    intro id rest hpending
    have hnodup := hs.nodup
    rw [hpending, List.nodup_cons] at hnodup
    refine ⟨⟨hnodup.2, fun id' => ?_, fun id' hid' => ?_⟩, hnodup.1⟩
    · have hmem := hs.mem_iff id'
      rw [hpending, List.mem_cons] at hmem
      simp only [VerificationWorker.popped, Finset.mem_erase, ← hmem]
      constructor
      · intro hid'
        refine ⟨?_, .inr hid'⟩
        rintro rfl
        exact hnodup.1 hid'
      · rintro ⟨hne, rfl | hid'⟩
        · exact absurd rfl hne
        · exact hid'
    · exact hs.inactive id' (by rw [hpending]; exact List.mem_cons_of_mem _ hid')
  cases heffect with
  | operation a hfinish hevict | evict id cause hsome | publish i event rest hi | requestStop => exact hs
  | endJob i behaviour job verifier hi => exact ⟨hs.nodup, hs.mem_iff, hs.inactive⟩
  | flush event rest houtbox => exact hs
  | reconcile houtbox hphase => exact .of_pending_nil rfl rfl
  | visit id remaining ready houtbox hphase => exact hs.withPhase _
  | collect ready houtbox hphase => exact (hs.foldl_enqueue ready).1.withPhase _
  | stopTop houtbox hphase hstop => exact .of_pending_nil rfl rfl
  | starting houtbox hphase | select houtbox hphase => exact hs.withPhase _
  | skip id rest houtbox hphase hpending hactive => exact (hpopped hpending).1
  | claim id rest result houtbox hphase hslot hstop hpending hactive hresult =>
    obtain ⟨htidy, hid⟩ := hpopped hpending
    match result with
    | .error error => exact htidy.withPhase _
    | .ok none => exact htidy
    | .ok (some job) =>
      refine ⟨htidy.nodup, htidy.mem_iff, fun id' hid' hmem => ?_⟩
      rcases Finset.mem_insert.1 hmem with rfl | hold
      · rw [ProofStore.beginVerification_verificationId hresult] at hid'
        exact hid hid'
      · exact htidy.inactive id' hid' hold
  | takeStop houtbox hphase hstop => exact .of_pending_nil rfl rfl
  | receive result receiver worker houtbox hphase hrecv hworker =>
    unfold VerificationWorker.handleStoreResult at hworker
    split at hworker <;> cases hworker
    · exact (hs.withPhase _).enqueue _
    · exact (hs.withPhase _).removePending _
    · exact hs.withPhase _
    · exact .of_pending_nil rfl rfl
  | closed result receiver error houtbox hphase hrecv hworker' => exact hs.withPhase _
  | joinPanic i now draining message houtbox hphase hi => exact ⟨hs.nodup, hs.mem_iff, hs.inactive⟩
  | join i now draining completion result houtbox hphase hi hresult =>
    have hinactive : ∀ id ∈ s.worker.pending, id ∉ s.worker.activeIds.erase completion.job.verificationId :=
      fun id hid hmem => hs.inactive id hid (Finset.mem_of_mem_erase hmem)
    cases result <;> exact ⟨hs.nodup, hs.mem_iff, hinactive⟩
  | requeue id draining houtbox hphase =>
    simp only [VerificationWorker.requeue]
    split
    · exact (hs.withPhase _).enqueue id
    · exact hs.withPhase _
  | finish houtbox hphase hjobs => exact hs.withPhase _

/-! ### Queued records and their events -/

/-- The record of the identifier waits for a job. -/
def ProofStore.Queued (store : ProofStore) (id : VerificationId) : Prop :=
  ∃ e, store.get id = some e ∧ e.value.metadata.verification = some .queued

theorem RecordMove.queued {maxBytes : Nat} {a : StoreAction} {id : VerificationId} {old : Option (Arc ProofRecord)}
    {r : ProofRecord} (hmove : RecordMove maxBytes a id old r) (h : r.metadata.verification = some .queued) :
    .verificationChanged id .queued ∈ moveEvents id r a := by
  have hready : .verificationChanged id .queued ∈ readyEvents id r := by
    unfold readyEvents
    rw [if_pos h]
    exact List.mem_singleton_self _
  cases hmove with
  | observeNew now id => cases h
  | observe now id e h => exact List.mem_cons_of_mem _ hready
  | insertNew now proof source hlen => cases h
  | insert now proof source e hlen h | attach now proof peer e hlen ho h => exact List.mem_cons_of_mem _ hready
  | begin id e ho hp hv => cases h
  | finish now job outcome e hptr hv => cases outcome <;> cases h
  | retry id e failure hv hr => exact List.mem_singleton_self _

/-- A record is queued after an action if it was before, or if the action announces it. -/
theorem StoreSystem.perform_queued {stores : StoreSystem} {a : StoreAction} {id : VerificationId}
    (h : (stores.perform a).1.store.Queued id) :
    (stores.store.Queued id ∧ ∀ cause, a ≠ .evict id cause) ∨
      .verificationChanged id .queued ∈ (stores.perform a).2 := by
  obtain ⟨e, he, hqueued⟩ := h
  rcases stores.perform_cases a with ⟨hsame, hevents⟩ | ⟨id', r, hmove, hput, hevents, -⟩ |
    ⟨id', cause, rfl, hevicted, -⟩
  · by_cases hevict : ∃ cause, a = .evict id cause
    · obtain ⟨cause, rfl⟩ := hevict
      cases hevents
    · rw [hsame] at he
      exact .inl ⟨⟨e, he, hqueued⟩, fun cause hcause => hevict ⟨cause, hcause⟩⟩
  · by_cases hid : id = id'
    · subst hid
      rw [hput, ProofStore.get_put_self] at he
      cases he
      rw [hevents]
      exact .inr (hmove.queued hqueued)
    · rw [hput, ProofStore.get_put_of_ne hid] at he
      refine .inl ⟨⟨e, he, hqueued⟩, fun cause hcause => ?_⟩
      subst hcause
      cases hmove
  · by_cases hid : id = id'
    · rw [hevicted, hid, ProofStore.get_evict_self] at he
      cases he
    · rw [hevicted, ProofStore.get_evict_of_ne hid] at he
      refine .inl ⟨⟨e, he, hqueued⟩, fun cause hcause => hid ?_⟩
      cases hcause
      rfl

theorem StoreSystem.queued_notMem_perform (stores : StoreSystem) {a : StoreAction} {id : VerificationId}
    (ha : (∃ id', a = .beginVerification id') ∨ ∃ now job outcome, a = .finishVerification now job outcome) :
    .verificationChanged id .queued ∉ (stores.perform a).2 := by
  rcases stores.perform_cases a with ⟨-, hevents⟩ | ⟨id', r, -, -, hevents, -⟩ | ⟨id', cause, -, -, hevents⟩
  · rw [hevents]
    exact List.not_mem_nil
  · rw [hevents]
    rcases ha with ⟨id'', rfl⟩ | ⟨now, job, outcome, rfl⟩
    · simp [moveEvents]
    · cases outcome <;> simp [moveEvents, VerificationOutcome.state]
  · rw [hevents]
    simp

theorem ProofStore.Queued.ready {store : ProofStore} (hwf : store.WellFormed) {id : VerificationId}
    (h : store.Queued id) : ∃ e, store.get id = some e ∧ readyForVerification e.value = true := by
  obtain ⟨e, he, hqueued⟩ := h
  have hboth := (hwf id e he).verification_iff.1 (by rw [hqueued]; rfl)
  exact ⟨e, he, by simp [readyForVerification, hboth, hqueued]⟩

omit [Sha256] in
theorem ProofStore.Queued.mem_keys {store : ProofStore} {id : VerificationId} (h : store.Queued id) :
    id ∈ store.records.keys := by
  obtain ⟨e, he, -⟩ := h
  exact ProofStore.mem_keys_of_get he

theorem ProofStore.not_queued_beginVerification {store : ProofStore} (hwf : store.WellFormed) (id : VerificationId) :
    ¬ (store.beginVerification id).store.Queued id := by
  rcases store.beginVerification_cases id with ⟨⟨hstore, -⟩, -, hnot⟩ | ⟨r, proof, hmoves, -, -⟩
  · intro hqueued
    rw [hstore] at hqueued
    obtain ⟨e, he, hready⟩ := hqueued.ready hwf
    rw [hnot e he] at hready
    cases hready
  · rintro ⟨e, he, hqueued⟩
    rw [hmoves.store_eq, get_put_self] at he
    cases he
    have hmove := hmoves.move
    generalize store.get id = old at hmove
    cases hmove
    cases hqueued

/-! ### The invariant -/

/-- An event that makes the worker forget the identifier. -/
def ProofStoreEvent.Revokes (id : VerificationId) (event : ProofStoreEvent) : Prop :=
  ∃ cause, event = .proofEvicted id cause

/-- An event that makes the worker enqueue the identifier. -/
def ProofStoreEvent.Renews (id : VerificationId) (event : ProofStoreEvent) : Prop :=
  event = .verificationChanged id .queued

/-- The worker will read the record itself or enqueue it, or it claims no record any more. -/
def WorkerPhase.Recovers (id : VerificationId) : WorkerPhase → Prop
  | .reconciling | .draining | .returned _ => True
  | .snapshotting remaining ready => id ∈ remaining ∨ id ∈ ready
  | .requeueing id' stopped => id' = id ∨ stopped = true
  | .top | .starting | .selecting => False

/-- The worker has a queued record among its own. -/
def VerificationWorker.Knows (w : VerificationWorker) (id : VerificationId) : Prop :=
  id ∈ w.pending ∨ id ∈ w.activeIds ∨ w.phase.Recovers id

omit [Sha256] in
theorem VerificationWorker.Knows.enqueued {w : VerificationWorker} (hw : w.Tidy) (id : VerificationId) :
    (w.enqueue id).Knows id := by
  by_cases hid : id ∈ w.activeIds
  · exact .inr (.inl (by rw [VerificationWorker.enqueue_activeIds]; exact hid))
  · exact .inl (hw.mem_enqueue.2 (.inr ⟨rfl, hid⟩))

namespace VerificationSystem

/-- An operation of another task has committed, and its `Queued` event is still to be published. -/
def Publishing (s : VerificationSystem) (id : VerificationId) : Prop :=
  ∃ events ∈ s.publishing, .verificationChanged id .queued ∈ events

/-- The worker will hear of a queued record. -/
def Announced (s : VerificationSystem) (id : VerificationId) : Prop :=
  .verificationChanged id .queued ∈ s.receiver.queue ∨ s.Publishing id ∨ s.receiver.lagged = true

/-- Every queued record is attended to, and no eviction event can hide it. -/
structure Attentive (s : VerificationSystem) : Prop where
  wellFormed : s.stores.store.WellFormed
  tidy : s.worker.Tidy
  /-- only an eviction emits `ProofEvicted`, in the step that removes the record -/
  unrevoked : ∀ id, (∀ events ∈ s.publishing, ∀ event ∈ events, ¬ event.Revokes id) ∧ ∀ event ∈ s.outbox,
    ¬ event.Revokes id
  renewed : ∀ id, s.stores.store.Queued id → Renewed (·.Revokes id) (·.Renews id) s.receiver.queue ∨ s.Publishing id
  attends : ∀ id, s.stores.store.Queued id → s.worker.Knows id ∨ s.Announced id

variable {id : VerificationId}

theorem not_revokes_perform (stores : StoreSystem) {a : StoreAction} (hevict : ∀ id cause, a ≠ .evict id cause)
    (id : VerificationId) : ∀ event ∈ (stores.perform a).2, ¬ event.Revokes id := by
  rintro event hevent ⟨cause, rfl⟩
  exact stores.proofEvicted_notMem_perform hevict hevent

omit [Sha256] in
/-- An event that is sent by someone is not lost unless the receiver lags. -/
theorem Announced.send {event : ProofStoreEvent} {publishing : List (List ProofStoreEvent)}
    {outbox : List ProofStoreEvent}
    (h : s.Announced id) (hpublishing : s.Publishing id → event.Renews id ∨ ∃ events ∈ publishing,
      .verificationChanged id .queued ∈ events) :
    Announced { s with receiver := s.receiver.send s.capacity event, publishing, outbox } id := by
  have hsend : .verificationChanged id .queued ∈ s.receiver.queue ++ [event] →
      Announced { s with receiver := s.receiver.send s.capacity event, publishing, outbox } id := by
    intro hmem
    rcases Receiver.mem_send_or_lagged hmem with hqueue | hlagged
    · exact .inl hqueue
    · exact .inr (.inr hlagged)
  rcases h with hqueue | hpublish | hlagged
  · exact hsend (List.mem_append_left _ hqueue)
  · rcases hpublishing hpublish with hrenews | hlater
    · exact hsend (List.mem_append_right _ (by rw [hrenews]; exact List.mem_singleton_self _))
    · exact .inr (.inl hlater)
  · exact .inr (.inr (Receiver.lagged_send hlagged))

omit [Sha256] in
/-- A send of an event that is not an eviction keeps the renewals. -/
theorem renewed_send {event : ProofStoreEvent} (hevent : ¬ event.Revokes id)
    (h : Renewed (·.Revokes id) (·.Renews id) s.receiver.queue ∨ event.Renews id) :
    Renewed (·.Revokes id) (·.Renews id) (s.receiver.send s.capacity event).queue :=
  (Renewed.snoc hevent h).suffix (Receiver.queue_send_suffix _ _ _)

omit [Sha256] in
theorem Publishing.set {i : Nat} {event : ProofStoreEvent} {rest : List ProofStoreEvent}
    (hi : s.publishing[i]? = some (event :: rest)) (h : s.Publishing id) :
    event.Renews id ∨ ∃ events ∈ s.publishing.set i rest, .verificationChanged id .queued ∈ events := by
  obtain ⟨events, hevents, hmem⟩ := h
  obtain ⟨j, hj, rfl⟩ := List.getElem_of_mem hevents
  by_cases hij : i = j
  · subst hij
    rw [List.getElem?_eq_getElem hj] at hi
    rw [Option.some.inj hi] at hmem
    rcases List.mem_cons.1 hmem with hnow | hlater
    · exact .inl hnow.symm
    · exact .inr ⟨rest, List.mem_set hj rest, hlater⟩
  · refine .inr ⟨s.publishing[j], ?_, hmem⟩
    rw [List.mem_iff_getElem]
    exact ⟨j, by rwa [List.length_set], List.getElem_set_ne hij _⟩

theorem Attentive.receive (hs : s.Attentive) {result : Recv ProofStoreEvent} {receiver : Receiver ProofStoreEvent}
    {worker : VerificationWorker} (hphase : s.worker.phase = .selecting)
    (hrecv : s.receiver.recv = some (result, receiver))
    (hworker : { s.worker with phase := .top }.handleStoreResult s.stores.store.records.keys result = .ok worker)
    (htidy : worker.Tidy) : Attentive { s with receiver, worker } := by
  cases result with
  | closed => cases hworker
  | lagged =>
    -- the snapshot that starts here has every queued record still to visit
    obtain ⟨-, rfl⟩ := Receiver.recv_lagged hrecv
    cases hworker
    exact ⟨hs.wellFormed, htidy, hs.unrevoked, hs.renewed, fun id hqueued => .inl (.inr (.inr (.inl hqueued.mem_keys)))⟩
  | event event =>
    obtain ⟨hnotLagged, hqueue, -⟩ := Receiver.recv_event hrecv
    have hsuffix : receiver.queue <:+ s.receiver.queue := by
      rw [hqueue]
      exact List.suffix_cons _ _
    have hactive : worker.activeIds = s.worker.activeIds := by
      rcases VerificationWorker.handleStoreResult_event hworker with ⟨id, -, rfl⟩ | ⟨id, cause, -, rfl⟩ | rfl <;> simp
    refine ⟨hs.wellFormed, htidy, hs.unrevoked, fun id hqueued => ?_, fun id hqueued => ?_⟩
    · exact (hs.renewed id hqueued).imp_left fun h => h.suffix hsuffix
    · -- a `Queued` event is taken: the identifier is pending now, unless it has a job
      have hnow : event.Renews id → worker.Knows id := by
        rintro rfl
        cases hworker
        exact .enqueued (hs.tidy.withPhase _) id
      -- a `ProofEvicted` event is taken: a `Queued` event comes behind it
      have hkept : id ∈ s.worker.pending → id ∈ worker.pending ∨ Announced { s with receiver, worker } id := by
        intro hpending
        by_cases hrevokes : event.Revokes id
        · rcases hs.renewed id hqueued with hrenewed | hpublishing
          · rw [hqueue] at hrenewed
            obtain ⟨other, hother, hrenews⟩ := hrenewed.exists_of_cons hrevokes
            rw [hrenews] at hother
            exact .inr (.inl hother)
          · exact .inr (.inr (.inl hpublishing))
        · refine .inl ?_
          rcases VerificationWorker.handleStoreResult_event hworker with ⟨id', -, rfl⟩ | ⟨id', cause, rfl, rfl⟩ | rfl
          · exact (hs.tidy.withPhase _).mem_enqueue.2 (.inl hpending)
          · refine (hs.tidy.withPhase _).mem_removePending.2 ⟨hpending, ?_⟩
            rintro rfl
            exact hrevokes ⟨cause, rfl⟩
          · exact hpending
      rcases hs.attends id hqueued with (hpending | hactive' | hrecovers) | (hmem | hpublishing | hlagged)
      · exact (hkept hpending).imp_left .inl
      · exact .inl (.inr (.inl (by rw [hactive]; exact hactive')))
      · rw [hphase] at hrecovers
        exact absurd hrecovers fun h => h
      · rw [hqueue] at hmem
        rcases List.mem_cons.1 hmem with hevent | hlater
        · exact .inl (hnow hevent.symm)
        · exact .inr (.inl hlater)
      · exact .inr (.inr (.inl hpublishing))
      · rw [hlagged] at hnotLagged
        cases hnotLagged

/-- A store action of the worker that announces no record: it has to keep knowing the records that are still queued. -/
theorem Attentive.commit (hs : s.Attentive) {a : StoreAction} {worker : VerificationWorker}
    (ha : (∃ id', a = .beginVerification id') ∨ ∃ now job outcome, a = .finishVerification now job outcome)
    (htidy : worker.Tidy)
    (hknows : ∀ id, (s.stores.perform a).1.store.Queued id → s.worker.Knows id → worker.Knows id) :
    Attentive { s with stores := (s.stores.perform a).1, outbox := (s.stores.perform a).2, worker } := by
  have hevict : ∀ id cause, a ≠ .evict id cause := by
    rintro id cause rfl
    rcases ha with ⟨id', ha⟩ | ⟨now, job, outcome, ha⟩ <;> cases ha
  have hbefore : ∀ id, (s.stores.perform a).1.store.Queued id → s.stores.store.Queued id := by
    intro id hqueued
    rcases StoreSystem.perform_queued hqueued with hold | hevent
    · exact hold.1
    · exact absurd hevent (s.stores.queued_notMem_perform ha)
  exact ⟨hs.wellFormed.perform _, htidy, fun id => ⟨(hs.unrevoked id).1, not_revokes_perform s.stores hevict id⟩,
    fun id hqueued => hs.renewed id (hbefore id hqueued),
    fun id hqueued => (hs.attends id (hbefore id hqueued)).imp_left (hknows id hqueued)⟩

/-- The worker takes the first pending identifier and tries to claim its record. -/
theorem Attentive.claim (hs : s.Attentive) {first : VerificationId} {rest : List VerificationId}
    {result : Except Error (Option VerificationJob)} (hphase : s.worker.phase = .starting)
    (hpending : s.worker.pending = first :: rest) (htidy : ((s.worker.popped first rest).claimed result).Tidy) :
    Attentive { s with
      stores := (s.stores.perform (.beginVerification first)).1
      outbox := (s.stores.perform (.beginVerification first)).2
      worker := (s.worker.popped first rest).claimed result } := by
  refine hs.commit (.inl ⟨first, rfl⟩) htidy fun id hqueued hknows => ?_
  have hne : id ≠ first := by
    rintro rfl
    exact ProofStore.not_queued_beginVerification hs.wellFormed id hqueued
  rcases hknows with hid | hid | hrecovers
  · rw [hpending] at hid
    have hid' := (List.mem_cons.1 hid).resolve_left hne
    match result with
    | .error error => exact .inl hid'
    | .ok none => exact .inl hid'
    | .ok (some job) => exact .inl hid'
  · match result with
    | .error error => exact .inr (.inl hid)
    | .ok none => exact .inr (.inl hid)
    | .ok (some job) => exact .inr (.inl (Finset.mem_insert_of_mem hid))
  · rw [hphase] at hrecovers
    exact absurd hrecovers fun h => h

theorem Attentive.join (hs : s.Attentive) {i : Nat} {now : Instant} {draining : Bool} {completion : JobCompletion}
    {result : Except Error StoreChange} (hphase : s.worker.phase = if draining then .draining else .selecting)
    (htidy : ((s.worker.joined i completion.job.verificationId).concluded completion.job.verificationId draining
      result).Tidy) :
    Attentive { s with
      stores := (s.stores.perform (.finishVerification now completion.job completion.outcome)).1
      outbox := (s.stores.perform (.finishVerification now completion.job completion.outcome)).2
      worker := (s.worker.joined i completion.job.verificationId).concluded completion.job.verificationId draining
        result } := by
  refine hs.commit (.inr ⟨now, _, _, rfl⟩) htidy fun id hqueued hknows => ?_
  cases result with
  | error error => exact .inr (.inr trivial)
  | ok change =>
    by_cases hid : completion.job.verificationId = id ∨ draining = true
    · exact .inr (.inr hid)
    · rw [not_or, Bool.not_eq_true] at hid
      rcases hknows with h | h | h
      · exact .inl h
      · exact .inr (.inl (Finset.mem_erase.2 ⟨Ne.symm hid.1, h⟩))
      · rw [hphase, hid.2] at h
        exact absurd h fun h => h

theorem Attentive.step (hs : s.Attentive) (heffect : VerificationEffect s a t) : t.Attentive := by
  have htidy := heffect.tidy hs.tidy
  -- a step of the worker alone has to keep what it knows
  have hworker : ∀ worker : VerificationWorker, worker.Tidy →
      (∀ id, s.stores.store.Queued id → s.worker.Knows id → worker.Knows id) → Attentive { s with worker } :=
    fun worker htidy hknows => ⟨hs.wellFormed, htidy, hs.unrevoked, hs.renewed,
      fun id hqueued => (hs.attends id hqueued).imp_left (hknows id hqueued)⟩
  cases heffect with
  | operation a hfinish hevict =>
    have hnew : ∀ id, .verificationChanged id .queued ∈ (s.stores.perform a).2 →
        Publishing { s with
          stores := (s.stores.perform a).1, publishing := s.publishing ++ [(s.stores.perform a).2] } id :=
      fun id hevent => ⟨_, List.mem_append_right _ List.mem_cons_self, hevent⟩
    have hold : ∀ id, s.Publishing id → Publishing { s with
        stores := (s.stores.perform a).1, publishing := s.publishing ++ [(s.stores.perform a).2] } id :=
      fun id ⟨events, hevents, hmem⟩ => ⟨events, List.mem_append_left _ hevents, hmem⟩
    refine ⟨hs.wellFormed.perform a, hs.tidy, fun id => ⟨fun events hevents => ?_, (hs.unrevoked id).2⟩,
      fun id hqueued => ?_, fun id hqueued => ?_⟩
    · rcases List.mem_append.1 hevents with h | h
      · exact (hs.unrevoked id).1 events h
      · rw [List.mem_singleton.1 h]
        exact not_revokes_perform s.stores hevict id
    · rcases StoreSystem.perform_queued hqueued with h | h
      · exact (hs.renewed id h.1).imp_right (hold id)
      · exact .inr (hnew id h)
    · rcases StoreSystem.perform_queued hqueued with h | h
      · exact (hs.attends id h.1).imp_right fun h => h.imp_right fun h => h.imp_left (hold id)
      · exact .inr (.inr (.inl (hnew id h)))
  | evict id cause hsome =>
    have hbefore : ∀ id', (s.stores.perform (.evict id cause)).1.store.Queued id' → s.stores.store.Queued id' ∧
        id' ≠ id := by
      intro id' hqueued
      rcases StoreSystem.perform_queued hqueued with ⟨hold, hne⟩ | hevent
      · refine ⟨hold, ?_⟩
        rintro rfl
        exact hne cause rfl
      · simp [StoreSystem.perform] at hevent
    refine ⟨hs.wellFormed.perform _, hs.tidy, hs.unrevoked, fun id' hqueued => ?_, fun id' hqueued => ?_⟩
    · obtain ⟨hold, hne⟩ := hbefore id' hqueued
      refine (hs.renewed id' hold).imp_left fun h => renewed_send ?_ (.inl h)
      rintro ⟨cause', hcause'⟩
      cases hcause'
      exact hne rfl
    · exact (hs.attends id' (hbefore id' hqueued).1).imp_right fun h => by
        have hsent : Announced { s with
          receiver := s.receiver.send s.capacity (.proofEvicted id cause)
          publishing := s.publishing
          outbox := s.outbox } id' := h.send fun h => .inr h
        exact hsent
  | publish i event rest hi =>
    have hmem : event :: rest ∈ s.publishing := List.mem_of_getElem? hi
    refine ⟨hs.wellFormed, hs.tidy, fun id => ⟨fun events hevents => ?_, (hs.unrevoked id).2⟩,
      fun id hqueued => ?_, fun id hqueued => (hs.attends id hqueued).imp_right fun h => h.send fun h => h.set hi⟩
    · rcases List.mem_or_eq_of_mem_set hevents with h | rfl
      · exact (hs.unrevoked id).1 events h
      · exact fun event' hevent' => (hs.unrevoked id).1 _ hmem event' (List.mem_cons_of_mem _ hevent')
    · have hevent : ¬ event.Revokes id := (hs.unrevoked id).1 _ hmem event List.mem_cons_self
      rcases hs.renewed id hqueued with h | h
      · exact .inl (renewed_send hevent (.inl h))
      · rcases h.set hi with hrenews | hlater
        · exact .inl (renewed_send hevent (.inr hrenews))
        · exact .inr hlater
  | requestStop => exact ⟨hs.wellFormed, hs.tidy, hs.unrevoked, hs.renewed, hs.attends⟩
  | endJob i behaviour job verifier hi => exact ⟨hs.wellFormed, htidy, hs.unrevoked, hs.renewed, hs.attends⟩
  | flush event rest houtbox =>
    have hunrevoked := fun id => (hs.unrevoked id).2
    rw [houtbox] at hunrevoked
    refine ⟨hs.wellFormed, hs.tidy, fun id => ⟨(hs.unrevoked id).1, fun event' hevent' => ?_⟩, fun id hqueued => ?_,
      fun id hqueued => (hs.attends id hqueued).imp_right fun h => h.send fun h => .inr h⟩
    · exact hunrevoked id event' (List.mem_cons_of_mem _ hevent')
    · exact (hs.renewed id hqueued).imp_left fun h => renewed_send (hunrevoked id event List.mem_cons_self) (.inl h)
  | reconcile houtbox hphase => exact hworker _ htidy fun id hqueued _ => .inr (.inr (.inl hqueued.mem_keys))
  | visit id remaining ready houtbox hphase =>
    refine hworker _ htidy fun id' hqueued hknows => ?_
    rcases hknows with h | h | h
    · exact .inl h
    · exact .inr (.inl h)
    · refine .inr (.inr ?_)
      rw [hphase] at h
      -- a record that is queued when the iteration comes to it is found ready
      by_cases hid : id' = id
      · subst hid
        obtain ⟨e, he, hready⟩ := hqueued.ready hs.wellFormed
        refine .inr ?_
        simp [VerificationWorker.readyWith, he, hready]
      · rcases h with hremaining | hready
        · exact .inl (List.mem_filter.2 ⟨hremaining, by simpa using hid⟩)
        · refine .inr ?_
          unfold VerificationWorker.readyWith
          split
          · exact List.mem_append_left _ hready
          · exact hready
  | collect ready houtbox hphase =>
    obtain ⟨-, hactive, hmem⟩ := hs.tidy.foldl_enqueue ready
    refine hworker _ htidy fun id hqueued hknows => ?_
    rcases hknows with h | h | h
    · exact .inl ((hmem id).2 (.inl h))
    · exact .inr (.inl (by rw [hactive]; exact h))
    · rw [hphase] at h
      by_cases hid : id ∈ s.worker.activeIds
      · exact .inr (.inl (by rw [hactive]; exact hid))
      · exact .inl ((hmem id).2 (.inr ⟨h.resolve_left List.not_mem_nil, hid⟩))
  | stopTop houtbox hphase hstop => exact hworker _ htidy fun _ _ _ => .inr (.inr trivial)
  | starting houtbox hphase | select houtbox hphase =>
    refine hworker _ htidy fun id _ hknows => ?_
    rw [VerificationWorker.Knows, hphase] at hknows
    exact hknows
  | skip id rest houtbox hphase hpending hactive =>
    refine hworker _ htidy fun id' _ hknows => ?_
    rw [VerificationWorker.Knows, hpending, List.mem_cons] at hknows
    rcases hknows with (rfl | hrest) | hknows
    · exact .inr (.inl hactive)
    · exact .inl hrest
    · exact .inr hknows
  | claim id rest result houtbox hphase hslot hstop hpending hactive hresult => exact hs.claim hphase hpending htidy
  | takeStop houtbox hphase hstop => exact hworker _ htidy fun _ _ _ => .inr (.inr trivial)
  | receive result receiver worker houtbox hphase hrecv hworker' => exact hs.receive hphase hrecv hworker' htidy
  | closed result receiver error houtbox hphase hrecv hworker' =>
    refine ⟨hs.wellFormed, htidy, hs.unrevoked, fun id hqueued => ?_, fun id _ => .inl (.inr (.inr trivial))⟩
    exact (hs.renewed id hqueued).imp_left fun h => h.suffix (Receiver.recv_suffix hrecv)
  | joinPanic i now draining message houtbox hphase hi => exact hworker _ htidy fun _ _ _ => .inr (.inr trivial)
  | join i now draining completion result houtbox hphase hi hresult => exact hs.join hphase htidy
  | requeue id draining houtbox hphase =>
    refine hworker _ htidy fun id' hqueued hknows => ?_
    have hknows' : s.worker.phase.Recovers id' → id' = id ∨ draining = true := by
      intro h
      rw [hphase] at h
      exact h.imp_left Eq.symm
    simp only [VerificationWorker.requeue]
    cases draining with
    | true =>
      refine .inr (.inr ?_)
      split
      · rw [VerificationWorker.enqueue_phase]
        trivial
      · trivial
    | false =>
      by_cases hid : id' = id
      · -- the record that was committed is read again
        subst hid
        obtain ⟨e, he, hstate⟩ := hqueued
        simp only [he, Option.any_some, hstate, decide_true, if_true]
        exact .enqueued (hs.tidy.withPhase _) id'
      · rcases hknows with h | h | h
        · refine .inl ?_
          split
          · exact (hs.tidy.withPhase _).mem_enqueue.2 (.inl h)
          · exact h
        · refine .inr (.inl ?_)
          split
          · rw [VerificationWorker.enqueue_activeIds]
            exact h
          · exact h
        · exact absurd (hknows' h) (by simp [hid])
  | finish houtbox hphase hjobs => exact hworker _ htidy fun _ _ _ => .inr (.inr trivial)

theorem initial_attentive {storeConfig : ProofStoreConfig} {store : ProofStore}
    (hnew : ProofStore.new storeConfig = .ok store)
    (registry : VerifierRegistry) (config : VerificationConfig) (capacity : Nat) :
    (initial store registry config capacity).Attentive := by
  have hempty : ∀ id, ¬ store.Queued id := by
    rintro id ⟨e, he, -⟩
    rw [ProofStore.new_get hnew] at he
    cases he
  refine ⟨fun id e he => ?_, .of_pending_nil rfl rfl, fun id => ⟨by simp [initial], by simp [initial]⟩,
    fun id h => absurd h (hempty id), fun id h => absurd h (hempty id)⟩
  rw [initial, ProofStore.new_get hnew] at he
  cases he

theorem reachable_attentive {storeConfig : ProofStoreConfig} {store : ProofStore}
    (hnew : ProofStore.new storeConfig = .ok store) {registry : VerifierRegistry} {config : VerificationConfig}
    {capacity : Nat} (hs : (lts store registry config capacity).Reachable s) : s.Attentive := by
  refine hs.invariant (P := Attentive) ?_ ?_
  · rintro s rfl
    exact initial_attentive hnew registry config capacity
  · intro s a t _ hattentive hstep
    exact hattentive.step (next_effect hstep)

/-- Whenever the worker waits, every queued record is pending, has a job, is announced by an event that the worker has
not received, or the worker is about to learn that it lagged. -/
theorem queued_attended {storeConfig : ProofStoreConfig} {store : ProofStore}
    (hnew : ProofStore.new storeConfig = .ok store)
    {registry : VerifierRegistry} {config : VerificationConfig} {capacity : Nat}
    (hs : (lts store registry config capacity).Reachable s) (hphase : s.worker.phase = .selecting) {e : Arc ProofRecord}
    (he : s.stores.store.get id = some e) (hqueued : e.value.metadata.verification = some .queued) :
    id ∈ s.worker.pending ∨ id ∈ s.worker.activeIds ∨
      .verificationChanged id .queued ∈ s.receiver.queue ∨
      (∃ events ∈ s.publishing, .verificationChanged id .queued ∈ events) ∨
      ∃ receiver, s.receiver.recv = some (.lagged, receiver) := by
  rcases (reachable_attentive hnew hs).attends id ⟨e, he, hqueued⟩ with (h | h | h) | (h | h | h)
  · exact .inl h
  · exact .inr (.inl h)
  · rw [hphase] at h
    exact absurd h fun h => h
  · exact .inr (.inr (.inl h))
  · exact .inr (.inr (.inr (.inl h)))
  · refine .inr (.inr (.inr (.inr ⟨{ s.receiver with lagged := false }, ?_⟩)))
    unfold Receiver.recv
    rw [if_pos h]

end VerificationSystem

end

/-- A record is evicted and comes back while the worker waits: the queue has the `Queued` event of the first record and
the `ProofEvicted` event behind it, and the second record is still to be announced. -/
theorem VerificationSystem.queued_attended_again :
    letI := Sha256.standard
    let id := Proof.small.verificationId
    let config : VerificationConfig := ⟨2, 30, 2, 250⟩
    ∃ as s, (lts .small ⟨∅⟩ config 16).Run (initial .small ⟨∅⟩ config 16) as s ∧ s.worker.phase = .selecting ∧
      s.stores.store.Queued id ∧
      (id ∈ s.worker.pending ∨ id ∈ s.worker.activeIds ∨ .verificationChanged id .queued ∈ s.receiver.queue ∨
        (∃ events ∈ s.publishing, .verificationChanged id .queued ∈ events) ∨
        ∃ receiver, s.receiver.recv = some (.lagged, receiver)) := by
  let _ := Sha256.standard
  intro id config
  let as : List VerificationAction :=
    [.worker .reconcile, .worker .collect, .worker .top, .worker .start,
      .operation (.observeChainVerification 1 id), .operation (.insertLocalProof 2 .small .rpc), .publish 1, .publish 1,
      .operation (.evict id .expired), .operation (.observeChainVerification 3 id),
        .operation (.insertLocalProof 4 .small .rpc)]
  have hexec : (Lts.exec next (initial .small ⟨∅⟩ config 16) as).any (fun s => s.worker.phase = .selecting &&
      (s.stores.store.get id).any fun e => e.value.metadata.verification = some .queued) = true := by
    decide +kernel
  obtain ⟨s, hs, hstate⟩ := (Option.any_eq_true _ _).1 hexec
  obtain ⟨hphase, hrecord⟩ := Bool.and_eq_true_iff.1 hstate
  obtain ⟨e, he, hqueued⟩ := (Option.any_eq_true _ _).1 hrecord
  have hphase := of_decide_eq_true hphase
  have hqueued := of_decide_eq_true hqueued
  have hrun : (lts .small ⟨∅⟩ config 16).Run (initial .small ⟨∅⟩ config 16) as s := Lts.run_of_exec hs
  have hnew : ProofStore.new .small = .ok .small := rfl
  exact ⟨as, s, hrun, hphase, ⟨e, he, hqueued⟩,
    queued_attended hnew ⟨_, as, rfl, hrun⟩ hphase he hqueued⟩

end PulsarVerifier
