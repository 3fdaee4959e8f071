import PulsarVerifier.P2p.Gossip
import PulsarVerifier.P2p.Ownership

/-!
# No retrieval is lost

Once the worker has taken the `VerificationObserved` event of a record, it retrieves the content until it is stored or
the deadline has passed.  Two things can break this: a retrieval of the same identifier that was stopped and still has
its request in flight, and an event about an earlier record that is published only after the new record was observed.
`Orderly` excludes the two, and then every record that waits is attended to (`Tracking`).
-/

namespace PulsarVerifier

namespace Notice

/-- The address of the record that the notice says was observed. -/
def observed (notice : Notice) : Option Nat :=
  match notice.event with
  | .verificationObserved _ => some notice.addr
  | .proofStored _ _ | .proofEvicted _ _ | .verificationChanged _ _ => none

/-- The identifier whose retrieval the worker stops for the notice. -/
def stopped (notice : Notice) : Option VerificationId :=
  match notice.event with
  | .verificationObserved _ => none
  | .proofStored id _ | .proofEvicted id _ | .verificationChanged id _ => some id

/-- No record waits for the content that the notice says is stored, verified or gone. -/
def timely (store : ProofStore) (notice : Notice) : Bool := notice.stopped.all fun id => (store.waitingAt id).isNone

/-- If the notice says that a record was observed, no stopped retrieval of it is left. -/
def unhindered (w : Worker) (notice : Notice) : Bool :=
  match notice.event with
  | .verificationObserved id => (w.entry id).all fun state => !state.finished
  | .proofStored _ _ | .proofEvicted _ _ | .verificationChanged _ _ => true

end Notice

/-- The worker is about to read the record of `id` in `ensure_retrieval`. -/
def Control.Reads (control : Control) (id : VerificationId) : Prop := ∃ rest, control = .store (.get id rest)

namespace P2pSystem

/-- Events are published before the record they are about is replaced by one that waits for content, and the worker
takes the observation of an identifier when no stopped retrieval of it has a request in flight. -/
def Orderly (s : P2pSystem) : P2pAction → Prop
  | .publish i => (s.publishing[i]?.bind List.head?).all (Notice.timely s.stores.store) = true
  | .workerFlush => s.outbox.head?.all (Notice.timely s.stores.store) = true
  | .workerSelect .storeEvent => s.receiver.lagged = true ∨
    s.receiver.queue.head?.all (Notice.unhindered s.worker) = true
  | _ => True

instance (s : P2pSystem) (a : P2pAction) : Decidable (s.Orderly a) :=
  match a with
  | .publish i =>
    inferInstanceAs (Decidable ((s.publishing[i]?.bind List.head?).all (Notice.timely s.stores.store) = true))
  | .workerFlush => inferInstanceAs (Decidable (s.outbox.head?.all (Notice.timely s.stores.store) = true))
  | .workerSelect .storeEvent =>
    inferInstanceAs (Decidable (s.receiver.lagged = true ∨
      s.receiver.queue.head?.all (Notice.unhindered s.worker) = true))
  | .operation _ | .tick _ | .requestStop | .submit _ _ | .driverCommand _ | .swarmEvent _ | .delayedResponse _
  | .expireQueries | .emit _ | .workerSelect .stop | .workerSelect .driverEvent | .workerSelect (.wake _) | .workerSend
  | .workerReply _ _ _ | .workerStore _ => .isTrue trivial

/-- Every record whose observation the worker has taken, and that still waits for content, is attended to. -/
structure Tracking (s : P2pSystem) : Prop where
  present : ∀ id addr, s.stores.store.waitingAt id = some addr → addr < s.stores.store.nextAddr
  handled : ∀ addr ∈ s.handled, addr < s.stores.store.nextAddr
  noticed : ∀ notice ∈ s.unpublished ++ s.receiver.queue, ∀ id, notice.event = .verificationObserved id →
    notice.addr < s.stores.store.nextAddr ∧ ∀ id', s.stores.store.waitingAt id' = some notice.addr → id' = id
  ordered : InOrder Notice.observed Notice.stopped s.stores.store.waitingAt s.handled s.receiver.queue
  replied : s.reply ≠ some (.error .p2pDraining)
  attached : ∀ requestId peer id stored, s.worker.control = .store (.attached requestId peer id stored) →
    (∃ change, stored = .ok change) ∨ (∃ id', stored = .error (.proofNotObserved id')) →
    ∀ addr, s.stores.store.waitingAt id = some addr → addr ∉ s.handled
  attended : ∀ id addr, s.stores.store.waitingAt id = some addr → addr ∈ s.handled →
    s.worker.ledger.Attended id ∨ (s.worker.control.Reads id ∧ s.worker.ledger.Unstopped id)

end P2pSystem

theorem Control.Plain.not_attached {control : Control} (h : control.Plain) (requestId : ProofRequestId) (peer : PeerId)
    (id : VerificationId) (stored : Except Error StoreChange) :
    control ≠ .store (.attached requestId peer id stored) := by
  rintro rfl
  cases h.2.2

/-! ### What the worker does to an attended retrieval -/

namespace Worker

variable {w w' : Worker} {id id' : VerificationId}

theorem FinishMove.attended {request : ProofRequestId × PeerId} {succeeded : Bool}
    (h : w.FinishMove id request succeeded w') (hid : succeeded = true → id' ≠ id) (hattended : w.ledger.Attended id') :
    w'.ledger.Attended id' := by
  cases h with
  | skipped _ _ hledger => rwa [hledger]
  | stopped _ hsucceeded _ hledger =>
    rw [hledger]
    exact hattended.stop_of_ne (hid hsucceeded)
  | ended _ _ hover hledger =>
    rw [hledger]
    by_cases heq : id' = id
    · subst heq
      rcases hover with hsucceeded | hdead
      · exact absurd rfl (hid hsucceeded)
      · exact .inr (hattended.resolve_left hdead)
    · exact hattended.finish_of_ne heq
  | outOfTime _ _ hledger =>
    rw [hledger]
    by_cases heq : id' = id
    · rw [heq]
      exact .inr (Finset.mem_insert_self _ _)
    · exact (hattended.finish_of_ne heq).expire
  | kept _ _ hledger =>
    rw [hledger]
    by_cases heq : id' = id
    · rw [heq]
      exact .inl ⟨⟨none, false⟩, if_pos rfl, rfl⟩
    · exact hattended.finish_of_ne heq
  | panicked => exact hattended

/-- Only a driver that drains makes the worker give up a retrieval in time. -/
theorem ReplyMove.attended {call : DriverCall} {reply : Except Error Reply} (h : w.ReplyMove call reply w')
    (hreply : reply ≠ .error .p2pDraining) (hattended : w.ledger.Attended id) : w'.ledger.Attended id := by
  rcases h.ledger with ⟨id', peer, rest, requestId, -, -, hledger⟩ | ⟨-, hledger | ⟨id', hledger⟩ | ⟨hdraining, -⟩⟩
  · exact hledger ▸ hattended.start
  · exact hledger ▸ hattended
  · exact hledger ▸ hattended.expire_stop
  · exact absurd hdraining hreply

theorem EventMove.attended {draining : Bool} {event : DriverEvent} (h : w.EventMove draining event w')
    (hattended : w.ledger.Attended id) : w'.ledger.Attended id := by
  cases h with
  | requested | received | announced | reconcile => exact hattended
  | finished _ _ _ _ _ _ _ hmove => exact hmove.attended (fun h => nomatch h) hattended
  | driven _ _ _ _ hledger => rwa [hledger]

theorem EventMove.not_attached {draining : Bool} {event : DriverEvent} (h : w.EventMove draining event w')
    (requestId : ProofRequestId) (peer : PeerId) (id : VerificationId) (stored : Except Error StoreChange) :
    w'.control ≠ .store (.attached requestId peer id stored) :=
  h.on (P := (· ≠ .store (.attached requestId peer id stored))) (fun h => h.plain.not_attached requestId peer id stored)
    (fun _ _ => nofun) fun _ haccess heq => haccess requestId peer id stored (Control.store.inj heq)

theorem attended_handleWake {wake : RetrievalWake} {now : Instant} (hattended : w.ledger.Attended id) :
    (w.handleWake wake now).ledger.Attended id := by
  rcases handleWake_cases (w := w) wake now with ⟨hledger, -⟩ | ⟨hledger, -⟩
  · rwa [hledger]
  · rw [hledger]
    exact hattended.expire_stop

theorem attended_handleStoreEvent {notice : Notice} (hattended : w.ledger.Attended id)
    (hid : notice.stopped ≠ some id) : (w.handleStoreEvent false notice.event).ledger.Attended id := by
  unfold Notice.stopped at hid
  cases hevent : notice.event with
  | verificationObserved id' => exact hattended
  | proofStored id' source =>
    rw [hevent] at hid
    change (w.stopRetrieval id').ledger.Attended id
    rw [ledger_stopRetrieval]
    exact hattended.stop_of_ne (fun heq => hid (by rw [heq]))
  | proofEvicted id' cause =>
    rw [hevent] at hid
    change (w.stopRetrieval id').ledger.Attended id
    rw [ledger_stopRetrieval]
    exact hattended.stop_of_ne (fun heq => hid (by rw [heq]))
  | verificationChanged id' state =>
    rw [hevent] at hid
    change ((w.stopRetrieval id').drivePending []).ledger.Attended id
    rw [ledger_drivePending, ledger_stopRetrieval]
    exact hattended.stop_of_ne (fun heq => hid (by rw [heq]))

end Worker

/-! ### Replies of a running driver -/

theorem Driver.handleCommand_not_draining [Sha256] {d : Driver} {net : NetworkOutcome} {caller : Caller}
    {command : DriverCommand} {reply : Except Error Reply} (hrunning : d.state = .running)
    (h : (d.handleCommand net caller command).2 = [(caller, reply)]) : reply ≠ .error .p2pDraining := by
  have his : d.isRunning = true := decide_eq_true hrunning
  have hreply : ∀ {reply'}, [(caller, reply')] = [(caller, reply)] → reply' = reply := by
    intro reply' heq
    cases heq
    rfl
  rintro rfl
  cases command with
  | announce id =>
    have herror : (d.announce net id).1 = .error .p2pDraining := error_of_map (hreply h)
    unfold announce at herror
    dsimp only at herror
    split at herror
    · cases herror
    · split at herror <;> cases herror
  | queryAvailability id =>
    have herror : (d.queryAvailability net id).1 = .error .p2pDraining := error_of_map (hreply h)
    unfold queryAvailability at herror
    rw [his, Bool.not_true, if_neg Bool.false_ne_true] at herror
    dsimp only at herror
    split at herror <;> cases herror
  | requestProof peer id =>
    have herror : (d.requestProof net peer id).1 = .error .p2pDraining := error_of_map (hreply h)
    unfold requestProof at herror
    rw [his, Bool.not_true, if_neg Bool.false_ne_true] at herror
    split_ifs at herror <;> cases herror
  | respondProof requestId proof =>
    have herror : (d.respondProof net requestId proof).1 = .error .p2pDraining := error_of_map (hreply h)
    unfold respondProof proofResponse at herror
    split at herror
    · cases herror
    · cases proof with
      | none =>
        dsimp only [Except.bind] at herror
        split_ifs at herror
        cases herror
      | some proof =>
        dsimp only at herror
        split_ifs at herror <;> cases herror
  | replaceAuthorizedPeers peers =>
    simp only [handleCommand, his, if_true] at h
    cases h
  | drain =>
    simp only [handleCommand, hrunning] at h
    cases h
  | _ => cases h

namespace P2pSystem

variable {s t : P2pSystem}

/-! ### Steps of the worker -/

private theorem Tracking.of_worker (h : s.Tracking) (hfeed : t.feed = s.feed) (hhandled : t.handled = s.handled)
    (hreply : t.reply ≠ some (.error .p2pDraining))
    (hattached : ∀ requestId peer id stored, t.worker.control ≠ .store (.attached requestId peer id stored))
    (hattended : ∀ id addr, s.stores.store.waitingAt id = some addr → addr ∈ s.handled →
      s.worker.ledger.Attended id ∨ (s.worker.control.Reads id ∧ s.worker.ledger.Unstopped id) →
      t.worker.ledger.Attended id) : t.Tracking := by
  simp only [feed, Prod.mk.injEq] at hfeed
  obtain ⟨hstores, hpublishing, houtbox, hreceiver⟩ := hfeed
  constructor
  · rw [hstores]
    exact h.present
  · rw [hstores, hhandled]
    exact h.handled
  · unfold unpublished
    rw [hstores, hpublishing, houtbox, hreceiver]
    exact h.noticed
  · rw [hstores, hhandled, hreceiver]
    exact h.ordered
  · exact hreply
  · exact fun requestId peer id stored hcontrol => absurd hcontrol (hattached requestId peer id stored)
  · rw [hstores, hhandled]
    exact fun id addr hwaiting hmem => .inl (hattended id addr hwaiting hmem (h.attended id addr hwaiting hmem))

private theorem Tracking.of_attended (h : s.Tracking) {control : Control} (hcontrol : s.worker.control = control)
    (hreads : ∀ id rest, control ≠ .store (.get id rest)) (hfeed : t.feed = s.feed) (hhandled : t.handled = s.handled)
    (hreply : t.reply ≠ some (.error .p2pDraining))
    (hattached : ∀ requestId peer id stored, t.worker.control ≠ .store (.attached requestId peer id stored))
    (hattended : ∀ id addr, s.stores.store.waitingAt id = some addr → addr ∈ s.handled → s.worker.ledger.Attended id →
      t.worker.ledger.Attended id) : t.Tracking := by
  refine h.of_worker hfeed hhandled hreply hattached (fun id addr hwaiting hmem hbefore => ?_)
  refine hattended id addr hwaiting hmem (hbefore.resolve_right ?_)
  rintro ⟨⟨rest, hread⟩, -⟩
  exact hreads id rest (hcontrol.symm.trans hread)

private theorem Tracking.of_ledger (h : s.Tracking) {control : Control} (hcontrol : s.worker.control = control)
    (hreads : ∀ id rest, control ≠ .store (.get id rest)) (hfeed : t.feed = s.feed) (hhandled : t.handled = s.handled)
    (hreply : t.reply ≠ some (.error .p2pDraining))
    (hattached : ∀ requestId peer id stored, t.worker.control ≠ .store (.attached requestId peer id stored))
    (hledger : t.worker.ledger = s.worker.ledger) : t.Tracking :=
  h.of_attended hcontrol hreads hfeed hhandled hreply hattached (fun _ _ _ _ hattended => hledger ▸ hattended)

/-- `ensure_retrieval` reads the record: one that waits gets a retrieval that is live. -/
private theorem Tracking.get (h : s.Tracking) {id : VerificationId} {rest : List VerificationId}
    (hcontrol : s.worker.control = .store (.get id rest)) :
    Tracking { s with worker := s.worker.resumeGet id rest (s.stores.store.get id) } := by
  refine h.of_worker rfl rfl h.replied Worker.driven_resumeGet.plain.not_attached
    (fun id' addr hwaiting _ hbefore => ?_)
  change (s.worker.resumeGet id rest (s.stores.store.get id)).ledger.Attended id'
  rw [Worker.ledger_resumeGet]
  by_cases hid : id' = id
  · subst hid
    obtain ⟨e, he, hwaits, -⟩ := ProofStore.waitingAt_eq_some.1 hwaiting
    rw [he, Option.any_some, if_pos hwaits]
    rcases hbefore with hattended | ⟨-, hunstopped⟩
    · exact hattended.ensure
    · exact .inl hunstopped.live_ensure
  · have hattended : s.worker.ledger.Attended id' := by
      refine hbefore.resolve_right ?_
      rintro ⟨⟨rest', hread⟩, -⟩
      rw [hcontrol] at hread
      cases hread
      exact hid rfl
    split
    · exact hattended.ensure
    · exact hattended.stop_of_ne hid

private theorem Tracking.take (h : s.Tracking) (hidle : s.worker.control = .idle) {notice : Notice}
    {receiver : Receiver Notice} (hrecv : s.receiver.recv = some (.event notice, receiver))
    (hunhindered : notice.unhindered s.worker = true) :
    Tracking { ({ s with receiver }.recordTaken notice) with
      worker := ({ s with receiver }.recordTaken notice).worker.handleStoreEvent false notice.event } := by
  obtain ⟨-, hqueue, -⟩ := Receiver.recv_event hrecv
  have hordered := h.ordered
  rw [hqueue] at hordered
  have hnoticed : ∀ n ∈ s.unpublished ++ receiver.queue, n ∈ s.unpublished ++ s.receiver.queue := by
    intro n hn
    rw [hqueue]
    exact (List.mem_append.1 hn).elim (List.mem_append_left _)
      (fun hn => List.mem_append_right _ (List.mem_cons_of_mem _ hn))
  -- the worker is idle, so a record that was handled has its retrieval
  have hattended : ∀ id addr, s.stores.store.waitingAt id = some addr → addr ∈ s.handled →
      s.worker.ledger.Attended id := by
    intro id addr hwaiting hmem
    refine (h.attended id addr hwaiting hmem).resolve_right ?_
    rintro ⟨⟨rest, hread⟩, -⟩
    rw [hidle] at hread
    cases hread
  -- an event of another kind stops a retrieval, an observation starts one
  cases hobserved : notice.stopped with
  | some id =>
    have htaken : { s with receiver }.recordTaken notice = { s with receiver } := by
      unfold recordTaken
      cases hevent : notice.event with
      | verificationObserved id' => simp [Notice.stopped, hevent] at hobserved
      | _ => rfl
    have hshows : notice.observed = none := by
      unfold Notice.observed
      cases hevent : notice.event with
      | verificationObserved id' => simp [Notice.stopped, hevent] at hobserved
      | _ => rfl
    rw [htaken]
    refine ⟨h.present, h.handled, fun n hn => h.noticed n (hnoticed n hn), ?_, h.replied, ?_, ?_⟩
    · exact hordered.tail (fun stamp hmem => .inl hmem)
    · intro requestId peer id' stored hcontrol
      exact absurd hcontrol (Worker.plain_handleStoreEvent.not_attached requestId peer id' stored)
    · intro id' addr hwaiting hmem
      refine .inl (Worker.attended_handleStoreEvent (hattended id' addr hwaiting hmem) (fun hstopped => ?_))
      exact hordered.notMem_seen hstopped hwaiting hmem
  | none =>
    obtain ⟨id, hevent⟩ : ∃ id, notice.event = .verificationObserved id := by
      cases hevent : notice.event with
      | verificationObserved id => exact ⟨id, rfl⟩
      | _ => simp [Notice.stopped, hevent] at hobserved
    have hhead := h.noticed notice (List.mem_append_right _ (by rw [hqueue]; exact List.mem_cons_self)) id hevent
    have htaken : { s with receiver }.recordTaken notice =
        { s with
          receiver, handled := notice.addr :: s.handled
          worker := { s.worker with expired := s.worker.expired.erase id } } := by
      unfold recordTaken
      rw [hevent]
    rw [htaken, hevent]
    refine ⟨h.present, ?_, fun n hn => h.noticed n (hnoticed n hn), ?_, h.replied, (fun _ _ _ _ hc => nomatch hc), ?_⟩
    · intro addr hmem
      rcases List.mem_cons.1 hmem with rfl | hmem
      · exact hhead.1
      · exact h.handled addr hmem
    · refine hordered.tail (fun stamp hmem => ?_)
      rcases List.mem_cons.1 hmem with rfl | hmem
      · exact .inr (by simp [Notice.observed, hevent])
      · exact .inl hmem
    · intro id' addr hwaiting hmem
      by_cases hid : id' = id
      · subst hid
        refine .inr ⟨⟨[], rfl⟩, fun job hjob => ?_⟩
        obtain ⟨state, hentry, rfl⟩ := Option.map_eq_some_iff.1 hjob
        change s.worker.entry id' = some state at hentry
        simpa [Notice.unhindered, hevent, hentry, RetrievalState.job] using hunhindered
      · rcases List.mem_cons.1 hmem with rfl | hmem
        · exact absurd (hhead.2 id' hwaiting) hid
        · refine .inl ((hattended id' addr hwaiting hmem).imp_right (fun hexpired => ?_))
          exact Finset.mem_erase.2 ⟨hid, hexpired⟩

/-! ### Steps of the store -/

private theorem Tracking.send (h : s.Tracking) (notice : Notice) (hnotice : notice ∈ s.unpublished)
    (htimely : notice.timely s.stores.store = true) (hstores : t.stores = s.stores) (hhandled : t.handled = s.handled)
    (hreceiver : t.receiver = s.receiver.send s.capacity notice) (hleft : ∀ n ∈ t.unpublished, n ∈ s.unpublished)
    (hworker : t.worker = s.worker) (hreply : t.reply = s.reply) : t.Tracking := by
  have hsuffix := Receiver.queue_send_suffix s.capacity s.receiver notice
  rw [← hreceiver] at hsuffix
  constructor
  · rw [hstores]
    exact h.present
  · rw [hstores, hhandled]
    exact h.handled
  · rw [hstores]
    intro n hn
    refine h.noticed n ?_
    rcases List.mem_append.1 hn with hn | hn
    · exact List.mem_append_left _ (hleft n hn)
    · rcases List.mem_append.1 (hsuffix.subset hn) with hn | hn
      · exact List.mem_append_right _ hn
      · rw [List.mem_singleton.1 hn]
        exact List.mem_append_left _ hnotice
  · rw [hstores, hhandled]
    refine (h.ordered.snoc (fun id hstopped => ?_)).suffix hsuffix
    simpa [Notice.timely, hstopped] using htimely
  · rw [hreply]
    exact h.replied
  · rw [hworker, hstores, hhandled]
    exact h.attached
  · rw [hworker, hstores, hhandled]
    exact h.attended

private theorem Tracking.evict (h : s.Tracking) (id : VerificationId) (cause : ProofEvictionCause) :
    Tracking { s with
      stores := { s.stores with store := s.stores.store.evict id }
      receiver := s.receiver.send s.capacity ⟨.proofEvicted id cause, s.stores.store.nextAddr⟩ } := by
  have hsuffix := Receiver.queue_send_suffix s.capacity s.receiver ⟨.proofEvicted id cause, s.stores.store.nextAddr⟩
  have hold : ∀ id' addr, (s.stores.store.evict id).waitingAt id' = some addr →
      s.stores.store.waitingAt id' = some addr := fun _ _ hwaiting => (ProofStore.waitingAt_evict hwaiting).2
  refine ⟨fun id' addr hwaiting => h.present id' addr (hold id' addr hwaiting), h.handled, ?_, ?_, h.replied, ?_, ?_⟩
  · intro n hn id' hevent
    have hmem : n ∈ s.unpublished ++ s.receiver.queue := by
      rcases List.mem_append.1 hn with hn | hn
      · exact List.mem_append_left _ hn
      · rcases List.mem_append.1 (hsuffix.subset hn) with hn | hn
        · exact List.mem_append_right _ hn
        · rw [List.mem_singleton.1 hn] at hevent
          cases hevent
    obtain ⟨hlt, hname⟩ := h.noticed n hmem id' hevent
    exact ⟨hlt, fun id'' hwaiting => hname id'' (hold id'' _ hwaiting)⟩
  · refine InOrder.suffix (InOrder.snoc (h.ordered.renew
      (fun id' addr hwaiting => .inl (hold id' addr hwaiting))) ?_) hsuffix
    intro id' hstopped
    cases hstopped
    by_contra hne
    obtain ⟨addr, hwaiting⟩ := Option.ne_none_iff_exists.1 hne
    exact (ProofStore.waitingAt_evict hwaiting.symm).1 rfl
  · exact fun requestId peer id' stored hcontrol hstored addr hwaiting =>
      h.attached requestId peer id' stored hcontrol hstored addr (hold id' addr hwaiting)
  · exact fun id' addr hwaiting => h.attended id' addr (hold id' addr hwaiting)

section

variable [Sha256]

private theorem Tracking.commit (h : s.Tracking) (action : StoreAction) (hevict : ∀ id cause, action ≠ .evict id cause)
    (hstores : t.stores = (s.stores.perform action).1) (hhandled : t.handled = s.handled)
    (hreceiver : t.receiver = s.receiver)
    (hunpublished : ∀ n, n ∈ t.unpublished →
      n ∈ s.unpublished ∨ n ∈ noticesOf s.stores.store (s.stores.perform action).2)
    (hreply : t.reply = s.reply) (hledger : t.worker.ledger = s.worker.ledger)
    (hreads : ∀ id, s.worker.control.Reads id → t.worker.control.Reads id)
    (hattached : ∀ requestId peer id stored, t.worker.control = .store (.attached requestId peer id stored) →
      (∃ change, stored = .ok change) ∨ (∃ id', stored = .error (.proofNotObserved id')) →
      s.worker.control = .store (.attached requestId peer id stored) ∨ t.stores.store.waitingAt id = none) :
    t.Tracking := by
  have hle := s.stores.nextAddr_le_perform action
  have hcases : ∀ id addr, t.stores.store.waitingAt id = some addr →
      s.stores.store.waitingAt id = some addr ∨
        (addr = s.stores.store.nextAddr ∧ addr < t.stores.store.nextAddr ∧
          ∀ id', .verificationObserved id' ∈ (s.stores.perform action).2 → id' = id) := by
    rw [hstores]
    exact fun id addr hwaiting => StoreSystem.perform_waitingAt hwaiting
  -- a record that the worker has heard of is not a new one
  have hold : ∀ id addr, t.stores.store.waitingAt id = some addr → addr < s.stores.store.nextAddr →
      s.stores.store.waitingAt id = some addr :=
    fun id addr hwaiting hlt => (hcases id addr hwaiting).resolve_right (fun hnew => Nat.ne_of_lt hlt hnew.1)
  have hnew : s.stores.store.nextAddr ∉ s.handled := fun hmem => Nat.lt_irrefl _ (h.handled _ hmem)
  constructor
  · intro id addr hwaiting
    rcases hcases id addr hwaiting with hbefore | ⟨-, hlt, -⟩
    · rw [hstores]
      exact Nat.lt_of_lt_of_le (h.present id addr hbefore) hle
    · exact hlt
  · rw [hstores, hhandled]
    exact fun addr hmem => Nat.lt_of_lt_of_le (h.handled addr hmem) hle
  · intro n hn id hevent
    have hsplit : n ∈ s.unpublished ++ s.receiver.queue ∨ n ∈ noticesOf s.stores.store (s.stores.perform action).2 := by
      rw [hreceiver] at hn
      rcases List.mem_append.1 hn with hn | hn
      · exact (hunpublished n hn).imp_left (List.mem_append_left _)
      · exact .inl (List.mem_append_right _ hn)
    rcases hsplit with hn | hn
    · obtain ⟨hlt, hname⟩ := h.noticed n hn id hevent
      refine ⟨by rw [hstores]; exact Nat.lt_of_lt_of_le hlt hle, fun id' hwaiting => ?_⟩
      exact hname id' (hold id' _ hwaiting hlt)
    · -- the notice is about the record that was just put
      obtain ⟨event, hmem, rfl⟩ := List.mem_map.1 hn
      obtain rfl : event = .verificationObserved id := hevent
      refine ⟨by rw [hstores]; exact s.stores.nextAddr_lt_perform hevict hmem, fun id' hwaiting => ?_⟩
      rcases hcases id' _ hwaiting with hbefore | ⟨-, -, hname⟩
      · exact absurd (h.present id' _ hbefore) (Nat.lt_irrefl _)
      · exact (hname id hmem).symm
  · rw [hhandled, hreceiver]
    refine h.ordered.renew (fun id addr hwaiting => (hcases id addr hwaiting).imp_right ?_)
    rintro ⟨rfl, -⟩
    refine ⟨hnew, fun n hn hobserved => ?_⟩
    unfold Notice.observed at hobserved
    split at hobserved
    · rename_i id' hevent
      have hlt := (h.noticed n (List.mem_append_right _ hn) id' hevent).1
      exact Nat.ne_of_lt hlt (Option.some.inj hobserved)
    all_goals cases hobserved
  · rw [hreply]
    exact h.replied
  · intro requestId peer id stored hcontrol hstored addr hwaiting
    rw [hhandled]
    rcases hattached requestId peer id stored hcontrol hstored with hsame | hnone
    · rcases hcases id addr hwaiting with hbefore | ⟨rfl, -⟩
      · exact h.attached requestId peer id stored hsame hstored addr hbefore
      · exact hnew
    · rw [hnone] at hwaiting
      cases hwaiting
  · intro id addr hwaiting hmem
    rw [hhandled] at hmem
    rw [hledger]
    refine (h.attended id addr (hold id addr hwaiting (h.handled addr hmem)) hmem).imp_right ?_
    exact fun hread => ⟨hreads id hread.1, hread.2⟩

/-! ### Runs -/

omit [Sha256] in
private theorem timely_of_orderly {notice : Notice} {head : Option Notice} (hhead : head = some notice)
    (h : head.all (Notice.timely s.stores.store) = true) : notice.timely s.stores.store = true := by
  rwa [hhead, Option.all_some] at h

theorem Tracking.step [AvailabilityWire] {a : P2pAction} (h : s.Tracking) (hp : s.Protocol) (horderly : s.Orderly a)
    (hstep : P2pStep s a t) (hmode : t.mode = .running) (hrunning : s.driver.state = .running) : t.Tracking := by
  have hround : ∀ u : P2pSystem, u.driver.state = .running → u.Tracking → u.finishRound.Tracking := by
    intro u hstate hu
    obtain ⟨state, answers, hround, -⟩ := finishRound_eq (s := u) (by rw [hstate]; exact DriverState.noConfusion)
    rw [hround]
    exact { hu with }
  cases hstep with
  | tick | requestStop | submit | swarmError | swarmEmit => exact { h with }
  | selectStop | drainStoreEvent => cases hmode
  | selectTurn pick mode _ _ _ hdraining =>
    obtain rfl : mode = .running := hmode
    cases hdraining
  | operation action henabled hevict =>
    refine h.commit action hevict rfl rfl rfl (fun n hn => ?_) rfl rfl (fun _ hread => hread)
      (fun _ _ _ _ hc _ => .inl hc)
    simp only [unpublished, List.flatten_append, List.mem_append, List.flatten_cons, List.flatten_nil,
      List.append_nil] at hn ⊢
    tauto
  | evict id cause => exact h.evict id cause
  | publish i notice rest hi =>
    have hleft := mem_flatten_set hi
    refine h.send notice ?_ (timely_of_orderly ?_ horderly) rfl rfl rfl (fun n hn => ?_) rfl rfl
    · exact List.mem_append_left _ ((hleft notice).2 (.inl rfl))
    · rw [hi]
      rfl
    · exact (List.mem_append.1 hn).elim (fun hn => List.mem_append_left _ ((hleft n).2 (.inr hn)))
        (List.mem_append_right _)
  | workerFlush notice rest houtbox =>
    refine h.send notice ?_ (timely_of_orderly ?_ horderly) rfl rfl rfl (fun n hn => ?_) rfl rfl
    · exact List.mem_append_right _ (by rw [houtbox]; exact List.mem_cons_self)
    · rw [houtbox]
      rfl
    · refine (List.mem_append.1 hn).elim (List.mem_append_left _) (fun hn => List.mem_append_right _ ?_)
      rw [houtbox]
      exact List.mem_cons_of_mem _ hn
  | driverCommand net caller command rest hmailbox hfree hid t ht =>
    cases hp.commandRound { net with now := s.now } hmailbox (driverFree_iff.1 hfree).2 ht with
    | worker call _ reply state answers hcontrol hreply hsends hreplies =>
      refine { h with replied := fun heq => ?_ }
      exact Driver.handleCommand_not_draining hrunning hreplies (Option.some.inj heq)
    | client => exact { h with }
  | swarmQuiet event driver _ _ hmove =>
    exact hround _ ((s.driver.handleSwarmEvent_state hmove).trans hrunning) { h with }
  | delayedResponse | expireQueries | emitSent => exact hround _ hrunning { h with }
  | emitDropped net event _ _ driver hdriver =>
    refine hround _ ?_ { h with }
    rcases hdriver with ⟨rfl, -⟩ | ⟨requestId, peer, id, -, rfl⟩
    · exact hrunning
    · exact (s.driver.respondProof_state _ _ _).trans hrunning
  | selectDriverEvent mode event rest hidle =>
    have hmove := s.worker.handleDriverEvent_move s.now mode.draining event
    exact h.of_attended hidle (by rintro _ _ ⟨⟩) rfl rfl h.replied hmove.not_attached
      (fun _ _ _ _ hattended => hmove.attended hattended)
  | selectDriverClosed hidle =>
    exact h.of_ledger hidle (by rintro _ _ ⟨⟩) rfl rfl h.replied (by rintro _ _ _ _ ⟨⟩) rfl
  | selectStoreEvent notice receiver hidle _ _ hrecv =>
    obtain ⟨hlagged, hqueue, -⟩ := Receiver.recv_event hrecv
    refine h.take hidle hrecv ?_
    rcases horderly with hlag | hhead
    · rw [hlagged] at hlag
      cases hlag
    · rwa [hqueue, List.head?_cons, Option.all_some] at hhead
  | selectLagged receiver hidle _ _ hrecv =>
    obtain ⟨-, rfl⟩ := Receiver.recv_lagged hrecv
    have hunlagged : Tracking { s with receiver := { s.receiver with lagged := false } } := { h with }
    exact hunlagged.of_ledger hidle (by rintro _ _ ⟨⟩) rfl rfl h.replied (by rintro _ _ _ _ ⟨⟩) rfl
  | selectWake i wake hidle =>
    exact h.of_attended hidle (by rintro _ _ ⟨⟩) rfl rfl h.replied Worker.driven_handleWake.plain.not_attached
      (fun _ _ _ _ hattended => Worker.attended_handleWake hattended)
  | drained hidle =>
    exact h.of_ledger hidle (by rintro _ _ ⟨⟩) rfl rfl h.replied (by rintro _ _ _ _ ⟨⟩) rfl
  | sendClosed command call hcontrol =>
    exact h.of_ledger hcontrol (by rintro _ _ ⟨⟩) rfl rfl (by rintro ⟨⟩) (by rintro _ _ _ _ ⟨⟩) rfl
  | send command call hcontrol =>
    exact h.of_ledger hcontrol (by rintro _ _ ⟨⟩) rfl rfl h.replied (by rintro _ _ _ _ ⟨⟩) rfl
  | reply choice delay elapsed call reply worker hcontrol hreply hresume =>
    have hmove := Worker.resumeCall_move hresume
    refine h.of_attended hcontrol (by rintro _ _ ⟨⟩) rfl rfl (by rintro ⟨⟩) hmove.plain.not_attached
      (fun _ _ _ _ hattended => hmove.attended ?_ hattended)
    rintro rfl
    unfold replyToWorker at hreply
    split at hreply
    · rename_i hsome
      exact h.replied (hsome.trans hreply)
    · split_ifs at hreply
      cases hreply
  | getProof snapshot requestId id hcontrol =>
    exact h.of_ledger hcontrol (by rintro _ _ ⟨⟩) rfl rfl h.replied (by rintro _ _ _ _ ⟨⟩) rfl
  | attach snapshot requestId peer id proof hcontrol houtbox =>
    refine h.commit (.attachDownloadedProof s.now id proof peer) (by rintro _ _ ⟨⟩) rfl rfl rfl (fun n hn => ?_)
      rfl rfl ?_ ?_
    · rw [unpublished, houtbox, List.append_nil]
      exact List.mem_append.1 hn
    · rintro id' ⟨rest, hread⟩
      rw [hcontrol] at hread
      cases hread
    · intro requestId' peer' id' stored hstored hsettled
      cases hstored
      exact .inr (ProofStore.waitingAt_attachDownloadedProof hsettled)
  | attached snapshot requestId peer id stored hcontrol =>
    refine h.of_attended hcontrol (by rintro _ _ ⟨⟩) rfl rfl h.replied Worker.plain_resumeAttached.not_attached
      (fun id' addr hwaiting hmem hattended => ?_)
    rcases s.worker.resumeAttached_move requestId peer id stored s.now s.mode.draining with
      ⟨succeeded, hmove, hsettled⟩ | ⟨error, -, hfail, -⟩
    · -- a download that is stored has no record left to wait for it
      refine hmove.attended (fun hsucceeded heq => ?_) hattended
      subst heq
      exact h.attached requestId peer id' stored hcontrol (hsettled hsucceeded) addr hwaiting hmem
    · change (s.worker.resumeAttached requestId peer id stored s.now s.mode.draining).ledger.Attended id'
      rw [hfail]
      exact hattended
  | localSnapshot snapshot hcontrol =>
    exact h.of_ledger hcontrol (by rintro _ _ ⟨⟩) rfl rfl h.replied (by rintro _ _ _ _ ⟨⟩) rfl
  | waitingSnapshot snapshot hcontrol houtbox hsnapshot =>
    refine h.of_attended hcontrol (by rintro _ _ ⟨⟩) rfl rfl h.replied Worker.driven_resumeWaiting.plain.not_attached
      (fun id addr hwaiting _ hattended => ?_)
    change (s.worker.resumeWaiting snapshot).ledger.Attended id
    rw [Worker.ledger_resumeWaiting]
    exact hattended.stopOthers (hsnapshot.mem_iff.2 (ProofStore.mem_recordsWaitingForContent.2 ⟨addr, hwaiting⟩))
  | get snapshot id rest hcontrol => exact h.get hcontrol

/-- In a run of orderly steps, whenever the running worker is at rest, every record that waits for content and whose
observation the worker has taken has a retrieval that was not stopped, or had one whose deadline has passed. -/
theorem handled_record_retrieved [AvailabilityWire] (storeConfig : ProofStoreConfig) (store : ProofStore)
    (config : P2pConfig) (localPeerId : PeerId) (validators : Finset PeerId) (listeners : Finset Nat) (capacity : Nat)
    (hstore : ProofStore.new storeConfig = .ok store) {s : P2pSystem}
    (h : ((lts store config localPeerId validators listeners capacity).restrict Orderly).Reachable s)
    (hidle : s.worker.control = .idle) (hmode : s.mode = .running) (hrunning : s.driver.state = .running)
    (id : VerificationId) (e : Arc ProofRecord) (he : s.stores.store.get id = some e)
    (hwaiting : ProofStore.waitingForContent e.value = true) (hhandled : e.addr ∈ s.handled) :
    (∃ state, s.worker.entry id = some state ∧ state.finished = false) ∨ id ∈ s.worker.expired := by
  have hinvariant : s.Protocol ∧ (s.mode = .running → s.driver.state = .running → s.Tracking) := by
    refine h.invariant (P := fun s => s.Protocol ∧ (s.mode = .running → s.driver.state = .running → s.Tracking)) ?_ ?_
    · rintro s rfl
      refine ⟨protocol_initial, fun _ _ => ?_⟩
      have hnone : ∀ id addr, store.waitingAt id ≠ some addr := by
        intro id addr hwaiting
        obtain ⟨e, he, -⟩ := ProofStore.waitingAt_eq_some.1 hwaiting
        rw [ProofStore.new_get hstore] at he
        cases he
      exact
        { present := fun id addr hwaiting => absurd hwaiting (hnone id addr)
          handled := (fun _ hmem => nomatch hmem)
          noticed := (fun _ hmem => nomatch hmem)
          ordered := .nil
          replied := (fun heq => nomatch heq)
          attached := (fun _ _ _ _ hcontrol => nomatch hcontrol)
          attended := fun id addr hwaiting => absurd hwaiting (hnone id addr) }
    · rintro s a t - ⟨hp, htracking⟩ ⟨hnext, horderly⟩
      have hstep := next_step hnext
      refine ⟨hp.step hstep, fun hmode hrunning => ?_⟩
      have hbefore := hp.running_of_step hstep hrunning
      exact (htracking (hstep.mode hmode) hbefore).step hp horderly hstep hmode hbefore
  have hattended := (hinvariant.2 hmode hrunning).attended id e.addr
    (ProofStore.waitingAt_eq_some.2 ⟨e, he, hwaiting, rfl⟩) hhandled
  rcases hattended with (⟨job, hjob, hlive⟩ | hexpired) | ⟨⟨rest, hread⟩, -⟩
  · obtain ⟨state, hentry, rfl⟩ := Option.map_eq_some_iff.1 hjob
    exact .inl ⟨state, hentry, hlive⟩
  · exact .inr hexpired
  · rw [hidle] at hread
    cases hread

end

/-! ### A retrieval that is kept, and one that is lost -/

/-- The running worker is at rest, and it has taken the observation of a record that waits for content. -/
private def observedTest (id : VerificationId) (s : P2pSystem) : Bool :=
  s.worker.control.isIdle && decide (s.mode = .running ∧ s.driver.state = .running) &&
    (s.stores.store.get id).any (fun e => ProofStore.waitingForContent e.value && decide (e.addr ∈ s.handled))

private theorem observed_of_test {id : VerificationId} (h : observedTest id s = true) :
    s.worker.control = .idle ∧ s.mode = .running ∧ s.driver.state = .running ∧ ∃ e, s.stores.store.get id = some e ∧
      ProofStore.waitingForContent e.value = true ∧ e.addr ∈ s.handled := by
  rw [observedTest, Bool.and_eq_true, Bool.and_eq_true, Control.isIdle_iff, decide_eq_true_eq, Option.any_eq_true] at h
  obtain ⟨⟨hidle, hmode, hrunning⟩, e, he, hwaiting⟩ := h
  rw [Bool.and_eq_true, decide_eq_true_eq] at hwaiting
  exact ⟨hidle, hmode, hrunning, e, he, hwaiting⟩

/-- The record is evicted and observed again while the request is in flight, and then the request fails. -/
private def replaceRecord : List P2pAction :=
  [.operation (.evict .small .size), .workerSelect .storeEvent] ++
    exchange { NetworkOutcome.calm with outboundId := 1 } ++
    [.operation (.observeChainVerification 1 .small), .publish 1, .workerSelect .storeEvent, .workerStore [],
      .swarmEvent (.outboundFailure .there 0 "timeout"), .emit .calm, .workerSelect .driverEvent]

/-- A record is observed, and its retrieval waits for an answer to its query. -/
theorem handled_record_retrieved_queried :
    letI := Sha256.standard
    letI := AvailabilityWire.standard
    ∃ s e, ((lts .small .small .here {.here, .there} {0} 16).restrict Orderly).Reachable s ∧
      s.worker.control = .idle ∧ s.mode = .running ∧ s.driver.state = .running ∧ s.stores.store.get .small = some e ∧
      ProofStore.waitingForContent e.value = true ∧ e.addr ∈ s.handled ∧
      ((∃ state, s.worker.entry .small = some state ∧ state.finished = false) ∨ .small ∈ s.worker.expired) := by
  let _ := Sha256.standard
  let _ := AvailabilityWire.standard
  have hexec : (Lts.exec (Lts.guarded next Orderly) (initial .small .small .here {.here, .there} {0} 16)
      (reconcile ++ observe .small)).any (observedTest .small) = true := by
    decide +kernel
  obtain ⟨s, hs, htest⟩ := (Option.any_eq_true _ _).1 hexec
  obtain ⟨hidle, hmode, hrunning, e, he, hwaiting, hhandled⟩ := observed_of_test htest
  have hreach : ((lts .small .small .here {.here, .there} {0} 16).restrict Orderly).Reachable s :=
    ⟨_, _, rfl, Lts.run_restrict_of_exec hs⟩
  exact ⟨s, e, hreach, hidle, hmode, hrunning, he, hwaiting, hhandled,
    handled_record_retrieved .small .small .small .here {.here, .there}
      {0} 16 rfl hreach hidle hmode hrunning .small e he
      hwaiting hhandled⟩

/-- A record is evicted and observed again while a request is in flight; when the request fails, nothing is left that
retrieves the new record. -/
theorem retrieval_lost :
    letI := Sha256.standard
    letI := AvailabilityWire.standard
    ∃ s e, (lts .small .small .here {.here, .there} {0} 16).Reachable s ∧
      s.worker.control = .idle ∧ s.mode = .running ∧ s.driver.state = .running ∧ s.stores.store.get .small = some e ∧
      ProofStore.waitingForContent e.value = true ∧ e.addr ∈ s.handled ∧
      s.worker.entry .small = none ∧ .small ∉ s.worker.expired := by
  let _ := Sha256.standard
  let _ := AvailabilityWire.standard
  have hexec : (Lts.exec next (initial .small .small .here {.here, .there} {0} 16)
      (reconcile ++ observe .small ++ hear .small ++ exchange .calm ++ replaceRecord)).any (fun s =>
        observedTest .small s && ((s.worker.entry .small).isNone && decide (.small ∉ s.worker.expired))) = true := by
    decide +kernel
  obtain ⟨s, hs, htest⟩ := (Option.any_eq_true _ _).1 hexec
  simp only [Bool.and_eq_true, Option.isNone_iff_eq_none, decide_eq_true_eq] at htest
  obtain ⟨hidle, hmode, hrunning, e, he, hwaiting, hhandled⟩ := observed_of_test htest.1
  exact ⟨s, e, ⟨_, _, rfl, Lts.run_of_exec hs⟩, hidle, hmode, hrunning, he, hwaiting, hhandled, htest.2.1, htest.2.2⟩

end P2pSystem

end PulsarVerifier
