import PulsarVerifier.P2p.Resilience
import PulsarVerifier.P2p.WorkerTask

/-!
# Retrieval slots and single flight

The worker of the service is a worker task (`WorkerTask`) that the driver and the store of the service talk to.  An
entry has one active request at most, and the driver has no request that is not the active one of an entry or about to
become it; so no two requests of the driver are for the same proof.
-/

namespace PulsarVerifier

namespace P2pSystem

variable {s t : P2pSystem}

/-! ### The worker of the service -/

def Works (s : P2pSystem) (u : WorkerTask) : Prop := u.worker = s.worker ∧ u.draining = s.mode.draining

section

variable [Sha256] [AvailabilityWire]

theorem Works.step {u : WorkerTask} {a : P2pAction} (h : s.Works u) (hstep : P2pStep s a t) :
    t.Works u ∨ ∃ b v, u.next b = some v ∧ t.Works v := by
  obtain ⟨worker, draining⟩ := u
  obtain ⟨rfl, rfl⟩ : worker = s.worker ∧ draining = s.mode.draining := h
  have hround : ∀ p : P2pSystem, p.worker = s.worker → p.mode = s.mode →
      p.finishRound.Works ⟨s.worker, s.mode.draining⟩ := by
    intro p hworker hmode
    obtain ⟨state, reply, answers, hp⟩ := p.finishRound_frame
    rw [hp]
    exact ⟨hworker.symm, congrArg WorkerMode.draining hmode.symm⟩
  -- a step of the task from the control of the worker
  have hselect : ∀ event {v}, s.worker.control = .idle →
      WorkerTask.select ⟨s.worker, s.mode.draining⟩ event = some v → t.Works v →
      ∃ b v, WorkerTask.next ⟨s.worker, s.mode.draining⟩ b = some v ∧ t.Works v := by
    intro event v hidle hv hworks
    refine ⟨.select event, v, ?_, hworks⟩
    simp only [WorkerTask.next, hidle]
    exact hv
  have hstore : ∀ answer {access w}, s.worker.control = .store access →
      s.worker.resumeStore s.now s.mode.draining access answer = some w → t.Works ⟨w, s.mode.draining⟩ →
      ∃ b v, WorkerTask.next ⟨s.worker, s.mode.draining⟩ b = some v ∧ t.Works v := by
    intro answer access w hcontrol hw hworks
    refine ⟨.store answer s.now, ⟨w, s.mode.draining⟩, ?_, hworks⟩
    simp only [WorkerTask.next, hcontrol, hw]
    rfl
  have hsend : ∀ {command call}, s.worker.control = .sending command call →
      WorkerTask.next ⟨s.worker, s.mode.draining⟩ .send = some ⟨s.worker.goto (.waiting call), s.mode.draining⟩ := by
    intro command call hcontrol
    simp only [WorkerTask.next, hcontrol]
  have hrunning : s.mode = .running → ¬ s.mode.draining = true := by
    intro hmode
    rw [hmode]
    exact Bool.false_ne_true
  cases hstep with
  | driverCommand net caller command rest _ _ _ t ht =>
    obtain ⟨state, reply, answers, rfl⟩ := commandRound_frame ht
    exact .inl ⟨rfl, rfl⟩
  | swarmQuiet | delayedResponse | expireQueries | emitDropped | emitSent => exact .inl (hround _ rfl rfl)
  | selectTurn _ mode _ _ hdraining hmode => exact .inl ⟨rfl, hdraining.trans hmode.symm⟩
  | drainStoreEvent _ _ _ hdraining => exact .inl ⟨rfl, hdraining⟩
  | selectStop hidle hmode =>
    exact .inr (hselect .stop hidle (if_neg (hrunning hmode)) ⟨rfl, rfl⟩)
  | selectDriverEvent mode event rest hidle _ _ hmode =>
    refine .inr (hselect (.driverEvent event s.now) hidle rfl ⟨?_, hmode.symm⟩)
    exact congrArg (fun draining => s.worker.handleDriverEvent s.now draining event) hmode.symm
  | selectDriverClosed hidle => exact .inr (hselect (.closed .p2pDriverClosed) hidle rfl ⟨rfl, rfl⟩)
  | selectStoreEvent notice receiver hidle hmode =>
    have htaken : ({ s with receiver }.recordTaken notice).worker = s.worker.recordObserved notice.event ∧
        ({ s with receiver }.recordTaken notice).mode = s.mode := by
      obtain ⟨event, addr⟩ := notice
      cases event <;> exact ⟨rfl, rfl⟩
    exact .inr (hselect (.storeEvent notice.event) hidle (if_neg (hrunning hmode))
      ⟨congrArg (fun w => w.handleStoreEvent false notice.event) htaken.1.symm,
        congrArg WorkerMode.draining htaken.2.symm⟩)
  | selectLagged receiver hidle hmode =>
    exact .inr (hselect .lagged hidle (if_neg (hrunning hmode)) ⟨rfl, rfl⟩)
  | selectWake i wake hidle hmode _ hwake hdue =>
    refine .inr (hselect (.wake i s.now) (v := ⟨_, s.mode.draining⟩) hidle ?_ ⟨rfl, rfl⟩)
    simp only [WorkerTask.select, hwake, hmode]
    exact if_pos ⟨rfl, hdue⟩
  | drained hidle hdraining => exact .inr (hselect .drained hidle (if_pos hdraining) ⟨rfl, rfl⟩)
  | sendClosed command call hcontrol | send command call hcontrol => exact .inr ⟨.send, _, hsend hcontrol, rfl, rfl⟩
  | reply choice delay elapsed call reply worker hcontrol _ hresume =>
    refine .inr ⟨.reply ⟨choice, delay, s.now, s.now + elapsed⟩ reply, ⟨worker, s.mode.draining⟩, ?_, rfl, rfl⟩
    simp only [WorkerTask.next, hcontrol, hresume]
    rfl
  | getProof _ requestId id hcontrol =>
    exact .inr (hstore (.proof (s.stores.store.getProof id)) hcontrol rfl ⟨rfl, rfl⟩)
  | attach _ requestId peer id proof hcontrol =>
    exact .inr (hstore
      (.stored (s.stores.store.attachDownloadedProof s.now id proof peer).result) hcontrol rfl ⟨rfl, rfl⟩)
  | attached _ requestId peer id stored hcontrol =>
    exact .inr (hstore .published hcontrol rfl ⟨rfl, rfl⟩)
  | localSnapshot snapshot hcontrol | waitingSnapshot snapshot hcontrol =>
    exact .inr (hstore (.ids snapshot) hcontrol rfl ⟨rfl, rfl⟩)
  | get _ id rest hcontrol =>
    exact .inr (hstore (.record (s.stores.store.get id)) hcontrol rfl ⟨rfl, rfl⟩)
  | _ => exact .inl ⟨rfl, rfl⟩

variable {store : ProofStore} {config : P2pConfig} {localPeerId : PeerId} {validators : Finset PeerId}
  {listeners : Finset Nat} {capacity : Nat}

theorem reachable_works (h : (lts store config localPeerId validators listeners capacity).Reachable s) :
    ∃ u, (WorkerTask.lts localPeerId config).Reachable u ∧ s.Works u := by
  refine h.simulates (R := Works) ?_ (fun hworks hstep => hworks.step (next_step hstep))
  rintro s rfl
  exact ⟨_, rfl, rfl, rfl⟩

/-! ### Requests of the driver -/

theorem driver_of_gone {a : P2pAction} (hp : s.Protocol) (hstep : P2pStep s a t) (hgone : t.driverResult ≠ none) :
    t.driver = s.driver := by
  have hround : ∀ p : P2pSystem, p.driverResult = none → p.finishRound.driverResult = none := by
    intro p hresult
    exact (finishRound_keeps (·.driverResult) (fun _ _ _ _ => rfl) p).trans hresult
  cases hstep with
  | driverCommand net caller command rest _ hfree _ t ht =>
    obtain ⟨state, reply, answers, rfl⟩ := commandRound_frame ht
    exact absurd (driverFree_iff.1 hfree).2 hgone
  | swarmQuiet _ _ hfree => exact (hgone (hround _ (driverFree_iff.1 hfree).2)).elim
  | swarmEmit _ _ _ hfree => exact absurd (driverFree_iff.1 hfree).2 hgone
  | delayedResponse _ hfree | expireQueries hfree => exact (hgone (hround _ (driverFree_iff.1 hfree).2)).elim
  | emitDropped net event hemitting | emitSent net event hemitting =>
    exact (hgone (hround _ (hp.emitting (by rw [hemitting]; rfl)))).elim
  | selectStoreEvent notice receiver =>
    obtain ⟨handled, expired, htaken⟩ := recordTaken_frame { s with receiver } notice
    rw [htaken]
  | _ => rfl

end

/-- No two requests of the driver are for the same proof. -/
def OneRequest (d : Driver) : Prop :=
  ∀ k k' request request', d.outboundRequests.lookup k = some request → d.outboundRequests.lookup k' = some request' →
    request.verificationId = request'.verificationId → k = k'

/-- An entry has one request at most, and there is none while the reply to a call of `request_proof` is on its way. -/
theorem Outbound.oneRequest (h : s.Outbound) (hp : s.Protocol) : OneRequest s.driver := by
  have hgranted : ∀ {request request' : OutboundProofRequest}, request.verificationId = request'.verificationId →
      s.Granted request → s.worker.ledger.active request'.verificationId = none := by
    rintro request request' hid ⟨rest, hcontrol, -⟩
    rw [← hid]
    exact Ledger.active_of_idle (hp.waiting _ hcontrol _ rfl)
  intro k k' request request' hlookup hlookup' hid
  refine h.injective k k' request request' hlookup hlookup' ?_
  rcases h.held k request hlookup with hactive | hgrant
  · rcases h.held k' request' hlookup' with hactive' | hgrant'
    · rw [hid, hactive'] at hactive
      exact (congrArg Prod.fst (Option.some.inj hactive)).symm
    · rw [hgranted hid.symm hgrant'] at hactive
      cases hactive
  · rcases h.held k' request' hlookup' with hactive' | ⟨_, -, hreply'⟩
    · rw [hgranted hid hgrant] at hactive'
      cases hactive'
    · obtain ⟨_, -, hreply⟩ := hgrant
      rw [hreply, Option.some.injEq, Except.ok.injEq, Reply.requestId.injEq] at hreply'
      exact hreply'

/-- The requests of the driver, also after it is gone. -/
structure SingleFlight (s : P2pSystem) : Prop where
  protocol : s.Protocol
  outbound : s.driverResult = none → s.Outbound
  oneRequest : OneRequest s.driver

section

variable [Sha256] [AvailabilityWire] {store : ProofStore} {config : P2pConfig} {localPeerId : PeerId}
  {validators : Finset PeerId} {listeners : Finset Nat} {capacity : Nat}

theorem SingleFlight.step {a : P2pAction} (h : s.SingleFlight) (hstep : P2pStep s a t) : t.SingleFlight := by
  have hprotocol := h.protocol.step hstep
  have houtbound : t.driverResult = none → t.Outbound := fun hresult =>
    (h.outbound (hstep.driverResult hresult)).step h.protocol hstep hresult
  refine ⟨hprotocol, houtbound, ?_⟩
  by_cases hresult : t.driverResult = none
  · exact (houtbound hresult).oneRequest hprotocol
  · rw [driver_of_gone h.protocol hstep hresult]
    exact h.oneRequest

theorem reachable_singleFlight (h : (lts store config localPeerId validators listeners capacity).Reachable s) :
    s.SingleFlight := by
  refine h.invariant (P := SingleFlight) ?_ ?_
  · rintro s rfl
    have houtbound : (initial store config localPeerId validators listeners capacity).Outbound := outbound_initial
    exact ⟨protocol_initial, fun _ => houtbound, houtbound.oneRequest protocol_initial⟩
  · intro s a t _ hs hnext
    exact hs.step (next_step hnext)

omit [Sha256] [AvailabilityWire] in
/-- A request that the worker asks for is not in flight. -/
theorem SingleFlight.not_inFlight (h : s.SingleFlight) {peer : PeerId} {id : VerificationId}
    (hmem : (Caller.worker, DriverCommand.requestProof peer id) ∈ s.mailbox) (hfree : s.driverFree) :
    (peer, id) ∉ s.driver.inFlight := by
  have hresult := (driverFree_iff.1 hfree).2
  obtain ⟨call, hcontrol, hreply, hsends, -⟩ := h.protocol.awaiting hresult hmem
  intro hinFlight
  obtain ⟨k, request, hlookup, -, hid⟩ := (h.outbound hresult).inFlight peer id hinFlight
  cases call with
  | requestProof id' peer' rest =>
    obtain ⟨rfl, rfl⟩ := hsends
    exact (h.outbound hresult).not_requested h.protocol hcontrol hreply rfl hlookup hid
  | _ => cases hsends

end

end P2pSystem

/-! ### Slots and single flight -/

section

variable [Sha256] [AvailabilityWire]

/-- The worker under any order of driver events, replies, store events, wakes and the stop: the slots are as many as the
entries with an active request, and no more than configured, so `checked_sub` always finds one; and only an entry with
an active request is marked finished.  In the service, the worker is such a worker, no two outstanding requests are for
the same proof, and the driver never refuses a request of the worker as one that is already in flight. -/
theorem retrieval_slots (localPeerId : PeerId) (config : P2pConfig) :
    (∀ s, (WorkerTask.lts localPeerId config).Reachable s →
      s.worker.activeRetrievals = s.worker.retrievals.entries.countP (fun e => e.2.active.isSome) ∧
      s.worker.activeRetrievals ≤ config.maxConcurrentRetrievals ∧
      (∀ id requestId peer succeeded now message,
        s.worker.finishRequest id requestId peer succeeded now ≠ .error message) ∧
      (∀ message, s.worker.control ≠ .panicked message) ∧
      ∀ id state, s.worker.entry id = some state → state.finished = true → state.active.isSome = true) ∧
    ∀ store validators listeners capacity s,
      (P2pSystem.lts store config localPeerId validators listeners capacity).Reachable s →
      (∃ u, (WorkerTask.lts localPeerId config).Reachable u ∧ u.worker = s.worker) ∧
      (∀ k k' request request', s.driver.outboundRequests.lookup k = some request →
        s.driver.outboundRequests.lookup k' = some request' →
        request.verificationId = request'.verificationId → k = k') ∧
      ∀ peer id rest net, s.mailbox = (.worker, .requestProof peer id) :: rest → s.driverFree = true →
        (s.driver.handleCommand net .worker (.requestProof peer id)).2 ≠
          [(.worker, .error (.p2pDriver s!"proof request to {peer.toBase58} is already in flight"))] := by
  constructor
  · intro s hs
    have hslots := WorkerTask.reachable_slots hs
    exact ⟨hslots.activeRetrievals_eq, hslots.bounded, fun _ => hslots.finishRequest, hslots.not_panicked,
      fun _ _ => hslots.finished⟩
  · intro store validators listeners capacity s hs
    obtain ⟨u, hu, hworks⟩ := P2pSystem.reachable_works hs
    have hsingle := P2pSystem.reachable_singleFlight hs
    refine ⟨⟨u, hu, hworks.1⟩, hsingle.oneRequest, fun peer id rest net hmailbox hfree hreply => ?_⟩
    have herror : (s.driver.requestProof net peer id).1 =
        .error (.p2pDriver s!"proof request to {peer.toBase58} is already in flight") :=
      error_of_map (congrArg Prod.snd (List.cons.inj hreply).1)
    rcases s.driver.requestProof_error herror with hdraining | ⟨message, hmessage⟩ | hinFlight
    · cases hdraining
    · cases hmessage
    · exact hsingle.not_inFlight (by rw [hmailbox]; exact List.mem_cons_self) hfree hinFlight

end

/-! ### A retrieval that is stopped while its request is in flight -/

open WorkerTask in
/-- The store has a record of the chain without content; a peer provides the proof, and its request is in flight when
the verification changes. -/
private def stoppedRetrieval (id : VerificationId) : List WorkerAction :=
  [.store (.ids []) 0] ++ calls 0 .unit ++ [.store (.ids [id]) 0, .store .waitingRecord 0] ++
    calls 0 (.providers [.there]) ++ calls 0 (.requestId 1) ++ [.select (.storeEvent (.verificationChanged id .queued))]

open P2pSystem in
/-- The worker observes a record and a peer announces its proof; the request for it is in the mailbox. -/
private def askedRetrieval [Sha256] [AvailabilityWire] : List P2pAction :=
  reconcile ++ observe (Proof.verificationId .small) ++ hear (Proof.verificationId .small) ++ [.workerSend]

/-- The only command in the mailbox, if it is a request of the worker. -/
private def askedFor : List (Caller × DriverCommand) → Option (PeerId × VerificationId)
  | [(.worker, .requestProof peer id)] => some (peer, id)
  | _ => none

private theorem mailbox_of_askedFor {mailbox : List (Caller × DriverCommand)} {peer : PeerId} {id : VerificationId}
    (h : askedFor mailbox = some (peer, id)) : mailbox = [(.worker, .requestProof peer id)] := by
  unfold askedFor at h
  split at h
  · cases h
    rfl
  · cases h

/-- A retrieval that is stopped keeps its slot until its request is over; and the driver starts a request for which it
is asked. -/
theorem retrieval_slots_stopped :
    letI := Sha256.standard
    letI := AvailabilityWire.standard
    (∃ s state, (WorkerTask.lts .here .small).Reachable s ∧
      s.worker.entry (Proof.verificationId .small) = some state ∧ state.finished = true ∧ state.active.isSome = true ∧
      s.worker.activeRetrievals = 1 ∧ s.worker.retrievals.entries.countP (fun e => e.2.active.isSome) = 1) ∧
    ∃ s, (P2pSystem.lts .small .small .here {.here, .there} {0} 16).Reachable s ∧
      s.mailbox = [(.worker, .requestProof .there (Proof.verificationId .small))] ∧ s.driverFree = true ∧
      (s.driver.handleCommand .calm .worker (.requestProof .there (Proof.verificationId .small))).2 ≠
        [(.worker, .error (.p2pDriver s!"proof request to {PeerId.there.toBase58} is already in flight"))] := by
  let _ := Sha256.standard
  let _ := AvailabilityWire.standard
  have hworker : (Lts.exec WorkerTask.next (WorkerTask.initial .here .small)
      (stoppedRetrieval (Proof.verificationId .small))).any (fun s =>
        s.worker.activeRetrievals == 1 && (s.worker.entry (Proof.verificationId .small)).any (·.finished)) = true := by
    decide +kernel
  have hservice : (Lts.exec P2pSystem.next (P2pSystem.initial .small .small .here {.here, .there} {0} 16)
      askedRetrieval).any (fun s =>
        decide (askedFor s.mailbox = some (.there, Proof.verificationId .small)) && s.driverFree) = true := by
    decide +kernel
  obtain ⟨s, hs, htest⟩ := (Option.any_eq_true _ _).1 hworker
  rw [Bool.and_eq_true, beq_iff_eq] at htest
  obtain ⟨state, hentry, hfinished⟩ := (Option.any_eq_true _ _).1 htest.2
  obtain ⟨t, ht, htest'⟩ := (Option.any_eq_true _ _).1 hservice
  rw [Bool.and_eq_true, decide_eq_true_eq] at htest'
  have htask : (WorkerTask.lts .here .small).Reachable s := ⟨_, _, rfl, Lts.run_of_exec hs⟩
  have hsystem : (P2pSystem.lts .small .small .here {.here, .there} {0} 16).Reachable t :=
    ⟨_, _, rfl, Lts.run_of_exec ht⟩
  have hmailbox := mailbox_of_askedFor htest'.1
  obtain ⟨hall, hsingle⟩ := retrieval_slots .here .small
  obtain ⟨hcount, -, -, -, hactive⟩ := hall s htask
  obtain ⟨-, -, hanswer⟩ := hsingle .small {.here, .there} {0} 16 t hsystem
  exact ⟨⟨s, state, htask, hentry, hfinished, hactive _ state hentry hfinished, htest.1, hcount.symm.trans htest.1⟩,
    t, hsystem, hmailbox, htest'.2, hanswer _ _ _ .calm hmailbox htest'.2⟩

end PulsarVerifier
