import PulsarVerifier.P2p.Inbound

/-!
# Outbound proof requests

The worker starts a request, and its answer comes back as a driver event.  `Activity` is what one step does to the
requests in the ledger of the worker.  While the driver is there, every request it has in flight belongs to an active
retrieval (`Outbound`); and every slot of the worker belongs to a request.
-/

namespace PulsarVerifier

/-! ### Effects on the driver -/

theorem SwarmMove.outbound {d d' : Driver} {event : SwarmEvent} {emitted : Option DriverEvent}
    (h : SwarmMove d event d' emitted) :
    (d'.outboundRequests = d.outboundRequests ∧ d'.nextProofRequestId = d.nextProofRequestId ∧
      d'.inFlight = d.inFlight ∧ ∀ e ∈ emitted, e.answered = none) ∨
    ∃ k request peer e, d.outboundRequests.lookup k = some request ∧
      d'.outboundRequests = d.outboundRequests.erase k ∧ d'.nextProofRequestId = d.nextProofRequestId ∧
      d'.inFlight = d.inFlight.erase (request.peer, request.verificationId) ∧
      emitted = some e ∧ e.answered = some (request.applicationId, peer, request.verificationId) := by
  cases h with
  | quiet => exact .inl ⟨rfl, rfl, rfl, (fun _ he => nomatch he)⟩
  | connected | announced => exact .inl ⟨rfl, rfl, rfl, fun e he => by cases he; rfl⟩
  | queried => exact .inl ⟨rfl, rfl, rfl, (fun _ he => nomatch he)⟩
  | requested => exact .inl ⟨rfl, rfl, rfl, fun e he => by cases he; rfl⟩
  | listening _ _ _ _ _ hemitted =>
    refine .inl ⟨rfl, rfl, rfl, fun e he => ?_⟩
    obtain ⟨-, address, rfl⟩ := hemitted e he
    rfl
  | disconnected _ _ _ hemitted =>
    refine .inl ⟨rfl, rfl, rfl, fun e he => ?_⟩
    obtain ⟨-, rfl⟩ := hemitted e he
    rfl
  | responded _ _ _ _ _ _ _ hemitted =>
    refine .inl ⟨rfl, rfl, rfl, fun e he => ?_⟩
    rw [hemitted e he]
    rfl
  | answered _ k request _ emitted peer hlookup _ hanswered =>
    exact .inr ⟨k, request, peer, emitted, hlookup, rfl, rfl, rfl, rfl, hanswered⟩

theorem Driver.handleCommand_outbound [Sha256] (d : Driver) (net : NetworkOutcome) (caller : Caller)
    (command : DriverCommand) :
    ((d.handleCommand net caller command).1.outboundRequests = d.outboundRequests ∧
      (d.handleCommand net caller command).1.nextProofRequestId = d.nextProofRequestId ∧
      (d.handleCommand net caller command).1.inFlight = d.inFlight) ∨
    ∃ peer id, command = .requestProof peer id ∧ peer ∈ d.authorizedPeers ∧ (peer, id) ∉ d.inFlight ∧
      (d.handleCommand net caller command).1.outboundRequests =
        d.outboundRequests.insert net.outboundId ⟨d.nextProofRequestId, peer, id⟩ ∧
      (d.handleCommand net caller command).1.nextProofRequestId = d.nextProofRequestId + 1 ∧
      (d.handleCommand net caller command).1.inFlight = insert (peer, id) d.inFlight ∧
      (d.handleCommand net caller command).2 = [(caller, .ok (.requestId d.nextProofRequestId))] := by
  rcases h : d.handleCommand net caller command with ⟨d', replies⟩
  cases d.handleCommand_move net h with
  | requested peer id _ hauth hnew => exact .inr ⟨peer, id, rfl, hauth, hnew, rfl, rfl, rfl, rfl⟩
  | _ => exact .inl ⟨rfl, rfl, rfl⟩

/-! ### The requests in the ledger -/

namespace Worker

variable {w w' : Worker} {id : VerificationId}

/-- The requests in flight are the same, and so are the slots. -/
def SameActive (w w' : Worker) : Prop :=
  (∀ id, w'.ledger.active id = w.ledger.active id) ∧ w'.ledger.slots = w.ledger.slots

theorem SameActive.of_calm (h : w.ledger.Calm w'.ledger) : w.SameActive w' := ⟨h.active, h.1⟩

theorem SameActive.of_ledger (h : w'.ledger = w.ledger) : w.SameActive w' := .of_calm (calm_of_ledger h)

/-- A request that is over gives its slot back. -/
def Releases (w w' : Worker) (id : VerificationId) (request : ProofRequestId × PeerId) : Prop :=
  w.ledger.active id = some request ∧ ∃ job : Option (Job (ProofRequestId × PeerId)), job.bind Job.active = none ∧
    (∀ id', w'.ledger.active id' = (w.ledger.finish id job).active id') ∧
    w'.ledger.slots = (w.ledger.finish id job).slots

theorem FinishMove.active {request : ProofRequestId × PeerId} {succeeded : Bool}
    (h : w.FinishMove id request succeeded w') : w.SameActive w' ∨ w.Releases w' id request := by
  rcases h.requests with hcalm | ⟨hactive, job, hjob, hcalm⟩
  · exact .inl (.of_calm hcalm)
  · exact .inr ⟨hactive, job, (by rcases hjob with rfl | rfl <;> rfl), hcalm.active, hcalm.1⟩

end Worker

namespace P2pSystem

variable {s t : P2pSystem}

/-- The outbound requests whose answers are on their way to the worker, or handled by it. -/
def answeredIds (s : P2pSystem) : List ProofRequestId :=
  s.worker.control.answers ++ s.events.filterMap (fun event => event.answered.map (·.1)) ++
    s.emitting.toList.filterMap (fun event => event.answered.map (·.1))

/-- The driver has started the request, and the worker has not taken the reply yet. -/
def Granted (s : P2pSystem) (request : OutboundProofRequest) : Prop :=
  ∃ rest, s.worker.control = .waiting (.requestProof request.verificationId request.peer rest) ∧
    s.reply = some (.ok (.requestId request.applicationId))

/-- What a step does to the requests in the ledger. -/
inductive Activity (s t : P2pSystem) : Prop
  | same (h : s.worker.SameActive t.worker) (hgranted : ∀ request, s.Granted request → t.Granted request)
  | started (id : VerificationId) (peer : PeerId) (rest : List VerificationId) (requestId : ProofRequestId)
      (hcontrol : s.worker.control = .waiting (.requestProof id peer rest))
      (hreply : s.replyToWorker = some (.ok (.requestId requestId)))
      (hledger : t.worker.ledger = s.worker.ledger.start id (requestId, peer))
  | released (id : VerificationId) (requestId : ProofRequestId) (peer : PeerId) (hmem : requestId ∈ s.answeredIds)
      (hgranted : ∀ request, ¬ s.Granted request)
      (hreleases : s.worker.Releases t.worker id (requestId, peer))

theorem activity [Sha256] [AvailabilityWire] {a : P2pAction} (hp : s.Protocol) (hstep : P2pStep s a t) :
    Activity s t := by
  have hround : ∀ u : P2pSystem, u.driver.state ≠ .draining .worker →
      u.finishRound.worker = u.worker ∧ u.finishRound.reply = u.reply := by
    intro u hdrain
    obtain ⟨state, answers, h, -⟩ := finishRound_eq hdrain
    rw [h]
    exact ⟨rfl, rfl⟩
  -- a step without a part of the worker
  have hkept : t.worker = s.worker ∧ t.reply = s.reply → Activity s t := by
    rintro ⟨hworker, hreply⟩
    refine .same (.of_ledger (by rw [hworker])) (fun request hgranted => ?_)
    unfold Granted
    rw [hworker, hreply]
    exact hgranted
  have hnot : ∀ {control}, s.worker.control = control → (∀ call, control ≠ .waiting call) →
      ∀ request, ¬ s.Granted request := by
    rintro control hcontrol hne request ⟨rest, hwaiting, -⟩
    exact hne _ (hcontrol.symm.trans hwaiting)
  -- a step of the worker from a point where it waits for no reply
  have hmoved : ∀ {control}, s.worker.control = control → (∀ call, control ≠ .waiting call) →
      s.worker.SameActive t.worker → Activity s t :=
    fun hcontrol hne hsame => .same hsame (fun request hgranted => absurd hgranted (hnot hcontrol hne request))
  cases hstep with
  | operation | evict | publish | tick | requestStop | submit | workerFlush | swarmError | swarmEmit | selectTurn
  | drainStoreEvent => exact hkept ⟨rfl, rfl⟩
  | swarmQuiet event driver _ _ hmove =>
    exact hkept (hround _ (by rw [s.driver.handleSwarmEvent_state hmove]; exact hp.drain))
  | delayedResponse | expireQueries => exact hkept (hround _ hp.drain)
  | emitDropped net event _ _ driver hdriver =>
    have hstate : driver.state = s.driver.state := by
      rcases hdriver with ⟨rfl, -⟩ | ⟨requestId, peer, id, -, rfl⟩
      · rfl
      · exact s.driver.respondProof_state _ _ _
    exact hkept (hround _ (by rw [hstate]; exact hp.drain))
  | emitSent => exact hkept (hround _ hp.drain)
  | driverCommand net caller command rest hmailbox hfree _ t ht =>
    cases hp.commandRound { net with now := s.now } hmailbox (driverFree_iff.1 hfree).2 ht with
    | worker call _ reply state answers hcontrol hreply =>
      refine .same (.of_ledger rfl) ?_
      rintro request ⟨rest, -, hgranted⟩
      rw [hreply] at hgranted
      cases hgranted
    | client => exact hkept ⟨rfl, rfl⟩
  | selectStop hidle | selectDriverClosed hidle | selectLagged receiver hidle | drained hidle =>
    exact hmoved hidle (fun _ h => nomatch h) (.of_ledger rfl)
  | sendClosed command call hcontrol | send command call hcontrol | getProof _ _ _ hcontrol
  | attach _ _ _ _ _ hcontrol | localSnapshot _ hcontrol =>
    exact hmoved hcontrol (fun _ h => nomatch h) (.of_ledger rfl)
  | selectDriverEvent mode event rest hidle _ hevents =>
    have hmove := s.worker.handleDriverEvent_move s.now mode.draining event
    clear hkept
    generalize s.worker.handleDriverEvent s.now mode.draining event = w at hmove hmoved ⊢
    cases hmove with
    | requested | received | announced | reconcile => exact hmoved hidle (fun _ h => nomatch h) (.of_ledger rfl)
    | driven _ _ _ _ hledger => exact hmoved hidle (fun _ h => nomatch h) (.of_ledger hledger)
    | finished _ requestId peer id _ hevent _ hmove =>
      rcases hmove.active with hsame | hreleases
      · exact hmoved hidle (fun _ h => nomatch h) hsame
      · refine .released id requestId peer ?_ (hnot hidle (fun _ h => nomatch h)) hreleases
        simp [answeredIds, hevents, hevent]
  | selectStoreEvent notice receiver hidle =>
    obtain ⟨handled, expired, htaken⟩ := recordTaken_frame { s with receiver } notice
    have hsame : s.worker.SameActive
        (({ s with receiver }.recordTaken notice).worker.handleStoreEvent false notice.event) := by
      rw [htaken]
      exact .of_calm Worker.calm_handleStoreEvent
    exact hmoved hidle (fun _ h => nomatch h) hsame
  | selectWake i wake hidle => exact hmoved hidle (fun _ h => nomatch h) (.of_calm Worker.calm_handleWake)
  | reply _ _ _ call reply worker hcontrol hreply hresume =>
    rcases (Worker.resumeCall_move hresume).requests with
      ⟨hcalm, hother⟩ | ⟨id, peer, rest, requestId, rfl, rfl, hledger⟩
    · refine .same (.of_calm hcalm) ?_
      rintro request ⟨rest, hwaiting, hgranted⟩
      rw [hcontrol] at hwaiting
      cases hwaiting
      unfold replyToWorker at hreply
      rw [hgranted] at hreply
      cases hreply
      exact absurd rfl (hother _ _ _ rfl _)
    · exact .started id peer rest requestId hcontrol hreply hledger
  | attached snapshot requestId peer id stored hcontrol =>
    rcases s.worker.resumeAttached_move requestId peer id stored s.now s.mode.draining with
      ⟨succeeded, hmove, -⟩ | ⟨error, -, hfail, -⟩
    · rcases hmove.active with hsame | hreleases
      · exact hmoved hcontrol (fun _ h => nomatch h) hsame
      · refine .released id requestId peer ?_ (hnot hcontrol (fun _ h => nomatch h)) hreleases
        simp [answeredIds, hcontrol, Control.answers]
    · exact hmoved hcontrol (fun _ h => nomatch h) (.of_ledger (by rw [hfail]; rfl))
  | waitingSnapshot _ hcontrol => exact hmoved hcontrol (fun _ h => nomatch h) (.of_calm Worker.calm_resumeWaiting)
  | get _ _ _ hcontrol => exact hmoved hcontrol (fun _ h => nomatch h) (.of_calm Worker.calm_resumeGet)

/-- Every slot belongs to a request in flight, after any step. -/
theorem counted_step [Sha256] [AvailabilityWire] {a : P2pAction} (hp : s.Protocol) (h : s.worker.ledger.Counted)
    (hstep : P2pStep s a t) : t.worker.ledger.Counted := by
  cases activity hp hstep with
  | same hsame => exact h.of_active hsame.1 hsame.2
  | started id peer rest requestId hcontrol _ hledger =>
    rw [hledger]
    exact h.start (hp.waiting _ hcontrol id rfl)
  | released id requestId peer _ _ hreleases =>
    obtain ⟨hactive, job, hjob, hsame, hslots⟩ := hreleases
    exact (h.finish (by rw [hactive]; rfl) hjob).of_active hsame hslots

/-! ### Outbound requests -/

/-- The request belongs to an active retrieval of the worker, or is about to. -/
def Held (s : P2pSystem) (request : OutboundProofRequest) : Prop :=
  s.worker.ledger.active request.verificationId = some (request.applicationId, request.peer) ∨ s.Granted request

/-- Every outbound request of the driver has an identifier of its own, which no answer carries yet, and belongs to an
active retrieval. -/
structure Outbound (s : P2pSystem) : Prop where
  bound : ∀ k request, s.driver.outboundRequests.lookup k = some request →
    request.applicationId < s.driver.nextProofRequestId
  injective : ∀ k k' request request', s.driver.outboundRequests.lookup k = some request →
    s.driver.outboundRequests.lookup k' = some request' → request.applicationId = request'.applicationId → k = k'
  answered : ∀ requestId ∈ s.answeredIds, requestId < s.driver.nextProofRequestId ∧
    ∀ k request, s.driver.outboundRequests.lookup k = some request → request.applicationId ≠ requestId
  inFlight : ∀ peer id, (peer, id) ∈ s.driver.inFlight →
    ∃ k request, s.driver.outboundRequests.lookup k = some request ∧ request.peer = peer ∧ request.verificationId = id
  held : ∀ k request, s.driver.outboundRequests.lookup k = some request → s.Held request

theorem outbound_initial {store : ProofStore} {config : P2pConfig} {localPeerId : PeerId} {validators : Finset PeerId}
    {listeners : Finset Nat} {capacity : Nat} :
    (initial store config localPeerId validators listeners capacity).Outbound where
  bound k request hlookup := by simp [initial, Driver.build] at hlookup
  injective k k' request request' hlookup := by simp [initial, Driver.build] at hlookup
  answered _ hmem := nomatch hmem
  inFlight peer id hmem := by simp [initial, Driver.build] at hmem
  held k request hlookup := by simp [initial, Driver.build] at hlookup

/-- The requests in flight stay with their retrievals: the only one whose retrieval ends has been answered. -/
theorem Outbound.held_of_activity (h : s.Outbound) (hp : s.Protocol) (hactivity : Activity s t) {k : OutboundRequestId}
    {request : OutboundProofRequest} (hlookup : s.driver.outboundRequests.lookup k = some request) :
    t.Held request := by
  have hheld := h.held k request hlookup
  cases hactivity with
  | same hsame hgranted => exact hheld.imp (fun hactive => (hsame.1 _).trans hactive) (hgranted request)
  | started id peer rest requestId hcontrol hreply hledger =>
    have hidle := hp.waiting _ hcontrol id rfl
    refine .inl ?_
    rw [hledger, Ledger.active_start hidle]
    rcases hheld with hactive | ⟨rest', hwaiting, hgranted⟩
    · have hne : request.verificationId ≠ id := by
        intro heq
        rw [heq, Ledger.active_of_idle hidle] at hactive
        cases hactive
      rw [if_neg hne, hactive]
    · rw [hcontrol] at hwaiting
      cases hwaiting
      unfold replyToWorker at hreply
      rw [hgranted] at hreply
      cases hreply
      rw [if_pos rfl]
  | released id requestId peer hmem hgranted hreleases =>
    obtain ⟨hreleased, job, hjob, hsame, -⟩ := hreleases
    rcases hheld with hactive | hgrant
    · have hne : request.verificationId ≠ id := by
        intro heq
        rw [heq, hreleased] at hactive
        exact (h.answered requestId hmem).2 k request hlookup (congrArg Prod.fst (Option.some.inj hactive)).symm
      refine .inl ?_
      rw [hsame, Ledger.active_finish hjob, if_neg hne, hactive]
    · exact absurd hgrant (hgranted request)

/-- While the worker asks for the proof of `id` and has no reply yet, no request for `id` is outstanding. -/
theorem Outbound.not_requested (h : s.Outbound) (hp : s.Protocol) {call : DriverCall}
    (hcontrol : s.worker.control = .waiting call) (hreply : s.reply = none) {id : VerificationId}
    (hid : id ∈ call.retrieval) {k : OutboundRequestId} {request : OutboundProofRequest}
    (hlookup : s.driver.outboundRequests.lookup k = some request) : request.verificationId ≠ id := by
  rintro rfl
  rcases h.held k request hlookup with hactive | ⟨_, -, hgranted⟩
  · rw [Ledger.active_of_idle (hp.waiting _ hcontrol _ hid)] at hactive
    cases hactive
  · rw [hreply] at hgranted
    cases hgranted

private theorem Outbound.of_same (h : s.Outbound) (hp : s.Protocol) (hactivity : Activity s t)
    (houtbound : t.driver.outboundRequests = s.driver.outboundRequests)
    (hnext : t.driver.nextProofRequestId = s.driver.nextProofRequestId)
    (hinFlight : t.driver.inFlight = s.driver.inFlight) (hanswered : t.answeredIds ⊆ s.answeredIds) : t.Outbound := by
  constructor
  · rw [houtbound, hnext]
    exact h.bound
  · rw [houtbound]
    exact h.injective
  · intro requestId hmem
    rw [houtbound, hnext]
    exact h.answered requestId (hanswered hmem)
  · rw [houtbound, hinFlight]
    exact h.inFlight
  · rw [houtbound]
    exact fun k request hlookup => h.held_of_activity hp hactivity hlookup

private theorem Outbound.grant (h : s.Outbound) (hp : s.Protocol) (hactivity : Activity s t) {k : OutboundRequestId}
    {peer : PeerId} {id : VerificationId}
    (houtbound : t.driver.outboundRequests =
      s.driver.outboundRequests.insert k ⟨s.driver.nextProofRequestId, peer, id⟩)
    (hk : k ∉ s.driver.outboundRequests)
    (hnext : t.driver.nextProofRequestId = s.driver.nextProofRequestId + 1)
    (hinFlight : t.driver.inFlight = insert (peer, id) s.driver.inFlight) (hanswered : t.answeredIds = s.answeredIds)
    (hgranted : t.Granted ⟨s.driver.nextProofRequestId, peer, id⟩) : t.Outbound := by
  have hnew : t.driver.outboundRequests.lookup k = some ⟨s.driver.nextProofRequestId, peer, id⟩ := by
    rw [houtbound, AList.lookup_insert]
  have hold : ∀ k', k' ≠ k → t.driver.outboundRequests.lookup k' = s.driver.outboundRequests.lookup k' := by
    intro k' hne
    rw [houtbound, AList.lookup_insert_ne hne]
  -- a request is the new one or an old one
  have hcases : ∀ k' request, t.driver.outboundRequests.lookup k' = some request →
      (k' = k ∧ request = ⟨s.driver.nextProofRequestId, peer, id⟩) ∨
        s.driver.outboundRequests.lookup k' = some request := by
    intro k' request hlookup
    by_cases hne : k' = k
    · rw [hne, hnew] at hlookup
      exact .inl ⟨hne, (Option.some.inj hlookup).symm⟩
    · exact .inr (hold k' hne ▸ hlookup)
  constructor
  · intro k' request hlookup
    rw [hnext]
    rcases hcases k' request hlookup with ⟨-, rfl⟩ | hlookup
    · exact Nat.lt_succ_self _
    · exact Nat.lt_succ_of_lt (h.bound k' request hlookup)
  · intro k₁ k₂ request₁ request₂ hlookup₁ hlookup₂ heq
    rcases hcases k₁ request₁ hlookup₁ with ⟨rfl, rfl⟩ | hlookup₁
    · rcases hcases k₂ request₂ hlookup₂ with ⟨rfl, -⟩ | hlookup₂
      · rfl
      · exact absurd heq.symm (Nat.ne_of_lt (h.bound k₂ request₂ hlookup₂))
    · rcases hcases k₂ request₂ hlookup₂ with ⟨rfl, rfl⟩ | hlookup₂
      · exact absurd heq (Nat.ne_of_lt (h.bound k₁ request₁ hlookup₁))
      · exact h.injective k₁ k₂ request₁ request₂ hlookup₁ hlookup₂ heq
  · intro requestId hmem
    rw [hanswered] at hmem
    obtain ⟨hbound, hfresh⟩ := h.answered requestId hmem
    refine ⟨by rw [hnext]; exact Nat.lt_succ_of_lt hbound, fun k' request hlookup => ?_⟩
    rcases hcases k' request hlookup with ⟨-, rfl⟩ | hlookup
    · exact (Nat.ne_of_lt hbound).symm
    · exact hfresh k' request hlookup
  · intro peer' id' hmem
    rw [hinFlight, Finset.mem_insert] at hmem
    rcases hmem with heq | hmem
    · cases heq
      exact ⟨k, _, hnew, rfl, rfl⟩
    · obtain ⟨k', request, hlookup, hpeer, hid⟩ := h.inFlight peer' id' hmem
      have hne : k' ≠ k := by
        rintro rfl
        exact hk (AList.lookup_isSome.1 (by rw [hlookup]; rfl))
      exact ⟨k', request, (hold k' hne).trans hlookup, hpeer, hid⟩
  · intro k' request hlookup
    rcases hcases k' request hlookup with ⟨-, rfl⟩ | hlookup
    · exact .inr hgranted
    · exact h.held_of_activity hp hactivity hlookup

private theorem Outbound.answer (h : s.Outbound) (hp : s.Protocol) (hactivity : Activity s t) {k : OutboundRequestId}
    {request : OutboundProofRequest} (hlookup : s.driver.outboundRequests.lookup k = some request)
    (houtbound : t.driver.outboundRequests = s.driver.outboundRequests.erase k)
    (hnext : t.driver.nextProofRequestId = s.driver.nextProofRequestId)
    (hinFlight : t.driver.inFlight = s.driver.inFlight.erase (request.peer, request.verificationId))
    (hanswered : t.answeredIds ⊆ request.applicationId :: s.answeredIds) : t.Outbound := by
  have hold : ∀ k' request', t.driver.outboundRequests.lookup k' = some request' →
      k' ≠ k ∧ s.driver.outboundRequests.lookup k' = some request' := by
    intro k' request' h'
    rw [houtbound] at h'
    exact AList.lookup_erase_some h'
  constructor
  · intro k' request' h'
    rw [hnext]
    exact h.bound k' request' (hold k' request' h').2
  · intro k₁ k₂ request₁ request₂ h₁ h₂ heq
    exact h.injective k₁ k₂ request₁ request₂ (hold k₁ request₁ h₁).2 (hold k₂ request₂ h₂).2 heq
  · intro requestId hmem
    rw [hnext]
    rcases List.mem_cons.1 (hanswered hmem) with rfl | hmem
    · refine ⟨h.bound k request hlookup, fun k' request' h' heq => ?_⟩
      obtain ⟨hne, h'⟩ := hold k' request' h'
      exact hne (h.injective k' k request' request h' hlookup heq)
    · refine ⟨(h.answered requestId hmem).1, fun k' request' h' => ?_⟩
      exact (h.answered requestId hmem).2 k' request' (hold k' request' h').2
  · intro peer id hmem
    rw [hinFlight, Finset.mem_erase] at hmem
    obtain ⟨k', request', h', hpeer, hid⟩ := h.inFlight peer id hmem.2
    have hne : k' ≠ k := by
      rintro rfl
      rw [hlookup] at h'
      cases h'
      exact hmem.1 (by rw [hpeer, hid])
    exact ⟨k', request', by rw [houtbound, AList.lookup_erase_ne hne, h'], hpeer, hid⟩
  · intro k' request' h'
    exact h.held_of_activity hp hactivity (hold k' request' h').2

theorem Outbound.step [Sha256] [AvailabilityWire] {a : P2pAction} (h : s.Outbound) (hp : s.Protocol)
    (hstep : P2pStep s a t) (hresult : t.driverResult = none) : t.Outbound := by
  have hactivity := activity hp hstep
  -- a step of the worker after which it holds no answer
  have hmoved : ∀ {control}, s.worker.control = control → t.worker.control.answers = [] → t.driver = s.driver →
      t.events = s.events → t.emitting = s.emitting → t.Outbound := by
    intro control hcontrol hplain hdriver hevents hemitting
    refine h.of_same hp hactivity (by rw [hdriver]) (by rw [hdriver]) (by rw [hdriver]) ?_
    unfold answeredIds
    rw [hplain, hevents, hemitting, List.append_assoc, List.append_assoc]
    exact List.subset_append_right _ _
  cases hstep with
  | operation | evict | publish | tick | requestStop | submit | workerFlush | selectTurn | drainStoreEvent =>
    exact { h with }
  | swarmError => cases hresult
  | driverCommand net caller command rest hmailbox hfree hid t ht =>
    cases hp.commandRound { net with now := s.now } hmailbox (driverFree_iff.1 hfree).2 ht with
    | worker call _ reply state answers hcontrol hreply hsends hreplies =>
      rcases s.driver.handleCommand_outbound { net with now := s.now } .worker command with
        ⟨houtbound, hnext, hinFlight⟩ | ⟨peer, id, rfl, -, hnot, houtbound, hnext, hinFlight, hrequested⟩
      · exact h.of_same hp hactivity houtbound hnext hinFlight (List.Subset.refl _)
      · obtain rfl : reply = .ok (.requestId s.driver.nextProofRequestId) :=
          congrArg Prod.snd (List.cons.inj (hreplies.symm.trans hrequested)).1
        refine h.grant hp hactivity houtbound hid hnext hinFlight rfl ?_
        cases call with
        | requestProof id' peer' rest' =>
          obtain ⟨rfl, rfl⟩ := hsends
          exact ⟨rest', hcontrol, rfl⟩
        | _ => cases hsends
    | client call _ state answers hclient =>
      rcases s.driver.handleCommand_outbound { net with now := s.now } (.client call) command with
        ⟨houtbound, hnext, hinFlight⟩ | ⟨peer, id, rfl, -⟩
      · exact h.of_same hp hactivity houtbound hnext hinFlight (List.Subset.refl _)
      · cases hclient
  | swarmQuiet event driver hfree hremote hmove =>
    obtain ⟨state, reply, answers, hround⟩ := finishRound_frame { s with driver }
    rw [hround] at hactivity ⊢
    rcases (s.driver.handleSwarmEvent_move hmove).outbound with
      ⟨houtbound, hnext, hinFlight, -⟩ | ⟨k, request, peer, e, -, -, -, -, hemitted, -⟩
    · exact h.of_same hp hactivity houtbound hnext hinFlight (List.Subset.refl _)
    · cases hemitted
  | swarmEmit event driver emitted hfree hremote hmove =>
    have hemitting := (driverFree_iff.1 hfree).1
    rcases (s.driver.handleSwarmEvent_move hmove).outbound with
      ⟨houtbound, hnext, hinFlight, hanswered⟩ | ⟨k, request, peer, e, hlookup, houtbound, hnext, hinFlight, hemitted,
        hanswered⟩
    · refine h.of_same hp hactivity houtbound hnext hinFlight ?_
      simp [answeredIds, hanswered emitted rfl]
    · cases hemitted
      refine h.answer hp hactivity hlookup houtbound hnext hinFlight ?_
      simp [answeredIds, hanswered, hemitting]
  | delayedResponse i hfree =>
    obtain ⟨state, reply, answers, hround⟩ := finishRound_frame
      { s with driver := { s.driver with delayedResponses := s.driver.delayedResponses.eraseIdx i } }
    rw [hround] at hactivity ⊢
    exact h.of_same hp hactivity rfl rfl rfl (List.Subset.refl _)
  | expireQueries hfree =>
    obtain ⟨state, reply, answers, hround⟩ := finishRound_frame { s with driver := s.driver.expireQueries s.now }
    rw [hround] at hactivity ⊢
    exact h.of_same hp hactivity rfl rfl rfl (List.Subset.refl _)
  | emitDropped net event hemitting hended driver hdriver =>
    obtain ⟨state, reply, answers, hround⟩ := finishRound_frame { s with driver, emitting := none }
    rw [hround] at hactivity ⊢
    have hsub : s.worker.control.answers ++ s.events.filterMap (fun event => event.answered.map (·.1)) ++ [] ⊆
        s.answeredIds := by
      rw [List.append_nil]
      exact List.subset_append_left _ _
    rcases hdriver with ⟨rfl, -⟩ | ⟨requestId, peer, id, rfl, rfl⟩
    · exact h.of_same hp hactivity rfl rfl rfl hsub
    · obtain ⟨inbound, hrespond, -⟩ := s.driver.respondProof_driver { net with now := s.now } requestId none
      rw [hrespond] at hactivity ⊢
      exact h.of_same hp hactivity rfl rfl rfl hsub
  | emitSent net event hemitting hended hroom =>
    obtain ⟨state, reply, answers, hround⟩ :=
      finishRound_frame { s with events := s.events ++ [event], emitting := none }
    rw [hround] at hactivity ⊢
    refine h.of_same hp hactivity rfl rfl rfl ?_
    unfold answeredIds
    rw [hemitting, List.filterMap_append]
    simp
  | sendClosed command call hcontrol hdriver =>
    change s.driverResult = none at hresult
    rw [hresult] at hdriver
    cases hdriver
  | selectStop hidle => exact hmoved hidle (by simp only [hidle]; rfl) rfl rfl rfl
  | selectDriverClosed hidle | selectLagged receiver hidle | drained hidle => exact hmoved hidle rfl rfl rfl rfl
  | selectStoreEvent notice receiver hidle =>
    obtain ⟨handled, expired, htaken⟩ := recordTaken_frame { s with receiver } notice
    rw [htaken] at hmoved ⊢
    exact hmoved hidle Worker.plain_handleStoreEvent.2.2 rfl rfl rfl
  | selectWake i wake hidle => exact hmoved hidle Worker.driven_handleWake.plain.2.2 rfl rfl rfl
  | selectDriverEvent mode event rest hidle houtbox hevents =>
    refine h.of_same hp hactivity rfl rfl rfl ?_
    have hanswers : (s.worker.handleDriverEvent s.now mode.draining event).control.answers ⊆
        (event.answered.map (·.1)).toList := (s.worker.handleDriverEvent_move s.now mode.draining event).answers
    unfold answeredIds
    rw [hevents]
    intro requestId hmem
    rw [List.append_assoc, List.mem_append] at hmem
    rw [List.append_assoc, List.mem_append]
    right
    rcases hmem with hmem | hmem
    · have hhead := hanswers hmem
      rw [Option.mem_toList] at hhead
      exact List.mem_append_left _ (List.mem_filterMap.2 ⟨event, List.mem_cons_self, hhead⟩)
    · rw [List.mem_append] at hmem ⊢
      refine hmem.imp_left (fun hmem => ?_)
      obtain ⟨e, he, hanswered⟩ := List.mem_filterMap.1 hmem
      exact List.mem_filterMap.2 ⟨e, List.mem_cons_of_mem _ he, hanswered⟩
  | send command call hcontrol hdriver => exact hmoved hcontrol rfl rfl rfl rfl
  | reply choice delay elapsed call reply worker hcontrol hreply hresume =>
    exact hmoved hcontrol (Worker.resumeCall_move hresume).plain.2.2 rfl rfl rfl
  | getProof snapshot requestId id hcontrol => exact hmoved hcontrol rfl rfl rfl rfl
  | attach snapshot requestId peer id proof hcontrol =>
    refine h.of_same hp hactivity rfl rfl rfl ?_
    unfold answeredIds
    rw [hcontrol]
    exact List.Subset.refl _
  | attached snapshot requestId peer id stored hcontrol =>
    exact hmoved hcontrol Worker.plain_resumeAttached.2.2 rfl rfl rfl
  | localSnapshot snapshot hcontrol => exact hmoved hcontrol rfl rfl rfl rfl
  | waitingSnapshot snapshot hcontrol => exact hmoved hcontrol Worker.driven_resumeWaiting.plain.2.2 rfl rfl rfl
  | get snapshot id rest hcontrol => exact hmoved hcontrol Worker.driven_resumeGet.plain.2.2 rfl rfl rfl

end P2pSystem

end PulsarVerifier
