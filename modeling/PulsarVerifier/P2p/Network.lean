import PulsarVerifier.Lib.Network
import PulsarVerifier.P2p.Beliefs

/-!
# The nodes of a network

Every validator runs the P2P service, and gossip messages and proof responses pass between them.  Gossip is signed and
connections are authenticated, so a message that a driver takes in was handed to the network by the node it is
attributed to.  Nothing else is assumed of the network.

An entry of the index of one node comes from another node's announcement, from a list of providers in a response, which
is what a third node believes, or from a proof it sent.  What a node announces comes from its own store, through its
events, snapshots and commands in flight.  So whenever a node lists a peer as provider of a proof, and whenever it has
asked a peer for one, this peer has had the proof (`P2pNetwork.provider_had_proof`).  It need not have it now: the
store may have evicted it.
-/

namespace PulsarVerifier

namespace P2pSystem

variable [AvailabilityWire] [Sha256]

/-- What a step hands to the swarm.  A request that the driver rejects, and one that the worker is no longer there for,
is answered with `NotFound`. -/
def handed (s : P2pSystem) : P2pAction → List NetworkMessage
  | .driverCommand net =>
    match s.mailbox with
    | [] => []
    | (_, command) :: _ => s.driver.handed net command
  | .swarmEvent (.proofRequest peer chainId verificationId) =>
    if (s.driver.handleInboundRequest peer chainId verificationId).2.isNone then
      [.response (notFoundResponse s.driver.config.chainId)]
    else []
  | .delayedResponse i => s.driver.delayedResponses[i]?.toList.map .gossip
  | .emit net =>
    match s.emitting with
    | some (.proofRequested requestId _ _) =>
      if s.worker.ended then s.driver.handed net (.respondProof requestId none) else []
    | _ => []
  | _ => []

end P2pSystem

def P2pAction.taken : P2pAction → List (PeerId × NetworkMessage)
  | .swarmEvent event => event.brought
  | _ => []

structure P2pMember [Sha256] where
  store : ProofStore
  wellFormed : store.WellFormed
  config : P2pConfig
  validators : Finset PeerId
  listeners : Finset Nat
  capacity : Nat

section

variable [AvailabilityWire] [Sha256]

def P2pSystem.behaviour : Behaviour PeerId P2pSystem P2pAction NetworkMessage := ⟨next, handed, P2pAction.taken⟩

omit [AvailabilityWire] in
def P2pMember.start (member : P2pMember) (peer : PeerId) : P2pSystem :=
  .initial member.store member.config peer member.validators member.listeners member.capacity

/-- The network in which each node is started as `members` says. -/
def P2pNetwork (members : PeerId → P2pMember) : Lts (Network PeerId P2pSystem NetworkMessage) (PeerId × P2pAction) :=
  Network.lts P2pSystem.behaviour fun peer => (members peer).start peer

end

/-! ### One step of a node -/

namespace P2pSystem

variable [AvailabilityWire] [Sha256] {s t : P2pSystem} {self peer : PeerId} {id : VerificationId}

/-- The events of the store that are under way. -/
def Reporting (s : P2pSystem) (notice : Notice) : Prop := notice ∈ s.unpublished ∨ notice ∈ s.receiver.queue

private theorem Believes.of_events (h : t.Believes self peer id) (hdriver : t.driver = s.driver)
    (hworker : t.worker = s.worker) (hmailbox : t.mailbox = s.mailbox) (hreply : t.reply = s.reply)
    (hevents : ∀ notice, t.Reporting notice → notice.event.update = some (.add id) →
      s.Reporting notice ∨ id ∈ t.held) : s.Believes self peer id ∨ (peer = self ∧ id ∈ t.held) := by
  cases h with
  | driver h => exact .inl (.driver (hdriver ▸ h))
  | worker h => exact .inl (.worker (hworker ▸ h))
  | command command h hclaimed =>
    unfold workerCommands at h
    rw [hmailbox] at h
    exact .inl (.command command h hclaimed)
  | reply attempted rest peers hcontrol hpeers h =>
    exact .inl (.reply attempted rest peers (hworker ▸ hcontrol) (hreply ▸ hpeers) h)
  | event notice h hadd hself =>
    rcases hevents notice h hadd with hold | hheld
    · exact .inl (.event notice hold hadd hself)
    · exact .inr ⟨hself, hheld⟩

private theorem Believes.of_driver {X : Prop} (h : t.Believes self peer id) (hfeed : t.feed = s.feed)
    (hworker : t.worker = s.worker) (hcommands : ∀ command ∈ t.workerCommands, command ∈ s.workerCommands)
    (hreply : ∀ attempted rest peers, t.worker.control = .waiting (.providers id attempted rest) →
      t.reply = some (.ok (.providers peers)) → peer ∈ peers → s.Believes self peer id ∨ X)
    (hdriver : t.driver.Knows peer id → s.Believes self peer id ∨ X) : s.Believes self peer id ∨ X := by
  cases h with
  | driver h => exact hdriver h
  | worker h => exact .inl (.worker (hworker ▸ h))
  | command command h hclaimed => exact .inl (.command command (hcommands command h) hclaimed)
  | reply attempted rest peers hcontrol hpeers h => exact hreply attempted rest peers hcontrol hpeers h
  | event notice h hadd hself =>
    simp only [feed, Prod.mk.injEq] at hfeed
    obtain ⟨-, hpublishing, houtbox, hreceiver⟩ := hfeed
    unfold unpublished at h
    rw [hpublishing, houtbox, hreceiver] at h
    exact .inl (.event notice h hadd hself)

private theorem Believes.of_round {X : Prop} {u : P2pSystem} (h : u.finishRound.Believes self peer id)
    (hp : s.Protocol) (hstate : u.driver.state = s.driver.state) (hfeed : u.feed = s.feed)
    (hworker : u.worker = s.worker) (hmailbox : u.mailbox = s.mailbox) (hreply : u.reply = s.reply)
    (hdriver : u.driver.Knows peer id → s.Believes self peer id ∨ X) : s.Believes self peer id ∨ X := by
  obtain ⟨state, answers, hround, -⟩ := finishRound_eq (s := u) (hstate ▸ hp.drain)
  rw [hround] at h
  refine h.of_driver hfeed hworker (fun command hmem => ?_) (fun attempted rest peers hcontrol hpeers hpeer => ?_)
    (fun hknows => hdriver (hknows.mono rfl (fun hmem => hmem) rfl fun _ _ hlookup => hlookup))
  · unfold workerCommands at hmem ⊢
    rw [← hmailbox]
    exact hmem
  · exact .inl (.reply attempted rest peers (hworker ▸ hcontrol) (hreply ▸ hpeers) hpeer)

private theorem Believes.of_worker {X : Prop} (h : t.Believes self peer id)
    (hunpublished : t.unpublished = s.unpublished)
    (hqueue : ∀ notice ∈ t.receiver.queue, notice ∈ s.receiver.queue) (hdriver : t.driver = s.driver)
    (hmailbox : t.mailbox = s.mailbox) (hreply : ∀ peers, t.reply ≠ some (.ok (.providers peers)))
    (hworker : (peer, id) ∈ t.worker.control.claimed self → s.Believes self peer id ∨ X) :
    s.Believes self peer id ∨ X := by
  cases h with
  | driver h => exact .inl (.driver (hdriver ▸ h))
  | worker h => exact hworker h
  | command command h hclaimed =>
    unfold workerCommands at h
    rw [hmailbox] at h
    exact .inl (.command command h hclaimed)
  | reply attempted rest peers hcontrol hpeers h => exact absurd hpeers (hreply peers)
  | event notice h hadd hself =>
    rw [hunpublished] at h
    exact .inl (.event notice (h.imp_right (hqueue notice)) hadd hself)

omit [AvailabilityWire] in
private theorem stored_of_noticesOf {action : StoreAction} (hevict : ∀ id cause, action ≠ .evict id cause)
    {notice : Notice} (hnotice : notice ∈ noticesOf s.stores.store (s.stores.perform action).2)
    (hadd : notice.event.update = some (.add id)) : ((s.stores.perform action).1.store.getProof id).isSome := by
  obtain ⟨event, hmem, rfl⟩ := List.mem_map.1 hnotice
  rw [s.stores.perform_content hevict]
  cases event with
  | proofStored id' source =>
    cases hadd
    exact .inr ⟨source, hmem⟩
  | _ => cases hadd

/-- What holds of a node in every run, as far as its beliefs depend on it. -/
structure Sane (own : PeerId) (s : P2pSystem) : Prop where
  protocol : s.Protocol
  localPeerId : s.driver.localPeerId = own
  wellFormed : s.stores.store.WellFormed

theorem Sane.step {a : P2pAction} (h : s.Sane self) (hstep : P2pStep s a t) : t.Sane self where
  protocol := h.protocol.step hstep
  localPeerId := (congrArg Prod.snd hstep.node).trans h.localPeerId
  wellFormed := by
    rcases hstep.stores with hstores | ⟨action, hstores⟩
    · rw [hstores]
      exact h.wellFormed
    · rw [hstores]
      exact h.wellFormed.perform action

omit [AvailabilityWire] in
theorem Sane.reply_eq_none (h : s.Sane self) (hcontrol : ∀ call, s.worker.control ≠ .waiting call) :
    s.reply = none := by
  cases hreply : s.reply with
  | none => rfl
  | some reply =>
    obtain ⟨call, hcall⟩ := h.protocol.replied (by rw [hreply]; rfl)
    exact absurd hcall (hcontrol call)

/-- Where a belief of `t` after the action `a` comes from: it was there before, a message of the action says so, or it
is about the node's own store. -/
def Origin (self : PeerId) (s : P2pSystem) (a : P2pAction) (t : P2pSystem) (peer : PeerId) (id : VerificationId) :
    Prop :=
  s.Believes self peer id ∨ (∃ m ∈ a.taken, m.2.Tells m.1 peer id) ∨ (peer = self ∧ (id ∈ s.held ∨ id ∈ t.held))

omit [AvailabilityWire] [Sha256] in
private theorem mem_of_mem_send {capacity : Nat} {receiver : Receiver Notice} {notice notice' : Notice}
    (h : notice' ∈ (receiver.send capacity notice).queue) : notice' ∈ receiver.queue ∨ notice' = notice := by
  rw [← List.mem_singleton]
  exact List.mem_append.1 ((Receiver.queue_send_suffix _ _ _).subset h)

omit [AvailabilityWire] in
private theorem Reporting.of_operation {action : StoreAction} (hevict : ∀ id cause, action ≠ .evict id cause)
    {notice : Notice} (hadd : notice.event.update = some (.add id))
    (h : Reporting { s with
      stores := (s.stores.perform action).1
      publishing := s.publishing ++ [noticesOf s.stores.store (s.stores.perform action).2] } notice) :
    s.Reporting notice ∨ ((s.stores.perform action).1.store.getProof id).isSome := by
  unfold Reporting unpublished at *
  simp only [List.flatten_append, List.mem_append, List.flatten_cons, List.flatten_nil, List.append_nil] at h ⊢
  rcases h with ((hold | hnew) | hold) | hold
  · exact .inl (.inl (.inl hold))
  · exact .inr (stored_of_noticesOf hevict hnew hadd)
  · exact .inl (.inl (.inr hold))
  · exact .inl (.inr hold)

omit [AvailabilityWire] [Sha256] in
private theorem Reporting.of_publish {i : Nat} {notice : Notice} {rest : List Notice}
    (hi : s.publishing[i]? = some (notice :: rest)) {notice' : Notice}
    (h : Reporting { s with receiver := s.receiver.send s.capacity notice, publishing := s.publishing.set i rest }
      notice') : s.Reporting notice' := by
  have hleft := mem_flatten_set hi notice'
  rcases h with hold | hmem
  · rcases List.mem_append.1 hold with hold | hold
    · exact .inl (List.mem_append_left _ (hleft.2 (.inr hold)))
    · exact .inl (List.mem_append_right _ hold)
  · rcases mem_of_mem_send hmem with hold | hnew
    · exact .inr hold
    · exact .inl (List.mem_append_left _ (hleft.2 (.inl hnew)))

omit [AvailabilityWire] [Sha256] in
private theorem Reporting.of_flush {notice : Notice} {rest : List Notice} (houtbox : s.outbox = notice :: rest)
    {notice' : Notice}
    (h : Reporting { s with receiver := s.receiver.send s.capacity notice, outbox := rest } notice') :
    s.Reporting notice' := by
  have hleft : ∀ n, n = notice ∨ n ∈ rest → n ∈ s.outbox := by
    intro n hn
    rw [houtbox]
    exact List.mem_cons.2 hn
  rcases h with hold | hmem
  · rcases List.mem_append.1 hold with hold | hold
    · exact .inl (List.mem_append_left _ hold)
    · exact .inl (List.mem_append_right _ (hleft _ (.inr hold)))
  · rcases mem_of_mem_send hmem with hold | hnew
    · exact .inr hold
    · exact .inl (List.mem_append_right _ (hleft _ (.inl hnew)))

private theorem Believes.of_command (hsane : s.Sane self) {net : NetworkOutcome} {caller : Caller}
    {command : DriverCommand} {rest : List (Caller × DriverCommand)} (hmailbox : s.mailbox = (caller, command) :: rest)
    (hresult : s.driverResult = none)
    (ht : t = ({ s with driver := (s.driver.handleCommand net caller command).1, mailbox := rest }.deliver
      (s.driver.handleCommand net caller command).2).finishRound) (h : t.Believes self peer id) :
    s.Believes self peer id := by
  have hcommands : ∀ {u : P2pSystem}, u.mailbox = rest → ∀ c ∈ u.workerCommands, c ∈ s.workerCommands := by
    intro u hu c hmem
    unfold workerCommands at *
    rw [hmailbox]
    rw [hu] at hmem
    exact ((List.sublist_cons_self _ rest).filterMap _).subset hmem
  have hkept : ∀ {state : DriverState},
      Driver.Knows { (s.driver.handleCommand net caller command).1 with state } peer id →
        s.driver.Knows peer id ∨ (peer, id) ∈ command.claimed self := by
    intro state hknows
    have hbefore : (s.driver.handleCommand net caller command).1.Knows peer id :=
      hknows.mono rfl (fun hmem => hmem) rfl fun _ _ hlookup => hlookup
    rw [← hsane.localPeerId]
    exact hbefore.of_handleCommand
  refine Or.resolve_right (b := False) ?_ not_false
  cases hsane.protocol.commandRound net hmailbox hresult ht with
  | worker call _ reply state answers hcontrol hreply hsends hreplies =>
    refine h.of_driver rfl rfl (hcommands rfl) (fun attempted rest' peers hwaiting hpeers hpeer => ?_)
      (fun hknows => ?_)
    · obtain rfl : call = .providers id attempted rest' := Control.waiting.inj (hcontrol.symm.trans hwaiting)
      obtain rfl : command = .providers id := by
        cases command with
        | providers id' => rw [show id' = id from hsends]
        | _ => cases hsends
      cases hreplies
      cases hpeers
      exact .inl (.driver (.listed (AvailabilityIndex.mem_providers.1 hpeer)))
    · rcases hkept hknows with hold | hclaimed
      · exact .inl (.driver hold)
      · refine .inl (.command command ?_ hclaimed)
        unfold workerCommands
        rw [hmailbox]
        exact List.mem_cons_self
  | client call _ state answers hclient =>
    refine h.of_driver rfl rfl (hcommands rfl)
      (fun attempted rest' peers hcontrol hpeers hpeer =>
        .inl (.reply attempted rest' peers hcontrol hpeers hpeer)) (fun hknows => ?_)
    rcases hkept hknows with hold | hclaimed
    · exact .inl (.driver hold)
    · cases command with
      | replaceAuthorizedPeers | drain => cases hclaimed
      | _ => cases hclient

private theorem Believes.of_send {command : DriverCommand} {call : DriverCall}
    (hcontrol : s.worker.control = .sending command call) (hreply : ∀ peers, s.reply ≠ some (.ok (.providers peers)))
    (h : Believes self
      { s with mailbox := s.mailbox ++ [(.worker, command)], worker := s.worker.goto (.waiting call) } peer id) :
    s.Believes self peer id := by
  have hclaims : ∀ pair, pair ∈ command.claimed self ∨ pair ∈ call.claimed self →
      pair ∈ s.worker.control.claimed self := by
    intro pair hpair
    rw [hcontrol]
    exact List.mem_append.2 hpair
  cases h with
  | driver h => exact .driver h
  | worker h => exact .worker (hclaims _ (.inr h))
  | command command' h hclaimed =>
    unfold workerCommands at h
    rw [List.filterMap_append, List.mem_append] at h
    rcases h with hold | hnew
    · exact .command command' hold hclaimed
    · obtain rfl : command' = command := by simpa using hnew
      exact .worker (hclaims _ (.inl hclaimed))
  | reply attempted rest peers _ hpeers => exact absurd hpeers (hreply peers)
  | event notice h hadd hself => exact .event notice h hadd hself

theorem Believes.origin (hwire : AvailabilityWire.Faithful) {a : P2pAction} (hsane : s.Sane self)
    (hstep : P2pStep s a t) (h : t.Believes self peer id) : Origin self s a t peer id := by
  have hstored : s.Believes self peer id ∨ (peer = self ∧ id ∈ t.held) → Origin self s a t peer id :=
    Or.imp_right fun hheld => .inr ⟨hheld.1, .inr hheld.2⟩
  have hunanswered : ∀ {control : Control}, s.worker.control = control → (∀ call, control ≠ .waiting call) →
      ∀ peers, s.reply ≠ some (.ok (.providers peers)) := by
    intro control hcontrol hwaiting peers hpeers
    rw [hsane.reply_eq_none fun call hcall => hwaiting call (hcontrol.symm.trans hcall)] at hpeers
    cases hpeers
  have hsilent : ∀ {w : Worker}, w.control.claimed self = [] → (peer, id) ∈ w.control.claimed self →
      Origin self s a t peer id := by
    intro w hnone hclaimed
    rw [hnone] at hclaimed
    cases hclaimed
  cases hstep with
  | tick | requestStop | swarmError => exact hstored (h.of_events rfl rfl rfl rfl fun notice h _ => .inl h)
  | operation action henabled hevict =>
    exact hstored (h.of_events rfl rfl rfl rfl fun notice hnotice hadd => hnotice.of_operation hevict hadd)
  | evict id' cause =>
    refine hstored (h.of_events rfl rfl rfl rfl fun notice hnotice hadd => ?_)
    refine .inl (hnotice.imp_right fun hmem => (mem_of_mem_send hmem).resolve_right ?_)
    rintro rfl
    cases hadd
  | publish i notice rest hi =>
    exact hstored (h.of_events rfl rfl rfl rfl fun notice' hnotice _ => .inl (hnotice.of_publish hi))
  | workerFlush notice rest houtbox =>
    exact hstored (h.of_events rfl rfl rfl rfl fun notice' hnotice _ => .inl (hnotice.of_flush houtbox))
  | submit call command hclient =>
    refine h.of_driver rfl rfl (fun command' hmem => ?_)
      (fun attempted rest peers hcontrol hpeers hpeer => .inl (.reply attempted rest peers hcontrol hpeers hpeer))
      (fun hknows => .inl (.driver hknows))
    unfold workerCommands at *
    rw [List.filterMap_append] at hmem
    simpa using hmem
  | driverCommand net caller command rest hmailbox hfree hid t ht =>
    exact .inl (h.of_command hsane hmailbox (driverFree_iff.1 hfree).2 ht)
  | swarmQuiet event driver hfree hevent hmove =>
    refine h.of_round hsane.protocol (s.driver.handleSwarmEvent_state hmove) rfl rfl rfl rfl fun hknows => ?_
    exact (hknows.of_handleSwarmEvent hwire hmove).imp .driver .inl
  | swarmEmit event driver emitted hfree hevent hmove =>
    refine h.of_driver rfl rfl (fun _ hmem => hmem)
      (fun attempted rest peers hcontrol hpeers hpeer => .inl (.reply attempted rest peers hcontrol hpeers hpeer))
      (fun hknows => ?_)
    exact (hknows.of_handleSwarmEvent hwire hmove).imp .driver .inl
  | delayedResponse i =>
    refine h.of_round hsane.protocol rfl rfl rfl rfl rfl fun hknows => .inl (.driver ?_)
    cases hknows with
    | listed h => exact .listed h
    | delayed data h htells => exact .delayed data (List.mem_of_mem_eraseIdx h) htells
    | requested k request h hpeer hid => exact .requested k request h hpeer hid
  | expireQueries =>
    refine h.of_round hsane.protocol rfl rfl rfl rfl rfl fun hknows => .inl (.driver ?_)
    exact hknows.mono rfl (fun hmem => hmem) rfl fun _ _ hlookup => hlookup
  | emitDropped net event _ _ driver hdriver =>
    have hkept : driver.state = s.driver.state ∧ (driver.Knows peer id → s.driver.Knows peer id) := by
      rcases hdriver with ⟨rfl, -⟩ | ⟨requestId, peer', id', -, rfl⟩
      · exact ⟨rfl, fun hknows => hknows⟩
      · obtain ⟨inbound, heq, -⟩ := s.driver.respondProof_driver { net with now := s.now } requestId none
        rw [heq]
        exact ⟨rfl, fun hknows => hknows.mono rfl (fun hmem => hmem) rfl fun _ _ hlookup => hlookup⟩
    exact h.of_round hsane.protocol hkept.1 rfl rfl rfl rfl fun hknows => .inl (.driver (hkept.2 hknows))
  | emitSent =>
    exact h.of_round hsane.protocol rfl rfl rfl rfl rfl fun hknows => .inl (.driver hknows)
  | selectStop hidle | selectTurn pick mode hidle =>
    exact h.of_worker rfl (fun _ h => h) rfl rfl (hunanswered hidle fun _ h => nomatch h) (fun hc => .inl (.worker hc))
  | drainStoreEvent result receiver hidle _ _ hrecv =>
    exact h.of_worker rfl (fun _ hmem => (Receiver.recv_suffix hrecv).subset hmem) rfl rfl
      (hunanswered hidle fun _ h => nomatch h) (fun hc => .inl (.worker hc))
  | drained hidle =>
    exact h.of_worker rfl (fun _ h => h) rfl rfl (hunanswered hidle fun _ h => nomatch h) (hsilent rfl)
  | selectDriverEvent mode event rest hidle =>
    exact h.of_worker rfl (fun _ h => h) rfl rfl (hunanswered hidle fun _ h => nomatch h)
      (hsilent ((s.worker.handleDriverEvent_move s.now _ event).claimed self))
  | selectDriverClosed hidle =>
    exact h.of_worker rfl (fun _ h => h) rfl rfl (hunanswered hidle fun _ h => nomatch h) (hsilent rfl)
  | selectStoreEvent notice receiver hidle hrunning houtbox hrecv =>
    obtain ⟨-, hqueue, -⟩ := Receiver.recv_event hrecv
    obtain ⟨handled, expired, htaken⟩ := recordTaken_frame { s with receiver } notice
    rw [htaken] at h
    refine h.of_worker rfl (fun _ hmem => (Receiver.recv_suffix hrecv).subset hmem) rfl rfl
      (hunanswered hidle fun _ h => nomatch h) fun hclaimed => ?_
    cases hevent : notice.event with
    | proofStored id' source =>
      rw [hevent] at hclaimed
      obtain ⟨rfl, rfl⟩ := Prod.mk.inj (List.mem_singleton.1 hclaimed)
      refine .inl (.event notice (.inr ?_) (by rw [hevent]; rfl) rfl)
      rw [hqueue]
      exact List.mem_cons_self
    | proofEvicted id' cause =>
      rw [hevent] at hclaimed
      cases hclaimed
    | verificationObserved id' =>
      rw [hevent] at hclaimed
      cases hclaimed
    | verificationChanged id' state =>
      rw [hevent] at hclaimed
      exact hsilent (Worker.driven_drivePending.claimed self) hclaimed
  | selectLagged receiver hidle hrunning houtbox hrecv =>
    exact h.of_worker rfl (fun _ hmem => (Receiver.recv_suffix hrecv).subset hmem) rfl rfl
      (hunanswered hidle fun _ h => nomatch h) (hsilent rfl)
  | selectWake i wake hidle =>
    exact h.of_worker rfl (fun _ h => h) rfl rfl (hunanswered hidle fun _ h => nomatch h)
      (hsilent (Worker.driven_handleWake.claimed self))
  | sendClosed command call hcontrol hdriver =>
    refine h.of_worker rfl (fun _ h => h) rfl rfl (fun _ h => nomatch h) fun hclaimed => .inl (.worker ?_)
    rw [hcontrol]
    exact List.mem_append_right _ hclaimed
  | send command call hcontrol hdriver =>
    exact .inl (h.of_send hcontrol (hunanswered hcontrol fun _ h => nomatch h))
  | reply choice delay elapsed call reply worker hcontrol hreply hresume =>
    refine h.of_worker rfl (fun _ h => h) rfl rfl (fun _ h => nomatch h) fun hclaimed => .inl ?_
    rcases (Worker.resumeCall_move hresume).claimed self hclaimed with hcall | ⟨attempted, rest, peers, rfl, rfl, hpeer⟩
    · refine .worker ?_
      rw [hcontrol]
      exact hcall
    · refine .reply attempted rest peers hcontrol ?_ hpeer
      unfold replyToWorker at hreply
      split at hreply
      · rename_i hsome
        rw [hsome, hreply]
      · split_ifs at hreply
        cases hreply
  | getProof snapshot requestId id' hcontrol =>
    refine h.of_worker rfl (fun _ h => h) rfl rfl (hunanswered hcontrol fun _ h => nomatch h) fun hclaimed => ?_
    cases hproof : s.stores.store.getProof id' with
    | none =>
      rw [hproof] at hclaimed
      cases hclaimed
    | some proof =>
      rw [hproof] at hclaimed
      obtain ⟨rfl, rfl⟩ := Prod.mk.inj (List.mem_singleton.1 hclaimed)
      obtain ⟨e, he, hp⟩ := Option.bind_eq_some_iff.1 hproof
      obtain rfl := ((hsane.wellFormed id' e he).content_id proof hp).1
      refine .inr (.inr ⟨rfl, .inl ?_⟩)
      change (s.stores.store.getProof proof.verificationId).isSome
      rw [hproof]
      rfl
  | attach snapshot requestId peer' id' proof hcontrol houtbox =>
    let u : P2pSystem := { s with
      stores := (s.stores.perform (.attachDownloadedProof s.now id' proof peer')).1
      outbox := noticesOf s.stores.store (s.stores.perform (.attachDownloadedProof s.now id' proof peer')).2 }
    have hu : u.Believes self peer id ∨ False :=
      h.of_worker rfl (fun _ h => h) rfl rfl (hunanswered hcontrol fun _ h => nomatch h) (fun hc => by cases hc)
    have hevict : ∀ id cause, StoreAction.attachDownloadedProof s.now id' proof peer' ≠ .evict id cause :=
      fun _ _ h => nomatch h
    refine hstored ((hu.resolve_right not_false).of_events rfl rfl rfl rfl fun notice hnotice hadd => ?_)
    rcases hnotice with hold | hold
    · rcases List.mem_append.1 hold with hold | hnew
      · exact .inl (.inl (List.mem_append_left _ hold))
      · exact .inr (stored_of_noticesOf hevict hnew hadd)
    · exact .inl (.inr hold)
  | attached snapshot requestId peer' id' stored hcontrol =>
    exact h.of_worker rfl (fun _ h => h) rfl rfl (hunanswered hcontrol fun _ h => nomatch h)
      (hsilent (Worker.claimed_resumeAttached self))
  | localSnapshot snapshot hcontrol houtbox hsnapshot =>
    refine h.of_worker rfl (fun _ h => h) rfl rfl (hunanswered hcontrol fun _ h => nomatch h) fun hclaimed => ?_
    have hmem : (peer, id) ∈ snapshot.map (self, ·) := (List.mem_append.1 hclaimed).elim (fun h => h) fun h => h
    obtain ⟨id', hid, heq⟩ := List.mem_map.1 hmem
    obtain ⟨rfl, rfl⟩ := Prod.mk.inj heq
    exact .inr (.inr ⟨rfl, .inl (ProofStore.mem_locallyAvailableProofs.1 (hsnapshot.mem_iff.1 hid))⟩)
  | waitingSnapshot snapshot hcontrol =>
    exact h.of_worker rfl (fun _ h => h) rfl rfl (hunanswered hcontrol fun _ h => nomatch h)
      (hsilent (Worker.driven_resumeWaiting.claimed self))
  | get snapshot id' rest hcontrol =>
    exact h.of_worker rfl (fun _ h => h) rfl rfl (hunanswered hcontrol fun _ h => nomatch h)
      (hsilent (Worker.driven_resumeGet.claimed self))

theorem handed_believes (hwire : AvailabilityWire.Faithful) (hsane : s.Sane self) {a : P2pAction} {m : NetworkMessage}
    (hm : m ∈ s.handed a) (h : m.Tells self peer id) : s.Believes self peer id := by
  have hnotFound : ∀ {chainId : String},
      ¬ NetworkMessage.Tells self (.response (notFoundResponse chainId)) peer id := by
    intro chainId h
    cases h
  cases a with
  | driverCommand net =>
    simp only [handed] at hm
    split at hm
    · cases hm
    · rename_i caller command rest hmailbox
      have hclaimed : (peer, id) ∈ command.claimed self := by
        rw [← hsane.localPeerId] at h ⊢
        exact s.driver.handed_tells hwire hm h
      cases caller with
      | worker =>
        refine .command command ?_ hclaimed
        unfold workerCommands
        rw [hmailbox]
        exact List.mem_cons_self
      | client call =>
        have hclient := hsane.protocol.clients (.client call) command (by rw [hmailbox]; exact List.mem_cons_self)
          (fun h => nomatch h)
        cases command with
        | replaceAuthorizedPeers | drain => cases hclaimed
        | _ => cases hclient
  | swarmEvent event =>
    cases event with
    | proofRequest peer' chainId verificationId =>
      simp only [handed] at hm
      split_ifs at hm
      · rw [List.mem_singleton.1 hm] at h
        exact absurd h hnotFound
      · cases hm
    | _ => cases hm
  | delayedResponse i =>
    obtain ⟨data, hdata, rfl⟩ := List.mem_map.1 hm
    refine .driver (.delayed data (List.mem_of_getElem? (Option.mem_toList.1 hdata)) ?_)
    rw [hsane.localPeerId]
    exact h
  | emit net =>
    simp only [handed] at hm
    split at hm
    · split_ifs at hm
      · rw [← hsane.localPeerId] at h
        cases s.driver.handed_tells hwire hm h
      · cases hm
    · cases hm
  | _ => cases hm

theorem grounded (hwire : AvailabilityWire.Faithful) (members : PeerId → P2pMember) :
    Network.Grounded behaviour (fun peer => (members peer).start peer) Sane (fun s id => id ∈ s.held) Believes
      (fun author m peer id => m.Tells author peer id) where
  start_inv node := ⟨protocol_initial, rfl, (members node).wellFormed⟩
  start_believes node peer id h := by
    cases h with
    | driver h =>
      cases h with
      | listed h | delayed _ h => cases h
      | requested k request h => simp [P2pMember.start, initial, Driver.build] at h
    | worker h | command _ h => cases h
    | reply _ _ _ hcontrol => cases hcontrol
    | event _ h => rcases h with h | h <;> cases h
  step_inv node s a t hsane hnext := hsane.step (next_step hnext)
  step_believes node s a t peer id hsane hnext h := h.origin hwire hsane (next_step hnext)
  hands_tells node s a m peer id hsane hm h := handed_believes hwire hsane hm h

end P2pSystem

/-- In a network of nodes that run the service, every peer that a node lists as provider of a proof, and every peer it
has asked for a proof, has had this proof in its store. -/
theorem P2pNetwork.provider_had_proof [AvailabilityWire] [Sha256] (hwire : AvailabilityWire.Faithful)
    (members : PeerId → P2pMember) {net : Network PeerId P2pSystem NetworkMessage}
    (h : (P2pNetwork members).Reachable net) (node peer : PeerId) (id : VerificationId)
    (hknown : peer ∈ (net.node node).driver.availability.providers id ∨
      ∃ k request, (net.node node).driver.outboundRequests.lookup k = some request ∧ request.peer = peer ∧
        request.verificationId = id) :
    ∃ s ∈ net.past peer, (s.stores.store.getProof id).isSome := by
  have hknows : (net.node node).driver.Knows peer id := by
    rcases hknown with hlisted | ⟨k, request, hlookup, hpeer, hid⟩
    · exact .listed (AvailabilityIndex.mem_providers.1 hlisted)
    · exact .requested k request hlookup hpeer hid
  exact (P2pSystem.grounded hwire members).once_had h (.driver hknows)

theorem AvailabilityWire.faithful_standard :
    letI := AvailabilityWire.standard
    AvailabilityWire.Faithful := by
  let _ := AvailabilityWire.standard
  refine ⟨AvailabilityMessage.decode_encode, fun peer peer' h => ?_⟩
  change PeerId.ofBytes peer.toBytes = .ok peer' at h
  unfold PeerId.ofBytes at h
  split at h
  · cases h
  · split at h
    · cases h
    · split_ifs at h
      cases h
      rfl

private def P2pMember.small [Sha256] : P2pMember where
  store := .small
  wellFormed := by
    intro id e he
    cases he
  config := .small
  validators := {.here, .there}
  listeners := {0}
  capacity := 16

/-- One node stores a proof and announces it; the other one lists it as the provider. -/
theorem P2pNetwork.provider_had_proof_announced :
    letI := Sha256.standard
    letI := AvailabilityWire.standard
    ∃ net, (P2pNetwork fun _ => .small).Reachable net ∧
      .here ∈ (net.node .there).driver.availability.providers (Proof.verificationId .small) ∧
      ∃ s ∈ net.past .here, (s.stores.store.getProof (Proof.verificationId .small)).isSome := by
  let _ := Sha256.standard
  let _ := AvailabilityWire.standard
  let announced : List P2pAction := P2pSystem.reconcile ++ P2pSystem.announce .small .calm
  let heard : SwarmEvent :=
    .gossipMessage (some .here) .here (announcement P2pConfig.small.chainId (Proof.verificationId .small))
  have hexec : (Lts.exec (Network.next P2pSystem.behaviour) (.initial fun peer => P2pMember.small.start peer)
      (announced.map (.here, ·) ++ [(.there, .swarmEvent heard)])).any (fun net =>
        decide (.here ∈ (net.node .there).driver.availability.providers (Proof.verificationId .small))) = true := by
    decide +kernel
  obtain ⟨net, hnet, hlisted⟩ := (Option.any_eq_true _ _).1 hexec
  have hreach : (P2pNetwork fun _ => .small).Reachable net := ⟨_, _, rfl, Lts.run_of_exec hnet⟩
  exact ⟨net, hreach, of_decide_eq_true hlisted,
    P2pNetwork.provider_had_proof AvailabilityWire.faithful_standard _ hreach .there .here _
      (.inl (of_decide_eq_true hlisted))⟩

end PulsarVerifier
