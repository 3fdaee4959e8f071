import PulsarVerifier.Lib.Mirror
import PulsarVerifier.P2p.Outbound
import PulsarVerifier.P2p.Wire
import PulsarVerifier.Store.Content

/-!
# Announced ownership

The driver lists the local peer as a provider of the proofs that the worker has announced.  This list mirrors the
identifiers with content in the store: the events of the store are the updates, and the worker replays them one call of
the driver at a time, or takes a snapshot after a lag.  The mirror is right as long as a `ProofStored` event is not
published after the record was evicted (`Fresh`); published later, it leaves an identifier announced that the store does
not hold.
-/

namespace PulsarVerifier

/-- What an event says about the identifiers with content. -/
def ProofStoreEvent.update : ProofStoreEvent → Option (Update VerificationId)
  | .proofStored id _ => some (.add id)
  | .proofEvicted id _ => some (.remove id)
  | .verificationObserved _ | .verificationChanged _ _ => none

/-- The identifiers the driver lists the local peer for. -/
def Driver.listed (d : Driver) : Set VerificationId := {id | d.localPeerId ∈ d.availability.providerSet id}

/-- What a command does to the identifiers the local peer is listed for. -/
def DriverCommand.effect : DriverCommand → Set VerificationId → Set VerificationId
  | .announce id, S => insert id S
  | .forgetLocalProof id, S => S \ {id}
  | .replaceLocalProofs ids, _ => {id | id ∈ ids}
  | _, S => S

namespace Control

/-- The command that waits for room in the mailbox. -/
def command : Control → Option DriverCommand
  | .sending command _ => some command
  | _ => none

/-- The identifiers of a snapshot that are still to be announced. -/
def announcing : Control → List VerificationId
  | .sending _ (.replaceLocalProofs ids) | .waiting (.replaceLocalProofs ids) | .sending _ (.announceLocal ids)
  | .waiting (.announceLocal ids) => ids
  | _ => []

theorem announcing_sending {command : DriverCommand} {call : DriverCall} :
    (sending command call).announcing = (waiting call).announcing := by
  cases call <;> rfl

/-- The worker is about to take a snapshot of the local proofs. -/
def snapshotting : Control → Bool
  | .store .locallyAvailableProofs => true
  | _ => false

/-- The worker is not about to change what the driver lists. -/
def Silent (control : Control) : Prop :=
  (∀ command ∈ control.command, ∀ S, command.effect S = S) ∧ control.announcing = []

end Control

/-- If the notice says that a proof is stored, the store holds it. -/
def Notice.fresh (store : ProofStore) (notice : Notice) : Bool :=
  match notice.event with
  | .proofStored id _ => (store.getProof id).isSome
  | .proofEvicted _ _ | .verificationObserved _ | .verificationChanged _ _ => true

namespace P2pSystem

/-- A `ProofStored` event is published while the store still holds the proof. -/
def Fresh (s : P2pSystem) : P2pAction → Prop
  | .publish i => (s.publishing[i]?.bind List.head?).all (Notice.fresh s.stores.store) = true
  | .workerFlush => s.outbox.head?.all (Notice.fresh s.stores.store) = true
  | _ => True

instance (s : P2pSystem) (a : P2pAction) : Decidable (s.Fresh a) :=
  match a with
  | .publish i =>
    inferInstanceAs (Decidable ((s.publishing[i]?.bind List.head?).all (Notice.fresh s.stores.store) = true))
  | .workerFlush => inferInstanceAs (Decidable (s.outbox.head?.all (Notice.fresh s.stores.store) = true))
  | .operation _ | .tick _ | .requestStop | .submit _ _ | .driverCommand _ | .swarmEvent _ | .delayedResponse _
  | .expireQueries | .emit _ | .workerSelect _ | .workerSend | .workerReply _ _ _ | .workerStore _ => .isTrue trivial

/-- The identifiers with content in the store. -/
def held (s : P2pSystem) : Set VerificationId := {id | (s.stores.store.getProof id).isSome}

/-- What operations have committed and not yet published. -/
def unpublished (s : P2pSystem) : List Notice := s.publishing.flatten ++ s.outbox

/-- The identifiers whose `ProofStored` event is not published yet. -/
def pendingAdditions (s : P2pSystem) : Set VerificationId :=
  {id | ∃ notice ∈ s.unpublished, notice.event.update = some (.add id)}

/-- The commands of the worker that the driver has not executed. -/
def commands (s : P2pSystem) : List DriverCommand := s.workerCommands ++ s.worker.control.command.toList

/-- What the driver lists the local peer for once it has executed the commands of the worker. -/
def listing (s : P2pSystem) : Set VerificationId := s.commands.foldl (fun S command => command.effect S) s.driver.listed

/-- The listing counts unless the worker has missed events, or is about to take a snapshot. -/
noncomputable def copy (s : P2pSystem) : Option (Set VerificationId) :=
  if s.receiver.lagged then none else if s.worker.control.snapshotting then none else some s.listing

/-- The listing mirrors the content of the store. -/
structure Mirroring (s : P2pSystem) : Prop where
  mirrors : Mirrors s.held s.pendingAdditions (s.receiver.queue.filterMap (·.event.update)) s.copy
  announcing : ∀ id ∈ s.worker.control.announcing, id ∈ s.listing
  additions : ∀ notice ∈ s.unpublished, ∀ id, notice.event.update ≠ some (.remove id)

end P2pSystem

/-! ### Where a handler leaves the worker -/

namespace Worker

variable {w w' : Worker} {rest : List VerificationId} {id : VerificationId}

theorem silent_sending {command : DriverCommand} {call : DriverCall} (heffect : ∀ S, command.effect S = S)
    (hannouncing : (Control.sending command call).announcing = []) : (Control.sending command call).Silent :=
  ⟨fun _ h => Option.some.inj h ▸ heffect, hannouncing⟩

theorem Driven.silent (h : w.Driven rest) : w.control.Silent :=
  h.on ⟨nofun, rfl⟩ (fun _ _ => ⟨nofun, rfl⟩) fun _ _ _ => silent_sending (fun _ => rfl) rfl

theorem silent_fail {error : Error} : (w.fail error).control.Silent := ⟨(fun _ h => nomatch h), rfl⟩

/-- A reply makes the worker announce the next identifier of a snapshot, or leaves it silent. -/
theorem ReplyMove.silent {call : DriverCall} {reply : Except Error Reply} (h : w.ReplyMove call reply w') :
    w'.control.Silent ∨ ∃ id ids, w'.control = .sending (.announce id) (.announceLocal ids) ∧
      (call = .replaceLocalProofs (id :: ids) ∨ call = .announceLocal (id :: ids)) :=
  h.on (P := fun control => control.Silent ∨ ∃ id ids, control = .sending (.announce id) (.announceLocal ids) ∧
      (call = .replaceLocalProofs (id :: ids) ∨ call = .announceLocal (id :: ids)))
    (fun h => .inl h.silent) (.inl ⟨nofun, rfl⟩) (fun _ _ _ => .inl (silent_sending (fun _ => rfl) rfl))
    (.inl ⟨nofun, rfl⟩) (fun id ids hcall => .inr ⟨id, ids, rfl, hcall⟩)
    (fun _ _ => .inl (silent_sending (fun _ => rfl) rfl))
    (fun _ _ _ _ _ _ _ _ _ => .inl (silent_sending (fun _ => rfl) rfl)) fun _ _ _ _ => .inl ⟨nofun, rfl⟩

theorem EventMove.silent {draining : Bool} {event : DriverEvent} (h : w.EventMove draining event w') :
    w'.control.Silent :=
  h.on (fun h => h.silent) (fun _ _ => ⟨nofun, rfl⟩) fun _ _ => ⟨nofun, rfl⟩

theorem silent_resumeAttached {requestId : ProofRequestId} {peer : PeerId} {stored : Except Error StoreChange}
    {now : Instant} {draining : Bool} : (w.resumeAttached requestId peer id stored now draining).control.Silent :=
  resumeAttached_on (fun h => h.silent) (fun _ => ⟨nofun, rfl⟩) fun _ => ⟨nofun, rfl⟩

end Worker

/-! ### What the driver lists -/

namespace Driver

variable {d : Driver}

theorem handleCommand_listed [Sha256] (hlocal : d.localPeerId ∉ d.authorizedPeers) (net : NetworkOutcome)
    (caller : Caller) (command : DriverCommand) :
    (d.handleCommand net caller command).1.listed = command.effect d.listed := by
  cases command with
  | announce id =>
    change (d.announce net id).2.listed = _
    rw [announce_driver]
    ext id'
    simp [listed, DriverCommand.effect]
  | forgetLocalProof id | replaceLocalProofs ids =>
    ext id'
    simp [listed, handleCommand, DriverCommand.effect]
  | queryAvailability id =>
    change (d.queryAvailability net id).2.listed = _
    unfold queryAvailability
    dsimp only
    split
    · rfl
    · split <;> rfl
  | providers id => rfl
  | requestProof peer id =>
    change (d.requestProof net peer id).2.listed = _
    unfold requestProof
    split_ifs <;> rfl
  | respondProof requestId proof =>
    change (d.respondProof net requestId proof).2.listed = _
    rw [respondProof_erase]
    rfl
  | replaceAuthorizedPeers peers =>
    simp only [handleCommand]
    split_ifs
    · -- only peers that were authorized are removed
      ext id
      refine AvailabilityIndex.mem_providerSet_removeAll.trans (and_iff_left fun hmem => ?_)
      rw [PeerId.mem_sortByBytes, Finset.mem_sdiff] at hmem
      exact hlocal hmem.1
    · rfl
  | drain =>
    simp only [handleCommand]
    split <;> rfl

theorem handleCommand_authorizedPeers [Sha256] (d : Driver) (net : NetworkOutcome) (caller : Caller)
    (command : DriverCommand) :
    (d.handleCommand net caller command).1.authorizedPeers = d.authorizedPeers ∨
      ∃ peers : Finset PeerId,
        (d.handleCommand net caller command).1.authorizedPeers = peers.erase d.localPeerId := by
  rcases h : d.handleCommand net caller command with ⟨d', replies⟩
  cases d.handleCommand_move net h with
  | replaced peers => exact .inr ⟨peers, rfl⟩
  | _ => exact .inl rfl

end Driver

theorem SwarmMove.listed {d d' : Driver} {event : SwarmEvent} {emitted : Option DriverEvent}
    (h : SwarmMove d event d' emitted) (hlocal : d.localPeerId ∉ d.authorizedPeers)
    (houtbound : ∀ k request, d.outboundRequests.lookup k = some request → request.peer ≠ d.localPeerId)
    (hremote : event.remote d.localPeerId = true) : d'.listed = d.listed := by
  cases h with
  | quiet | listening | connected | queried | requested => rfl
  | disconnected peer n =>
    have hne : d.localPeerId ≠ peer := fun heq => of_decide_eq_true hremote heq.symm
    ext id
    simp [Driver.listed, hne]
  | announced event source id hrunning hauth =>
    have hne : d.localPeerId ≠ source := fun heq => hlocal (heq ▸ hauth)
    ext id'
    simp [Driver.listed, hne]
  | responded event queryId id providers emitted hrunning hauth =>
    ext id'
    exact AvailabilityIndex.mem_providerSet_addAll.trans (or_iff_right fun hmem => hlocal (hauth _ hmem.2))
  | answered event k request availability emitted peer hlookup havailability =>
    have hne : d.localPeerId ≠ request.peer := fun heq => houtbound k request hlookup heq.symm
    ext id
    rcases havailability with rfl | rfl
    · simp [Driver.listed, Driver.forgetOutbound, hne]
    · simp [Driver.listed, Driver.forgetOutbound, hne]

namespace P2pSystem

variable {s t : P2pSystem}

/-! ### The local peer is no remote one -/

/-- Neither the validators the driver talks to nor the peers it has requests with are the local peer. -/
structure Remote (s : P2pSystem) : Prop where
  authorized : s.driver.localPeerId ∉ s.driver.authorizedPeers
  outbound : ∀ k request, s.driver.outboundRequests.lookup k = some request → request.peer ≠ s.driver.localPeerId

private theorem Remote.of_driver (h : s.Remote) (hnode : t.driver.node = s.driver.node)
    (hauthorized : t.driver.authorizedPeers = s.driver.authorizedPeers)
    (houtbound : ∀ k request, t.driver.outboundRequests.lookup k = some request →
      s.driver.outboundRequests.lookup k = some request) : t.Remote := by
  have hlocal : t.driver.localPeerId = s.driver.localPeerId := congrArg Prod.snd hnode
  constructor
  · rw [hlocal, hauthorized]
    exact h.authorized
  · intro k request hlookup
    rw [hlocal]
    exact h.outbound k request (houtbound k request hlookup)

section

variable [Sha256]

private theorem Remote.command (h : s.Remote) (net : NetworkOutcome) (caller : Caller) (command : DriverCommand)
    (hnode : t.driver.node = s.driver.node)
    (hauthorized : t.driver.authorizedPeers = (s.driver.handleCommand net caller command).1.authorizedPeers)
    (houtbound : t.driver.outboundRequests = (s.driver.handleCommand net caller command).1.outboundRequests) :
    t.Remote := by
  have hlocal : t.driver.localPeerId = s.driver.localPeerId := congrArg Prod.snd hnode
  constructor
  · rw [hlocal, hauthorized]
    rcases s.driver.handleCommand_authorizedPeers net caller command with hsame | ⟨peers, hreplaced⟩
    · rw [hsame]
      exact h.authorized
    · rw [hreplaced]
      exact Finset.notMem_erase _ _
  · intro k request hlookup
    rw [hlocal]
    rw [houtbound] at hlookup
    rcases s.driver.handleCommand_outbound net caller command with
      ⟨hsame, -, -⟩ | ⟨peer, id, rfl, hpeer, -, hinserted, -⟩
    · rw [hsame] at hlookup
      exact h.outbound k request hlookup
    · rw [hinserted] at hlookup
      by_cases hk : k = net.outboundId
      · rw [hk, AList.lookup_insert] at hlookup
        cases hlookup
        rintro rfl
        exact h.authorized hpeer
      · rw [AList.lookup_insert_ne hk] at hlookup
        exact h.outbound k request hlookup

theorem Remote.step [AvailabilityWire] {a : P2pAction} (h : s.Remote) (hstep : P2pStep s a t) : t.Remote := by
  have hnode := hstep.node
  have hround : ∀ u : P2pSystem, u.finishRound.driver.authorizedPeers = u.driver.authorizedPeers ∧
      u.finishRound.driver.outboundRequests = u.driver.outboundRequests := by
    intro u
    obtain ⟨state, reply, answers, hu⟩ := finishRound_frame u
    rw [hu]
    exact ⟨rfl, rfl⟩
  have hswarm : ∀ {event driver emitted}, s.driver.handleSwarmEvent event = .ok (driver, emitted) →
      driver.authorizedPeers = s.driver.authorizedPeers ∧
      ∀ k request, driver.outboundRequests.lookup k = some request →
        s.driver.outboundRequests.lookup k = some request := by
    intro event driver emitted hmove
    have hmove := s.driver.handleSwarmEvent_move hmove
    refine ⟨by cases hmove <;> rfl, fun k request hlookup => ?_⟩
    rcases hmove.outbound with ⟨hsame, -⟩ | ⟨k', _, _, _, -, herased, -⟩
    · rwa [hsame] at hlookup
    · rw [herased] at hlookup
      exact (AList.lookup_erase_some hlookup).2
  cases hstep with
  | driverCommand net caller command rest _ _ _ t ht =>
    obtain ⟨state, reply, answers, rfl⟩ := commandRound_frame ht
    exact h.command { net with now := s.now } caller command hnode rfl rfl
  | swarmQuiet event driver _ _ hmove =>
    refine h.of_driver hnode ((hround _).1.trans (hswarm hmove).1) (fun k request hlookup => ?_)
    rw [(hround _).2] at hlookup
    exact (hswarm hmove).2 k request hlookup
  | swarmEmit event driver emitted _ _ hmove => exact h.of_driver hnode (hswarm hmove).1 (hswarm hmove).2
  | emitDropped net event _ _ driver hdriver =>
    have hsame : driver.authorizedPeers = s.driver.authorizedPeers ∧
        driver.outboundRequests = s.driver.outboundRequests := by
      rcases hdriver with ⟨rfl, -⟩ | ⟨requestId, peer, id, -, rfl⟩
      · exact ⟨rfl, rfl⟩
      · obtain ⟨inbound, heq, -⟩ := s.driver.respondProof_driver { net with now := s.now } requestId none
        rw [heq]
        exact ⟨rfl, rfl⟩
    refine h.of_driver hnode ((hround _).1.trans hsame.1) (fun k request hlookup => ?_)
    rw [(hround _).2] at hlookup
    rwa [← hsame.2]
  | emitSent | delayedResponse | expireQueries =>
    exact h.of_driver hnode (hround _).1 (fun k request hlookup => by rwa [(hround _).2] at hlookup)
  | selectStoreEvent notice receiver =>
    obtain ⟨handled, expired, htaken⟩ := recordTaken_frame { s with receiver } notice
    rw [htaken]
    exact { h with }
  | _ => exact { h with }

end

/-! ### The mirror -/

def feed (s : P2pSystem) : StoreSystem × List (List Notice) × List Notice × Receiver Notice :=
  (s.stores, s.publishing, s.outbox, s.receiver)

private theorem Mirroring.of_listing (h : s.Mirroring) (hfeed : t.feed = s.feed) (hlisting : t.listing = s.listing)
    (hsnapshot : s.worker.control.snapshotting = true → t.worker.control.snapshotting = true)
    (hannouncing : ∀ id ∈ t.worker.control.announcing, id ∈ s.listing) : t.Mirroring := by
  simp only [feed, Prod.mk.injEq] at hfeed
  obtain ⟨hstores, hpublishing, houtbox, hreceiver⟩ := hfeed
  have hunpublished : t.unpublished = s.unpublished := by rw [unpublished, unpublished, hpublishing, houtbox]
  have hmirrors := h.mirrors
  constructor
  · rw [held, pendingAdditions, hstores, hunpublished, hreceiver]
    change Mirrors s.held s.pendingAdditions _ _
    unfold copy at hmirrors ⊢
    rw [hreceiver, hlisting]
    cases hcontrol : t.worker.control.snapshotting with
    | true =>
      rw [if_pos rfl, ite_self]
      exact hmirrors.weaken
    | false =>
      have hbefore : s.worker.control.snapshotting = false := by
        cases hs : s.worker.control.snapshotting with
        | true => rw [hsnapshot hs] at hcontrol; cases hcontrol
        | false => rfl
      rw [hbefore] at hmirrors
      exact hmirrors
  · rw [hlisting]
    exact hannouncing
  · rw [hunpublished]
    exact h.additions

private theorem Mirroring.of_silent (h : s.Mirroring) (hcommands : s.commands = [])
    (hsnapshot : s.worker.control.snapshotting = false) (hsilent : t.worker.control.Silent) (hfeed : t.feed = s.feed)
    (hdriver : t.driver = s.driver) (hmailbox : t.mailbox = s.mailbox) : t.Mirroring := by
  have hlisting : t.listing = s.listing := by
    unfold listing commands workerCommands at *
    rw [List.append_eq_nil_iff] at hcommands
    rw [hmailbox, hdriver, hcommands.1, hcommands.2]
    cases hcommand : t.worker.control.command with
    | none => rfl
    | some command => exact hsilent.1 command hcommand _
  refine h.of_listing hfeed hlisting (fun hs => ?_) (fun id hid => ?_)
  · rw [hsnapshot] at hs
    cases hs
  · rw [hsilent.2] at hid
    cases hid

private theorem Mirroring.of_listed (h : s.Mirroring) (hlisted : t.driver.listed = s.driver.listed)
    (hfeed : t.feed = s.feed) (hworker : t.worker = s.worker) (hmailbox : t.mailbox = s.mailbox) : t.Mirroring := by
  have hlisting : t.listing = s.listing := by
    unfold listing commands workerCommands
    rw [hlisted, hworker, hmailbox]
  exact h.of_listing hfeed hlisting (fun hs => by rw [hworker]; exact hs)
    (fun id hid => h.announcing id (by rw [← hworker]; exact hid))

private theorem Mirroring.commit [Sha256] (h : s.Mirroring) (action : StoreAction)
    (hevict : ∀ id cause, action ≠ .evict id cause) (hstores : t.stores = (s.stores.perform action).1)
    (hunpublished : ∀ notice, notice ∈ t.unpublished ↔
      notice ∈ s.unpublished ∨ notice ∈ noticesOf s.stores.store (s.stores.perform action).2)
    (hreceiver : t.receiver = s.receiver) (hworker : t.worker = s.worker) (hdriver : t.driver = s.driver)
    (hmailbox : t.mailbox = s.mailbox) : t.Mirroring := by
  have hlisting : t.listing = s.listing := by
    unfold listing commands workerCommands
    rw [hdriver, hworker, hmailbox]
  have hcopy : t.copy = s.copy := by
    unfold copy
    rw [hreceiver, hworker, hlisting]
  have hcontent := s.stores.perform_content hevict
  constructor
  · rw [hreceiver, hcopy]
    refine h.mirrors.commit (fun id hid => ?_) ?_ (fun id hid => ?_)
    · change ((t.stores.store).getProof id).isSome
      rw [hstores, hcontent]
      exact .inl hid
    · rintro id ⟨notice, hnotice, hupdate⟩
      exact ⟨notice, (hunpublished notice).2 (.inl hnotice), hupdate⟩
    · change ((t.stores.store).getProof id).isSome at hid
      rw [hstores, hcontent] at hid
      refine hid.imp_right ?_
      rintro ⟨source, hmem⟩
      exact ⟨⟨.proofStored id source, s.stores.store.nextAddr⟩,
        (hunpublished _).2 (.inr (List.mem_map.2 ⟨_, hmem, rfl⟩)),
        rfl⟩
  · rw [hlisting, hworker]
    exact h.announcing
  · intro notice hnotice id hupdate
    rcases (hunpublished notice).1 hnotice with hold | hnew
    · exact h.additions notice hold id hupdate
    · obtain ⟨event, hmem, rfl⟩ := List.mem_map.1 hnew
      cases event with
      | proofEvicted id' cause => exact s.stores.proofEvicted_notMem_perform hevict hmem
      | _ => cases hupdate

private theorem mirrors_send {held pending : Set VerificationId} (notice : Notice)
    (h : Mirrors held pending (s.receiver.queue.filterMap (·.event.update) ++ notice.event.update.toList) s.copy)
    (hreceiver : t.receiver = s.receiver.send s.capacity notice) (hworker : t.worker = s.worker)
    (hlisting : t.listing = s.listing) : Mirrors held pending (t.receiver.queue.filterMap (·.event.update)) t.copy := by
  have hsent := h.send (fun n : Notice => n.event.update) s.capacity notice
  rw [← hreceiver] at hsent
  unfold copy
  rw [hworker, hlisting]
  cases hlagged : t.receiver.lagged with
  | true => rwa [hlagged] at hsent
  | false =>
    have hbefore : s.receiver.lagged = false := Receiver.lagged_of_send (hreceiver ▸ hlagged)
    rw [hlagged] at hsent
    unfold copy at hsent
    rwa [hbefore] at hsent

private theorem Mirroring.report (h : s.Mirroring) (notice : Notice) (hnotice : notice ∈ s.unpublished)
    (hleft : ∀ n, n ∈ s.unpublished ↔ n = notice ∨ n ∈ t.unpublished)
    (hfresh : ∀ id, notice.event.update = some (.add id) → id ∈ s.held) (hstores : t.stores = s.stores)
    (hreceiver : t.receiver = s.receiver.send s.capacity notice) (hworker : t.worker = s.worker)
    (hdriver : t.driver = s.driver) (hmailbox : t.mailbox = s.mailbox) : t.Mirroring := by
  have hlisting : t.listing = s.listing := by
    unfold listing commands workerCommands
    rw [hdriver, hworker, hmailbox]
  have hheld : t.held = s.held := by rw [held, hstores]; rfl
  have hreported : Mirrors s.held t.pendingAdditions
      (s.receiver.queue.filterMap (·.event.update) ++ notice.event.update.toList) s.copy := by
    cases hupdate : notice.event.update with
    | none =>
      rw [Option.toList_none, List.append_nil]
      refine h.mirrors.commit (Set.Subset.refl _) ?_ Set.subset_union_left
      rintro id ⟨n, hn, hadd⟩
      rcases (hleft n).1 hn with rfl | hn
      · rw [hupdate] at hadd
        cases hadd
      · exact ⟨n, hn, hadd⟩
    | some update =>
      cases update with
      | add id =>
        refine h.mirrors.report_add (hfresh id hupdate) ?_
        rintro id' ⟨n, hn, hadd⟩
        rcases (hleft n).1 hn with rfl | hn
        · rw [hupdate] at hadd
          cases hadd
          exact Set.mem_insert _ _
        · exact Set.mem_insert_of_mem _ ⟨n, hn, hadd⟩
      | remove id => exact absurd hupdate (h.additions notice hnotice id)
  constructor
  · rw [hheld]
    exact mirrors_send notice hreported hreceiver hworker hlisting
  · rw [hlisting, hworker]
    exact h.announcing
  · exact fun n hn id => h.additions n ((hleft n).2 (.inr hn)) id

private theorem Mirroring.evict (h : s.Mirroring) (id : VerificationId) (cause : ProofEvictionCause) :
    Mirroring { s with
      stores := { s.stores with store := s.stores.store.evict id }
      receiver := s.receiver.send s.capacity ⟨.proofEvicted id cause, s.stores.store.nextAddr⟩ } := by
  let t : P2pSystem := { s with
    stores := { s.stores with store := s.stores.store.evict id }
    receiver := s.receiver.send s.capacity ⟨.proofEvicted id cause, s.stores.store.nextAddr⟩ }
  have hheld : t.held = s.held \ {id} := by
    ext id'
    change ((s.stores.store.evict id).getProof id').isSome = true ↔ _ ∧ id' ≠ id
    by_cases hid : id' = id
    · subst hid
      simp
    · rw [ProofStore.getProof_evict_of_ne hid]
      exact (and_iff_left hid).symm
  refine Mirroring.mk (s := t) ?_ h.announcing h.additions
  rw [hheld]
  exact mirrors_send ⟨.proofEvicted id cause, s.stores.store.nextAddr⟩ h.mirrors.report_remove rfl rfl rfl

private theorem Mirroring.skip (h : s.Mirroring) {notice : Notice} {receiver : Receiver Notice}
    (hrecv : s.receiver.recv = some (.event notice, receiver)) (hnone : notice.event.update = none) :
    Mirroring { s with receiver } := by
  obtain ⟨hlagged, hqueue, hlagged'⟩ := Receiver.recv_event hrecv
  have hmirrors := h.mirrors
  rw [hqueue, List.filterMap_cons_none (f := fun n : Notice => n.event.update) hnone] at hmirrors
  refine ⟨?_, h.announcing, h.additions⟩
  unfold copy at hmirrors ⊢
  rw [hlagged] at hmirrors
  rw [hlagged']
  exact hmirrors

private theorem Mirroring.take (h : s.Mirroring) (hcommands : s.commands = [])
    (hsnapshot : s.worker.control.snapshotting = false) {notice : Notice} {receiver : Receiver Notice}
    (hrecv : s.receiver.recv = some (.event notice, receiver)) {update : Update VerificationId}
    (command : DriverCommand)
    (hupdate : notice.event.update = some update) (heffect : ∀ S, command.effect S = update.apply S)
    (hcommand : t.worker.control.command = some command) (hannouncing : t.worker.control.announcing = [])
    (hcontrol : t.worker.control.snapshotting = false) (hstores : t.stores = s.stores)
    (hunpublished : t.unpublished = s.unpublished) (hreceiver : t.receiver = receiver) (hdriver : t.driver = s.driver)
    (hmailbox : t.mailbox = s.mailbox) : t.Mirroring := by
  obtain ⟨hlagged, hqueue, hlagged'⟩ := Receiver.recv_event hrecv
  have hlisting : t.listing = update.apply s.listing := by
    unfold listing commands workerCommands at *
    rw [List.append_eq_nil_iff] at hcommands
    rw [hmailbox, hdriver, hcommands.1, hcommands.2, hcommand]
    exact heffect _
  have hbefore : s.copy = some s.listing := by
    unfold copy
    rw [hlagged, hsnapshot]
    rfl
  have hafter : t.copy = s.copy.map update.apply := by
    rw [hbefore]
    unfold copy
    rw [hreceiver, hlagged', hcontrol, hlisting]
    rfl
  have hmirrors := h.mirrors
  rw [hqueue, List.filterMap_cons_some (f := fun n : Notice => n.event.update) hupdate] at hmirrors
  constructor
  · rw [hafter, held, pendingAdditions, hstores, hunpublished, hreceiver]
    exact hmirrors.tail
  · rw [hannouncing]
    exact fun id hid => nomatch hid
  · rw [hunpublished]
    exact h.additions

/-- The worker takes a snapshot of the local proofs, to replace what the driver lists. -/
private theorem Mirroring.refresh (h : s.Mirroring) (hmailbox : s.workerCommands = []) {snapshot : List VerificationId}
    (hsnapshot : ∀ id, id ∈ snapshot ↔ id ∈ s.held) :
    Mirroring { s with worker := s.worker.call (.replaceLocalProofs snapshot) (.replaceLocalProofs snapshot) } := by
  let t : P2pSystem :=
    { s with worker := s.worker.call (.replaceLocalProofs snapshot) (.replaceLocalProofs snapshot) }
  have hlisting : t.listing = s.held := by
    have hcommands : t.commands = [.replaceLocalProofs snapshot] := by
      change s.workerCommands ++ _ = _
      rw [hmailbox]
      rfl
    unfold listing
    rw [hcommands]
    ext id
    exact hsnapshot id
  refine Mirroring.mk (s := t) ?_ (fun id hid => ?_) h.additions
  · have hcopy : t.copy = if s.receiver.lagged then none else some s.held := by
      unfold copy
      rw [hlisting]
      rfl
    rw [hcopy]
    split_ifs
    · exact h.mirrors.weaken
    · exact h.mirrors.refresh
  · rw [hlisting]
    exact (hsnapshot id).1 hid

theorem mem_flatten_set {notice : Notice} {rest : List Notice} :
    ∀ {publishing : List (List Notice)} {i : Nat}, publishing[i]? = some (notice :: rest) →
      ∀ n, n ∈ publishing.flatten ↔ n = notice ∨ n ∈ (publishing.set i rest).flatten := by
  intro publishing
  induction publishing with
  | nil => intro i hi; simp at hi
  | cons notices publishing ih =>
    intro i hi n
    cases i with
    | zero =>
      obtain rfl : notices = notice :: rest := by simpa using hi
      simp
    | succ i =>
      rw [List.getElem?_cons_succ] at hi
      rw [List.set_cons_succ, List.flatten_cons, List.flatten_cons, List.mem_append, List.mem_append, ih hi n]
      tauto

private theorem mem_held_of_fresh {notice : Notice} (h : notice.fresh s.stores.store = true) (id : VerificationId)
    (hupdate : notice.event.update = some (.add id)) : id ∈ s.held := by
  unfold Notice.fresh at h
  cases hevent : notice.event with
  | proofStored id' source =>
    rw [hevent] at h hupdate
    cases hupdate
    exact h
  | proofEvicted id' cause => rw [hevent] at hupdate; cases hupdate
  | verificationObserved id' => rw [hevent] at hupdate; cases hupdate
  | verificationChanged id' state => rw [hevent] at hupdate; cases hupdate

private theorem commands_eq_nil (hp : s.Protocol) (hresult : s.driverResult = none) (hawaited : s.awaited = none)
    (hcommand : s.worker.control.command = none) : s.commands = [] := by
  have hout := hp.mailbox hresult
  rw [hawaited] at hout
  unfold commands
  rw [show s.workerCommands = [] from hout, hcommand]
  rfl

theorem Mirroring.step [Sha256] [AvailabilityWire] {a : P2pAction} (h : s.Mirroring) (hp : s.Protocol)
    (hremote : s.Remote) (hfresh : s.Fresh a) (hstep : P2pStep s a t) (hresult : t.driverResult = none)
    (hmode : t.mode = .running) : t.Mirroring := by
  have hbefore := hstep.driverResult hresult
  have hrest : ∀ {control}, s.worker.control = control → (∀ call, control ≠ .waiting call) → control.command = none →
      s.commands = [] := by
    intro control hcontrol hwaiting hcommand
    refine commands_eq_nil hp hbefore (awaited_eq_none (fun call hcall => ?_)) (hcontrol ▸ hcommand)
    exact hwaiting call (hcontrol.symm.trans hcall)
  have hidle : s.worker.control = .idle → s.commands = [] ∧ s.worker.control.snapshotting = false := by
    intro hcontrol
    exact ⟨hrest hcontrol (fun _ h => nomatch h) rfl, by rw [hcontrol]; rfl⟩
  have hround : ∀ u : P2pSystem, u.driver.listed = s.driver.listed → u.feed = s.feed → u.worker = s.worker →
      u.mailbox = s.mailbox → u.finishRound.Mirroring := by
    intro u hlisted hfeed hworker hmailbox
    obtain ⟨state, reply, answers, hu⟩ := finishRound_frame u
    rw [hu]
    exact h.of_listed hlisted hfeed hworker hmailbox
  cases hstep with
  | tick | requestStop => exact { h with }
  | swarmError => cases hresult
  | operation action henabled hevict =>
    refine h.commit action hevict rfl (fun notice => ?_) rfl rfl rfl rfl
    unfold unpublished
    simp only [List.flatten_append, List.mem_append, List.flatten_cons, List.flatten_nil, List.append_nil]
    tauto
  | evict id cause => exact h.evict id cause
  | publish i notice rest hi =>
    have hleft := mem_flatten_set hi
    refine h.report notice ?_ (fun n => ?_) (mem_held_of_fresh ?_) rfl rfl rfl rfl rfl
    · exact List.mem_append_left _ ((hleft notice).2 (.inl rfl))
    · unfold unpublished
      rw [List.mem_append, List.mem_append, hleft n, or_assoc]
    · simpa only [Fresh, hi, Option.bind_some, List.head?_cons, Option.all_some] using hfresh
  | workerFlush notice rest houtbox =>
    refine h.report notice ?_ (fun n => ?_) (mem_held_of_fresh ?_) rfl rfl rfl rfl rfl
    · exact List.mem_append_right _ (by rw [houtbox]; exact List.mem_cons_self)
    · unfold unpublished
      rw [List.mem_append, List.mem_append, houtbox, List.mem_cons]
      tauto
    · simpa only [Fresh, houtbox, List.head?_cons, Option.all_some] using hfresh
  | submit call command hclient =>
    refine h.of_listing rfl ?_ id h.announcing
    unfold listing commands workerCommands
    rw [List.filterMap_append]
    change ((_ ++ []) ++ _).foldl _ _ = _
    rw [List.append_nil]
  | driverCommand net caller command rest hmailbox hfree hid t ht =>
    have hcommands : s.commands = (if caller = .worker then [command] else []) ++
        (rest.filterMap (fun entry => if entry.1 = Caller.worker then some entry.2 else none) ++
          s.worker.control.command.toList) := by
      unfold commands workerCommands
      rw [hmailbox, ← List.append_assoc]
      cases caller <;> rfl
    cases hp.commandRound { net with now := s.now } hmailbox hbefore ht with
    | worker call _ reply state answers hcontrol hreply hsends hreplies hstate hdrain hempty =>
      refine h.of_listing rfl ?_ id h.announcing
      unfold listing
      rw [hcommands]
      change List.foldl _ ((s.driver.handleCommand _ _ _).1.listed) _ = _
      rw [Driver.handleCommand_listed hremote.authorized]
      rfl
    | client call _ state answers hclient =>
      refine h.of_listing rfl ?_ id h.announcing
      unfold listing
      rw [hcommands]
      change List.foldl _ ((s.driver.handleCommand _ _ _).1.listed) _ = _
      rw [Driver.handleCommand_listed hremote.authorized]
      cases command with
      | replaceAuthorizedPeers | drain => rfl
      | _ => cases hclient
  | swarmQuiet event driver hfree hevent hmove =>
    exact hround _ ((s.driver.handleSwarmEvent_move hmove).listed hremote.authorized hremote.outbound hevent)
      rfl rfl rfl
  | swarmEmit event driver emitted hfree hevent hmove =>
    exact h.of_listed ((s.driver.handleSwarmEvent_move hmove).listed hremote.authorized hremote.outbound hevent)
      rfl rfl rfl
  | delayedResponse | expireQueries => exact hround _ rfl rfl rfl rfl
  | emitDropped net event _ _ driver hdriver =>
    refine hround _ ?_ rfl rfl rfl
    rcases hdriver with ⟨rfl, -⟩ | ⟨requestId, peer, id, -, rfl⟩
    · rfl
    · obtain ⟨inbound, heq, -⟩ := s.driver.respondProof_driver { net with now := s.now } requestId none
      change (s.driver.respondProof _ _ _).2.listed = _
      rw [heq]
      rfl
  | emitSent => exact hround _ rfl rfl rfl rfl
  | selectStop => cases hmode
  | selectTurn pick mode _ _ _ hdraining =>
    obtain rfl : mode = .running := hmode
    cases hdraining
  | drainStoreEvent => cases hmode
  | drained hcontrol =>
    exact h.of_silent (hidle hcontrol).1 (hidle hcontrol).2 ⟨(fun _ h => nomatch h), rfl⟩ rfl rfl rfl
  | selectDriverEvent mode event rest hcontrol =>
    exact h.of_silent (hidle hcontrol).1 (hidle hcontrol).2
      (s.worker.handleDriverEvent_move s.now _ event).silent rfl rfl rfl
  | selectDriverClosed hcontrol =>
    exact h.of_silent (hidle hcontrol).1 (hidle hcontrol).2 Worker.silent_fail rfl rfl rfl
  | selectStoreEvent notice receiver hcontrol hrunning houtbox hrecv =>
    obtain ⟨hcommands, hsnapshot⟩ := hidle hcontrol
    obtain ⟨handled, expired, htaken⟩ := recordTaken_frame { s with receiver } notice
    rw [htaken]
    cases hevent : notice.event with
    | proofStored id source =>
      have hupdate : notice.event.update = some (.add id) := by rw [hevent]; rfl
      exact h.take hcommands hsnapshot hrecv (.announce id) hupdate (fun _ => rfl) rfl rfl rfl rfl rfl rfl rfl rfl
    | proofEvicted id cause =>
      have hupdate : notice.event.update = some (.remove id) := by rw [hevent]; rfl
      exact h.take hcommands hsnapshot hrecv (.forgetLocalProof id) hupdate
        (fun _ => rfl) rfl rfl rfl rfl rfl rfl rfl rfl
    | verificationObserved id =>
      have hupdate : notice.event.update = none := by rw [hevent]; rfl
      exact (h.skip hrecv hupdate).of_silent hcommands hsnapshot ⟨(fun _ h => nomatch h), rfl⟩ rfl rfl rfl
    | verificationChanged id state =>
      have hupdate : notice.event.update = none := by rw [hevent]; rfl
      exact (h.skip hrecv hupdate).of_silent hcommands hsnapshot Worker.driven_drivePending.silent rfl rfl rfl
  | selectLagged receiver hcontrol hrunning houtbox hrecv =>
    obtain ⟨-, rfl⟩ := Receiver.recv_lagged hrecv
    exact ⟨h.mirrors.weaken, (fun _ h => nomatch h), h.additions⟩
  | selectWake i wake hcontrol =>
    exact h.of_silent (hidle hcontrol).1 (hidle hcontrol).2 Worker.driven_handleWake.silent rfl rfl rfl
  | sendClosed command call hcontrol hdriver =>
    rw [hbefore] at hdriver
    cases hdriver
  | send command call hcontrol hdriver =>
    refine h.of_listing rfl ?_ (fun hs => ?_) (fun id hid => h.announcing id ?_)
    · unfold listing commands workerCommands
      rw [hcontrol, List.filterMap_append]
      change ((_ ++ [command]) ++ []).foldl _ _ = _
      rw [List.append_nil]
      rfl
    · rw [hcontrol] at hs
      cases hs
    · rw [hcontrol, Control.announcing_sending]
      exact hid
  | reply choice delay elapsed call reply worker hcontrol hreply hresume =>
    have hsome : s.reply.isSome := by
      unfold replyToWorker at hreply
      split at hreply
      · rename_i hsome
        rw [hsome]
        rfl
      · simp [hbefore] at hreply
    have hcommands : s.commands = [] := commands_eq_nil hp hbefore (awaited_of_reply hsome) (by rw [hcontrol]; rfl)
    have hsnapshot : s.worker.control.snapshotting = false := by rw [hcontrol]; rfl
    rcases (Worker.resumeCall_move hresume).silent with hsilent | ⟨id, ids, hnext, hcall⟩
    · exact h.of_silent hcommands hsnapshot hsilent rfl rfl rfl
    · -- an identifier of the snapshot is announced again
      have hannouncing : s.worker.control.announcing = id :: ids := by
        rw [hcontrol]
        rcases hcall with rfl | rfl <;> rfl
      have hlisted : ∀ id' ∈ id :: ids, id' ∈ s.listing := fun id' hid => h.announcing id' (hannouncing ▸ hid)
      refine h.of_listing rfl ?_ (fun hs => ?_) (fun id' hid => ?_)
      · unfold listing commands workerCommands at *
        rw [hcommands] at hlisted ⊢
        rw [List.append_eq_nil_iff] at hcommands
        rw [hnext, hcommands.1]
        exact Set.insert_eq_of_mem (hlisted id List.mem_cons_self)
      · rw [hsnapshot] at hs
        cases hs
      · rw [hnext] at hid
        exact hlisted id' (List.mem_cons_of_mem _ hid)
  | getProof snapshot requestId id hcontrol =>
    refine h.of_silent (hrest hcontrol (fun _ h => nomatch h) rfl) (by rw [hcontrol]; rfl)
      ⟨fun command h S => ?_, rfl⟩ rfl
      rfl rfl
    cases h
    rfl
  | attach snapshot requestId peer id proof hcontrol houtbox =>
    have hcommit : Mirroring { s with
        stores := (s.stores.perform (.attachDownloadedProof s.now id proof peer)).1
        outbox := noticesOf s.stores.store (s.stores.perform (.attachDownloadedProof s.now id proof peer)).2 } := by
      refine h.commit (.attachDownloadedProof s.now id proof peer) (fun _ _ h => nomatch h) rfl
        (fun notice => ?_) rfl rfl rfl rfl
      unfold unpublished
      rw [houtbox, List.append_nil, List.mem_append]
    exact hcommit.of_silent (hrest hcontrol (fun _ h => nomatch h) rfl) (by rw [hcontrol]; rfl)
      ⟨(fun _ h => nomatch h), rfl⟩ rfl rfl rfl
  | attached snapshot requestId peer id stored hcontrol =>
    exact h.of_silent (hrest hcontrol (fun _ h => nomatch h) rfl)
      (by rw [hcontrol]; rfl) Worker.silent_resumeAttached rfl
      rfl rfl
  | localSnapshot snapshot hcontrol houtbox hsnapshot =>
    have hcommands := hrest hcontrol (fun _ h => nomatch h) rfl
    refine h.refresh (List.append_eq_nil_iff.1 hcommands).1 (fun id => ?_)
    rw [hsnapshot.mem_iff]
    exact ProofStore.mem_locallyAvailableProofs
  | waitingSnapshot snapshot hcontrol =>
    exact h.of_silent (hrest hcontrol (fun _ h => nomatch h) rfl) (by rw [hcontrol]; rfl)
      Worker.driven_resumeWaiting.silent rfl rfl rfl
  | get snapshot id rest hcontrol =>
    exact h.of_silent (hrest hcontrol (fun _ h => nomatch h) rfl)
      (by rw [hcontrol]; rfl) Worker.driven_resumeGet.silent rfl
      rfl rfl

/-- No operation is between its commit and its publication, and the running worker has handled every event. -/
structure Quiet (s : P2pSystem) : Prop where
  idle : s.worker.control = .idle
  running : s.mode = .running
  driver : s.driverResult = none
  published : ∀ notices ∈ s.publishing, notices = []
  flushed : s.outbox = []
  queue : s.receiver.queue = []
  lagged : s.receiver.lagged = false

/-- In a run in which `ProofStored` events are published while the store holds the proof, the driver lists the local
peer for exactly the identifiers with content in every quiet state. -/
theorem listed_iff_stored [Sha256] [AvailabilityWire] (store : ProofStore) (config : P2pConfig) (localPeerId : PeerId)
    (validators : Finset PeerId) (listeners : Finset Nat) (capacity : Nat) {s : P2pSystem}
    (h : ((lts store config localPeerId validators listeners capacity).restrict Fresh).Reachable s) (hquiet : s.Quiet)
    (id : VerificationId) :
    localPeerId ∈ s.driver.availability.providers id ↔ (s.stores.store.getProof id).isSome := by
  have hinvariant : s.Protocol ∧ s.Remote ∧ s.driver.localPeerId = localPeerId ∧
      (s.driverResult = none → s.mode = .running → s.Mirroring) := by
    refine h.invariant (P := fun s => s.Protocol ∧ s.Remote ∧ s.driver.localPeerId = localPeerId ∧
      (s.driverResult = none → s.mode = .running → s.Mirroring)) ?_ ?_
    · rintro s rfl
      refine ⟨protocol_initial, ⟨Finset.notMem_erase _ _, fun k request hlookup => ?_⟩, rfl, fun _ _ => ?_⟩
      · simp [initial, Driver.build] at hlookup
      · refine ⟨fun k S hk => ?_, (by rintro _ ⟨⟩), (by rintro _ ⟨⟩)⟩
        rcases hk with hk | hk <;> cases hk
    · rintro s a t - ⟨hp, hremote, hlocal, hmirroring⟩ ⟨hnext, hfresh⟩
      have hstep := next_step hnext
      refine ⟨hp.step hstep, hremote.step hstep, (congrArg Prod.snd hstep.node).trans hlocal, fun hresult hmode => ?_⟩
      exact (hmirroring (hstep.driverResult hresult) (hstep.mode hmode)).step hp hremote hfresh hstep hresult hmode
  obtain ⟨hp, -, rfl, hmirroring⟩ := hinvariant
  have hmirrors := (hmirroring hquiet.driver hquiet.running).mirrors
  have hpending : s.pendingAdditions = ∅ := by
    have hunpublished : s.unpublished = [] := by
      rw [unpublished, hquiet.flushed, List.append_nil, List.flatten_eq_nil_iff]
      exact hquiet.published
    unfold pendingAdditions
    rw [hunpublished]
    exact Set.eq_empty_of_forall_notMem (fun id hid => by obtain ⟨_, hmem, -⟩ := hid; cases hmem)
  have hlisting : s.copy = some s.driver.listed := by
    have hcommands : s.commands = [] :=
      commands_eq_nil hp hquiet.driver (awaited_eq_none (fun call hcall => by rw [hquiet.idle] at hcall; cases hcall))
        (by rw [hquiet.idle]; rfl)
    unfold copy listing
    rw [hquiet.lagged, hquiet.idle, hcommands]
    rfl
  rw [hquiet.queue, hpending, hlisting] at hmirrors
  rw [AvailabilityIndex.mem_providers]
  exact Set.ext_iff.1 hmirrors.eq_held id

/-! ### A late event -/

private def quietTest (s : P2pSystem) : Bool :=
  s.worker.control.isIdle && decide (s.mode = .running ∧ s.driverResult.isNone ∧
    (∀ notices ∈ s.publishing, notices = []) ∧ s.outbox = [] ∧ s.receiver.queue = [] ∧ s.receiver.lagged = false)

private theorem quiet_of_test (h : quietTest s = true) : s.Quiet := by
  rw [quietTest, Bool.and_eq_true, Control.isIdle_iff, decide_eq_true_eq] at h
  obtain ⟨hidle, hmode, hdriver, hpublishing, houtbox, hqueue, hlagged⟩ := h
  exact ⟨hidle, hmode, Option.isNone_iff_eq_none.1 hdriver, hpublishing, houtbox, hqueue, hlagged⟩

/-- A proof is stored and announced. -/
theorem listed_iff_stored_announced :
    letI := Sha256.standard
    letI := AvailabilityWire.standard
    ∃ s, ((lts .small .small .here {.here, .there} {0} 16).restrict Fresh).Reachable s ∧ s.Quiet ∧
      (s.stores.store.getProof (Proof.verificationId .small)).isSome ∧
      .here ∈ s.driver.availability.providers (Proof.verificationId .small) := by
  let _ := Sha256.standard
  let _ := AvailabilityWire.standard
  have hexec : (Lts.exec (Lts.guarded next Fresh) (initial .small .small .here {.here, .there} {0} 16)
      (reconcile ++ announce .small .calm)).any
      (fun s => quietTest s && (s.stores.store.getProof (Proof.verificationId .small)).isSome) = true := by
    decide +kernel
  obtain ⟨s, hs, htest⟩ := (Option.any_eq_true _ _).1 hexec
  rw [Bool.and_eq_true] at htest
  have hreach : ((lts .small .small .here {.here, .there} {0} 16).restrict Fresh).Reachable s :=
    ⟨_, _, rfl, Lts.run_restrict_of_exec hs⟩
  exact ⟨s, hreach, quiet_of_test htest.1, htest.2,
    (listed_iff_stored .small .small .here {.here, .there} {0} 16 hreach (quiet_of_test htest.1) _).2 htest.2⟩

/-- A proof is stored, evicted before its `ProofStored` event is published, and announced afterwards. -/
theorem listed_without_content :
    letI := Sha256.standard
    letI := AvailabilityWire.standard
    ∃ s, (lts .small .small .here {.here, .there} {0} 16).Reachable s ∧ s.Quiet ∧
      s.stores.store.getProof (Proof.verificationId .small) = none ∧
      .here ∈ s.driver.availability.providers (Proof.verificationId .small) := by
  let _ := Sha256.standard
  let _ := AvailabilityWire.standard
  have hexec : (Lts.exec next (initial .small .small .here {.here, .there} {0} 16)
      (reconcile ++ [.operation (.insertLocalProof 0 .small .rpc),
        .operation (.evict (Proof.verificationId .small) .size), .publish 0,
        .workerSelect .storeEvent] ++ exchange .calm ++ [.workerSelect .storeEvent] ++ exchange .calm)).any
      (fun s => quietTest s && ((s.stores.store.getProof (Proof.verificationId .small)).isNone &&
        decide (.here ∈ s.driver.availability.providers (Proof.verificationId .small)))) = true := by
    decide +kernel
  obtain ⟨s, hs, htest⟩ := (Option.any_eq_true _ _).1 hexec
  simp only [Bool.and_eq_true, Option.isNone_iff_eq_none, decide_eq_true_eq] at htest
  exact ⟨s, ⟨_, _, rfl, Lts.run_of_exec hs⟩, quiet_of_test htest.1, htest.2.1, htest.2.2⟩

end P2pSystem

end PulsarVerifier
