import PulsarVerifier.P2p.Outbound
import PulsarVerifier.P2p.Wire

/-!
# What ends the worker

The worker passes on every error of the driver that it does not handle itself, and so ends.  `Benign` are the steps in
which the network lets the driver send what the worker asks for; in a run of such steps the worker ends only when it is
stopped or when the driver is gone.  A response that the requesting peer no longer waits for, and a full gossip queue,
end it as well.
-/

namespace PulsarVerifier

/-- The network takes what `command` sends: a response goes to a peer that still waits for it, and a publish of a
running driver fails only in ways that the driver ignores. -/
def NetworkOutcome.serves (net : NetworkOutcome) (running : Bool) : DriverCommand → Bool
  | .respondProof _ _ => net.sendResponse
  | .announce _ =>
    !running ||
      match net.publish with
      | .ok () | .error .noPeersSubscribedToTopic | .error .duplicate => true
      | .error _ => false
  | .queryAvailability _ =>
    !running ||
      match net.publish with
      | .ok () | .error .noPeersSubscribedToTopic => true
      | .error _ => false
  | _ => true

namespace P2pSystem

/-- The driver takes a command only when the network serves it. -/
def Benign (s : P2pSystem) : P2pAction → Prop
  | .driverCommand net => s.mailbox.head?.all (fun entry => net.serves s.driver.isRunning entry.2) = true
  | _ => True

instance (s : P2pSystem) (a : P2pAction) : Decidable (s.Benign a) :=
  match a with
  | .driverCommand net =>
    inferInstanceAs (Decidable (s.mailbox.head?.all (fun entry => net.serves s.driver.isRunning entry.2) = true))
  | .operation _ | .publish _ | .tick _ | .requestStop | .submit _ _ | .swarmEvent _ | .delayedResponse _
  | .expireQueries | .emit _ | .workerFlush | .workerSelect _ | .workerSend | .workerReply _ _ _ | .workerStore _ =>
    .isTrue trivial

/-- The worker has not ended, or it was stopped, or the driver is gone. -/
structure EndsProperly (s : P2pSystem) : Prop where
  stopped : s.worker.control = .returned (.ok ()) → s.stopRequested = true
  failed : ∀ error, s.worker.control = .returned (.error error) →
    error = .p2pDriverClosed ∧ s.driverResult.isSome = true
  panicked : ∀ message, s.worker.control ≠ .panicked message

end P2pSystem

/-! ### Where a handler leaves the worker -/

/-- The worker has not ended; it neither waits for a reply nor has the result of a download. -/
def Control.Going : Control → Prop
  | .idle | .sending _ _ => True
  | .store (.attached _ _ _ _) => False
  | .store _ => True
  | .waiting _ | .returned _ | .panicked _ => False

namespace Worker

variable {w w' : Worker} {rest : List VerificationId} {id : VerificationId}

theorem Driven.going (h : w.Driven rest) : w.control.Going := h.on trivial (fun _ _ => trivial) fun _ _ _ => trivial

theorem ReplyMove.going {call : DriverCall} {reply : Except Error Reply} (h : w.ReplyMove call reply w') :
    w'.control.Going ∨ ∃ error, reply = .error error ∧ ¬ call.Absorbs error ∧ w' = w.fail error :=
  h.on (P := (·.Going ∨ ∃ error, reply = .error error ∧ ¬ call.Absorbs error ∧ w' = w.fail error))
    (fun h => .inl h.going) (.inl trivial) (fun _ _ _ => .inl trivial) (.inl trivial) (fun _ _ _ => .inl trivial)
    (fun _ _ => .inl trivial) (fun _ _ _ _ _ _ _ _ _ => .inl trivial)
    fun error hreply habsorbs hfail => .inr ⟨error, hreply, habsorbs, hfail⟩

theorem EventMove.going {draining : Bool} {event : DriverEvent} (h : w.EventMove draining event w')
    (hcounted : w.ledger.Counted) : w'.control.Going := by
  refine h.on (fun h => h.going) (fun hnot => absurd hcounted hnot) fun access haccess => ?_
  cases access with
  | attached requestId peer id stored => exact absurd rfl (haccess requestId peer id stored)
  | _ => trivial

theorem going_handleStoreEvent {event : ProofStoreEvent} : (w.handleStoreEvent false event).control.Going := by
  unfold handleStoreEvent
  rw [if_neg Bool.false_ne_true]
  cases event with
  | verificationChanged id state => exact driven_drivePending.going
  | _ => trivial

end Worker

/-! ### Errors of the driver -/

namespace Driver

variable (d : Driver) {net : NetworkOutcome} {id : VerificationId} {error : Error}

theorem announce_ok (hserves : net.serves d.isRunning (.announce id) = true) : (d.announce net id).1 = .ok () := by
  unfold announce
  dsimp only
  split
  · rfl
  · rename_i hrunning
    change ¬ (!d.isRunning) = true at hrunning
    rw [Bool.not_eq_true] at hrunning
    simp only [NetworkOutcome.serves, hrunning, Bool.false_or] at hserves
    cases hpublish : net.publish with
    | ok => rfl
    | error error =>
      rw [hpublish] at hserves
      cases error with
      | noPeersSubscribedToTopic | duplicate => rfl
      | _ => cases hserves

theorem queryAvailability_error (hserves : net.serves d.isRunning (.queryAvailability id) = true)
    (h : (d.queryAvailability net id).1 = .error error) : error = .p2pDraining := by
  unfold queryAvailability at h
  dsimp only at h
  split at h
  · cases h
    rfl
  · rename_i hrunning
    rw [Bool.not_eq_true] at hrunning
    simp only [NetworkOutcome.serves, hrunning, Bool.false_or] at hserves
    split at hserves
    · rename_i hpublish
      rw [hpublish] at h
      cases h
    · rename_i hpublish
      rw [hpublish] at h
      cases h
    · cases hserves

theorem requestProof_error {peer : PeerId} (h : (d.requestProof net peer id).1 = .error error) :
    error = .p2pDraining ∨ (∃ message, error = .p2pAuthorization message) ∨ (peer, id) ∈ d.inFlight := by
  unfold requestProof at h
  split_ifs at h with hrunning hauthorized hinFlight
  · cases h
    exact .inl rfl
  · exact .inr (.inr hinFlight)
  · cases h
    exact .inr (.inl ⟨_, rfl⟩)

theorem respondProof_ok [Sha256] {requestId : InboundProofRequestId} {proof : Option Proof}
    {request : InboundProofRequest} (hlookup : d.inboundRequests.lookup requestId = some request)
    (hproof : ∀ p ∈ proof, p.encodedLen ≤ d.config.maxProofBytes ∧ p.verificationId = request.verificationId)
    (hserves : net.serves d.isRunning (.respondProof requestId proof) = true) :
    (d.respondProof net requestId proof).1 = .ok () := by
  have hsend : net.sendResponse = true := hserves
  have hresponse : ∃ response, d.proofResponse request proof = .ok response := by
    cases proof with
    | none => exact ⟨_, rfl⟩
    | some p => exact ⟨_, (proofResponse_some d).2 ⟨(hproof p rfl).1, (hproof p rfl).2, rfl⟩⟩
  obtain ⟨response, hresponse⟩ := hresponse
  unfold respondProof
  rw [hlookup]
  dsimp only
  rw [hresponse, if_pos hsend]
  rfl

end Driver

namespace P2pSystem

variable {s t : P2pSystem}

section

variable [Sha256]

theorem absorbs_reply (hp : s.Protocol) (hinbound : s.Inbound) (houtbound : s.Outbound) (net : NetworkOutcome)
    {call : DriverCall} {command : DriverCommand} {rest : List (Caller × DriverCommand)} {error : Error}
    (hmailbox : s.mailbox = (.worker, command) :: rest) (hcontrol : s.worker.control = .waiting call)
    (hreply : s.reply = none) (hsends : call.Sends command) (hserves : net.serves s.driver.isRunning command = true)
    (hresult : (s.driver.handleCommand net .worker command).2 = [(.worker, .error error)]) : call.Absorbs error := by
  cases command with
  | replaceAuthorizedPeers | drain => cases hsends.not_ofClient
  | forgetLocalProof | replaceLocalProofs | providers => cases hresult
  | announce id =>
    have herror : (s.driver.announce net id).1 = .error error :=
      error_of_map (congrArg Prod.snd (List.cons.inj hresult).1)
    rw [s.driver.announce_ok hserves] at herror
    cases herror
  | queryAvailability id =>
    have herror : (s.driver.queryAvailability net id).1 = .error error :=
      error_of_map (congrArg Prod.snd (List.cons.inj hresult).1)
    obtain rfl := s.driver.queryAvailability_error hserves herror
    cases call with
    | queryAvailability => trivial
    | _ => cases hsends
  | requestProof peer id =>
    have herror : (s.driver.requestProof net peer id).1 = .error error :=
      error_of_map (congrArg Prod.snd (List.cons.inj hresult).1)
    cases call with
    | requestProof id' peer' rest' =>
      obtain ⟨rfl, rfl⟩ := hsends
      rcases s.driver.requestProof_error herror with rfl | ⟨message, rfl⟩ | hinFlight
      · trivial
      · trivial
      · -- the retrieval that asks has no request, so none of its requests is in flight
        obtain ⟨k, request, hlookup, -, hid⟩ := houtbound.inFlight _ _ hinFlight
        exact absurd hid (houtbound.not_requested hp hcontrol hreply rfl hlookup)
    | _ => cases hsends
  | respondProof requestId proof =>
    have herror : (s.driver.respondProof net requestId proof).1 = .error error :=
      error_of_map (congrArg Prod.snd (List.cons.inj hresult).1)
    have hmem : (requestId, proof) ∈ s.responses := by
      refine List.mem_append_left _ (List.mem_filterMap.2 ⟨.respondProof requestId proof, ?_, rfl⟩)
      unfold workerCommands
      rw [hmailbox]
      exact List.mem_filterMap.2 ⟨_, List.mem_cons_self, rfl⟩
    obtain ⟨request, hlookup, hproof⟩ := hinbound.matching requestId proof hmem
    rw [s.driver.respondProof_ok hlookup hproof hserves] at herror
    cases herror

/-! ### The invariant -/

/-- What keeps the worker from ending: it drains only after a stop, a download ends in one of the ways that it expects,
and a reply is one that it takes. -/
structure Resilient (s : P2pSystem) : Prop extends EndsProperly s where
  draining : s.mode.draining = true → s.stopRequested = true
  stored : ∀ requestId peer id error, s.worker.control = .store (.attached requestId peer id (.error error)) →
    (∃ id', error = .verificationIdMismatch id') ∨ (∃ id' n m, error = .proofTooLarge id' n m) ∨
      ∃ id', error = .proofNotObserved id'
  replied : ∀ call error, s.worker.control = .waiting call → s.reply = some (.error error) →
    call.Absorbs error ∨ (error = .p2pDriverClosed ∧ s.driverResult.isSome = true)

omit [Sha256] in
private theorem Resilient.of_going (hgoing : t.worker.control.Going)
    (hdraining : t.mode.draining = true → t.stopRequested = true) : t.Resilient where
  stopped hcontrol := by rw [hcontrol] at hgoing; exact hgoing.elim
  failed error hcontrol := by rw [hcontrol] at hgoing; exact hgoing.elim
  panicked message hcontrol := by rw [hcontrol] at hgoing; exact hgoing.elim
  draining := hdraining
  stored requestId peer id error hcontrol := by rw [hcontrol] at hgoing; exact hgoing.elim
  replied call error hcontrol := by rw [hcontrol] at hgoing; exact hgoing.elim

omit [Sha256] in
private theorem Resilient.of_closed {w : Worker} (hcontrol : t.worker.control = (w.fail .p2pDriverClosed).control)
    (hresult : t.driverResult.isSome = true) (hdraining : t.mode.draining = true → t.stopRequested = true) :
    t.Resilient where
  stopped h := by rw [hcontrol] at h; cases h
  failed error h := by rw [hcontrol] at h; cases h; exact ⟨rfl, hresult⟩
  panicked message h := by rw [hcontrol] at h; cases h
  draining := hdraining
  stored requestId peer id error h := by rw [hcontrol] at h; cases h
  replied call error h := by rw [hcontrol] at h; cases h

omit [Sha256] in
private theorem Resilient.of_waiting {call : DriverCall} (hcontrol : t.worker.control = .waiting call)
    (hdraining : t.mode.draining = true → t.stopRequested = true)
    (hreply : ∀ error, t.reply = some (.error error) →
      call.Absorbs error ∨ (error = .p2pDriverClosed ∧ t.driverResult.isSome = true)) : t.Resilient where
  stopped h := by rw [hcontrol] at h; cases h
  failed error h := by rw [hcontrol] at h; cases h
  panicked message h := by rw [hcontrol] at h; cases h
  draining := hdraining
  stored requestId peer id error h := by rw [hcontrol] at h; cases h
  replied call' error h := by rw [hcontrol] at h; cases h; exact hreply error

omit [Sha256] in
private theorem Resilient.of_other (h : s.Resilient) (hworker : t.worker = s.worker) (hreply : t.reply = s.reply)
    (hmode : t.mode = s.mode) (hstop : t.stopRequested = s.stopRequested) (hresult : t.driverResult = s.driverResult) :
    t.Resilient where
  stopped := by rw [hworker, hstop]; exact h.stopped
  failed := by rw [hworker, hresult]; exact h.failed
  panicked := by rw [hworker]; exact h.panicked
  draining := by rw [hmode, hstop]; exact h.draining
  stored := by rw [hworker]; exact h.stored
  replied := by rw [hworker, hreply, hresult]; exact h.replied

theorem Resilient.step [AvailabilityWire] {a : P2pAction} (h : s.Resilient) (hp : s.Protocol)
    (hcounted : s.worker.ledger.Counted) (hinbound : s.driverResult = none → s.Inbound)
    (houtbound : s.driverResult = none → s.Outbound) (hbenign : s.Benign a) (hstep : P2pStep s a t) : t.Resilient := by
  have hround : ∀ u : P2pSystem, u.driver.state ≠ .draining .worker → u.worker = s.worker → u.reply = s.reply →
      u.mode = s.mode → u.stopRequested = s.stopRequested → u.driverResult = s.driverResult →
      u.finishRound.Resilient := by
    intro u hdrain hworker hreply hmode hstop hresult
    obtain ⟨state, answers, hu, -⟩ := finishRound_eq hdrain
    rw [hu]
    exact h.of_other hworker hreply hmode hstop hresult
  cases hstep with
  | operation | evict | publish | tick | submit | workerFlush | swarmEmit => exact { h with }
  | requestStop => exact { h with stopped := fun _ => rfl, draining := fun _ => rfl }
  | swarmError =>
    exact { h with
      failed := fun error hcontrol => ⟨(h.failed error hcontrol).1, rfl⟩
      replied := fun call error hcontrol hreply => (h.replied call error hcontrol hreply).imp_right
        (fun hc => ⟨hc.1, rfl⟩) }
  | driverCommand net caller command rest hmailbox hfree hid t ht =>
    have hresult := (driverFree_iff.1 hfree).2
    cases hp.commandRound { net with now := s.now } hmailbox hresult ht with
    | worker call _ reply state answers hcontrol hreply hsends hreplies =>
      refine { h with replied := fun call' error hcall herror => ?_ }
      cases herror
      obtain rfl : call = call' := Control.waiting.inj (hcontrol.symm.trans hcall)
      have hserves : net.serves s.driver.isRunning command = true := by
        have hhead : s.mailbox.head? = some (.worker, command) := by rw [hmailbox]; rfl
        simpa only [Benign, hhead, Option.all_some] using hbenign
      exact .inl (absorbs_reply hp (hinbound hresult) (houtbound hresult) { net with now := s.now } hmailbox hcontrol
        hreply hsends hserves hreplies)
    | client => exact { h with }
  | swarmQuiet event driver hfree hremote hmove =>
    exact hround _ (by rw [s.driver.handleSwarmEvent_state hmove]; exact hp.drain) rfl rfl rfl rfl rfl
  | delayedResponse | expireQueries => exact hround _ hp.drain rfl rfl rfl rfl rfl
  | emitDropped net event hemitting hended driver hdriver =>
    have hstate : driver.state = s.driver.state := by
      rcases hdriver with ⟨rfl, -⟩ | ⟨requestId, peer, id, -, rfl⟩
      · rfl
      · exact s.driver.respondProof_state _ _ _
    exact hround _ (by rw [hstate]; exact hp.drain) rfl rfl rfl rfl rfl
  | emitSent => exact hround _ hp.drain rfl rfl rfl rfl rfl
  | selectTurn pick mode hidle houtbox hdraining | drainStoreEvent result receiver hidle hdraining =>
    exact { h with draining := fun _ => h.draining hdraining }
  | selectStop hidle hmode houtbox hstop =>
    refine .of_going ?_ (fun _ => hstop)
    change s.worker.control.Going
    rw [hidle]
    trivial
  | selectDriverEvent mode event rest hidle houtbox hevents hmode =>
    exact .of_going ((s.worker.handleDriverEvent_move s.now mode.draining event).going hcounted)
      (fun hdraining => h.draining (hmode ▸ hdraining))
  | selectDriverClosed hidle hdriver => exact .of_closed rfl hdriver h.draining
  | selectStoreEvent notice receiver =>
    obtain ⟨handled, expired, htaken⟩ := recordTaken_frame { s with receiver } notice
    rw [htaken]
    exact .of_going Worker.going_handleStoreEvent h.draining
  | selectLagged => exact .of_going trivial h.draining
  | selectWake => exact .of_going Worker.driven_handleWake.going h.draining
  | drained hidle hdraining =>
    exact
      { stopped := fun _ => h.draining hdraining
        failed := (fun _ hcontrol => nomatch hcontrol)
        panicked := (fun _ hcontrol => nomatch hcontrol)
        draining := h.draining
        stored := (fun _ _ _ _ hcontrol => nomatch hcontrol)
        replied := (fun _ _ hcontrol => nomatch hcontrol) }
  | sendClosed command call hcontrol hdriver =>
    refine .of_waiting rfl h.draining fun error herror => ?_
    cases herror
    exact .inr ⟨rfl, hdriver⟩
  | send command call hcontrol hdriver =>
    have hreply : s.reply = none := by
      by_contra hne
      obtain ⟨call', hcall⟩ := hp.replied (Option.isSome_iff_ne_none.2 hne)
      rw [hcontrol] at hcall
      cases hcall
    refine .of_waiting rfl h.draining fun error herror => ?_
    change s.reply = _ at herror
    rw [hreply] at herror
    cases herror
  | reply choice delay elapsed call reply worker hcontrol hreply hresume =>
    rcases (Worker.resumeCall_move hresume).going with hgoing | ⟨error, rfl, hfailed, rfl⟩
    · exact .of_going hgoing h.draining
    · -- the error is not one that the worker absorbs, so it says that the driver is gone
      have hclosed : error = .p2pDriverClosed ∧ s.driverResult.isSome = true := by
        unfold replyToWorker at hreply
        split at hreply
        · rename_i reply hsome
          cases hreply
          exact (h.replied call error hcontrol hsome).resolve_left hfailed
        · split_ifs at hreply with hgone
          cases hreply
          exact ⟨rfl, hgone⟩
      obtain ⟨rfl, hgone⟩ := hclosed
      exact .of_closed (w := s.worker) rfl hgone h.draining
  | getProof => exact .of_going trivial h.draining
  | attach snapshot requestId peer id proof hcontrol =>
    exact
      { stopped := (fun hcontrol => nomatch hcontrol)
        failed := (fun _ hcontrol => nomatch hcontrol)
        panicked := (fun _ hcontrol => nomatch hcontrol)
        draining := h.draining
        stored := fun requestId' peer' id' error hstored => by
          injection hstored with hstored
          injection hstored with _ _ _ hstored
          rcases s.stores.store.attachDownloadedProof_cases s.now id proof peer with
            ⟨-, hlarge | hmismatch⟩ | ⟨-, hobserved, -⟩ | ⟨-, hok, -⟩ | ⟨r, -, hok⟩
          · cases hlarge.symm.trans hstored
            exact .inr (.inl ⟨_, _, _, rfl⟩)
          · cases hmismatch.symm.trans hstored
            exact .inl ⟨_, rfl⟩
          · cases hobserved.symm.trans hstored
            exact .inr (.inr ⟨_, rfl⟩)
          · cases hok.symm.trans hstored
          · cases hok.symm.trans hstored
        replied := (fun _ _ hcontrol => nomatch hcontrol) }
  | attached snapshot requestId peer id stored hcontrol =>
    rcases s.worker.resumeAttached_move requestId peer id stored s.now s.mode.draining with
      ⟨succeeded, hmove, -⟩ | ⟨error, rfl, -, hmismatch, hlarge, hobserved⟩
    · exact .of_going (hmove.driven hcounted).going h.draining
    · rcases h.stored requestId peer id error hcontrol with ⟨id', rfl⟩ | ⟨id', n, m, rfl⟩ | ⟨id', rfl⟩
      · exact absurd rfl (hmismatch id')
      · exact absurd rfl (hlarge id' n m)
      · exact absurd rfl (hobserved id')
  | localSnapshot => exact .of_going trivial h.draining
  | waitingSnapshot => exact .of_going Worker.driven_resumeWaiting.going h.draining
  | get => exact .of_going Worker.driven_resumeGet.going h.draining

/-- The invariants of a service under benign steps. -/
structure Healthy (s : P2pSystem) : Prop where
  protocol : s.Protocol
  fits : s.ContentFits
  counted : s.worker.ledger.Counted
  inbound : s.driverResult = none → s.Inbound
  outbound : s.driverResult = none → s.Outbound
  resilient : s.Resilient

theorem Healthy.step [AvailabilityWire] {a : P2pAction} (h : s.Healthy) (hbenign : s.Benign a) (hstep : P2pStep s a t) :
    t.Healthy where
  protocol := h.protocol.step hstep
  fits := h.fits.step hstep
  counted := counted_step h.protocol h.counted hstep
  inbound hresult := (h.inbound (hstep.driverResult hresult)).step h.protocol h.fits hstep hresult
  outbound hresult := (h.outbound (hstep.driverResult hresult)).step h.protocol hstep hresult
  resilient := h.resilient.step h.protocol h.counted h.inbound h.outbound hbenign hstep

theorem healthy_initial {storeConfig : ProofStoreConfig} {store : ProofStore} {config : P2pConfig}
    {localPeerId : PeerId} {validators : Finset PeerId} {listeners : Finset Nat} {capacity : Nat}
    (hstore : ProofStore.new storeConfig = .ok store) (hlimit : storeConfig.maxProofBytes ≤ config.maxProofBytes) :
    (initial store config localPeerId validators listeners capacity).Healthy where
  protocol := protocol_initial
  fits :=
    { wellFormed := fun id e he => by
        rw [initial, ProofStore.new_get hstore] at he
        cases he
      limit := by
        change store.maxProofBytes ≤ config.maxProofBytes
        rw [ProofStore.new_eq_ok hstore]
        exact hlimit }
  counted := ⟨∅, fun id => by simp [Ledger.active, Worker.ledger_jobs, initial, Worker.new, Worker.entry], rfl⟩
  inbound _ :=
    { bound := fun requestId hsome => by simp [initial, Driver.build] at hsome
      nodup := List.nodup_nil
      known := (fun _ _ hmem => nomatch hmem)
      matching := (fun _ _ hmem => nomatch hmem) }
  outbound _ := outbound_initial
  resilient := .of_going trivial (fun hdraining => nomatch hdraining)

/-- In a run of benign steps, whatever events the driver emits and in whatever order, the worker ends only when it was
stopped or when the driver is gone. -/
theorem run_endsProperly [AvailabilityWire] (storeConfig : ProofStoreConfig) (store : ProofStore) (config : P2pConfig)
    (localPeerId : PeerId) (validators : Finset PeerId) (listeners : Finset Nat) (capacity : Nat)
    (hstore : ProofStore.new storeConfig = .ok store) (hlimit : storeConfig.maxProofBytes ≤ config.maxProofBytes)
    {s : P2pSystem} (h : ((lts store config localPeerId validators listeners capacity).restrict Benign).Reachable s) :
    s.EndsProperly := by
  have hhealthy : s.Healthy := by
    refine h.invariant (P := Healthy) ?_ ?_
    · rintro s rfl
      exact healthy_initial hstore hlimit
    · rintro s a t - hs ⟨hstep, hbenign⟩
      exact hs.step hbenign (next_step hstep)
  exact hhealthy.resilient.toEndsProperly

end

/-! ### A service that is stopped, and two that are not -/

/-- A peer asks for the proof, and the worker answers. -/
private def serve [Sha256] (net : NetworkOutcome) : List P2pAction :=
  [.swarmEvent (.proofRequest .there "pulsar-1" (Proof.verificationId .small).bytes.1), .emit .calm,
    .workerSelect .driverEvent, .workerStore []] ++ exchange net

/-- The worker stores a proof, serves it to a peer, and returns when it is stopped. -/
theorem run_endsProperly_stopped :
    letI := Sha256.standard
    letI := AvailabilityWire.standard
    ∃ s, ((lts .small .small .here {.here, .there} {0} 16).restrict Benign).Reachable s ∧
      s.worker.ended = true ∧ s.EndsProperly := by
  let _ := Sha256.standard
  let _ := AvailabilityWire.standard
  have hexec : (Lts.exec (Lts.guarded next Benign) (initial .small .small .here {.here, .there} {0} 16)
      (reconcile ++ announce .small .calm ++ serve .calm ++
        [.requestStop, .workerSelect .stop, .workerSelect .driverEvent, .workerSelect .storeEvent])).any
      (fun s => s.worker.ended) = true := by
    decide +kernel
  obtain ⟨s, hs, hended⟩ := (Option.any_eq_true _ _).1 hexec
  have hreach : ((lts .small .small .here {.here, .there} {0} 16).restrict Benign).Reachable s :=
    ⟨_, _, rfl, Lts.run_restrict_of_exec hs⟩
  exact ⟨s, hreach, hended, run_endsProperly .small .small .small .here {.here, .there} {0} 16 rfl le_rfl hreach⟩

/-- The worker has returned `error`, and nobody has stopped it or the driver. -/
private def failedWith (error : Error) (s : P2pSystem) : Bool :=
  match s.worker.control with
  | .returned (.error e) => decide (e = error) && s.driverResult.isNone && !s.stopRequested
  | _ => false

private theorem failedWith_iff {error : Error} (h : failedWith error s = true) :
    s.worker.control = .returned (.error error) ∧ s.driverResult = none ∧ s.stopRequested = false := by
  unfold failedWith at h
  split at h
  · rename_i hcontrol
    simp only [Bool.and_eq_true, decide_eq_true_eq, Option.isNone_iff_eq_none, Bool.not_eq_true'] at h
    exact ⟨by rw [hcontrol, h.1.1], h.1.2, h.2⟩
  · cases h

/-- A peer that no longer waits for the response it asked for ends the worker, and so does a full gossip queue when a
proof is announced. -/
theorem worker_ends_by_network :
    letI := Sha256.standard
    letI := AvailabilityWire.standard
    (∃ s, (lts .small .small .here {.here, .there} {0} 16).Reachable s ∧
      s.worker.control = .returned (.error (.p2pDriver "failed to respond to 15T")) ∧
      s.driverResult = none ∧ s.stopRequested = false) ∧
    ∃ s, (lts .small .small .here {.here, .there} {0} 16).Reachable s ∧
      s.worker.control = .returned (.error (.p2pDriver "failed to publish announcement: AllQueuesFull(1)")) ∧
      s.driverResult = none ∧ s.stopRequested = false := by
  let _ := Sha256.standard
  let _ := AvailabilityWire.standard
  have hrespond : (Lts.exec next (initial .small .small .here {.here, .there} {0} 16)
      (reconcile ++ serve { NetworkOutcome.calm with sendResponse := false })).any
      (failedWith (.p2pDriver "failed to respond to 15T")) = true := by
    decide +kernel
  have hannounce : (Lts.exec next (initial .small .small .here {.here, .there} {0} 16)
      (reconcile ++ announce .small { NetworkOutcome.calm with publish := .error (.allQueuesFull 1) })).any
      (failedWith (.p2pDriver "failed to publish announcement: AllQueuesFull(1)")) = true := by
    decide +kernel
  obtain ⟨s, hs, hfailed⟩ := (Option.any_eq_true _ _).1 hrespond
  obtain ⟨t, ht, hfailed'⟩ := (Option.any_eq_true _ _).1 hannounce
  exact ⟨⟨s, ⟨_, _, rfl, Lts.run_of_exec hs⟩, failedWith_iff hfailed⟩,
    t, ⟨_, _, rfl, Lts.run_of_exec ht⟩, failedWith_iff hfailed'⟩

end P2pSystem

end PulsarVerifier
