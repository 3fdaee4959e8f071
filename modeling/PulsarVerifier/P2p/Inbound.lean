import PulsarVerifier.P2p.Protocol
import PulsarVerifier.Store.Invariant

/-!
# Inbound proof requests

An inbound request passes from the driver through the event channel to the worker, and comes back as a response.  While
the driver is there, every request between the two is known to the driver, and gets content that it accepts
(`Inbound`).
-/

namespace PulsarVerifier

/-! ### Where requests are while the worker handles them -/

def DriverCommand.responded : DriverCommand → Option (InboundProofRequestId × Option Proof)
  | .respondProof requestId proof => some (requestId, proof)
  | _ => none

namespace Control

/-- The inbound request that the worker looks up. -/
def requests : Control → List (InboundProofRequestId × VerificationId)
  | .store (.getProof requestId id) => [(requestId, id)]
  | _ => []

/-- The response that the worker is about to send. -/
def responses : Control → List (InboundProofRequestId × Option Proof)
  | .sending (.respondProof requestId proof) _ => [(requestId, proof)]
  | _ => []

/-- The outbound request whose answer the worker handles. -/
def answers : Control → List ProofRequestId
  | .store (.attachDownloadedProof requestId _ _ _) | .store (.attached requestId _ _ _) => [requestId]
  | _ => []

def NoInbound (control : Control) : Prop := control.requests = [] ∧ control.responses = []

def Plain (control : Control) : Prop := control.requests = [] ∧ control.responses = [] ∧ control.answers = []

theorem Plain.noInbound {control : Control} (h : control.Plain) : control.NoInbound := ⟨h.1, h.2.1⟩

end Control

namespace Worker

variable {w w' : Worker} {rest : List VerificationId} {id : VerificationId}

theorem Driven.plain (h : w.Driven rest) : w.control.Plain :=
  h.on ⟨rfl, rfl, rfl⟩ (fun _ _ => ⟨rfl, rfl, rfl⟩) fun _ _ _ => ⟨rfl, rfl, rfl⟩

theorem ReplyMove.plain {call : DriverCall} {reply : Except Error Reply} (h : w.ReplyMove call reply w') :
    w'.control.Plain :=
  h.on (fun h => h.plain) ⟨rfl, rfl, rfl⟩ (fun _ _ _ => ⟨rfl, rfl, rfl⟩) ⟨rfl, rfl, rfl⟩
    (fun _ _ _ => ⟨rfl, rfl, rfl⟩) (fun _ _ => ⟨rfl, rfl, rfl⟩) (fun _ _ _ _ _ _ _ _ _ => ⟨rfl, rfl, rfl⟩)
    fun _ _ _ _ => ⟨rfl, rfl, rfl⟩

theorem FinishMove.plain {request : ProofRequestId × PeerId} {succeeded : Bool}
    (h : w.FinishMove id request succeeded w') : w'.control.Plain := by
  rcases h.landed with hdriven | ⟨message, rfl, -⟩
  · exact hdriven.plain
  · exact ⟨rfl, rfl, rfl⟩

theorem plain_resumeAttached {requestId : ProofRequestId} {peer : PeerId} {stored : Except Error StoreChange}
    {now : Instant} {draining : Bool} : (w.resumeAttached requestId peer id stored now draining).control.Plain :=
  resumeAttached_on (fun h => h.plain) (fun _ => ⟨rfl, rfl, rfl⟩) fun _ => ⟨rfl, rfl, rfl⟩

theorem plain_handleStoreEvent {event : ProofStoreEvent} : (w.handleStoreEvent false event).control.Plain := by
  unfold handleStoreEvent
  rw [if_neg Bool.false_ne_true]
  cases event with
  | verificationChanged id state => exact driven_drivePending.plain
  | _ => exact ⟨rfl, rfl, rfl⟩

theorem EventMove.requests {draining : Bool} {event : DriverEvent} (h : w.EventMove draining event w') :
    w'.control.requests = event.requested.toList ∧ w'.control.responses = [] := by
  cases h with
  | requested | received | announced | reconcile => exact ⟨rfl, rfl⟩
  | finished _ _ _ _ _ _ hrequested hmove =>
    rw [hrequested]
    exact ⟨hmove.plain.1, hmove.plain.2.1⟩
  | driven _ _ _ hrequested _ hdriven =>
    rw [hrequested]
    exact ⟨hdriven.plain.1, hdriven.plain.2.1⟩

theorem EventMove.answers {draining : Bool} {event : DriverEvent} (h : w.EventMove draining event w') :
    w'.control.answers ⊆ (event.answered.map (·.1)).toList := by
  cases h with
  | requested => exact List.nil_subset _
  | received => exact List.Subset.refl _
  | announced | reconcile => exact List.nil_subset _
  | finished _ _ _ _ _ _ _ hmove =>
    rw [hmove.plain.2.2]
    exact List.nil_subset _
  | driven _ _ _ _ _ hdriven =>
    rw [hdriven.plain.2.2]
    exact List.nil_subset _

end Worker

theorem SwarmMove.inbound {d d' : Driver} {event : SwarmEvent} {emitted : Option DriverEvent}
    (h : SwarmMove d event d' emitted) :
    (d'.inboundRequests = d.inboundRequests ∧ d'.nextInboundRequestId = d.nextInboundRequestId ∧
      emitted.toList.filterMap DriverEvent.requested = []) ∨
    ∃ peer id, d'.inboundRequests = d.inboundRequests.insert d.nextInboundRequestId ⟨peer, id⟩ ∧
      d'.nextInboundRequestId = d.nextInboundRequestId + 1 ∧
      emitted = some (.proofRequested d.nextInboundRequestId peer id) := by
  have hnone : ∀ emitted : Option DriverEvent, (∀ e ∈ emitted, e.requested = none) →
      emitted.toList.filterMap DriverEvent.requested = [] := by
    intro emitted hall
    cases emitted with
    | none => rfl
    | some e => simp [hall e rfl]
  cases h with
  | quiet | connected | announced | queried => exact .inl ⟨rfl, rfl, rfl⟩
  | requested event peer id => exact .inr ⟨peer, id, rfl, rfl, rfl⟩
  | listening _ _ _ _ _ hemitted =>
    refine .inl ⟨rfl, rfl, hnone _ (fun e he => ?_)⟩
    obtain ⟨-, address, rfl⟩ := hemitted e he
    rfl
  | disconnected _ _ _ hemitted =>
    refine .inl ⟨rfl, rfl, hnone _ (fun e he => ?_)⟩
    obtain ⟨-, rfl⟩ := hemitted e he
    rfl
  | responded _ _ _ _ _ _ _ hemitted =>
    refine .inl ⟨rfl, rfl, hnone _ (fun e he => ?_)⟩
    rw [hemitted e he]
    rfl
  | answered _ _ _ _ emitted _ _ _ hanswered =>
    refine .inl ⟨rfl, rfl, hnone _ (fun e he => ?_)⟩
    cases he
    cases emitted with
    | proofRequested => cases hanswered
    | _ => rfl

theorem Driver.handleCommand_inbound [Sha256] (d : Driver) (net : NetworkOutcome) (caller : Caller)
    (command : DriverCommand) :
    (d.handleCommand net caller command).1.nextInboundRequestId = d.nextInboundRequestId ∧
    ∀ requestId, (d.handleCommand net caller command).1.inboundRequests.lookup requestId =
      if requestId ∈ command.responded.map (·.1) then none else d.inboundRequests.lookup requestId := by
  rcases h : d.handleCommand net caller command with ⟨d', replies⟩
  cases d.handleCommand_move net h with
  | answered _ _ _ _ hrespond =>
    refine ⟨rfl, fun requestId => ?_⟩
    cases command with
    | respondProof requestId proof => exact absurd rfl (hrespond requestId proof)
    | _ => simp [DriverCommand.responded]
  | responded requestId proof =>
    refine ⟨rfl, fun k => ?_⟩
    by_cases hk : k = requestId
    · subst hk
      simp [DriverCommand.responded]
    · simp [Ne.symm hk, DriverCommand.responded, AList.lookup_erase_ne hk]
  | replaced => exact ⟨rfl, fun _ => by simp [DriverCommand.responded, replaceAuthorizedPeers]⟩
  | drain => exact ⟨rfl, fun _ => by simp [DriverCommand.responded, beginDrain]⟩
  | _ => exact ⟨rfl, fun _ => by simp [DriverCommand.responded]⟩

namespace P2pSystem

variable [Sha256] {s t : P2pSystem}

/-! ### Inbound requests -/

/-- The responses on their way from the worker to the driver. -/
def responses (s : P2pSystem) : List (InboundProofRequestId × Option Proof) :=
  s.workerCommands.filterMap DriverCommand.responded ++ s.worker.control.responses

/-- The inbound requests on their way from the driver into the worker. -/
def requests (s : P2pSystem) : List (InboundProofRequestId × VerificationId) :=
  s.worker.control.requests ++ s.events.filterMap DriverEvent.requested ++
    s.emitting.toList.filterMap DriverEvent.requested

/-- Every inbound request between the driver and the worker is known to the driver, is there only once, and gets
content that the driver accepts. -/
structure Inbound (s : P2pSystem) : Prop where
  bound : ∀ requestId, (s.driver.inboundRequests.lookup requestId).isSome → requestId < s.driver.nextInboundRequestId
  nodup : (s.responses.map (·.1) ++ s.requests.map (·.1)).Nodup
  known : ∀ requestId id, (requestId, id) ∈ s.requests →
    ∃ peer, s.driver.inboundRequests.lookup requestId = some ⟨peer, id⟩
  matching : ∀ requestId proof, (requestId, proof) ∈ s.responses →
    ∃ request, s.driver.inboundRequests.lookup requestId = some request ∧
      ∀ p ∈ proof, p.encodedLen ≤ s.driver.config.maxProofBytes ∧ p.verificationId = request.verificationId

theorem Inbound.of_removed (h : s.Inbound) (removed : Option InboundProofRequestId)
    (hnode : t.driver.node = s.driver.node) (hnext : t.driver.nextInboundRequestId = s.driver.nextInboundRequestId)
    (hlookup : ∀ k, t.driver.inboundRequests.lookup k =
      if k ∈ removed then none else s.driver.inboundRequests.lookup k)
    (hids : (s.responses.map (·.1) ++ s.requests.map (·.1)).Perm
      (removed.toList ++ (t.responses.map (·.1) ++ t.requests.map (·.1))))
    (hresponses : t.responses ⊆ s.responses) (hrequests : t.requests ⊆ s.requests) : t.Inbound := by
  have hconfig : t.driver.config = s.driver.config := congrArg Prod.fst hnode
  have hnodup := hids.nodup_iff.1 h.nodup
  rw [List.nodup_append] at hnodup
  obtain ⟨-, hnodup, hdisjoint⟩ := hnodup
  -- the identifier that leaves occurs nowhere else
  have hother : ∀ requestId ∈ t.responses.map (·.1) ++ t.requests.map (·.1),
      t.driver.inboundRequests.lookup requestId = s.driver.inboundRequests.lookup requestId := by
    intro requestId hmem
    refine (hlookup requestId).trans (if_neg (fun hremoved => ?_))
    exact hdisjoint requestId (Option.mem_toList.2 hremoved) requestId hmem rfl
  refine ⟨fun requestId hsome => ?_, hnodup, fun requestId id hmem => ?_, fun requestId proof hmem => ?_⟩
  · rw [hnext]
    apply h.bound
    rw [hlookup] at hsome
    split_ifs at hsome
    · cases hsome
    · exact hsome
  · rw [hother requestId (List.mem_append_right _ (List.mem_map.2 ⟨_, hmem, rfl⟩))]
    exact h.known requestId id (hrequests hmem)
  · rw [hother requestId (List.mem_append_left _ (List.mem_map.2 ⟨_, hmem, rfl⟩)), hconfig]
    exact h.matching requestId proof (hresponses hmem)

theorem Inbound.of_same (h : s.Inbound) (hnode : t.driver.node = s.driver.node)
    (hinbound : t.driver.inboundRequests = s.driver.inboundRequests)
    (hnext : t.driver.nextInboundRequestId = s.driver.nextInboundRequestId) (hresponses : t.responses = s.responses)
    (hrequests : t.requests = s.requests) : t.Inbound := by
  refine h.of_removed none hnode hnext (fun k => by simp [hinbound]) ?_ ?_ ?_
  · rw [hresponses, hrequests]
    exact List.Perm.refl _
  · rw [hresponses]
    exact List.Subset.refl _
  · rw [hrequests]
    exact List.Subset.refl _

theorem Inbound.of_none (h : s.Inbound) (hplain : s.worker.control.NoInbound)
    (hplain' : t.worker.control.NoInbound) (hdriver : t.driver = s.driver) (hmailbox : t.mailbox = s.mailbox)
    (hevents : t.events = s.events) (hemitting : t.emitting = s.emitting) : t.Inbound := by
  refine h.of_same (by rw [hdriver]) (by rw [hdriver]) (by rw [hdriver]) ?_ ?_
  · unfold responses workerCommands
    rw [hplain.2, hplain'.2, hmailbox]
  · unfold requests
    rw [hplain.1, hplain'.1, hevents, hemitting]

theorem Inbound.round (h : s.Inbound) {driver : Driver} (hnode : driver.node = s.driver.node)
    (hinbound : driver.inboundRequests = s.driver.inboundRequests)
    (hnext : driver.nextInboundRequestId = s.driver.nextInboundRequestId) : { s with driver }.finishRound.Inbound := by
  obtain ⟨state, reply, answers, hround⟩ := finishRound_frame { s with driver }
  rw [hround]
  exact h.of_same hnode hinbound hnext rfl rfl

/-- The driver accepts every proof that the store keeps. -/
structure ContentFits (s : P2pSystem) : Prop where
  wellFormed : s.stores.store.WellFormed
  limit : s.stores.store.maxProofBytes ≤ s.driver.config.maxProofBytes

theorem ContentFits.getProof (h : s.ContentFits) {id : VerificationId} {proof : Proof}
    (hproof : s.stores.store.getProof id = some proof) :
    proof.encodedLen ≤ s.driver.config.maxProofBytes ∧ proof.verificationId = id := by
  obtain ⟨e, he, hp⟩ := Option.bind_eq_some_iff.1 hproof
  have hwf := (h.wellFormed id e he).content_id proof hp
  exact ⟨hwf.2.trans h.limit, hwf.1⟩

theorem ContentFits.step [AvailabilityWire] {a : P2pAction} (h : s.ContentFits) (hstep : P2pStep s a t) :
    t.ContentFits := by
  have hconfig : t.driver.config = s.driver.config := congrArg Prod.fst hstep.node
  rcases hstep.stores with hstores | ⟨action, hstores⟩
  · constructor
    · rw [hstores]
      exact h.wellFormed
    · rw [hstores, hconfig]
      exact h.limit
  · constructor
    · rw [hstores]
      exact h.wellFormed.perform action
    · rw [hstores, hconfig, StoreSystem.perform_maxProofBytes]
      exact h.limit

private theorem Inbound.command (h : s.Inbound) {net : NetworkOutcome} {caller : Caller} {command : DriverCommand}
    {rest : List (Caller × DriverCommand)} (hmailbox : s.mailbox = (caller, command) :: rest)
    (hcaller : caller = .worker ∨ command.responded = none) {state : DriverState}
    {reply : Option (Except Error Reply)} {answers : Replies} :
    Inbound { s with
      driver := { (s.driver.handleCommand net caller command).1 with state }, mailbox := rest, reply, answers } := by
  obtain ⟨hnext, hlookup⟩ := s.driver.handleCommand_inbound net caller command
  have hnode := s.driver.handleCommand_node net caller command
  let t : P2pSystem := { s with
    driver := { (s.driver.handleCommand net caller command).1 with state }, mailbox := rest, reply, answers }
  have hresponses : s.responses = command.responded.toList ++ t.responses := by
    have hcommands : s.workerCommands = (if caller = .worker then [command] else []) ++ t.workerCommands := by
      unfold workerCommands
      rw [hmailbox, List.filterMap_cons]
      cases caller <;> rfl
    unfold responses
    rw [hcommands, List.filterMap_append, List.append_assoc]
    congr 1
    rcases hcaller with rfl | hnone
    · rw [if_pos rfl, List.filterMap_cons]
      cases command.responded <;> rfl
    · rw [hnone]
      split_ifs
      · rw [List.filterMap_cons_none hnone]
        rfl
      · rfl
  refine h.of_removed (t := t) (command.responded.map (·.1)) hnode hnext hlookup ?_ ?_ (List.Subset.refl _)
  · rw [hresponses, List.map_append, List.append_assoc]
    cases command.responded <;> exact List.Perm.refl _
  · rw [hresponses]
    exact List.subset_append_right _ _

private theorem Inbound.lt_next (h : s.Inbound) {requestId : InboundProofRequestId}
    (hmem : requestId ∈ s.responses.map (·.1) ++ s.requests.map (·.1)) :
    requestId < s.driver.nextInboundRequestId := by
  apply h.bound
  rcases List.mem_append.1 hmem with hmem | hmem
  · obtain ⟨⟨_, proof⟩, hresponse, rfl⟩ := List.mem_map.1 hmem
    obtain ⟨request, hlookup, -⟩ := h.matching _ proof hresponse
    rw [hlookup]
    rfl
  · obtain ⟨⟨_, id⟩, hrequest, rfl⟩ := List.mem_map.1 hmem
    obtain ⟨peer, hlookup⟩ := h.known _ id hrequest
    rw [hlookup]
    rfl

private theorem Inbound.accept (h : s.Inbound) (hemitting : s.emitting = none) {driver : Driver} {peer : PeerId}
    {id : VerificationId} (hnode : driver.node = s.driver.node)
    (hinbound : driver.inboundRequests = s.driver.inboundRequests.insert s.driver.nextInboundRequestId ⟨peer, id⟩)
    (hnext : driver.nextInboundRequestId = s.driver.nextInboundRequestId + 1) :
    Inbound { s with driver, emitting := some (.proofRequested s.driver.nextInboundRequestId peer id) } := by
  let t : P2pSystem := { s with driver, emitting := some (.proofRequested s.driver.nextInboundRequestId peer id) }
  have hconfig : driver.config = s.driver.config := congrArg Prod.fst hnode
  have hrequests : t.requests = s.requests ++ [(s.driver.nextInboundRequestId, id)] := by
    unfold requests
    rw [hemitting]
    simp [t, DriverEvent.requested]
  -- identifiers are not reused, so the earlier requests are found as before
  have hold : ∀ k, k < s.driver.nextInboundRequestId →
      driver.inboundRequests.lookup k = s.driver.inboundRequests.lookup k := by
    intro k hk
    rw [hinbound, AList.lookup_insert_ne (Nat.ne_of_lt hk)]
  refine Inbound.mk (s := t) (fun k hsome => ?_) ?_ (fun k id' hmem => ?_) (fun k proof hmem => ?_)
  · change k < driver.nextInboundRequestId
    rw [hnext]
    by_cases hk : k = s.driver.nextInboundRequestId
    · rw [hk]
      exact Nat.lt_succ_self _
    · change (driver.inboundRequests.lookup k).isSome = true at hsome
      rw [hinbound, AList.lookup_insert_ne hk] at hsome
      exact Nat.lt_succ_of_lt (h.bound k hsome)
  · rw [hrequests, List.map_append, ← List.append_assoc, List.nodup_append]
    refine ⟨h.nodup, List.nodup_singleton _, fun k hk k' hk' => ?_⟩
    rw [List.map_singleton, List.mem_singleton] at hk'
    rw [hk']
    exact Nat.ne_of_lt (h.lt_next hk)
  · change ∃ peer, driver.inboundRequests.lookup k = some ⟨peer, id'⟩
    rw [hrequests] at hmem
    rcases List.mem_append.1 hmem with hmem | hmem
    · rw [hold k (h.lt_next (List.mem_append_right _ (List.mem_map.2 ⟨_, hmem, rfl⟩)))]
      exact h.known k id' hmem
    · obtain ⟨rfl, rfl⟩ := Prod.mk.inj (List.mem_singleton.1 hmem)
      exact ⟨peer, by rw [hinbound, AList.lookup_insert]⟩
  · change ∃ request, driver.inboundRequests.lookup k = some request ∧
      ∀ p ∈ proof, p.encodedLen ≤ driver.config.maxProofBytes ∧ _
    rw [hold k (h.lt_next (List.mem_append_left _ (List.mem_map.2 ⟨_, hmem, rfl⟩))), hconfig]
    exact h.matching k proof hmem

theorem Inbound.step [AvailabilityWire] {a : P2pAction} (h : s.Inbound) (hp : s.Protocol) (hfits : s.ContentFits)
    (hstep : P2pStep s a t) (hresult : t.driverResult = none) : t.Inbound := by
  -- the worker holds no inbound request here
  have hnone : ∀ {control}, s.worker.control = control → control.NoInbound → s.worker.control.NoInbound :=
    fun hcontrol hplain => hcontrol ▸ hplain
  cases hstep with
  | operation | evict | publish | tick | requestStop | workerFlush | selectTurn | drainStoreEvent => exact { h with }
  | swarmError => cases hresult
  | submit call command hclient =>
    refine h.of_same rfl rfl rfl ?_ rfl
    unfold responses workerCommands
    rw [List.filterMap_append]
    change (_ ++ []).filterMap _ ++ _ = _
    rw [List.append_nil]
  | driverCommand net caller command rest hmailbox hfree hid t ht =>
    cases hp.commandRound { net with now := s.now } hmailbox (driverFree_iff.1 hfree).2 ht with
    | worker => exact h.command hmailbox (.inl rfl)
    | client call _ state answers hclient =>
      refine h.command hmailbox (.inr ?_)
      cases command with
      | respondProof => cases hclient
      | _ => rfl
  | swarmQuiet event driver hfree hremote hmove =>
    have hnode := s.driver.handleSwarmEvent_node hmove
    rcases (s.driver.handleSwarmEvent_move hmove).inbound with ⟨hinbound, hnext, -⟩ | ⟨peer, id, -, -, hemitted⟩
    · exact h.round hnode hinbound hnext
    · cases hemitted
  | swarmEmit event driver emitted hfree hremote hmove =>
    have hnode := s.driver.handleSwarmEvent_node hmove
    have hemitting := (driverFree_iff.1 hfree).1
    rcases (s.driver.handleSwarmEvent_move hmove).inbound with
      ⟨hinbound, hnext, hrequested⟩ | ⟨peer, id, hinbound, hnext, hemitted⟩
    · refine h.of_same hnode hinbound hnext rfl ?_
      unfold requests
      rw [hemitting]
      exact congrArg _ hrequested
    · cases hemitted
      exact h.accept hemitting hnode hinbound hnext
  | delayedResponse i hfree | expireQueries hfree => exact h.round rfl rfl rfl
  | emitDropped net event hemitting hended driver hdriver =>
    obtain ⟨state, reply, answers, hround⟩ := finishRound_frame { s with driver, emitting := none }
    rw [hround]
    have hrequests : s.requests = s.worker.control.requests ++ s.events.filterMap DriverEvent.requested ++
        event.requested.toList := by
      unfold requests
      rw [hemitting, Option.toList_some, List.filterMap_cons]
      cases event.requested <;> rfl
    rcases hdriver with ⟨rfl, hnot⟩ | ⟨requestId, peer, id, rfl, rfl⟩
    · refine h.of_same rfl rfl rfl rfl ?_
      rw [hrequests, hnot]
      rfl
    · obtain ⟨inbound, hrespond, hlookup⟩ := s.driver.respondProof_driver { net with now := s.now } requestId none
      rw [hrespond]
      refine h.of_removed (some requestId) rfl rfl (fun k => ?_) ?_ (List.Subset.refl _) ?_
      · rw [hlookup]
        simp [eq_comm]
      · rw [hrequests, List.map_append, ← List.append_assoc]
        refine List.perm_append_comm.trans ?_
        simp [requests, responses, workerCommands, DriverEvent.requested]
      · rw [hrequests]
        simp [requests]
  | emitSent net event hemitting hended hroom =>
    obtain ⟨state, reply, answers, hround⟩ :=
      finishRound_frame { s with events := s.events ++ [event], emitting := none }
    rw [hround]
    refine h.of_same rfl rfl rfl rfl ?_
    unfold requests
    rw [hemitting, List.filterMap_append]
    simp
  | selectStop hcontrol =>
    exact h.of_none (hnone hcontrol ⟨rfl, rfl⟩) (hnone hcontrol ⟨rfl, rfl⟩) rfl rfl rfl rfl
  | selectDriverEvent mode event rest hcontrol houtbox hevents =>
    obtain ⟨hrequests, hresponses⟩ := (s.worker.handleDriverEvent_move s.now mode.draining event).requests
    have hidle := hnone hcontrol ⟨rfl, rfl⟩
    refine h.of_same rfl rfl rfl ?_ ?_
    · unfold responses workerCommands
      rw [hresponses, hidle.2]
    · unfold requests
      rw [hrequests, hidle.1, hevents]
      cases hrequested : event.requested with
      | none => rw [List.filterMap_cons_none hrequested]; rfl
      | some request => rw [List.filterMap_cons_some hrequested]; rfl
  | selectDriverClosed hcontrol =>
    exact h.of_none (hnone hcontrol ⟨rfl, rfl⟩) ⟨rfl, rfl⟩ rfl rfl rfl rfl
  | selectStoreEvent notice receiver hcontrol =>
    obtain ⟨handled, expired, htaken⟩ := recordTaken_frame { s with receiver } notice
    rw [htaken]
    exact h.of_none (hnone hcontrol ⟨rfl, rfl⟩) Worker.plain_handleStoreEvent.noInbound rfl rfl rfl rfl
  | selectLagged receiver hcontrol =>
    exact h.of_none (hnone hcontrol ⟨rfl, rfl⟩) ⟨rfl, rfl⟩ rfl rfl rfl rfl
  | selectWake i wake hcontrol =>
    exact h.of_none (hnone hcontrol ⟨rfl, rfl⟩) Worker.driven_handleWake.plain.noInbound rfl rfl rfl rfl
  | drained hcontrol =>
    exact h.of_none (hnone hcontrol ⟨rfl, rfl⟩) ⟨rfl, rfl⟩ rfl rfl rfl rfl
  | sendClosed command call hcontrol hdriver =>
    change s.driverResult = none at hresult
    rw [hresult] at hdriver
    cases hdriver
  | send command call hcontrol hdriver =>
    have hbefore : s.worker.control.responses = command.responded.toList ∧ s.worker.control.requests = [] := by
      rw [hcontrol]
      cases command <;> exact ⟨rfl, rfl⟩
    refine h.of_same rfl rfl rfl ?_ ?_
    · unfold responses workerCommands
      rw [hbefore.1, List.filterMap_append, List.filterMap_append]
      change (_ ++ [command].filterMap _) ++ [] = _
      rw [List.append_nil, List.filterMap_cons]
      cases command.responded <;> rfl
    · unfold requests
      rw [hbefore.2]
      rfl
  | reply choice delay elapsed call reply worker hcontrol hreply hresume =>
    exact h.of_none (hnone hcontrol ⟨rfl, rfl⟩) (Worker.resumeCall_move hresume).plain.noInbound rfl rfl rfl rfl
  | getProof snapshot requestId id hcontrol =>
    have hbefore : s.worker.control.requests = [(requestId, id)] ∧ s.worker.control.responses = [] := by
      rw [hcontrol]
      exact ⟨rfl, rfl⟩
    have hrequests : s.requests = (requestId, id) :: (s.events.filterMap DriverEvent.requested ++
        s.emitting.toList.filterMap DriverEvent.requested) := by
      unfold requests
      rw [hbefore.1]
      rfl
    have hresponses : s.responses = s.workerCommands.filterMap DriverCommand.responded := by
      unfold responses
      rw [hbefore.2, List.append_nil]
    refine ⟨h.bound, ?_, fun k id' hmem => ?_, fun k proof hmem => ?_⟩
    · have hnodup := h.nodup
      rw [hrequests, hresponses] at hnodup
      simpa [responses, requests, workerCommands, Worker.call, Worker.goto, Control.responses, Control.requests]
        using hnodup
    · exact h.known k id' (by rw [hrequests]; exact List.mem_cons_of_mem _ hmem)
    · rcases List.mem_append.1 hmem with hmem | hmem
      · exact h.matching k proof (by rw [hresponses]; exact hmem)
      · obtain ⟨rfl, rfl⟩ := Prod.mk.inj (List.mem_singleton.1 hmem)
        obtain ⟨peer, hlookup⟩ := h.known k id (by rw [hrequests]; exact List.mem_cons_self)
        exact ⟨_, hlookup, fun p hproof => hfits.getProof hproof⟩
  | attach snapshot requestId peer id proof hcontrol =>
    exact h.of_none (hnone hcontrol ⟨rfl, rfl⟩) ⟨rfl, rfl⟩ rfl rfl rfl rfl
  | attached snapshot requestId peer id stored hcontrol =>
    exact h.of_none (hnone hcontrol ⟨rfl, rfl⟩) Worker.plain_resumeAttached.noInbound rfl rfl rfl rfl
  | localSnapshot snapshot hcontrol =>
    exact h.of_none (hnone hcontrol ⟨rfl, rfl⟩) ⟨rfl, rfl⟩ rfl rfl rfl rfl
  | waitingSnapshot snapshot hcontrol =>
    exact h.of_none (hnone hcontrol ⟨rfl, rfl⟩) Worker.driven_resumeWaiting.plain.noInbound rfl rfl rfl rfl
  | get snapshot id rest hcontrol =>
    exact h.of_none (hnone hcontrol ⟨rfl, rfl⟩) Worker.driven_resumeGet.plain.noInbound rfl rfl rfl rfl

end P2pSystem

end PulsarVerifier
