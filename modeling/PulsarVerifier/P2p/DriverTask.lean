import PulsarVerifier.P2p.Outbound

/-!
# The driver under any clients

The driver task on its own: any client may send any command, and the network may report anything in any order.  A
history records what the driver was asked and what it answered and emitted, which requests it handed to libp2p and which
of them libp2p has reported as ended.

`Correlated` relates the outbound requests with the pairs in flight and with the answers that were emitted; `Draining`
says what the state of the driver tells about the exchanges that are left.  Once a drain has begun no exchange is added
(`Within`).
-/

namespace PulsarVerifier

/-- The driver task; all fields but the first two are history variables. -/
structure DriverTask where
  driver : Driver
  /-- the event the driver waits to send -/
  emitting : Option DriverEvent
  commands : List (Caller × DriverCommand)
  replies : Replies
  /-- the requests that were accepted, with the identifiers of libp2p and of the application -/
  accepted : List (OutboundRequestId × ProofRequestId)
  /-- the requests whose end libp2p has reported -/
  reported : List OutboundRequestId
  emitted : List DriverEvent

inductive DriverAction
  | command (net : NetworkOutcome) (caller : Caller) (command : DriverCommand)
  | swarmEvent (event : SwarmEvent)
  | delayedResponse (i : Nat)
  | expireQueries (now : Instant)
  /-- the event is sent, or it is dropped because nobody receives it any more -/
  | emit (net : NetworkOutcome) (sent : Bool)

/-- The identifiers of the requests that were accepted. -/
def requestIds (replies : Replies) : List ProofRequestId :=
  replies.filterMap fun entry =>
    match entry.2 with
    | .ok (.requestId requestId) => some requestId
    | _ => none

namespace DriverTask

/-! ### Steps -/

def finishRound (s : DriverTask) : DriverTask :=
  { s with driver := s.driver.finishDrain.1, replies := s.replies ++ s.driver.finishDrain.2 }

section

variable [Sha256]

/-- The driver after a command, with the history. -/
def execute (s : DriverTask) (net : NetworkOutcome) (caller : Caller) (command : DriverCommand) : DriverTask :=
  let (driver, replies) := s.driver.handleCommand net caller command
  { s with
    driver, commands := s.commands ++ [(caller, command)], replies := s.replies ++ replies
    accepted := s.accepted ++ (requestIds replies).map fun requestId => (net.outboundId, requestId) }

/-- An inbound request that nobody receives is answered with `NotFound`. -/
def drop (driver : Driver) (net : NetworkOutcome) : DriverEvent → Driver
  | .proofRequested requestId _ _ => (driver.respondProof net requestId none).2
  | _ => driver

variable [AvailabilityWire]

/-- A round of `run`; there is none after a swarm event that ends the driver. -/
def next (s : DriverTask) : DriverAction → Option DriverTask
  | .command net caller command =>
    if s.emitting.isNone ∧ net.outboundId ∉ s.driver.outboundRequests then
      some (s.execute net caller command).finishRound
    else none
  | .swarmEvent event =>
    if s.emitting.isNone then
      match s.driver.handleSwarmEvent event with
      | .error _ => none
      | .ok (driver, none) => some { s with driver, reported := s.reported ++ event.terminal.toList }.finishRound
      | .ok (driver, some emitted) =>
        some { s with
          driver, emitting := some emitted, reported := s.reported ++ event.terminal.toList
          emitted := s.emitted ++ [emitted] }
    else none
  | .delayedResponse i =>
    if s.emitting.isNone ∧ i < s.driver.delayedResponses.length then
      some { s with
        driver := { s.driver with delayedResponses := s.driver.delayedResponses.eraseIdx i } }.finishRound
    else none
  | .expireQueries now =>
    if s.emitting.isNone then some { s with driver := s.driver.expireQueries now }.finishRound else none
  | .emit net sent =>
    match s.emitting with
    | none => none
    | some event =>
      some { s with driver := if sent then s.driver else drop s.driver net event, emitting := none }.finishRound

omit [AvailabilityWire] [Sha256] in
def initial (config : P2pConfig) (localPeerId : PeerId) (validators : Finset PeerId) (listeners : Finset Nat) :
    DriverTask :=
  { driver := .build config localPeerId validators listeners, emitting := none, commands := [], replies := []
    accepted := [], reported := [], emitted := [] }

def lts (config : P2pConfig) (localPeerId : PeerId) (validators : Finset PeerId) (listeners : Finset Nat) :
    Lts DriverTask DriverAction :=
  .ofNext (· = initial config localPeerId validators listeners) next

end

/-- Every command brings its own reply channel; libp2p gives every request an identifier of its own, and reports the end
of a request once. -/
def Faithful (s : DriverTask) : DriverAction → Prop
  | .command net caller _ => caller ∉ s.commands.map (·.1) ∧ net.outboundId ∉ s.accepted.map (·.1)
  | .swarmEvent event => ∀ k ∈ event.terminal, k ∈ s.accepted.map (·.1) ∧ k ∉ s.reported
  | _ => True

instance (s : DriverTask) (a : DriverAction) : Decidable (s.Faithful a) :=
  match a with
  | .command net caller _ =>
    inferInstanceAs (Decidable (caller ∉ s.commands.map (·.1) ∧ net.outboundId ∉ s.accepted.map (·.1)))
  | .swarmEvent event =>
    inferInstanceAs (Decidable (∀ k ∈ event.terminal, k ∈ s.accepted.map (·.1) ∧ k ∉ s.reported))
  | .delayedResponse _ | .expireQueries _ | .emit _ _ => .isTrue trivial

end DriverTask

/-- The steps of the driver task one by one. -/
inductive TaskStep [Sha256] [AvailabilityWire] (s : DriverTask) : DriverAction → DriverTask → Prop
  | command (net : NetworkOutcome) (caller : Caller) (command : DriverCommand) (driver : Driver) (replies : Replies)
      (hfree : s.emitting = none) (hid : net.outboundId ∉ s.driver.outboundRequests)
      (hmove : CommandMove s.driver net caller command driver replies) :
    TaskStep s (.command net caller command)
      { s with
        driver, commands := s.commands ++ [(caller, command)], replies := s.replies ++ replies
        accepted := s.accepted ++ (requestIds replies).map fun requestId => (net.outboundId, requestId) }.finishRound
  | swarmQuiet (event : SwarmEvent) (driver : Driver) (hfree : s.emitting = none)
      (h : s.driver.handleSwarmEvent event = .ok (driver, none)) :
    TaskStep s (.swarmEvent event) { s with driver, reported := s.reported ++ event.terminal.toList }.finishRound
  | swarmEmit (event : SwarmEvent) (driver : Driver) (emitted : DriverEvent) (hfree : s.emitting = none)
      (h : s.driver.handleSwarmEvent event = .ok (driver, some emitted)) :
    TaskStep s (.swarmEvent event)
      { s with
        driver, emitting := some emitted, reported := s.reported ++ event.terminal.toList
        emitted := s.emitted ++ [emitted] }
  | delayedResponse (i : Nat) (hfree : s.emitting = none) :
    TaskStep s (.delayedResponse i)
      { s with driver := { s.driver with delayedResponses := s.driver.delayedResponses.eraseIdx i } }.finishRound
  | expireQueries (now : Instant) (hfree : s.emitting = none) :
    TaskStep s (.expireQueries now) { s with driver := s.driver.expireQueries now }.finishRound
  | emit (net : NetworkOutcome) (sent : Bool) (event : DriverEvent) (driver : Driver)
      (hemitting : s.emitting = some event) (hdriver : driver = s.driver ∨
        ∃ requestId, driver = { s.driver with inboundRequests := s.driver.inboundRequests.erase requestId }) :
    TaskStep s (.emit net sent) { s with driver, emitting := none }.finishRound

namespace DriverTask

variable [Sha256] [AvailabilityWire] {s t : DriverTask}

theorem next_step {a : DriverAction} (h : s.next a = some t) : TaskStep s a t := by
  cases a with
  | command net caller command =>
    simp only [next] at h
    split_ifs at h with hg
    cases h
    exact .command net caller command _ _ (Option.isNone_iff_eq_none.1 hg.1) hg.2
      (s.driver.handleCommand_move net rfl)
  | swarmEvent event =>
    simp only [next] at h
    split_ifs at h with hfree
    split at h
    · cases h
    · rename_i driver heq
      cases h
      exact .swarmQuiet event driver (Option.isNone_iff_eq_none.1 hfree) heq
    · rename_i driver emitted heq
      cases h
      exact .swarmEmit event driver emitted (Option.isNone_iff_eq_none.1 hfree) heq
  | delayedResponse i =>
    simp only [next] at h
    split_ifs at h with hg
    cases h
    exact .delayedResponse i (Option.isNone_iff_eq_none.1 hg.1)
  | expireQueries now =>
    simp only [next] at h
    split_ifs at h with hfree
    cases h
    exact .expireQueries now (Option.isNone_iff_eq_none.1 hfree)
  | emit net sent =>
    simp only [next] at h
    split at h
    · cases h
    · rename_i event hemitting
      cases h
      refine .emit net sent event _ hemitting ?_
      split_ifs
      · exact .inl rfl
      · cases event with
        | proofRequested requestId peer id => exact .inr ⟨requestId, s.driver.respondProof_erase net requestId none⟩
        | _ => exact .inl rfl

end DriverTask

/-! ### Once a drain has begun -/

namespace Driver

variable {d d' d'' : Driver}

def Settled (d : Driver) : Prop :=
  d.inboundRequests = ∅ ∧ d.outboundRequests = ∅ ∧ d.inFlight = ∅ ∧ d.delayedResponses = []

/-- Every exchange and every query of `d'` is one of `d`. -/
structure Within (d' d : Driver) : Prop where
  inbound : ∀ k request, d'.inboundRequests.lookup k = some request → d.inboundRequests.lookup k = some request
  outbound : ∀ k request, d'.outboundRequests.lookup k = some request → d.outboundRequests.lookup k = some request
  inFlight : d'.inFlight ⊆ d.inFlight
  queries : ∀ k query, d'.outstandingQueries.lookup k = some query → d.outstandingQueries.lookup k = some query
  delayed : d'.delayedResponses.Sublist d.delayedResponses

theorem Within.refl (d : Driver) : d.Within d where
  inbound _ _ h := h
  outbound _ _ h := h
  inFlight := Finset.Subset.refl _
  queries _ _ h := h
  delayed := List.Sublist.refl _

theorem Within.trans (h : d''.Within d') (h' : d'.Within d) : d''.Within d where
  inbound k request hk := h'.inbound k request (h.inbound k request hk)
  outbound k request hk := h'.outbound k request (h.outbound k request hk)
  inFlight := h.inFlight.trans h'.inFlight
  queries k query hk := h'.queries k query (h.queries k query hk)
  delayed := h.delayed.trans h'.delayed

theorem Settled.of_within (h : d.Settled) (hwithin : d'.Within d) : d'.Settled := by
  obtain ⟨hinbound, houtbound, hinFlight, hdelayed⟩ := h
  refine ⟨AList.eq_empty_of_lookup fun k request hk => ?_, AList.eq_empty_of_lookup fun k request hk => ?_, ?_, ?_⟩
  · have := hwithin.inbound k request hk
    simp [hinbound] at this
  · have := hwithin.outbound k request hk
    simp [houtbound] at this
  · exact Finset.subset_empty.1 (hinFlight ▸ hwithin.inFlight)
  · exact List.sublist_nil.1 (hdelayed ▸ hwithin.delayed)

theorem finishDrain_cases (d : Driver) :
    (d.finishDrain = (d, []) ∧ ∀ c, d.state = .draining c → ¬ d.Settled) ∨
      ∃ c, d.state = .draining c ∧ d.Settled ∧ d.finishDrain = ({ d with state := .drained }, [(c, .ok .unit)]) := by
  have hsettled : d.Settled ↔ d.inboundRequests.keys.isEmpty ∧ d.outboundRequests.keys.isEmpty ∧ d.inFlight = ∅ ∧
      d.delayedResponses.isEmpty := by
    simp [Settled, AList.keys_eq_nil]
  unfold finishDrain
  split
  · rename_i caller hstate
    split_ifs with hempty
    · exact .inr ⟨caller, hstate, hsettled.2 hempty, rfl⟩
    · exact .inl ⟨rfl, fun c _ h => hempty (hsettled.1 h)⟩
  · rename_i hnot
    exact .inl ⟨rfl, fun c hstate => absurd hstate (hnot c)⟩

theorem within_erase_inbound (requestId : InboundProofRequestId) :
    { d with inboundRequests := d.inboundRequests.erase requestId }.Within d :=
  { Within.refl d with inbound := fun _ _ h => (AList.lookup_erase_some h).2 }

end Driver

section

variable {d d' : Driver}

theorem CommandMove.within {net : NetworkOutcome} {caller : Caller} {command : DriverCommand} {replies : Replies}
    (h : CommandMove d net caller command d' replies) (hstate : d.state ≠ .running) : d'.Within d := by
  have hnot : ¬ d.isRunning = true := fun hrunning => hstate (of_decide_eq_true hrunning)
  cases h with
  | answered => exact { Driver.Within.refl d with }
  | responded requestId => exact Driver.within_erase_inbound requestId
  | queried _ hrunning | requested _ _ hrunning | replaced _ hrunning => exact absurd hrunning hnot
  | drain hrunning => exact absurd hrunning hstate

theorem SwarmMove.within {event : SwarmEvent} {emitted : Option DriverEvent} (h : SwarmMove d event d' emitted)
    (hstate : d.state ≠ .running) : d'.Within d := by
  have hnot : ¬ d.isRunning = true := fun hrunning => hstate (of_decide_eq_true hrunning)
  cases h with
  | quiet => exact Driver.Within.refl d
  | listening => exact { Driver.Within.refl d with }
  | connected => exact Driver.Within.refl d
  | disconnected => exact { Driver.Within.refl d with }
  | announced _ _ _ hrunning | queried _ _ hrunning | responded _ _ _ _ _ hrunning | requested _ _ _ hrunning =>
    exact absurd hrunning hnot
  | answered =>
    exact { Driver.Within.refl d with
      outbound := fun _ _ h => (AList.lookup_erase_some h).2, inFlight := Finset.erase_subset _ _ }

theorem SwarmMove.outbound_of_emitted {event : SwarmEvent} {e : DriverEvent} (h : SwarmMove d event d' (some e))
    (hstate : d.state ≠ .running) : ∃ k request, d.outboundRequests.lookup k = some request := by
  have hnot : ¬ d.isRunning = true := fun hrunning => hstate (of_decide_eq_true hrunning)
  cases h with
  | listening _ _ _ _ _ hemitted => exact absurd (hemitted e rfl).1 hnot
  | connected _ hrunning => exact absurd hrunning hnot
  | disconnected _ _ _ hemitted => exact absurd (hemitted e rfl).1 hnot
  | announced _ _ _ hrunning | responded _ _ _ _ _ hrunning | requested _ _ _ hrunning => exact absurd hrunning hnot
  | answered _ k request _ _ _ hlookup => exact ⟨k, request, hlookup⟩

end

/-- The order of the states of a driver. -/
inductive DriverState.Follows : DriverState → DriverState → Prop
  | begin (caller : Caller) : Follows .running (.draining caller)
  | finish (caller : Caller) : Follows (.draining caller) .drained

namespace DriverTask

variable {s t : DriverTask}

theorem finishRound_cases (s : DriverTask) :
    (s.finishRound = s ∧ ∀ c, s.driver.state = .draining c → ¬ s.driver.Settled) ∨
      ∃ c, s.driver.state = .draining c ∧ s.driver.Settled ∧
        s.finishRound =
          { s with driver := { s.driver with state := .drained }, replies := s.replies ++ [(c, .ok .unit)] } := by
  rcases s.driver.finishDrain_cases with ⟨hsame, hopen⟩ | ⟨c, hstate, hsettled, hdrained⟩
  · refine .inl ⟨?_, hopen⟩
    unfold finishRound
    rw [hsame, List.append_nil]
  · refine .inr ⟨c, hstate, hsettled, ?_⟩
    unfold finishRound
    rw [hdrained]

/-- The end of a round changes nothing of the driver but its state. -/
theorem finishRound_frame (s : DriverTask) : ∃ state, s.finishRound.driver = { s.driver with state } := by
  rcases s.finishRound_cases with ⟨hsame, -⟩ | ⟨c, -, -, hdrained⟩
  · exact ⟨s.driver.state, by rw [hsame]⟩
  · exact ⟨.drained, by rw [hdrained]⟩

theorem finishRound_within (s : DriverTask) : s.finishRound.driver.Within s.driver := by
  obtain ⟨state, hframe⟩ := s.finishRound_frame
  rw [hframe]
  exact { Driver.Within.refl s.driver with }

theorem follows_finishRound {state : DriverState} (h : Relation.ReflTransGen DriverState.Follows state s.driver.state) :
    Relation.ReflTransGen DriverState.Follows state s.finishRound.driver.state := by
  rcases s.finishRound_cases with ⟨hsame, -⟩ | ⟨c, hstate, -, hdrained⟩
  · rwa [hsame]
  · rw [hstate] at h
    rw [hdrained]
    exact h.tail (.finish c)

theorem ne_running_of_follows {p q : DriverState} (h : Relation.ReflTransGen DriverState.Follows p q)
    (hp : p ≠ .running) : q ≠ .running := by
  induction h with
  | refl => exact hp
  | tail _ hlast _ => cases hlast <;> simp

variable [Sha256] [AvailabilityWire]

theorem within_step {a : DriverAction} (h : TaskStep s a t) (hstate : s.driver.state ≠ .running) :
    t.driver.Within s.driver := by
  cases h with
  | command _ _ _ driver _ _ _ hmove => exact (finishRound_within _).trans (hmove.within hstate)
  | swarmQuiet event driver _ heq =>
    exact (finishRound_within _).trans ((s.driver.handleSwarmEvent_move heq).within hstate)
  | swarmEmit event driver emitted _ heq => exact (s.driver.handleSwarmEvent_move heq).within hstate
  | delayedResponse i =>
    refine (finishRound_within _).trans ?_
    exact { Driver.Within.refl s.driver with delayed := List.eraseIdx_sublist _ _ }
  | expireQueries now =>
    refine (finishRound_within _).trans ?_
    refine { Driver.Within.refl s.driver with queries := fun k query hk => ?_ }
    simp only [Driver.expireQueries, AList.lookup_retain, Option.bind_eq_some_iff] at hk
    obtain ⟨query', hquery, hkept⟩ := hk
    split_ifs at hkept
    cases hkept
    exact hquery
  | emit _ _ _ driver _ hdriver =>
    refine (finishRound_within _).trans ?_
    rcases hdriver with rfl | ⟨requestId, rfl⟩
    · exact Driver.Within.refl _
    · exact Driver.within_erase_inbound requestId

theorem follows_step {a : DriverAction} (h : TaskStep s a t) :
    Relation.ReflTransGen DriverState.Follows s.driver.state t.driver.state := by
  cases h with
  | command _ caller _ driver replies _ _ hmove =>
    refine follows_finishRound ?_
    change Relation.ReflTransGen _ _ driver.state
    rcases hmove.state with ⟨hsame, -⟩ | ⟨hrunning, -, hdraining, -⟩
    · rw [hsame]
    · rw [hrunning, hdraining]
      exact .single (.begin caller)
  | swarmQuiet event driver _ heq =>
    refine follows_finishRound ?_
    change Relation.ReflTransGen _ _ driver.state
    rw [s.driver.handleSwarmEvent_state heq]
  | swarmEmit event driver emitted _ heq =>
    change Relation.ReflTransGen _ _ driver.state
    rw [s.driver.handleSwarmEvent_state heq]
  | delayedResponse | expireQueries => exact follows_finishRound .refl
  | emit _ _ _ driver _ hdriver =>
    refine follows_finishRound ?_
    rcases hdriver with rfl | ⟨requestId, rfl⟩ <;> exact .refl

/-- Along every run the state only advances, and once it has left `Running` nothing is added. -/
theorem run_advances {config : P2pConfig} {localPeerId : PeerId} {validators : Finset PeerId} {listeners : Finset Nat}
    {as : List DriverAction} (h : (lts config localPeerId validators listeners).Run s as t) :
    Relation.ReflTransGen DriverState.Follows s.driver.state t.driver.state ∧
      (s.driver.state ≠ .running → t.driver.Within s.driver) := by
  refine h.rel (r := fun s t => Relation.ReflTransGen DriverState.Follows s.driver.state t.driver.state ∧
    (s.driver.state ≠ .running → t.driver.Within s.driver)) ?_ ?_ ?_
  · exact fun s => ⟨.refl, fun _ => Driver.Within.refl _⟩
  · rintro s t u ⟨hst, hwithin⟩ ⟨htu, hwithin'⟩
    exact ⟨hst.trans htu, fun hstate => (hwithin' (ne_running_of_follows hst hstate)).trans (hwithin hstate)⟩
  · exact fun hstep => ⟨follows_step (next_step hstep), within_step (next_step hstep)⟩

/-! ### Requests and answers -/

omit [Sha256] [AvailabilityWire] in
/-- How many of the emitted events answer the request. -/
def answers (s : DriverTask) (requestId : ProofRequestId) : Nat :=
  s.emitted.countP fun event => event.answered.any fun answered => decide (answered.1 = requestId)

omit [Sha256] [AvailabilityWire] in
/-- The outbound requests are those in flight, one for each pair; a request is outstanding until its only answer is
emitted. -/
structure Correlated (s : DriverTask) : Prop where
  inFlight : ∀ pair, pair ∈ s.driver.inFlight ↔ ∃ k request, s.driver.outboundRequests.lookup k = some request ∧
    (request.peer, request.verificationId) = pair
  distinct : ∀ k k' request request', s.driver.outboundRequests.lookup k = some request →
    s.driver.outboundRequests.lookup k' = some request' →
    (request.peer, request.verificationId) = (request'.peer, request'.verificationId) → k = k'
  bound : ∀ k requestId, (k, requestId) ∈ s.accepted → requestId < s.driver.nextProofRequestId
  unique : ∀ k k' requestId, (k, requestId) ∈ s.accepted → (k', requestId) ∈ s.accepted → k = k'
  known : ∀ k request, s.driver.outboundRequests.lookup k = some request → (k, request.applicationId) ∈ s.accepted
  unasked : ∀ requestId, (∀ k, (k, requestId) ∉ s.accepted) → s.answers requestId = 0
  awaited : ∀ k request, s.driver.outboundRequests.lookup k = some request → s.answers request.applicationId = 0
  answered : ∀ k requestId, (k, requestId) ∈ s.accepted →
    (∀ request, s.driver.outboundRequests.lookup k = some request → request.applicationId ≠ requestId) →
    s.answers requestId = 1

omit [Sha256] [AvailabilityWire] in
theorem Correlated.of_same (h : s.Correlated) (houtbound : t.driver.outboundRequests = s.driver.outboundRequests)
    (hnext : t.driver.nextProofRequestId = s.driver.nextProofRequestId)
    (hinFlight : t.driver.inFlight = s.driver.inFlight)
    (haccepted : t.accepted = s.accepted) (hanswers : ∀ requestId, t.answers requestId = s.answers requestId) :
    t.Correlated := by
  constructor
  · rw [hinFlight, houtbound]
    exact h.inFlight
  · rw [houtbound]
    exact h.distinct
  · rw [haccepted, hnext]
    exact h.bound
  · rw [haccepted]
    exact h.unique
  · rw [haccepted, houtbound]
    exact h.known
  · simp only [haccepted, hanswers]
    exact h.unasked
  · simp only [houtbound, hanswers]
    exact h.awaited
  · simp only [haccepted, houtbound, hanswers]
    exact h.answered

omit [Sha256] [AvailabilityWire] in
theorem Correlated.finishRound (h : s.Correlated) : s.finishRound.Correlated := by
  rcases s.finishRound_cases with ⟨hsame, -⟩ | ⟨c, -, -, hdrained⟩
  · rwa [hsame]
  · rw [hdrained]
    exact h.of_same rfl rfl rfl rfl (fun _ => rfl)

omit [Sha256] [AvailabilityWire] in
theorem Correlated.request (h : s.Correlated) {k : OutboundRequestId} {peer : PeerId} {id : VerificationId}
    (hk : k ∉ s.driver.outboundRequests) (hnew : (peer, id) ∉ s.driver.inFlight)
    (houtbound : t.driver.outboundRequests =
      s.driver.outboundRequests.insert k ⟨s.driver.nextProofRequestId, peer, id⟩)
    (hnext : t.driver.nextProofRequestId = s.driver.nextProofRequestId + 1)
    (hinFlight : t.driver.inFlight = insert (peer, id) s.driver.inFlight)
    (haccepted : t.accepted = s.accepted ++ [(k, s.driver.nextProofRequestId)])
    (hanswers : ∀ requestId, t.answers requestId = s.answers requestId) : t.Correlated := by
  -- a request of the driver is the new one, or one it had before under another identifier
  have hlookup : ∀ k' request, t.driver.outboundRequests.lookup k' = some request ↔
      (k' = k ∧ request = ⟨s.driver.nextProofRequestId, peer, id⟩) ∨
        (k' ≠ k ∧ s.driver.outboundRequests.lookup k' = some request) := by
    intro k' request
    by_cases hk' : k' = k
    · subst hk'
      simp [houtbound, eq_comm]
    · simp [houtbound, AList.lookup_insert_ne hk', hk']
  have hfresh : ∀ k' request, s.driver.outboundRequests.lookup k' = some request → k' ≠ k := by
    rintro k' request hrequest rfl
    exact hk (AList.lookup_isSome.1 (by rw [hrequest]; rfl))
  have hmem : ∀ k' requestId, (k', requestId) ∈ t.accepted ↔
      (k', requestId) ∈ s.accepted ∨ (k' = k ∧ requestId = s.driver.nextProofRequestId) := by
    intro k' requestId
    simp [haccepted]
  have hunused : ∀ k', (k', s.driver.nextProofRequestId) ∉ s.accepted :=
    fun k' hmem => absurd (h.bound k' _ hmem) (lt_irrefl _)
  have hpair : ∀ k' request, s.driver.outboundRequests.lookup k' = some request →
      (request.peer, request.verificationId) ≠ (peer, id) :=
    fun k' request hrequest heq => hnew ((h.inFlight _).2 ⟨k', request, hrequest, heq⟩)
  constructor
  · intro pair
    rw [hinFlight, Finset.mem_insert, h.inFlight]
    constructor
    · rintro (rfl | ⟨k', request, hrequest, rfl⟩)
      · exact ⟨k, _, (hlookup k _).2 (.inl ⟨rfl, rfl⟩), rfl⟩
      · exact ⟨k', request, (hlookup k' request).2 (.inr ⟨hfresh k' request hrequest, hrequest⟩), rfl⟩
    · rintro ⟨k', request, hrequest, rfl⟩
      rcases (hlookup k' request).1 hrequest with ⟨-, rfl⟩ | ⟨-, hold⟩
      · exact .inl rfl
      · exact .inr ⟨k', request, hold, rfl⟩
  · intro k₁ k₂ request₁ request₂ h₁ h₂ heq
    rcases (hlookup k₁ request₁).1 h₁ with ⟨rfl, rfl⟩ | ⟨-, hold₁⟩
    · rcases (hlookup k₂ request₂).1 h₂ with ⟨rfl, -⟩ | ⟨-, hold₂⟩
      · rfl
      · exact absurd heq.symm (hpair k₂ request₂ hold₂)
    · rcases (hlookup k₂ request₂).1 h₂ with ⟨rfl, rfl⟩ | ⟨-, hold₂⟩
      · exact absurd heq (hpair k₁ request₁ hold₁)
      · exact h.distinct k₁ k₂ request₁ request₂ hold₁ hold₂ heq
  · intro k' requestId hrequest
    rw [hnext]
    rcases (hmem k' requestId).1 hrequest with hold | ⟨-, rfl⟩
    · exact Nat.lt_succ_of_lt (h.bound k' requestId hold)
    · exact Nat.lt_succ_self _
  · intro k₁ k₂ requestId h₁ h₂
    rcases (hmem k₁ requestId).1 h₁ with hold₁ | ⟨rfl, rfl⟩
    · rcases (hmem k₂ requestId).1 h₂ with hold₂ | ⟨rfl, rfl⟩
      · exact h.unique k₁ k₂ requestId hold₁ hold₂
      · exact absurd hold₁ (hunused k₁)
    · rcases (hmem k₂ _).1 h₂ with hold₂ | ⟨rfl, -⟩
      · exact absurd hold₂ (hunused k₂)
      · rfl
  · intro k' request hrequest
    rcases (hlookup k' request).1 hrequest with ⟨rfl, rfl⟩ | ⟨-, hold⟩
    · exact (hmem _ _).2 (.inr ⟨rfl, rfl⟩)
    · exact (hmem _ _).2 (.inl (h.known k' request hold))
  · intro requestId hnone
    rw [hanswers]
    exact h.unasked requestId fun k' hold => hnone k' ((hmem k' requestId).2 (.inl hold))
  · intro k' request hrequest
    rw [hanswers]
    rcases (hlookup k' request).1 hrequest with ⟨rfl, rfl⟩ | ⟨-, hold⟩
    · exact h.unasked _ hunused
    · exact h.awaited k' request hold
  · intro k' requestId hrequest hended
    rw [hanswers]
    rcases (hmem k' requestId).1 hrequest with hold | ⟨rfl, rfl⟩
    · refine h.answered k' requestId hold fun request hlook => hended request ?_
      exact (hlookup k' request).2 (.inr ⟨hfresh k' request hlook, hlook⟩)
    · exact absurd rfl (hended _ ((hlookup k' _).2 (.inl ⟨rfl, rfl⟩)))

omit [Sha256] [AvailabilityWire] in
theorem Correlated.answer (h : s.Correlated) {k : OutboundRequestId} {request : OutboundProofRequest}
    (hk : s.driver.outboundRequests.lookup k = some request)
    (houtbound : t.driver.outboundRequests = s.driver.outboundRequests.erase k)
    (hnext : t.driver.nextProofRequestId = s.driver.nextProofRequestId)
    (hinFlight : t.driver.inFlight = s.driver.inFlight.erase (request.peer, request.verificationId))
    (haccepted : t.accepted = s.accepted)
    (hanswers : ∀ requestId, t.answers requestId =
      s.answers requestId + if request.applicationId = requestId then 1 else 0) : t.Correlated := by
  have hlookup : ∀ k' request', t.driver.outboundRequests.lookup k' = some request' ↔
      k' ≠ k ∧ s.driver.outboundRequests.lookup k' = some request' := by
    intro k' request'
    rw [houtbound]
    constructor
    · exact AList.lookup_erase_some
    · rintro ⟨hne, hold⟩
      rwa [AList.lookup_erase_ne hne]
  have hother : ∀ k' requestId, (k', requestId) ∈ s.accepted → k' ≠ k → request.applicationId ≠ requestId := by
    rintro k' _ hold hne rfl
    exact hne (h.unique k' k _ hold (h.known k request hk))
  constructor
  · intro pair
    rw [hinFlight, Finset.mem_erase, h.inFlight]
    constructor
    · rintro ⟨hne, k', request', hold, rfl⟩
      refine ⟨k', request', (hlookup k' request').2 ⟨?_, hold⟩, rfl⟩
      rintro rfl
      cases hk.symm.trans hold
      exact hne rfl
    · rintro ⟨k', request', hrequest', rfl⟩
      obtain ⟨hne, hold⟩ := (hlookup k' request').1 hrequest'
      exact ⟨fun heq => hne (h.distinct k' k request' request hold hk heq), k', request', hold, rfl⟩
  · intro k₁ k₂ request₁ request₂ h₁ h₂ heq
    exact h.distinct k₁ k₂ request₁ request₂ ((hlookup k₁ request₁).1 h₁).2 ((hlookup k₂ request₂).1 h₂).2 heq
  · rw [haccepted, hnext]
    exact h.bound
  · rw [haccepted]
    exact h.unique
  · intro k' request' hrequest'
    rw [haccepted]
    exact h.known k' request' ((hlookup k' request').1 hrequest').2
  · intro requestId hnone
    rw [haccepted] at hnone
    have hne : request.applicationId ≠ requestId := by
      rintro rfl
      exact hnone k (h.known k request hk)
    rw [hanswers, if_neg hne, h.unasked requestId hnone]
  · intro k' request' hrequest'
    obtain ⟨hne, hold⟩ := (hlookup k' request').1 hrequest'
    rw [hanswers, if_neg (hother k' _ (h.known k' request' hold) hne), h.awaited k' request' hold]
  · intro k' requestId hrequest' hended
    rw [haccepted] at hrequest'
    rw [hanswers]
    by_cases hne : k' = k
    · subst hne
      by_cases heq : request.applicationId = requestId
      · -- the request that ends here had no answer yet
        rw [if_pos heq, ← heq, h.awaited _ request hk]
      · rw [if_neg heq]
        refine h.answered _ requestId hrequest' fun request' hold => ?_
        cases hk.symm.trans hold
        exact heq
    · rw [if_neg (hother k' requestId hrequest' hne)]
      exact h.answered k' requestId hrequest' fun request' hold => hended request' ((hlookup k' request').2 ⟨hne, hold⟩)

omit [Sha256] [AvailabilityWire] in
theorem requestIds_single {caller : Caller} {reply : Except Error Reply}
    (h : ∀ requestId, reply ≠ .ok (.requestId requestId)) : requestIds [(caller, reply)] = [] := by
  unfold requestIds
  rw [List.filterMap_cons_none]
  · rfl
  · split
    · rename_i requestId hreply
      exact absurd hreply (h requestId)
    · rfl

omit [Sha256] [AvailabilityWire] in
theorem answers_append {emitted : DriverEvent} (hemitted : t.emitted = s.emitted ++ [emitted])
    (requestId : ProofRequestId) :
    t.answers requestId =
      s.answers requestId + if emitted.answered.any (fun answered =>
        decide (answered.1 = requestId)) then 1 else 0 := by
  unfold answers
  rw [hemitted, List.countP_append, List.countP_singleton]

theorem Correlated.step {a : DriverAction} (h : s.Correlated) (hstep : TaskStep s a t) : t.Correlated := by
  cases hstep with
  | command net caller command driver replies hfree hid hmove =>
    refine Correlated.finishRound ?_
    cases hmove with
    | requested peer id _ _ hnew => exact h.request hid hnew rfl rfl rfl rfl (fun _ => rfl)
    | answered _ _ reply hreply | responded _ _ reply hreply =>
      exact h.of_same rfl rfl rfl (by simp [requestIds_single hreply]) (fun _ => rfl)
    | queried | replaced | drain => exact h.of_same rfl rfl rfl (List.append_nil _) (fun _ => rfl)
  | swarmQuiet event driver hfree heq =>
    refine Correlated.finishRound ?_
    rcases (s.driver.handleSwarmEvent_move heq).outbound with
      ⟨houtbound, hnext, hinFlight, -⟩ | ⟨k, request, peer, e, -, -, -, -, hemitted, -⟩
    · exact h.of_same houtbound hnext hinFlight rfl (fun _ => rfl)
    · cases hemitted
  | swarmEmit event driver emitted hfree heq =>
    rcases (s.driver.handleSwarmEvent_move heq).outbound with
      ⟨houtbound, hnext, hinFlight, hanswered⟩ | ⟨k, request, peer, e, hlookup, houtbound, hnext, hinFlight, hemitted,
        hanswered⟩
    · refine h.of_same houtbound hnext hinFlight rfl (fun requestId => ?_)
      rw [answers_append (s := s) rfl, hanswered emitted rfl]
      rfl
    · cases hemitted
      refine h.answer hlookup houtbound hnext hinFlight rfl (fun requestId => ?_)
      rw [answers_append (s := s) rfl, hanswered]
      simp
  | delayedResponse | expireQueries => exact Correlated.finishRound (h.of_same rfl rfl rfl rfl (fun _ => rfl))
  | emit _ _ _ driver _ hdriver =>
    refine Correlated.finishRound ?_
    rcases hdriver with rfl | ⟨requestId, rfl⟩ <;> exact h.of_same rfl rfl rfl rfl (fun _ => rfl)

omit [Sha256] [AvailabilityWire] in
/-- libp2p knows the accepted requests, each under an identifier of its own: it has reported the end of those that are
no longer outstanding. -/
structure Reported (s : DriverTask) : Prop where
  identified : ∀ k requestId requestId', (k, requestId) ∈ s.accepted → (k, requestId') ∈ s.accepted →
    requestId = requestId'
  known : ∀ k ∈ s.reported, k ∈ s.accepted.map (·.1)
  ended : ∀ k ∈ s.reported, s.driver.outboundRequests.lookup k = none
  outstanding : ∀ k ∈ s.accepted.map (·.1), k ∉ s.reported → (s.driver.outboundRequests.lookup k).isSome

omit [Sha256] [AvailabilityWire] in
theorem Reported.of_same (h : s.Reported) (houtbound : t.driver.outboundRequests = s.driver.outboundRequests)
    (haccepted : t.accepted = s.accepted) (hreported : t.reported = s.reported) : t.Reported := by
  constructor
  · rw [haccepted]
    exact h.identified
  · rw [haccepted, hreported]
    exact h.known
  · rw [hreported, houtbound]
    exact h.ended
  · rw [haccepted, hreported, houtbound]
    exact h.outstanding

omit [Sha256] [AvailabilityWire] in
theorem Reported.finishRound (h : s.Reported) : s.finishRound.Reported := by
  rcases s.finishRound_cases with ⟨hsame, -⟩ | ⟨c, -, -, hdrained⟩
  · rwa [hsame]
  · rw [hdrained]
    exact h.of_same rfl rfl rfl

omit [Sha256] [AvailabilityWire] in
theorem Reported.request (h : s.Reported) {k : OutboundRequestId} {request : OutboundProofRequest}
    {requestId : ProofRequestId} (hk : k ∉ s.accepted.map (·.1))
    (houtbound : t.driver.outboundRequests = s.driver.outboundRequests.insert k request)
    (haccepted : t.accepted = s.accepted ++ [(k, requestId)]) (hreported : t.reported = s.reported) : t.Reported := by
  have hfresh : ∀ requestId', (k, requestId') ∉ s.accepted := fun requestId' hmem => hk (List.mem_map.2 ⟨_, hmem, rfl⟩)
  constructor
  · intro k' n n' hn hn'
    simp only [haccepted, List.mem_append, List.mem_singleton, Prod.mk.injEq] at hn hn'
    rcases hn with hn | ⟨rfl, rfl⟩
    · rcases hn' with hn' | ⟨rfl, rfl⟩
      · exact h.identified k' n n' hn hn'
      · exact absurd hn (hfresh n)
    · rcases hn' with hn' | ⟨-, rfl⟩
      · exact absurd hn' (hfresh n')
      · rfl
  · intro k' hmem
    rw [hreported] at hmem
    rw [haccepted, List.map_append]
    exact List.mem_append_left _ (h.known k' hmem)
  · intro k' hmem
    rw [hreported] at hmem
    have hne : k' ≠ k := by
      rintro rfl
      exact hk (h.known _ hmem)
    rw [houtbound, AList.lookup_insert_ne hne]
    exact h.ended k' hmem
  · intro k' hmem hnot
    rw [hreported] at hnot
    rw [houtbound]
    by_cases hne : k' = k
    · rw [hne, AList.lookup_insert]
      rfl
    · rw [AList.lookup_insert_ne hne]
      refine h.outstanding k' ?_ hnot
      simpa [haccepted, hne] using hmem

theorem Reported.report (h : s.Reported) {event : SwarmEvent} {driver : Driver} {emitted : Option DriverEvent}
    (hfaithful : ∀ k ∈ event.terminal, k ∈ s.accepted.map (·.1) ∧ k ∉ s.reported)
    (heq : s.driver.handleSwarmEvent event = .ok (driver, emitted)) (hdriver : t.driver = driver)
    (haccepted : t.accepted = s.accepted) (hreported : t.reported = s.reported ++ event.terminal.toList) :
    t.Reported := by
  cases hterminal : event.terminal with
  | none =>
    rw [hterminal] at hreported
    refine h.of_same ?_ haccepted (hreported.trans (List.append_nil _))
    rw [hdriver]
    rcases (s.driver.handleSwarmEvent_move heq).outbound with ⟨houtbound, -⟩ | ⟨_, _, _, e, -, -, -, -, rfl, hanswered⟩
    · exact houtbound
    · -- an answer is emitted for a reported end only
      rw [s.driver.handleSwarmEvent_unanswered heq hterminal] at hanswered
      cases hanswered
  | some k =>
    obtain ⟨hknown, hopen⟩ := hfaithful k hterminal
    obtain ⟨request, hlookup⟩ := Option.isSome_iff_exists.1 (h.outstanding k hknown hopen)
    obtain ⟨availability, e, peer, hended, -⟩ := s.driver.handleSwarmEvent_ended hterminal hlookup
    have houtbound : t.driver.outboundRequests = s.driver.outboundRequests.erase k := by
      rw [hended] at heq
      cases heq
      rw [hdriver]
      rfl
    have hmem : ∀ k', k' ∈ t.reported ↔ k' ∈ s.reported ∨ k' = k := by
      intro k'
      simp [hreported, hterminal]
    constructor
    · rw [haccepted]
      exact h.identified
    · intro k' hk'
      rw [haccepted]
      rcases (hmem k').1 hk' with hk' | rfl
      · exact h.known k' hk'
      · exact hknown
    · intro k' hk'
      rw [houtbound]
      by_cases hne : k' = k
      · rw [hne, AList.lookup_erase]
      · rw [AList.lookup_erase_ne hne]
        exact h.ended k' (((hmem k').1 hk').resolve_right hne)
    · intro k' hk' hnot
      rw [hmem, not_or] at hnot
      rw [haccepted] at hk'
      rw [houtbound, AList.lookup_erase_ne hnot.2]
      exact h.outstanding k' hk' hnot.1

theorem Reported.step {a : DriverAction} (h : s.Reported) (hfaithful : s.Faithful a) (hstep : TaskStep s a t) :
    t.Reported := by
  cases hstep with
  | command net caller command driver replies hfree hid hmove =>
    refine Reported.finishRound ?_
    cases hmove with
    | requested peer id _ _ hnew => exact h.request hfaithful.2 rfl rfl rfl
    | answered _ _ reply hreply | responded _ _ reply hreply =>
      exact h.of_same rfl (by simp [requestIds_single hreply]) rfl
    | queried | replaced | drain => exact h.of_same rfl (List.append_nil _) rfl
  | swarmQuiet event driver hfree heq => exact Reported.finishRound (h.report hfaithful heq rfl rfl rfl)
  | swarmEmit event driver emitted hfree heq => exact h.report hfaithful heq rfl rfl rfl
  | delayedResponse | expireQueries => exact Reported.finishRound (h.of_same rfl rfl rfl)
  | emit _ _ _ driver _ hdriver =>
    refine Reported.finishRound ?_
    rcases hdriver with rfl | ⟨requestId, rfl⟩ <;> exact h.of_same rfl rfl rfl

omit [Sha256] [AvailabilityWire] in
/-- An accepted request has one answer once libp2p has reported its end, and none before. -/
theorem Correlated.answers_eq (h : s.Correlated) (hreported : s.Reported) {k : OutboundRequestId}
    {requestId : ProofRequestId} (haccepted : (k, requestId) ∈ s.accepted) :
    s.answers requestId = if k ∈ s.reported then 1 else 0 := by
  split_ifs with hk
  · refine h.answered k requestId haccepted fun request hlookup => ?_
    rw [hreported.ended k hk] at hlookup
    cases hlookup
  · obtain ⟨request, hlookup⟩ :=
      Option.isSome_iff_exists.1 (hreported.outstanding k (List.mem_map.2 ⟨_, haccepted, rfl⟩) hk)
    rw [hreported.identified k requestId request.applicationId haccepted (h.known k request hlookup)]
    exact h.awaited k request hlookup

/-! ### What the state of the driver says -/

omit [Sha256] [AvailabilityWire] in
structure Draining (s : DriverTask) : Prop where
  /-- a round ends with a drain that is over -/
  unsettled : s.emitting = none → ∀ c, s.driver.state = .draining c → ¬ s.driver.Settled
  settled : s.driver.state = .drained → s.driver.Settled ∧ s.emitting = none

omit [Sha256] [AvailabilityWire] in
theorem draining_finishRound (hemitting : s.emitting = none) (h : s.driver.state = .drained → s.driver.Settled) :
    s.finishRound.Draining := by
  rcases s.finishRound_cases with ⟨hsame, hopen⟩ | ⟨c, -, hsettled, hdrained⟩
  · rw [hsame]
    exact ⟨fun _ => hopen, fun hstate => ⟨h hstate, hemitting⟩⟩
  · rw [hdrained]
    exact ⟨(fun _ _ hstate => nomatch hstate), fun _ => ⟨hsettled, hemitting⟩⟩

theorem Draining.step {a : DriverAction} (h : s.Draining) (hstep : TaskStep s a t) : t.Draining := by
  -- a drained driver has no exchange, and gets none
  have hkept : ∀ {driver : Driver}, driver.state = s.driver.state →
    (s.driver.state ≠ .running → driver.Within s.driver) →
      driver.state = .drained → driver.Settled := by
    intro driver hsame hwithin hdrained
    rw [hsame] at hdrained
    exact (h.settled hdrained).1.of_within (hwithin (by rw [hdrained]; simp))
  cases hstep with
  | command net caller command driver replies hfree hid hmove =>
    refine draining_finishRound hfree fun hdrained => ?_
    rcases hmove.state with ⟨hsame, -⟩ | ⟨-, -, hdraining, -⟩
    · exact hkept hsame hmove.within hdrained
    · cases hdrained.symm.trans hdraining
  | swarmQuiet event driver hfree heq =>
    exact draining_finishRound hfree
      (hkept (s.driver.handleSwarmEvent_state heq) (s.driver.handleSwarmEvent_move heq).within)
  | swarmEmit event driver emitted hfree heq =>
    refine ⟨(fun hnone => nomatch hnone), fun hdrained => ?_⟩
    -- only a driver with a request emits an event here
    change driver.state = .drained at hdrained
    rw [s.driver.handleSwarmEvent_state heq] at hdrained
    obtain ⟨k, request, hlookup⟩ :=
      (s.driver.handleSwarmEvent_move heq).outbound_of_emitted (by rw [hdrained]; simp)
    rw [(h.settled hdrained).1.2.1] at hlookup
    simp at hlookup
  | delayedResponse i hfree =>
    refine draining_finishRound hfree (hkept rfl fun _ => ?_)
    exact { Driver.Within.refl s.driver with delayed := List.eraseIdx_sublist _ _ }
  | expireQueries now hfree =>
    exact draining_finishRound hfree fun hdrained => (h.settled hdrained).1
  | emit _ _ _ driver _ hdriver =>
    refine draining_finishRound rfl ?_
    rcases hdriver with rfl | ⟨requestId, rfl⟩
    · exact hkept rfl fun _ => Driver.Within.refl _
    · exact hkept rfl fun _ => Driver.within_erase_inbound requestId

/-! ### The reply to a drain -/

omit [Sha256] [AvailabilityWire] in
/-- The client that was the first to ask for a drain. -/
def drainCaller (s : DriverTask) : Option Caller := (s.commands.find? fun entry => entry.2 = .drain).map (·.1)

omit [Sha256] [AvailabilityWire] in
def repliesTo (s : DriverTask) (caller : Caller) : List (Except Error Reply) :=
  s.replies.filterMap fun entry => if entry.1 = caller then some entry.2 else none

omit [Sha256] [AvailabilityWire] in
/-- A drain is answered when it is over. -/
structure Answered (s : DriverTask) : Prop where
  callers : ∀ c reply, (c, reply) ∈ s.replies → c ∈ s.commands.map (·.1)
  running : s.driver.state = .running → s.drainCaller = none
  draining : ∀ c, s.driver.state = .draining c → s.drainCaller = some c ∧ s.repliesTo c = []
  drained : s.driver.state = .drained → ∃ c, s.drainCaller = some c ∧ s.repliesTo c = [.ok .unit]

omit [Sha256] [AvailabilityWire] in
theorem mem_of_drainCaller {c : Caller} (h : s.drainCaller = some c) : c ∈ s.commands.map (·.1) := by
  obtain ⟨entry, hfind, rfl⟩ := Option.map_eq_some_iff.1 h
  exact List.mem_map.2 ⟨entry, List.mem_of_find?_eq_some hfind, rfl⟩

omit [Sha256] [AvailabilityWire] in
theorem drainCaller_append {caller : Caller} {command : DriverCommand}
    (hcommands : t.commands = s.commands ++ [(caller, command)]) :
    t.drainCaller = (s.drainCaller <|> if command = .drain then some caller else none) := by
  unfold drainCaller
  rw [hcommands, List.find?_append]
  cases s.commands.find? fun entry => decide (entry.2 = .drain) with
  | some entry => rfl
  | none => by_cases hdrain : command = .drain <;> simp [hdrain]

omit [Sha256] [AvailabilityWire] in
theorem repliesTo_append {replies : Replies} (hreplies : t.replies = s.replies ++ replies) (caller : Caller) :
    t.repliesTo caller =
      s.repliesTo caller ++ replies.filterMap fun entry => if entry.1 = caller then some entry.2 else none := by
  unfold repliesTo
  rw [hreplies, List.filterMap_append]

omit [Sha256] [AvailabilityWire] in
/-- Nobody gets a reply without a command. -/
theorem Answered.repliesTo_eq_nil (h : s.Answered) {c : Caller} (hc : c ∉ s.commands.map (·.1)) :
    s.repliesTo c = [] := by
  unfold repliesTo
  rw [List.filterMap_eq_nil_iff]
  rintro ⟨c', reply⟩ hmem
  refine if_neg ?_
  rintro rfl
  exact hc (h.callers _ reply hmem)

omit [Sha256] [AvailabilityWire] in
theorem Answered.of_same (h : s.Answered) (hstate : t.driver.state = s.driver.state)
    (hcommands : t.commands = s.commands) (hreplies : t.replies = s.replies) : t.Answered := by
  have hcaller : t.drainCaller = s.drainCaller := by
    unfold drainCaller
    rw [hcommands]
  have hto : ∀ c, t.repliesTo c = s.repliesTo c := by
    intro c
    unfold repliesTo
    rw [hreplies]
  constructor
  · rw [hreplies, hcommands]
    exact h.callers
  · rw [hstate, hcaller]
    exact h.running
  · simp only [hstate, hcaller, hto]
    exact h.draining
  · simp only [hstate, hcaller, hto]
    exact h.drained

omit [Sha256] [AvailabilityWire] in
theorem Answered.finishRound (h : s.Answered) : s.finishRound.Answered := by
  rcases s.finishRound_cases with ⟨hsame, -⟩ | ⟨c, hstate, -, hdrained⟩
  · rwa [hsame]
  · obtain ⟨hcaller, hnone⟩ := h.draining c hstate
    rw [hdrained]
    constructor
    · intro c' reply hmem
      rcases List.mem_append.1 hmem with hmem | hmem
      · exact h.callers c' reply hmem
      · cases List.mem_singleton.1 hmem
        exact mem_of_drainCaller hcaller
    · exact (fun hrunning => nomatch hrunning)
    · exact (fun _ hdraining => nomatch hdraining)
    · intro _
      refine ⟨c, hcaller, ?_⟩
      rw [repliesTo_append (s := s) rfl, hnone]
      simp

omit [Sha256] [AvailabilityWire] in
theorem Answered.command (h : s.Answered) {net : NetworkOutcome} {caller : Caller} {command : DriverCommand}
    {driver : Driver} {replies : Replies} (hcaller : caller ∉ s.commands.map (·.1))
    (hmove : CommandMove s.driver net caller command driver replies) (hdriver : t.driver = driver)
    (hcommands : t.commands = s.commands ++ [(caller, command)]) (hreplies : t.replies = s.replies ++ replies) :
    t.Answered := by
  -- the first client to drain keeps its place and gets no other reply
  have hfirst : ∀ c, s.drainCaller = some c → t.drainCaller = some c ∧ t.repliesTo c = s.repliesTo c := by
    intro c hc
    have hnone : (replies.filterMap fun entry => if entry.1 = c then some entry.2 else none) = [] := by
      rw [List.filterMap_eq_nil_iff]
      rintro ⟨c', reply⟩ hmem
      refine if_neg ?_
      rintro rfl
      rw [hmove.replies_caller _ reply hmem] at hc
      exact hcaller (mem_of_drainCaller hc)
    constructor
    · rw [drainCaller_append hcommands, hc]
      rfl
    · rw [repliesTo_append hreplies, hnone, List.append_nil]
  have hcallers : ∀ c reply, (c, reply) ∈ t.replies → c ∈ t.commands.map (·.1) := by
    intro c reply hmem
    rw [hreplies, List.mem_append] at hmem
    rw [hcommands, List.map_append, List.mem_append]
    rcases hmem with hmem | hmem
    · exact .inl (h.callers c reply hmem)
    · exact .inr (by simp [hmove.replies_caller c reply hmem])
  subst hdriver
  rcases hmove.state with ⟨hsame, hnot⟩ | ⟨hrunning, rfl, hdraining, rfl⟩
  · refine ⟨hcallers, fun hrunning => ?_, fun c hdraining => ?_, fun hdrained => ?_⟩
    · rw [hsame] at hrunning
      rw [drainCaller_append hcommands, h.running hrunning, if_neg (hnot hrunning)]
      rfl
    · rw [hsame] at hdraining
      obtain ⟨hc, hnone⟩ := h.draining c hdraining
      exact ⟨(hfirst c hc).1, (hfirst c hc).2.trans hnone⟩
    · rw [hsame] at hdrained
      obtain ⟨c, hc, hreply⟩ := h.drained hdrained
      exact ⟨c, (hfirst c hc).1, (hfirst c hc).2.trans hreply⟩
  · refine ⟨hcallers, fun hrunning => ?_, fun c hc => ?_, fun hdrained => ?_⟩
    · cases hdraining.symm.trans hrunning
    · cases hdraining.symm.trans hc
      refine ⟨by rw [drainCaller_append hcommands, h.running hrunning]; rfl, ?_⟩
      rw [repliesTo_append hreplies, h.repliesTo_eq_nil hcaller]
      rfl
    · cases hdraining.symm.trans hdrained

theorem Answered.step {a : DriverAction} (h : s.Answered) (hfaithful : s.Faithful a) (hstep : TaskStep s a t) :
    t.Answered := by
  cases hstep with
  | command net caller command driver replies hfree hid hmove =>
    exact Answered.finishRound (h.command hfaithful.1 hmove rfl rfl rfl)
  | swarmQuiet event driver hfree heq =>
    exact Answered.finishRound (h.of_same (s.driver.handleSwarmEvent_state heq) rfl rfl)
  | swarmEmit event driver emitted hfree heq => exact h.of_same (s.driver.handleSwarmEvent_state heq) rfl rfl
  | delayedResponse | expireQueries => exact Answered.finishRound (h.of_same rfl rfl rfl)
  | emit _ _ _ driver _ hdriver =>
    refine Answered.finishRound ?_
    rcases hdriver with rfl | ⟨requestId, rfl⟩ <;> exact h.of_same rfl rfl rfl

omit [Sha256] [AvailabilityWire] in
theorem Answered.repliesTo_eq (h : s.Answered) {c : Caller} (hc : s.drainCaller = some c) :
    s.repliesTo c = if s.driver.state = .drained then [.ok .unit] else [] := by
  cases hstate : s.driver.state with
  | running =>
    rw [h.running hstate] at hc
    cases hc
  | draining c' =>
    obtain ⟨hc', hnone⟩ := h.draining c' hstate
    cases hc'.symm.trans hc
    simpa using hnone
  | drained =>
    obtain ⟨c', hc', hreply⟩ := h.drained hstate
    cases hc'.symm.trans hc
    simpa using hreply

/-! ### Every run -/

section

variable {config : P2pConfig} {localPeerId : PeerId} {validators : Finset PeerId} {listeners : Finset Nat}

theorem reachable_correlated (h : (lts config localPeerId validators listeners).Reachable s) :
    s.Correlated ∧ s.Draining := by
  refine h.invariant (P := fun s => s.Correlated ∧ s.Draining) ?_ ?_
  · rintro s rfl
    constructor
    · constructor <;> simp [initial, Driver.build, answers]
    · exact ⟨(by rintro _ _ ⟨⟩), (by rintro ⟨⟩)⟩
  · rintro s a t - ⟨hcorrelated, hdraining⟩ hstep
    exact ⟨hcorrelated.step (next_step hstep), hdraining.step (next_step hstep)⟩

theorem reachable_reported (h : ((lts config localPeerId validators listeners).restrict Faithful).Reachable s) :
    s.Reported ∧ s.Answered := by
  refine h.invariant (P := fun s => s.Reported ∧ s.Answered) ?_ ?_
  · rintro s rfl
    constructor
    · constructor <;> simp [initial]
    · constructor <;> simp [initial, Driver.build, drainCaller]
  · rintro s a t - ⟨hreported, hanswered⟩ ⟨hstep, hfaithful⟩
    exact ⟨hreported.step hfaithful (next_step hstep), hanswered.step hfaithful (next_step hstep)⟩

end

end DriverTask

end PulsarVerifier
