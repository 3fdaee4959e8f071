import PulsarVerifier.P2p.Protocol
import PulsarVerifier.P2p.Wire
import PulsarVerifier.Store.Invariant

/-!
# Driver and worker can wait for each other

The driver that emits an event into a full channel waits for the worker; the worker that has called the driver waits
for the reply.  Both can happen at once: while the worker is in a call, nothing but the capacity of the event channel
limits what the driver emits.  A state in which both wait is reached for every capacity (`deadlock_reachable`) and never
left (`Deadlocked.run`).

It is not reached if the driver begins to emit only while there is room or the worker is between two handlers, and the
worker takes a driver event first whenever the driver is suspended (`no_deadlock`).
-/

namespace PulsarVerifier

/-- The worker is between two handlers, or its task is over. -/
def Worker.atRest (w : Worker) : Bool :=
  match w.control with
  | .idle | .returned _ | .panicked _ => true
  | _ => false

namespace P2pSystem

/-- The driver waits for room in the event channel. -/
def suspendedInEmit (s : P2pSystem) : Bool :=
  s.emitting.isSome && decide (s.driver.config.eventBuffer ≤ s.events.length)

/-- The worker waits in `DriverClient::call`, for room in the mailbox or for the reply. -/
def suspendedInCall (s : P2pSystem) : Bool :=
  match s.worker.control with
  | .sending _ _ => true
  | .waiting _ => s.reply.isNone
  | _ => false

def Deadlocked (s : P2pSystem) : Prop := s.suspendedInEmit = true ∧ s.suspendedInCall = true

instance (s : P2pSystem) : Decidable s.Deadlocked := inferInstanceAs (Decidable (_ ∧ _))

theorem suspendedInEmit_iff {s : P2pSystem} :
    s.suspendedInEmit = true ↔ s.emitting.isSome ∧ s.driver.config.eventBuffer ≤ s.events.length := by
  simp [suspendedInEmit]

theorem suspendedInCall_iff {s : P2pSystem} :
    s.suspendedInCall = true ↔ (∃ command call, s.worker.control = .sending command call) ∨
      ∃ call, s.worker.control = .waiting call ∧ s.reply = none := by
  unfold suspendedInCall
  split <;> simp_all

section

variable [Sha256] [AvailabilityWire] {s t : P2pSystem} {store : ProofStore} {config : P2pConfig}
  {localPeerId : PeerId} {validators : Finset PeerId} {listeners : Finset Nat} {capacity : Nat}

/-! ### A deadlock is for ever -/

omit [Sha256] [AvailabilityWire] in
private theorem control_ne {control : Control} (h : s.suspendedInCall = true) (hcontrol : s.worker.control = control)
    (hsending : ∀ command call, control ≠ .sending command call) (hwaiting : ∀ call, control ≠ .waiting call) :
    False := by
  rcases suspendedInCall_iff.1 h with ⟨command, call, hc⟩ | ⟨call, hc, -⟩
  · exact hsending command call (hcontrol ▸ hc)
  · exact hwaiting call (hcontrol ▸ hc)

/-- While both wait, no step of the system ends the wait of either. -/
theorem Deadlocked.step {a : P2pAction} (h : s.Deadlocked) (hp : s.Protocol) (hstep : P2pStep s a t) :
    t.Deadlocked := by
  obtain ⟨hemit, hcall⟩ := h
  obtain ⟨hemitting, hfull⟩ := suspendedInEmit_iff.1 hemit
  have hresult : s.driverResult = none := hp.emitting hemitting
  have hbusy : ¬ s.driverFree = true := by
    simp only [driverFree, Bool.and_eq_true, Option.isNone_iff_eq_none]
    rintro ⟨hnone, -⟩
    rw [hnone] at hemitting
    cases hemitting
  have hidle : s.worker.control ≠ .idle :=
    fun hidle => control_ne hcall hidle (by rintro _ _ ⟨⟩) (by rintro _ ⟨⟩)
  have hstore : ∀ access, s.worker.control ≠ .store access :=
    fun access hstore => control_ne hcall hstore (by rintro _ _ ⟨⟩) (by rintro _ ⟨⟩)
  cases hstep with
  | operation | evict | publish | tick | requestStop | submit | workerFlush => exact ⟨hemit, hcall⟩
  -- the driver has no round while it emits, and there is no room for its event
  | driverCommand _ _ _ _ _ hfree | swarmError _ _ hfree | swarmQuiet _ _ hfree | swarmEmit _ _ _ hfree
  | delayedResponse _ hfree | expireQueries hfree => exact absurd hfree hbusy
  | emitSent _ _ _ _ hroom => omega
  | emitDropped _ _ _ hended =>
    exfalso
    unfold Worker.ended at hended
    split at hended
    · rename_i hc
      exact control_ne hcall hc (by rintro _ _ ⟨⟩) (by rintro _ ⟨⟩)
    · rename_i hc
      exact control_ne hcall hc (by rintro _ _ ⟨⟩) (by rintro _ ⟨⟩)
    · cases hended
  -- the worker can put its command into the mailbox, where it stays
  | send command call hcontrol =>
    have hreply : s.reply = none := by
      by_contra hne
      obtain ⟨call', hc⟩ := hp.replied (Option.isSome_iff_ne_none.2 hne)
      rw [hcontrol] at hc
      cases hc
    exact ⟨hemit, suspendedInCall_iff.2 (.inr ⟨call, rfl, hreply⟩)⟩
  | sendClosed _ _ _ hdriver =>
    rw [hresult] at hdriver
    cases hdriver
  | reply _ _ _ call _ _ hcontrol hreply =>
    exfalso
    rcases suspendedInCall_iff.1 hcall with ⟨command, call', hc⟩ | ⟨call', -, hnone⟩
    · rw [hcontrol] at hc
      cases hc
    · simp [replyToWorker, hnone, hresult] at hreply
  | selectStop h | selectDriverEvent _ _ _ h | selectDriverClosed h | selectTurn _ _ h | selectStoreEvent _ _ h
  | selectLagged _ h | selectWake _ _ h | drainStoreEvent _ _ h | drained h => exact absurd h hidle
  | getProof _ _ _ h | attach _ _ _ _ _ h | attached _ _ _ _ _ h | localSnapshot _ h | waitingSnapshot _ h
  | get _ _ _ h => exact absurd h (hstore _)

/-- A reachable deadlock is never left. -/
theorem Deadlocked.run {as : List P2pAction} (h : s.Deadlocked)
    (hs : (lts store config localPeerId validators listeners capacity).Reachable s)
    (hrun : (lts store config localPeerId validators listeners capacity).Run s as t) : t.Deadlocked := by
  have hinv : t.Deadlocked ∧ t.Protocol :=
    hrun.invariant (P := fun s => s.Deadlocked ∧ s.Protocol)
      (fun hs hstep => ⟨hs.1.step hs.2 (next_step hstep), hs.2.step (next_step hstep)⟩) ⟨h, run_protocol hs⟩
  exact hinv.1

/-! ### Every capacity can be filled -/

omit [Sha256] [AvailabilityWire] in
private theorem finishRound_running (h : s.driver.state = .running) : s.finishRound = s := by
  simp [finishRound, Driver.finishDrain, h, deliver]

/-- The worker has called the driver at the start of `run`, and the driver has emitted `events` since. -/
private def flooded (store : ProofStore) (config : P2pConfig) (localPeerId : PeerId) (validators : Finset PeerId)
    (listeners : Finset Nat) (capacity : Nat) (events : List DriverEvent) : P2pSystem :=
  let local_ := store.locallyAvailableProofs
  { initial store config localPeerId validators listeners capacity with
    mailbox := [(.worker, .replaceLocalProofs local_)], events
    worker := (Worker.new localPeerId config).goto (.waiting (.replaceLocalProofs local_)) }

/-- Whatever the capacities are: connections that are established while the worker waits for its first reply fill the
event channel, and the next one suspends the driver. -/
theorem deadlock_reachable (hcommand : 1 ≤ config.commandBuffer) :
    ∃ s, (lts store config localPeerId validators listeners capacity).Reachable s ∧ s.Deadlocked := by
  obtain ⟨peer, hpeer⟩ : ∃ peer : PeerId, peer ≠ localPeerId := by
    by_cases h : (⟨[]⟩ : PeerId) = localPeerId
    · exact ⟨⟨[0]⟩, by rw [← h]; simp⟩
    · exact ⟨⟨[]⟩, h⟩
  have hcalled : (lts store config localPeerId validators listeners capacity).Reachable
      (flooded store config localPeerId validators listeners capacity []) := by
    have hcall : next (initial store config localPeerId validators listeners capacity)
        (.workerStore store.locallyAvailableProofs) =
          some { initial store config localPeerId validators listeners capacity with
            worker := (Worker.new localPeerId config).call (.replaceLocalProofs store.locallyAvailableProofs)
              (.replaceLocalProofs store.locallyAvailableProofs) } := by
      have hperm : store.locallyAvailableProofs.isPerm store.locallyAvailableProofs = true :=
        List.isPerm_iff.2 (List.Perm.refl _)
      simp [next, workerStore, initial, Worker.new, hperm]
    refine ((Lts.Reachable.of_init rfl).step hcall).step (a := .workerSend) ?_
    have hroom : 0 < config.commandBuffer := hcommand
    simp [lts, Lts.ofNext, next, workerSend, initial, Worker.call, Worker.goto, Driver.build, flooded, hroom]
  -- one round of the driver emits one event, as long as there is room
  have hemitting : ∀ n, next (flooded store config localPeerId validators listeners capacity
      (List.replicate n (.peerConnected peer))) (.swarmEvent (.connectionEstablished peer)) =
        some { flooded store config localPeerId validators listeners capacity
          (List.replicate n (.peerConnected peer)) with emitting := some (.peerConnected peer) } := by
    intro n
    simp [next, swarmEvent, flooded, initial, driverFree, SwarmEvent.remote, Driver.build, hpeer,
      Driver.handleSwarmEvent, Driver.whenRunning, Driver.isRunning]
  have hfill : ∀ n ≤ config.eventBuffer, (lts store config localPeerId validators listeners capacity).Reachable
      (flooded store config localPeerId validators listeners capacity (List.replicate n (.peerConnected peer))) := by
    intro n
    induction n with
    | zero => intro _; exact hcalled
    | succ n ih =>
      intro hn
      refine ((ih (by omega)).step (hemitting n)).step (a := .emit
        ⟨.ok (), true, ⟨⟨List.replicate 16 0, rfl⟩⟩, 0, 0⟩) ?_
      have hroom : n < config.eventBuffer := hn
      simp only [lts, Lts.ofNext, next, emit, flooded, initial, Worker.ended, Worker.goto, Driver.build]
      simp only [Bool.false_eq_true, if_false, List.length_replicate, hroom, if_true]
      rw [finishRound_running rfl, List.replicate_succ']
  refine ⟨_, (hfill config.eventBuffer le_rfl).step (hemitting config.eventBuffer), ?_, rfl⟩
  simp [suspendedInEmit, flooded, initial, Driver.build]

/-! ### When the driver leaves the worker room -/

/-- The handling of this swarm event ends in `emit`. -/
def emits (s : P2pSystem) (event : SwarmEvent) : Bool :=
  match s.driver.handleSwarmEvent event with
  | .ok (_, some _) => true
  | _ => false

/-- The driver takes a swarm event that makes it emit only while there is room in the event channel or the worker is at
rest; while it is suspended the running worker takes driver events, or the request to stop, and nothing else. -/
def Yields (s : P2pSystem) : P2pAction → Prop
  | .swarmEvent event =>
    s.emits event = true → s.events.length < s.driver.config.eventBuffer ∨ s.worker.atRest = true
  | .workerSelect pick =>
    s.suspendedInEmit = true → s.mode = .running → pick = .driverEvent ∨ pick = .stop
  | _ => True

instance (s : P2pSystem) (a : P2pAction) : Decidable (s.Yields a) := by
  cases a <;> unfold Yields <;> infer_instance

/-- The event channel is not overfull, and the driver is suspended only while the worker is at rest. -/
structure Flowing (s : P2pSystem) : Prop where
  room : s.events.length ≤ s.driver.config.eventBuffer
  rest : s.suspendedInEmit = true → s.worker.atRest = true

omit [Sha256] [AvailabilityWire] in
private theorem Flowing.of_free (hroom : s.events.length ≤ s.driver.config.eventBuffer)
    (hemitting : s.emitting = none) :
    s.Flowing := by
  refine ⟨hroom, fun hsuspended => ?_⟩
  rw [suspendedInEmit_iff, hemitting] at hsuspended
  cases hsuspended.1

omit [Sha256] [AvailabilityWire] in
private theorem Flowing.of_room (hroom : s.events.length ≤ s.driver.config.eventBuffer)
    (hsuspended : ¬ s.suspendedInEmit = true) : s.Flowing :=
  ⟨hroom, fun h => absurd h hsuspended⟩

omit [Sha256] [AvailabilityWire] in
private theorem Flowing.round (hroom : s.events.length ≤ s.driver.config.eventBuffer) (hemitting : s.emitting = none) :
    s.finishRound.Flowing := by
  obtain ⟨state, reply, answers, hround⟩ := finishRound_frame s
  rw [hround]
  exact .of_free hroom hemitting

omit [Sha256] [AvailabilityWire] in
private theorem eventBuffer_eq {d d' : Driver} (h : d'.node = d.node) :
    d'.config.eventBuffer = d.config.eventBuffer := by
  have hconfig : d'.config = d.config := congrArg Prod.fst h
  rw [hconfig]

theorem Flowing.step {a : P2pAction} (h : s.Flowing) (hyields : s.Yields a) (hstep : P2pStep s a t) : t.Flowing := by
  -- a worker that is not at rest takes its steps while the driver is not suspended
  have hbusy : ∀ control, s.worker.control = control → (∀ w : Worker, w.control = control → w.atRest = false) →
      ¬ s.suspendedInEmit = true := by
    intro control hcontrol hnot hsuspended
    have hrest := h.rest hsuspended
    rw [hnot s.worker hcontrol] at hrest
    cases hrest
  have hsending : ∀ command call, s.worker.control = .sending command call → ¬ s.suspendedInEmit = true :=
    fun command call hc => hbusy _ hc (fun w hw => by simp [Worker.atRest, hw])
  have hwaiting : ∀ call, s.worker.control = .waiting call → ¬ s.suspendedInEmit = true :=
    fun call hc => hbusy _ hc (fun w hw => by simp [Worker.atRest, hw])
  have hstore : ∀ access, s.worker.control = .store access → ¬ s.suspendedInEmit = true :=
    fun access hc => hbusy _ hc (fun w hw => by simp [Worker.atRest, hw])
  cases hstep with
  | operation | evict | publish | tick | requestStop | submit | workerFlush | swarmError | selectTurn
  | drainStoreEvent => exact ⟨h.room, h.rest⟩
  | driverCommand net caller command rest _ hfree _ _ ht =>
    obtain ⟨state, reply, answers, rfl⟩ := commandRound_frame ht
    apply Flowing.of_free
    · change s.events.length ≤ (s.driver.handleCommand { net with now := s.now } caller command).1.config.eventBuffer
      rw [eventBuffer_eq (s.driver.handleCommand_node _ caller command)]
      exact h.room
    · exact (driverFree_iff.1 hfree).1
  | swarmQuiet event driver hfree _ hmove =>
    apply Flowing.round
    · change s.events.length ≤ driver.config.eventBuffer
      rw [eventBuffer_eq (s.driver.handleSwarmEvent_node hmove)]
      exact h.room
    · exact (driverFree_iff.1 hfree).1
  | swarmEmit event driver emitted _ _ hmove =>
    have hconfig := eventBuffer_eq (s.driver.handleSwarmEvent_node hmove)
    have hemits : s.emits event = true := by simp [emits, hmove]
    refine ⟨?_, fun hsuspended => ?_⟩
    · change s.events.length ≤ driver.config.eventBuffer
      rw [hconfig]
      exact h.room
    · rcases hyields hemits with hroom | hrest
      · have hfull : driver.config.eventBuffer ≤ s.events.length := (suspendedInEmit_iff.1 hsuspended).2
        omega
      · exact hrest
  | delayedResponse i hfree | expireQueries hfree => exact Flowing.round h.room (driverFree_iff.1 hfree).1
  | emitDropped net event _ _ driver hdriver =>
    apply Flowing.round
    · change s.events.length ≤ driver.config.eventBuffer
      rcases hdriver with ⟨rfl, -⟩ | ⟨requestId, peer, id, -, rfl⟩
      · exact h.room
      · obtain ⟨inbound, heq, -⟩ := s.driver.respondProof_driver { net with now := s.now } requestId none
        rw [heq]
        exact h.room
    · rfl
  | emitSent net event _ _ hroom =>
    apply Flowing.round
    · rw [List.length_append]
      exact hroom
    · rfl
  | selectStop hidle => exact ⟨h.room, fun _ => by simp [Worker.atRest, hidle]⟩
  | selectDriverClosed | drained => exact ⟨h.room, fun _ => rfl⟩
  | selectDriverEvent mode event rest _ _ hevents =>
    -- the event that is taken leaves room for the one the driver emits
    have hlength : rest.length < s.driver.config.eventBuffer := by
      have hroom := h.room
      rw [hevents, List.length_cons] at hroom
      exact hroom
    refine .of_room hlength.le (fun hsuspended => ?_)
    have hfull : s.driver.config.eventBuffer ≤ rest.length := (suspendedInEmit_iff.1 hsuspended).2
    omega
  | selectStoreEvent notice receiver _ hmode =>
    obtain ⟨handled, expired, htaken⟩ := recordTaken_frame { s with receiver } notice
    rw [htaken]
    refine .of_room h.room (fun hsuspended => ?_)
    rcases hyields hsuspended hmode with h | h <;> cases h
  | selectLagged receiver _ hmode | selectWake i wake _ hmode =>
    refine .of_room h.room (fun hsuspended => ?_)
    rcases hyields hsuspended hmode with h | h <;> cases h
  | sendClosed command call hcontrol | send command call hcontrol =>
    exact .of_room h.room (hsending command call hcontrol)
  | reply _ _ _ call _ _ hcontrol => exact .of_room h.room (hwaiting call hcontrol)
  | getProof _ _ _ hcontrol | attach _ _ _ _ _ hcontrol | attached _ _ _ _ _ hcontrol | localSnapshot _ hcontrol
  | waitingSnapshot _ hcontrol | get _ _ _ hcontrol => exact .of_room h.room (hstore _ hcontrol)

/-- No state is a deadlock in a run in which driver and worker yield, whatever the capacities and the order of swarm
events, store events and commands. -/
theorem no_deadlock (store : ProofStore) (config : P2pConfig) (localPeerId : PeerId) (validators : Finset PeerId)
    (listeners : Finset Nat) (capacity : Nat) {s : P2pSystem}
    (h : ((lts store config localPeerId validators listeners capacity).restrict Yields).Reachable s) :
    ¬ s.Deadlocked := by
  have hflowing : s.Flowing := by
    refine h.invariant (P := Flowing) ?_ ?_
    · rintro s rfl
      exact .of_free (Nat.zero_le _) rfl
    · rintro s a t - hs ⟨hstep, hyields⟩
      exact hs.step hyields (next_step hstep)
  rintro ⟨hemit, hcall⟩
  have hrest := hflowing.rest hemit
  unfold Worker.atRest at hrest
  unfold suspendedInCall at hcall
  split at hrest <;> simp_all

end

/-! ### With channels of capacity one -/

/-- The worker has reconciled, a connection has filled the event channel, and a second one has suspended the driver:
the worker is idle and can take the event. -/
theorem no_deadlock_idle :
    letI := Sha256.standard
    letI := AvailabilityWire.standard
    ∃ s, ((lts .small .small .here {.here, .there} {0} 16).restrict Yields).Reachable s ∧
      s.suspendedInEmit = true ∧ ¬ s.Deadlocked := by
  let _ := Sha256.standard
  let _ := AvailabilityWire.standard
  have hexec : (Lts.exec (Lts.guarded next Yields) (initial .small .small .here {.here, .there} {0} 16)
      (reconcile ++ [.swarmEvent (.connectionEstablished .there), .emit .calm,
        .swarmEvent (.connectionEstablished .there)])).any (fun s => s.suspendedInEmit) = true := by
    decide +kernel
  obtain ⟨s, hs, hsuspended⟩ := (Option.any_eq_true _ _).1 hexec
  have hreach : ((lts .small .small .here {.here, .there} {0} 16).restrict Yields).Reachable s :=
    ⟨_, _, rfl, Lts.run_restrict_of_exec hs⟩
  exact ⟨s, hreach, hsuspended, no_deadlock .small .small .here {.here, .there} {0} 16 hreach⟩

/-- The worker waits for the reply to the first call of `reconcile_store`, and two connections are established before
the driver takes the command. -/
theorem deadlock_two_connections :
    letI := Sha256.standard
    letI := AvailabilityWire.standard
    ∃ s, (lts .small .small .here {.here, .there} {0} 16).Run (initial .small .small .here {.here, .there} {0} 16)
        [.workerStore [], .workerSend, .swarmEvent (.connectionEstablished .there), .emit .calm,
          .swarmEvent (.connectionEstablished .there)] s ∧
      s.Deadlocked ∧
      ∀ as t, (lts .small .small .here {.here, .there} {0} 16).Run s as t → t.Deadlocked := by
  let _ := Sha256.standard
  let _ := AvailabilityWire.standard
  have hexec : (Lts.exec next (initial .small .small .here {.here, .there} {0} 16)
      [.workerStore [], .workerSend, .swarmEvent (.connectionEstablished .there), .emit .calm,
        .swarmEvent (.connectionEstablished .there)]).any (fun s => decide s.Deadlocked) = true := by
    decide +kernel
  obtain ⟨s, hs, hdead⟩ := (Option.any_eq_true _ _).1 hexec
  have hrun : (lts .small .small .here {.here, .there} {0} 16).Run _ _ s := Lts.run_of_exec hs
  have hdeadlocked : s.Deadlocked := of_decide_eq_true hdead
  exact ⟨s, hrun, hdeadlocked, fun as t h => hdeadlocked.run ⟨_, _, rfl, hrun⟩ h⟩

end P2pSystem

end PulsarVerifier
