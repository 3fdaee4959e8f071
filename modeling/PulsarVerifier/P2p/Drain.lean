import PulsarVerifier.P2p.DriverTask
import PulsarVerifier.P2p.Resilience

/-!
# Draining the service

The driver of the service is a driver task (`DriverTask`) with the worker among its clients.  A service is shut down by
draining the driver and then stopping the worker; `Conveyed` follows the proofs that the driver has received on their
way to the store, and none of them is left behind when the worker returns.
-/

namespace PulsarVerifier

/-! ### The driver of the service -/

namespace P2pSystem

variable {s t : P2pSystem}

theorem finishRound_driver (s : P2pSystem) :
    s.finishRound.driver = s.driver.finishDrain.1 ∧ s.finishRound.emitting = s.emitting := by
  obtain ⟨reply, answers, hdeliver⟩ := deliver_frame { s with driver := s.driver.finishDrain.1 } s.driver.finishDrain.2
  have hround : s.finishRound = { s with driver := s.driver.finishDrain.1, reply, answers } := hdeliver
  rw [hround]
  exact ⟨rfl, rfl⟩

section

variable [Sha256] [AvailabilityWire]

/-- The driver and the event it emits are those of a driver task. -/
def Runs (s : P2pSystem) (u : DriverTask) : Prop := u.driver = s.driver ∧ u.emitting = s.emitting

theorem Runs.step {u : DriverTask} {a : P2pAction} (h : s.Runs u) (hnext : s.next a = some t) :
    t.Runs u ∨ ∃ b v, u.next b = some v ∧ t.Runs v := by
  obtain ⟨hdriver, hemitting⟩ := h
  have hidle : s.driverFree → u.emitting.isNone = true := by
    intro hfree
    rw [hemitting, (driverFree_iff.1 hfree).1]
    rfl
  -- the end of a round is the same function of the driver in both models
  have hround : ∀ (p : P2pSystem) (v : DriverTask), v.driver = p.driver → v.emitting = p.emitting →
      p.finishRound.Runs v.finishRound := by
    intro p v hdriver hemitting
    obtain ⟨hd, he⟩ := p.finishRound_driver
    exact ⟨by rw [hd, ← hdriver]; rfl, by rw [he, ← hemitting]; rfl⟩
  cases next_step hnext with
  | driverCommand net caller command rest hmailbox hfree hid t ht =>
    have hv : u.next (.command { net with now := s.now } caller command) =
        some (u.execute { net with now := s.now } caller command).finishRound :=
      if_pos ⟨hidle hfree, by rw [hdriver]; exact hid⟩
    obtain ⟨reply, answers, hdeliver⟩ := deliver_frame
      { s with driver := (s.driver.handleCommand { net with now := s.now } caller command).1, mailbox := rest }
      (s.driver.handleCommand { net with now := s.now } caller command).2
    rw [ht, hdeliver]
    exact .inr ⟨_, _, hv, hround _ _ (by rw [← hdriver]; rfl) hemitting⟩
  | swarmQuiet event driver hfree hremote heq =>
    have hv : u.next (.swarmEvent event) =
        some { u with driver, reported := u.reported ++ event.terminal.toList }.finishRound := by
      rw [DriverTask.next, if_pos (hidle hfree), hdriver, heq]
    exact .inr ⟨_, _, hv, hround _ _ rfl hemitting⟩
  | swarmEmit event driver emitted hfree hremote heq =>
    have hv : u.next (.swarmEvent event) = some { u with
        driver, emitting := some emitted, reported := u.reported ++ event.terminal.toList
        emitted := u.emitted ++ [emitted] } := by
      rw [DriverTask.next, if_pos (hidle hfree), hdriver, heq]
    exact .inr ⟨_, _, hv, rfl, rfl⟩
  | delayedResponse i hfree =>
    have hi : i < s.driver.delayedResponses.length := by
      simp only [next, delayedResponse] at hnext
      split_ifs at hnext with hg
      exact hg.2
    have hv : u.next (.delayedResponse i) = some { u with
        driver := { u.driver with delayedResponses := u.driver.delayedResponses.eraseIdx i } }.finishRound :=
      if_pos ⟨hidle hfree, by rwa [hdriver]⟩
    exact .inr ⟨_, _, hv, hround _ _ (by rw [← hdriver]) hemitting⟩
  | expireQueries hfree =>
    have hv : u.next (.expireQueries s.now) = some { u with driver := u.driver.expireQueries s.now }.finishRound :=
      if_pos (hidle hfree)
    exact .inr ⟨_, _, hv, hround _ _ (by rw [← hdriver]) hemitting⟩
  | emitDropped net event hsome hended driver hdropped =>
    have hv : u.next (.emit { net with now := s.now } false) = some { u with
        driver := DriverTask.drop u.driver { net with now := s.now } event, emitting := none }.finishRound := by
      rw [DriverTask.next, hemitting, hsome]
      rfl
    have hdrop : DriverTask.drop u.driver { net with now := s.now } event = driver := by
      rw [hdriver]
      rcases hdropped with ⟨rfl, hrequested⟩ | ⟨requestId, peer, id, rfl, rfl⟩
      · cases event with
        | proofRequested => cases hrequested
        | _ => rfl
      · rfl
    exact .inr ⟨_, _, hv, hround _ _ hdrop rfl⟩
  | emitSent net event hsome hended hroom =>
    have hv : u.next (.emit net true) = some { u with emitting := none }.finishRound := by
      rw [DriverTask.next, hemitting, hsome]
      rfl
    exact .inr ⟨_, _, hv, hround _ _ hdriver rfl⟩
  | selectStoreEvent notice receiver =>
    obtain ⟨handled, expired, htaken⟩ := recordTaken_frame { s with receiver } notice
    rw [htaken]
    exact .inl ⟨hdriver, hemitting⟩
  | _ => exact .inl ⟨hdriver, hemitting⟩

variable {store : ProofStore} {config : P2pConfig} {localPeerId : PeerId} {validators : Finset PeerId}
  {listeners : Finset Nat} {capacity : Nat}

theorem reachable_runs (h : (lts store config localPeerId validators listeners capacity).Reachable s) :
    ∃ u, (DriverTask.lts config localPeerId validators listeners).Reachable u ∧ s.Runs u := by
  refine h.simulates (R := Runs) ?_ (fun hruns hstep => hruns.step hstep)
  rintro s rfl
  exact ⟨_, rfl, rfl, rfl⟩

end

end P2pSystem

/-! ### Proofs on their way to the store -/

/-- A proof that the driver has received for one of its requests. -/
structure ReceivedProof where
  requestId : ProofRequestId
  peer : PeerId
  verificationId : VerificationId
  proof : Proof
  deriving DecidableEq

def DriverEvent.received : DriverEvent → Option ReceivedProof
  | .proofReceived requestId peer id proof => some ⟨requestId, peer, id, proof⟩
  | _ => none

/-- The proof that the worker passes to `attach_downloaded_proof` next. -/
def Control.offering : Control → Option ReceivedProof
  | .store (.attachDownloadedProof requestId peer id proof) => some ⟨requestId, peer, id, proof⟩
  | _ => none

def Control.Failed : Control → Prop
  | .returned (.error _) | .panicked _ => True
  | _ => False

inductive Transfer
  /-- the driver emits `ProofReceived` -/
  | emitted (received : ReceivedProof)
  /-- the worker calls `attach_downloaded_proof` -/
  | offered (received : ReceivedProof)
  deriving DecidableEq

def emittedProofs (transfers : List Transfer) : List ReceivedProof :=
  transfers.filterMap fun
    | .emitted received => some received
    | .offered _ => none

def offeredProofs (transfers : List Transfer) : List ReceivedProof :=
  transfers.filterMap fun
    | .emitted _ => none
    | .offered received => some received

@[simp] theorem emittedProofs_nil : emittedProofs [] = [] := rfl

@[simp] theorem offeredProofs_nil : offeredProofs [] = [] := rfl

@[simp] theorem emittedProofs_emitted (received : Option ReceivedProof) :
    emittedProofs (received.toList.map .emitted) = received.toList := by
  cases received <;> rfl

@[simp] theorem offeredProofs_emitted (received : Option ReceivedProof) :
    offeredProofs (received.toList.map .emitted) = [] := by
  cases received <;> rfl

@[simp] theorem emittedProofs_offered (received : Option ReceivedProof) :
    emittedProofs (received.toList.map .offered) = [] := by
  cases received <;> rfl

@[simp] theorem offeredProofs_offered (received : Option ReceivedProof) :
    offeredProofs (received.toList.map .offered) = received.toList := by
  cases received <;> rfl

theorem Control.offering_of_plain {control : Control} (h : control.Plain) : control.offering = none := by
  cases control with
  | store access =>
    cases access with
    | attachDownloadedProof => cases h.2.2
    | _ => rfl
  | _ => rfl

theorem Worker.offering_handleDriverEvent (w : Worker) (now : Instant) (draining : Bool) (event : DriverEvent) :
    (w.handleDriverEvent now draining event).control.offering = event.received := by
  by_cases hreceived : event.received = none
  · rw [hreceived]
    have hmove := w.handleDriverEvent_move now draining event
    generalize w.handleDriverEvent now draining event = w' at hmove ⊢
    cases hmove with
    | received => cases hreceived
    | finished _ _ _ _ _ _ _ hfinish => exact Control.offering_of_plain hfinish.plain
    | driven _ _ _ _ _ hdriven => exact Control.offering_of_plain hdriven.plain
    | _ => rfl
  · cases event with
    | proofReceived => rfl
    | _ => exact absurd rfl hreceived

namespace P2pSystem

variable {s t : P2pSystem}

/-- What a step does with the proofs that the driver has received. -/
def transfers (s : P2pSystem) (a : P2pAction) (t : P2pSystem) : List Transfer :=
  match a with
  | .swarmEvent _ => (t.emitting.bind DriverEvent.received).toList.map .emitted
  | .workerStore _ => s.worker.control.offering.toList.map .offered
  | _ => []

/-- The proofs between driver and store, the next to be offered first. -/
def onTheWay (s : P2pSystem) : List ReceivedProof :=
  s.worker.control.offering.toList ++ s.events.filterMap DriverEvent.received ++
    (s.emitting.bind DriverEvent.received).toList

theorem onTheWay_eq (hcontrol : t.worker.control.offering = s.worker.control.offering) (hevents : t.events = s.events)
    (hemitting : t.emitting = s.emitting) : t.onTheWay = s.onTheWay := by
  unfold onTheWay
  rw [hcontrol, hevents, hemitting]

/-- A proof leaves the way to the store where it is offered, and nowhere else: the worker that has not failed takes
every event. -/
theorem onTheWay_step [Sha256] [AvailabilityWire] {a : P2pAction} (hstep : P2pStep s a t)
    (hnot : ¬ t.worker.control.Failed) (hreturned : s.worker.control = .returned (.ok ()) → s.emitting = none) :
    s.onTheWay ++ emittedProofs (s.transfers a t) = offeredProofs (s.transfers a t) ++ t.onTheWay := by
  -- a step that shows nothing and keeps what is on the way
  have hkept : ∀ {b : P2pAction} {u : P2pSystem}, s.transfers b u = [] →
      u.worker.control.offering = s.worker.control.offering → u.events = s.events → u.emitting = s.emitting →
      s.onTheWay ++ emittedProofs (s.transfers b u) = offeredProofs (s.transfers b u) ++ u.onTheWay := by
    intro b u hnone hcontrol hevents hemitting
    rw [hnone, onTheWay_eq hcontrol hevents hemitting]
    simp
  have hround : ∀ u : P2pSystem, u.finishRound.worker = u.worker ∧ u.finishRound.events = u.events ∧
      u.finishRound.emitting = u.emitting := by
    intro u
    obtain ⟨state, reply, answers, hu⟩ := u.finishRound_frame
    rw [hu]
    exact ⟨rfl, rfl, rfl⟩
  have hplain : ∀ {b : P2pAction} {u : P2pSystem} {control : Control}, s.worker.control = control →
      control.offering = none → s.transfers b u = [] → u.worker.control.Plain → u.events = s.events →
      u.emitting = s.emitting →
      s.onTheWay ++ emittedProofs (s.transfers b u) = offeredProofs (s.transfers b u) ++ u.onTheWay := by
    intro b u control hcontrol hoffering hnone hplain hevents hemitting
    refine hkept hnone ?_ hevents hemitting
    rw [hcontrol, hoffering, Control.offering_of_plain hplain]
  have hstored : ∀ {snapshot : List VerificationId} {u : P2pSystem} {control : Control}, s.worker.control = control →
      control.offering = none → s.transfers (.workerStore snapshot) u = [] := by
    intro snapshot u control hcontrol hoffering
    simp [transfers, hcontrol, hoffering]
  cases hstep with
  | operation | evict | publish | tick | requestStop | submit | workerFlush | selectTurn | drainStoreEvent =>
    exact hkept rfl rfl rfl rfl
  | driverCommand net caller command rest hmailbox hfree hid t ht =>
    obtain ⟨state, reply, answers, rfl⟩ := commandRound_frame ht
    exact hkept rfl rfl rfl rfl
  | delayedResponse i =>
    obtain ⟨hworker, hevents, hemitting⟩ := hround
      { s with driver := { s.driver with delayedResponses := s.driver.delayedResponses.eraseIdx i } }
    exact hkept rfl (by rw [hworker]) hevents hemitting
  | expireQueries =>
    obtain ⟨hworker, hevents, hemitting⟩ := hround { s with driver := s.driver.expireQueries s.now }
    exact hkept rfl (by rw [hworker]) hevents hemitting
  | swarmError event error hfree =>
    exact hkept (by simp [transfers, (driverFree_iff.1 hfree).1]) rfl rfl rfl
  | swarmQuiet event driver hfree =>
    obtain ⟨hworker, hevents, hemitting⟩ := hround { s with driver }
    have hnone : ({ s with driver } : P2pSystem).finishRound.emitting = none :=
      hemitting.trans (driverFree_iff.1 hfree).1
    refine hkept ?_ (by rw [hworker]) hevents hemitting
    unfold transfers
    rw [hnone]
    rfl
  | swarmEmit event driver emitted hfree =>
    simp [transfers, onTheWay, (driverFree_iff.1 hfree).1]
  | emitDropped net event hemitting hended driver =>
    -- a worker that has returned has no event to wait for
    exfalso
    obtain ⟨hworker, -, -⟩ := hround { s with driver, emitting := none }
    rw [hworker] at hnot
    have hok : s.worker.control = .returned (.ok ()) := by
      unfold Worker.ended at hended
      split at hended
      · rename_i result hcontrol
        cases result with
        | ok => exact hcontrol
        | error error => exact absurd (by rw [hcontrol]; trivial) hnot
      · rename_i message hcontrol
        exact absurd (by rw [hcontrol]; trivial) hnot
      · cases hended
    rw [hreturned hok] at hemitting
    cases hemitting
  | emitSent net event hemitting =>
    obtain ⟨hworker, hevents, hemitted⟩ := hround { s with events := s.events ++ [event], emitting := none }
    have hevent : [event].filterMap DriverEvent.received = event.received.toList := by
      cases hreceived : event.received <;> simp [hreceived]
    change s.onTheWay ++ [] = [] ++ _
    unfold onTheWay
    rw [hworker, hevents, hemitted, hemitting, List.filterMap_append, hevent]
    simp
  | selectStop hidle => exact hkept rfl (by rfl) rfl rfl
  | selectDriverEvent mode event rest hidle houtbox hevents =>
    have hoffering := s.worker.offering_handleDriverEvent s.now mode.draining event
    simp only [transfers, onTheWay, emittedProofs_nil, offeredProofs_nil, hoffering, hidle, hevents,
      List.filterMap_cons]
    cases event.received <;> simp [Control.offering]
  | selectDriverClosed => exact absurd trivial hnot
  | selectStoreEvent notice receiver hidle =>
    obtain ⟨handled, expired, htaken⟩ := recordTaken_frame { s with receiver } notice
    rw [htaken]
    exact hplain hidle rfl rfl Worker.plain_handleStoreEvent rfl rfl
  | selectLagged receiver hidle => exact hplain hidle rfl rfl ⟨rfl, rfl, rfl⟩ rfl rfl
  | selectWake i wake hidle => exact hplain hidle rfl rfl Worker.driven_handleWake.plain rfl rfl
  | drained hidle => exact hplain hidle rfl rfl ⟨rfl, rfl, rfl⟩ rfl rfl
  | sendClosed command call hcontrol | send command call hcontrol =>
    exact hplain hcontrol rfl rfl ⟨rfl, rfl, rfl⟩ rfl rfl
  | reply _ _ _ call reply worker hcontrol _ hresume =>
    exact hplain hcontrol rfl rfl (Worker.resumeCall_move hresume).plain rfl rfl
  | attach snapshot requestId peer id proof hcontrol =>
    simp only [transfers, emittedProofs_offered, offeredProofs_offered]
    simp [onTheWay, hcontrol, Control.offering, Worker.goto]
  | getProof snapshot requestId id hcontrol =>
    refine hkept (hstored hcontrol rfl) ?_ rfl rfl
    rw [hcontrol]
    rfl
  | attached snapshot requestId peer id stored hcontrol =>
    exact hplain hcontrol rfl (hstored hcontrol rfl) Worker.plain_resumeAttached rfl rfl
  | localSnapshot snapshot hcontrol => exact hplain hcontrol rfl (hstored hcontrol rfl) ⟨rfl, rfl, rfl⟩ rfl rfl
  | waitingSnapshot snapshot hcontrol =>
    exact hplain hcontrol rfl (hstored hcontrol rfl) Worker.driven_resumeWaiting.plain rfl rfl
  | get snapshot id rest hcontrol =>
    exact hplain hcontrol rfl (hstored hcontrol rfl) Worker.driven_resumeGet.plain rfl rfl

/-! ### A worker that is stopped after the drain -/

/-- The worker is stopped only when the driver is drained. -/
def StopsAfterDrain (s : P2pSystem) : P2pAction → Prop
  | .requestStop => s.driver.state = .drained
  | _ => True

instance (s : P2pSystem) (a : P2pAction) : Decidable (s.StopsAfterDrain a) :=
  match a with
  | .requestStop => inferInstanceAs (Decidable (s.driver.state = .drained))
  | .operation _ | .publish _ | .tick _ | .submit _ _ | .driverCommand _ | .swarmEvent _ | .delayedResponse _
  | .expireQueries | .emit _ | .workerFlush | .workerSelect _ | .workerSend | .workerReply _ _ _ | .workerStore _ =>
    .isTrue trivial

/-- The worker turns to the store events when no driver event is left, and returns from there only. -/
structure Stopping (s : P2pSystem) : Prop where
  drained : s.stopRequested = true → s.driver.state = .drained
  requested : s.mode.draining = true → s.stopRequested = true
  flushed : ∀ progressed, s.mode = .drainingStore progressed → s.events = []
  returned : s.worker.control = .returned (.ok ()) → ∃ progressed, s.mode = .drainingStore progressed

theorem drained_of_follows {state : DriverState} (h : Relation.ReflTransGen DriverState.Follows .drained state) :
    state = .drained := by
  induction h with
  | refl => rfl
  | tail _ hlast ih =>
    subst ih
    cases hlast

section

variable [Sha256] [AvailabilityWire]

theorem driver_follows {a : P2pAction} (hnext : s.next a = some t) :
    Relation.ReflTransGen DriverState.Follows s.driver.state t.driver.state := by
  have hruns : s.Runs ⟨s.driver, s.emitting, [], [], [], [], []⟩ := ⟨rfl, rfl⟩
  rcases hruns.step hnext with ⟨hdriver, -⟩ | ⟨b, v, hv, hdriver, -⟩
  · rw [← hdriver]
  · rw [← hdriver]
    exact DriverTask.follows_step (DriverTask.next_step hv)

theorem drainingStore_of_select {pick : Pick} {progressed : Bool} (hnext : s.next (.workerSelect pick) = some t)
    (hmode : t.mode = .drainingStore progressed) :
    t.events = s.events ∧ (s.events = [] ∨ ∃ progressed, s.mode = .drainingStore progressed) := by
  -- the two loops of `drain` follow each other: only an empty queue ends the first
  simp only [next] at hnext
  split at hnext
  · unfold workerSelect at hnext
    split at hnext
    · split_ifs at hnext
      cases hnext
      cases hmode
    · rename_i hrunning
      unfold takeDriverEvent at hnext
      split at hnext
      · cases hnext
        cases hmode
      · split_ifs at hnext
        cases hnext
        cases hrunning.symm.trans hmode
    · rename_i hrunning
      split at hnext
      · rename_i notice receiver _
        obtain ⟨handled, expired, htaken⟩ := recordTaken_frame { s with receiver } notice
        rw [htaken] at hnext
        cases hnext
        cases hrunning.symm.trans hmode
      · cases hnext
        cases hrunning.symm.trans hmode
      · cases hnext
        cases hrunning.symm.trans hmode
      · cases hnext
    · rename_i hrunning
      split at hnext
      · cases hnext
      · split_ifs at hnext
        cases hnext
        cases hrunning.symm.trans hmode
    · rename_i hdriver
      unfold takeDriverEvent at hnext
      split at hnext
      · cases hnext
        cases hmode
      · rename_i hempty
        split_ifs at hnext
        · cases hnext
          cases hdriver.symm.trans hmode
        · cases hnext
          exact ⟨rfl, .inl hempty⟩
    · rename_i progressed' hstore
      refine ⟨?_, .inr ⟨progressed', hstore⟩⟩
      split at hnext
      · cases hnext
        rfl
      · cases hnext
        rfl
      · cases hnext
        rfl
      · split_ifs at hnext <;> cases hnext <;> rfl
    · cases hnext
  · cases hnext

theorem drainingStore_of_storeEvent (hnext : s.next (.workerSelect .storeEvent) = some t)
    (hdraining : s.mode.draining = true) : ∃ progressed, s.mode = .drainingStore progressed := by
  simp only [next] at hnext
  split at hnext
  · cases hmode : s.mode with
    | running =>
      rw [hmode] at hdraining
      cases hdraining
    | drainingDriver progressed =>
      simp [workerSelect, hmode] at hnext
    | drainingStore progressed => exact ⟨progressed, rfl⟩
  · cases hnext

/-- Only the end of the drain makes the worker return without an error. -/
theorem returned_step {a : P2pAction} (hcounted : s.worker.ledger.Counted) (hstep : P2pStep s a t)
    (hreturned : t.worker.control = .returned (.ok ())) :
    s.worker.control = .returned (.ok ()) ∨ (a = .workerSelect .storeEvent ∧ s.mode.draining = true) := by
  have hround : ∀ u : P2pSystem, u.finishRound.worker = u.worker :=
    finishRound_keeps (·.worker) fun _ _ _ _ => rfl
  have hgoing : ¬ t.worker.control.Going := by
    rw [hreturned]
    exact id
  cases hstep with
  | drained hidle hdraining => exact .inr ⟨rfl, hdraining⟩
  | driverCommand net caller command rest hmailbox hfree hid t ht =>
    obtain ⟨state, reply, answers, rfl⟩ := commandRound_frame ht
    exact .inl hreturned
  | swarmQuiet event driver | delayedResponse i | expireQueries | emitDropped net event _ _ driver | emitSent =>
    exact .inl (by rw [← hreturned, hround])
  | selectDriverEvent mode event =>
    exact absurd ((s.worker.handleDriverEvent_move s.now mode.draining event).going hcounted) hgoing
  | selectDriverClosed => cases hreturned
  | selectStoreEvent notice receiver => exact absurd Worker.going_handleStoreEvent hgoing
  | selectLagged => cases hreturned
  | selectWake => exact absurd Worker.driven_handleWake.going hgoing
  | sendClosed | send => cases hreturned
  | reply _ _ _ call reply worker _ _ hresume =>
    rcases (Worker.resumeCall_move hresume).going with h | ⟨error, -, -, rfl⟩
    · exact absurd h hgoing
    · cases hreturned
  | getProof | attach => cases hreturned
  | attached snapshot requestId peer id stored =>
    rcases s.worker.resumeAttached_move requestId peer id stored s.now s.mode.draining with
      ⟨succeeded, hmove, -⟩ | ⟨error, -, hfail, -⟩
    · exact absurd (hmove.driven hcounted).going hgoing
    · rw [hfail] at hreturned
      cases hreturned
  | localSnapshot => cases hreturned
  | waitingSnapshot => exact absurd Worker.driven_resumeWaiting.going hgoing
  | get => exact absurd Worker.driven_resumeGet.going hgoing
  | _ => exact .inl hreturned

theorem Stopping.step {a : P2pAction} (h : s.Stopping) (hcounted : s.worker.ledger.Counted)
    (hsettled : s.driver.state = .drained → s.emitting = none) (hstops : s.StopsAfterDrain a)
    (hnext : s.next a = some t) :
    t.Stopping := by
  have hstep := next_step hnext
  have hkeep : s.driver.state = .drained → t.driver.state = .drained := by
    intro hdrained
    have hfollows := driver_follows hnext
    rw [hdrained] at hfollows
    exact drained_of_follows hfollows
  have hends := returned_step hcounted hstep
  have hreturned : t.worker.control = .returned (.ok ()) → t.mode = s.mode →
      ∃ progressed, t.mode = .drainingStore progressed := by
    intro hok hmode
    rcases hends hok with hbefore | ⟨rfl, hdraining⟩
    · rw [hmode]
      exact h.returned hbefore
    · rw [hmode]
      exact drainingStore_of_storeEvent hnext hdraining
  have hsame : t.mode = s.mode → t.stopRequested = s.stopRequested → t.events = s.events → t.Stopping := by
    intro hmode hstop hevents
    refine ⟨fun hrequested => hkeep (h.drained (hstop ▸ hrequested)), ?_, ?_, fun hok => hreturned hok hmode⟩
    · rw [hmode, hstop]
      exact h.requested
    · rw [hmode, hevents]
      exact h.flushed
  have hround : ∀ u : P2pSystem, u.finishRound.mode = u.mode ∧ u.finishRound.stopRequested = u.stopRequested ∧
      u.finishRound.events = u.events := by
    intro u
    obtain ⟨state, reply, answers, hu⟩ := u.finishRound_frame
    rw [hu]
    exact ⟨rfl, rfl, rfl⟩
  have hturned : ∀ {pick : Pick}, a = .workerSelect pick → ∀ progressed, t.mode = .drainingStore progressed →
      t.events = [] := by
    rintro pick rfl progressed hmode
    obtain ⟨hevents, hempty | ⟨progressed', hstore⟩⟩ := drainingStore_of_select hnext hmode
    · rw [hevents, hempty]
    · rw [hevents, h.flushed progressed' hstore]
  have hidleOk : ∀ {w : Worker}, w.control = .idle → w.control ≠ .returned (.ok ()) := by
    intro w hidle hok
    cases hidle.symm.trans hok
  cases hstep with
  | requestStop => exact ⟨fun _ => hkeep hstops, fun _ => rfl, h.flushed, h.returned⟩
  | driverCommand net caller command rest hmailbox hfree hid t ht =>
    obtain ⟨state, reply, answers, rfl⟩ := commandRound_frame ht
    exact hsame rfl rfl rfl
  | swarmQuiet | delayedResponse | expireQueries | emitDropped => exact hsame (hround _).1 (hround _).2.1 (hround _).2.2
  | emitSent net event hemitting hended hroom =>
    obtain ⟨hmode, hstop, hevents⟩ := hround { s with events := s.events ++ [event], emitting := none }
    refine ⟨fun hrequested => hkeep (h.drained (hstop ▸ hrequested)), ?_, fun progressed hstore => ?_,
      fun hok => hreturned hok hmode⟩
    · rw [hmode, hstop]
      exact h.requested
    · -- a worker that drains has no event of the driver to come
      rw [hmode] at hstore
      change s.mode = .drainingStore progressed at hstore
      have hnone := hsettled (h.drained (h.requested (by rw [hstore]; rfl)))
      rw [hnone] at hemitting
      cases hemitting
  | selectStop hidle hmode houtbox hstop =>
    exact ⟨fun hrequested => hkeep (h.drained hrequested), fun _ => hstop, (fun _ hstore => nomatch hstore),
      fun hok => absurd hok (hidleOk hidle)⟩
  | selectDriverEvent mode event rest hidle houtbox hevents hmode =>
    refine ⟨fun hrequested => hkeep (h.drained hrequested), fun hdraining => h.requested (hmode ▸ hdraining),
      hturned rfl, fun hok => ?_⟩
    rcases hends hok with hbefore | ⟨hpick, -⟩
    · exact absurd hbefore (hidleOk hidle)
    · cases hpick
  | selectTurn pick mode hidle houtbox hdraining | drainStoreEvent result receiver hidle hdraining =>
    exact ⟨fun hrequested => hkeep (h.drained hrequested), fun _ => h.requested hdraining, hturned rfl,
      fun hok => absurd hok (hidleOk hidle)⟩
  | selectStoreEvent notice receiver =>
    obtain ⟨handled, expired, htaken⟩ := recordTaken_frame { s with receiver } notice
    rw [htaken] at hsame ⊢
    exact hsame rfl rfl rfl
  | _ => exact hsame rfl rfl rfl

/-- The system with a record of the proofs that are emitted and offered, of which the worker is stopped only when the
driver is drained. -/
def drainedLts (store : ProofStore) (config : P2pConfig) (localPeerId : PeerId) (validators : Finset PeerId)
    (listeners : Finset Nat) (capacity : Nat) : Lts (P2pSystem × List Transfer) P2pAction :=
  (Lts.ofNext (fun s => s.1 = initial store config localPeerId validators listeners capacity ∧ s.2 = [])
    (Lts.recorded next transfers)).restrict fun s a => s.1.StopsAfterDrain a

/-- What was emitted has been offered or is on its way, unless the worker has failed. -/
structure Conveyed (s : P2pSystem × List Transfer) : Prop where
  protocol : s.1.Protocol
  counted : s.1.worker.ledger.Counted
  stopping : s.1.Stopping
  conveyed : ¬ s.1.worker.control.Failed → emittedProofs s.2 = offeredProofs s.2 ++ s.1.onTheWay

theorem worker_of_ended {a : P2pAction} (hstep : P2pStep s a t) (hended : s.worker.ended = true) :
    t.worker = s.worker := by
  have hround : ∀ u : P2pSystem, u.finishRound.worker = u.worker :=
    finishRound_keeps (·.worker) fun _ _ _ _ => rfl
  cases hstep with
  | driverCommand net caller command rest hmailbox hfree hid t ht =>
    obtain ⟨state, reply, answers, rfl⟩ := commandRound_frame ht
    rfl
  | swarmQuiet | delayedResponse | expireQueries | emitDropped | emitSent => exact hround _
  | selectStop hidle | selectDriverEvent _ _ _ hidle | selectDriverClosed hidle | selectStoreEvent _ _ hidle
  | selectLagged _ hidle | selectWake _ _ hidle | drained hidle => simp [Worker.ended, hidle] at hended
  | sendClosed _ _ hcontrol | send _ _ hcontrol | reply _ _ _ _ _ _ hcontrol | getProof _ _ _ hcontrol
  | attach _ _ _ _ _ hcontrol | attached _ _ _ _ _ hcontrol | localSnapshot _ hcontrol | waitingSnapshot _ hcontrol
  | get _ _ _ hcontrol => simp [Worker.ended, hcontrol] at hended
  | _ => rfl

theorem not_failed_of_step {a : P2pAction} (hstep : P2pStep s a t) (hnot : ¬ t.worker.control.Failed) :
    ¬ s.worker.control.Failed := by
  intro hfailed
  have hended : s.worker.ended = true := by
    unfold Worker.ended
    cases hcontrol : s.worker.control with
    | returned | panicked => rfl
    | _ =>
      rw [hcontrol] at hfailed
      cases hfailed
  rw [worker_of_ended hstep hended] at hnot
  exact hnot hfailed

variable {store : ProofStore} {config : P2pConfig} {localPeerId : PeerId} {validators : Finset PeerId}
  {listeners : Finset Nat} {capacity : Nat}

theorem reachable_of_drainedLts {s : P2pSystem × List Transfer}
    (h : (drainedLts store config localPeerId validators listeners capacity).Reachable s) :
    (lts store config localPeerId validators listeners capacity).Reachable s.1 :=
  (@Lts.Reachable.of_recorded _ _ _ (· = initial store config localPeerId validators listeners capacity) next transfers
    StopsAfterDrain s h).of_restrict

theorem emitting_of_drained (h : (lts store config localPeerId validators listeners capacity).Reachable s)
    (hdrained : s.driver.state = .drained) : s.emitting = none := by
  obtain ⟨u, hu, hdriver, hemitting⟩ := reachable_runs h
  rw [← hdriver] at hdrained
  rw [← hemitting]
  exact ((DriverTask.reachable_correlated hu).2.settled hdrained).2

theorem reachable_conveyed {s : P2pSystem × List Transfer}
    (h : (drainedLts store config localPeerId validators listeners capacity).Reachable s) : Conveyed s := by
  refine h.invariant (P := Conveyed) ?_ ?_
  · rintro ⟨s, transfers⟩ ⟨rfl, rfl⟩
    refine ⟨protocol_initial, ?_, ⟨(fun h => nomatch h), (fun h => nomatch h), (fun _ h => nomatch h),
      (fun h => nomatch h)⟩,
      fun _ => rfl⟩
    exact ⟨∅, fun id => by simp [Ledger.active, Worker.ledger_jobs, initial, Worker.new, Worker.entry], rfl⟩
  · rintro ⟨s, before⟩ a ⟨t, after⟩ hreach hs ⟨hrecorded, hstops⟩
    obtain ⟨hnext, rfl⟩ : s.next a = some t ∧ after = before ++ s.transfers a t := Lts.recorded_eq_some.1 hrecorded
    have hstep := next_step hnext
    have hsettled : s.driver.state = .drained → s.emitting = none :=
      emitting_of_drained (reachable_of_drainedLts hreach)
    refine ⟨hs.protocol.step hstep, counted_step hs.protocol hs.counted hstep,
      hs.stopping.step hs.counted hsettled hstops hnext, fun hnot => ?_⟩
    have hbefore : emittedProofs before = offeredProofs before ++ s.onTheWay :=
      hs.conveyed (not_failed_of_step hstep hnot)
    have hway := onTheWay_step hstep hnot fun hok => by
      obtain ⟨progressed, hstore⟩ := hs.stopping.returned hok
      exact hsettled (hs.stopping.drained (hs.stopping.requested (by rw [hstore]; rfl)))
    calc emittedProofs (before ++ s.transfers a t)
        = offeredProofs before ++ (s.onTheWay ++ emittedProofs (s.transfers a t)) := by
          rw [emittedProofs, List.filterMap_append, ← List.append_assoc, ← hbefore]
          rfl
      _ = offeredProofs (before ++ s.transfers a t) ++ t.onTheWay := by
          rw [hway, offeredProofs, offeredProofs, offeredProofs, List.filterMap_append, List.append_assoc]

omit [Sha256] [AvailabilityWire] in
theorem Conveyed.offered {s : P2pSystem × List Transfer} (h : Conveyed s)
    (hsettled : s.1.driver.state = .drained → s.1.emitting = none)
    (hreturned : s.1.worker.control = .returned (.ok ())) : emittedProofs s.2 = offeredProofs s.2 := by
  obtain ⟨progressed, hstore⟩ := h.stopping.returned hreturned
  have hevents := h.stopping.flushed progressed hstore
  have hemitting := hsettled (h.stopping.drained (h.stopping.requested (by rw [hstore]; rfl)))
  have hway : s.1.onTheWay = [] := by
    unfold onTheWay
    rw [hreturned, hevents, hemitting]
    rfl
  rw [h.conveyed (by rw [hreturned]; exact id), hway, List.append_nil]

end

end P2pSystem

/-! ### Correlation and drain -/

section

variable [Sha256] [AvailabilityWire]

/-- The driver under any order of commands and swarm events.  Its pairs in flight are those of its outbound requests,
one for each pair.  An accepted request has exactly one answer once libp2p has reported its end, and none before.  The
state only advances, and once it has left `Running` nothing is added; the first client to drain gets one reply, when no
exchange is left.  A worker that is stopped after the drain and returns has offered to the store every proof that the
driver has received. -/
theorem driver_correlates_and_drains (config : P2pConfig) (localPeerId : PeerId) (validators : Finset PeerId)
    (listeners : Finset Nat) :
    (∀ s, ((DriverTask.lts config localPeerId validators listeners).restrict DriverTask.Faithful).Reachable s →
      (∀ pair, pair ∈ s.driver.inFlight ↔ ∃ k request, s.driver.outboundRequests.lookup k = some request ∧
        (request.peer, request.verificationId) = pair) ∧
      (∀ k k' request request', s.driver.outboundRequests.lookup k = some request →
        s.driver.outboundRequests.lookup k' = some request' →
        (request.peer, request.verificationId) = (request'.peer, request'.verificationId) → k = k') ∧
      (∀ k requestId, (k, requestId) ∈ s.accepted → s.answers requestId = if k ∈ s.reported then 1 else 0) ∧
      (s.driver.state = .drained → s.driver.Settled) ∧
      (s.emitting = none → ∀ c, s.driver.state = .draining c → ¬ s.driver.Settled) ∧
      (∀ c, s.drainCaller = some c → s.repliesTo c = if s.driver.state = .drained then [.ok .unit] else []) ∧
      ∀ as t, ((DriverTask.lts config localPeerId validators listeners).restrict DriverTask.Faithful).Run s as t →
        Relation.ReflTransGen DriverState.Follows s.driver.state t.driver.state ∧
        (s.driver.state ≠ .running → t.driver.Within s.driver)) ∧
    ∀ store capacity s transfers,
      (P2pSystem.drainedLts store config localPeerId validators listeners capacity).Reachable (s, transfers) →
      s.worker.control = .returned (.ok ()) → emittedProofs transfers = offeredProofs transfers := by
  constructor
  · intro s hs
    obtain ⟨hcorrelated, hdraining⟩ := DriverTask.reachable_correlated hs.of_restrict
    obtain ⟨hreported, hanswered⟩ := DriverTask.reachable_reported hs
    exact ⟨hcorrelated.inFlight, hcorrelated.distinct, fun k requestId => hcorrelated.answers_eq hreported,
      fun hdrained => (hdraining.settled hdrained).1, hdraining.unsettled, fun c => hanswered.repliesTo_eq,
      fun as t hrun => DriverTask.run_advances hrun.of_restrict⟩
  · intro store capacity s transfers hs hreturned
    have hreach := P2pSystem.reachable_of_drainedLts hs
    exact (P2pSystem.reachable_conveyed hs).offered (P2pSystem.emitting_of_drained hreach) hreturned

end

/-! ### A proof that arrives before the drain -/

/-- A peer sends the proof that it was asked for. -/
private def proofArrives (id : OutboundRequestId) : SwarmEvent :=
  .proofResponse .there id ⟨"pulsar-1", some (.proof ⟨1, [1, 2], [3], [4]⟩)⟩

/-- One client requests a proof, another one drains the driver, and the response comes afterwards. -/
private def lateResponse [Sha256] : List DriverAction :=
  [.command .calm (.client 0) (.requestProof .there (Proof.verificationId .small)),
    .command { NetworkOutcome.calm with outboundId := 1 } (.client 1) .drain, .swarmEvent (proofArrives 0),
    .emit .calm true]

open P2pSystem in
/-- The worker observes a record, a peer announces its proof and sends it on request; then the driver is drained. -/
private def download [Sha256] [AvailabilityWire] : List P2pAction :=
  reconcile ++ observe (Proof.verificationId .small) ++ hear (Proof.verificationId .small) ++ exchange .calm ++
    [.swarmEvent (proofArrives 0), .emit .calm, .submit 0 .drain, .driverCommand .calm]

/-- The worker is stopped while the proof is in its queue. -/
private def shutDown : List P2pAction :=
  [.requestStop, .workerSelect .stop, .workerSelect .driverEvent, .workerStore [], .workerFlush, .workerFlush,
    .workerStore [], .workerSelect .driverEvent, .workerSelect .storeEvent, .workerSelect .storeEvent,
    .workerSelect .storeEvent, .workerSelect .driverEvent, .workerSelect .storeEvent]

/-- The worker has returned without an error. -/
private def returnedTest (control : Control) : Bool :=
  match control with
  | .returned (.ok ()) => true
  | _ => false

private theorem returned_of_test {control : Control} (h : returnedTest control = true) :
    control = .returned (.ok ()) := by
  unfold returnedTest at h
  split at h
  · rfl
  · cases h

/-- A response that comes during a drain is passed on, and then the drain is answered; a proof that is still in the
queue of the worker when it is stopped is offered to the store. -/
theorem driver_correlates_and_drains_downloaded :
    letI := Sha256.standard
    letI := AvailabilityWire.standard
    (∃ s, ((DriverTask.lts .small .here {.here, .there} {0}).restrict DriverTask.Faithful).Reachable s ∧
      s.accepted = [(0, 1)] ∧ s.answers 1 = 1 ∧ s.driver.Settled ∧ s.repliesTo (.client 1) = [.ok .unit]) ∧
    ∃ s transfers, (P2pSystem.drainedLts .small .small .here {.here, .there} {0} 16).Reachable (s, transfers) ∧
      s.worker.control = .returned (.ok ()) ∧ (offeredProofs transfers).length = 1 ∧
      emittedProofs transfers = offeredProofs transfers := by
  let _ := Sha256.standard
  let _ := AvailabilityWire.standard
  have hdriver : (Lts.exec (Lts.guarded DriverTask.next DriverTask.Faithful)
      (DriverTask.initial .small .here {.here, .there} {0}) lateResponse).any (fun s =>
        decide (s.accepted = [(0, 1)] ∧ 0 ∈ s.reported ∧ s.drainCaller = some (.client 1) ∧
          s.driver.state = .drained)) = true := by
    decide +kernel
  have hsystem : (Lts.exec (Lts.guarded (Lts.recorded P2pSystem.next P2pSystem.transfers)
    (fun s a => s.1.StopsAfterDrain a))
      (P2pSystem.initial .small .small .here {.here, .there} {0} 16, []) (download ++ shutDown)).any (fun s =>
        returnedTest s.1.worker.control && decide ((offeredProofs s.2).length = 1)) = true := by
    decide +kernel
  obtain ⟨s, hs, htest⟩ := (Option.any_eq_true _ _).1 hdriver
  obtain ⟨haccepted, hreported, hcaller, hstate⟩ := of_decide_eq_true htest
  obtain ⟨⟨t, transfers⟩, ht, htest⟩ := (Option.any_eq_true _ _).1 hsystem
  rw [Bool.and_eq_true, decide_eq_true_eq] at htest
  have htask : ((DriverTask.lts .small .here {.here, .there} {0}).restrict DriverTask.Faithful).Reachable s :=
    ⟨_, _, rfl, Lts.run_restrict_of_exec hs⟩
  have hdrained : (P2pSystem.drainedLts .small .small .here {.here, .there} {0} 16).Reachable (t, transfers) :=
    ⟨_, _, ⟨rfl, rfl⟩, Lts.run_restrict_of_exec ht⟩
  obtain ⟨hall, hoffered⟩ := driver_correlates_and_drains .small .here {.here, .there} {0}
  obtain ⟨-, -, hanswers, hsettled, -, hreplies, -⟩ := hall s htask
  refine ⟨⟨s, htask, haccepted, ?_, hsettled hstate, ?_⟩, t, transfers, hdrained, returned_of_test htest.1, htest.2,
    hoffered .small 16 t transfers hdrained (returned_of_test htest.1)⟩
  · rw [hanswers 0 1 (by rw [haccepted]; exact List.mem_singleton_self _), if_pos hreported]
  · rw [hreplies _ hcaller, if_pos hstate]

end PulsarVerifier
