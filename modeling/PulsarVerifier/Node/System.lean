import PulsarVerifier.Listener.Heights
import PulsarVerifier.P2p.Protocol
import PulsarVerifier.Submission.Service
import PulsarVerifier.Verification.Soundness

/-!
# The services of a node

A node runs the listener, the submission service, the P2P service and the verification worker over one store.  The
model of each service has a store that any other task may use; here they use the same one.  A service takes a step with
its handle of the store, and what the step does to the store (`acts`) is the operation of another task for the other
services.  A call of the listener observes identifiers and replaces the authorized peers one after another, while the
other services go on.

The listener has no driver of its own: it sends its commands to the driver of the P2P service and waits until they are
executed.  What it sees of the driver is how it will be after the replacements that are under way.

Seen from one service, a run of the node is a run of the model of this service (`NodeSystem.services_compose`), so what
was proved of a service next to any environment holds in the node.
-/

namespace PulsarVerifier

/-! ### What a service does to the store -/

def SubmissionAction.own : SubmissionAction → Bool
  | .store _ => false
  | _ => true

/-- The listener is the client that replaces the authorized peers. -/
def P2pAction.own : P2pAction → Bool
  | .operation _ | .submit _ (.replaceAuthorizedPeers _) => false
  | _ => true

def VerificationAction.own : VerificationAction → Bool
  | .operation _ => false
  | _ => true

/-- The driver takes its steps in the P2P service. -/
def ListenerAction.own : ListenerAction → Bool
  | .driverStep _ => false
  | _ => true

/-- What the surroundings of the listener do, also while it makes a call. -/
def ListenerAction.external : ListenerAction → Bool
  | .commit | .requestStop => true
  | _ => false

def SubmissionSystem.acts (s : SubmissionSystem) : SubmissionAction → Option StoreAction
  | .insertLocalProof call now =>
    match s.phase call with
    | some (.storing v) => some (.insertLocalProof now v.proof .rpc)
    | _ => none
  | _ => none

def P2pSystem.acts (s : P2pSystem) : P2pAction → Option StoreAction
  | .workerStore _ =>
    match s.worker.control with
    | .store (.attachDownloadedProof _ peer id proof) => some (.attachDownloadedProof s.now id proof peer)
    | _ => none
  | _ => none

def VerificationSystem.acts (s : VerificationSystem) : VerificationAction → Option StoreAction
  | .worker .start =>
    if s.worker.jobs.length < s.worker.config.maxConcurrentJobs ∧ s.stopRequested = false then
      match s.worker.pending with
      | [] => none
      | id :: _ => if id ∈ s.worker.activeIds then none else some (.beginVerification id)
    else none
  | .worker (.join i now) =>
    match s.worker.jobs[i]? with
    | some (.ended (.ok completion)) => some (.finishVerification now completion.job completion.outcome)
    | _ => none
  | _ => none

/-- The store after what a step does to it. -/
def StoreSystem.after [Sha256] (s : StoreSystem) : Option StoreAction → StoreSystem
  | none => s
  | some action => (s.perform action).1

/-! ### The driver -/

def DriverCommand.replacement : DriverCommand → Option (Finset PeerId)
  | .replaceAuthorizedPeers peers => some peers
  | _ => none

def Listener.Effect.replacement : Listener.Effect → Option (Finset PeerId)
  | .replaced peers => some peers
  | _ => none

/-- The replacements of the authorized peers that are in the mailbox. -/
def P2pSystem.replacements (s : P2pSystem) : List (Finset PeerId) := s.mailbox.filterMap (·.2.replacement)

/-- A call of the listener reports a replacement only if the driver makes it. -/
def P2pSystem.grants (s : P2pSystem) : P2pAction → Bool
  | .driverCommand _ => ((s.mailbox.head?.bind (·.2.replacement)).isNone || s.driver.isRunning)
  | _ => true

def Driver.replaceAll (d : Driver) (replacements : List (Finset PeerId)) : Driver :=
  replacements.foldl Driver.replaceAuthorizedPeers d

/-! ### The node -/

structure NodeSetup where
  listener : ListenerSetup
  listenerEnabled : Bool
  submission : SubmissionService
  submissionEnabled : Bool
  p2p : P2pConfig
  localPeerId : PeerId
  validators : Finset PeerId
  listeners : Finset Nat
  store : ProofStore
  /-- the capacity of the channel of store events -/
  capacity : Nat
  registry : VerifierRegistry
  verification : VerificationConfig

/-- The shared store and the services; the store in the state of a service and the driver in the one of the listener are
not used. -/
structure NodeSystem where
  stores : StoreSystem
  listener : ListenerSystem
  /-- what the last call of the listener has still to do -/
  calling : List Listener.Effect
  /-- the listener waits for the driver -/
  awaiting : Bool
  submission : SubmissionSystem
  p2p : P2pSystem
  verification : VerificationSystem

inductive NodeAction
  | listener (action : ListenerAction)
  /-- the next effect of the call of the listener, at this time; `call` numbers its calls of the driver -/
  | effect (now : Instant) (call : Nat)
  /-- the listener gets the reply of the driver -/
  | replied
  | submission (action : SubmissionAction)
  | p2p (action : P2pAction)
  | verification (action : VerificationAction)
  /-- Moka evicts a record -/
  | evict (id : VerificationId) (cause : ProofEvictionCause)

namespace NodeSystem

/-- The replacements that the driver has still to make. -/
def replacements (n : NodeSystem) : List (Finset PeerId) :=
  n.p2p.replacements ++ n.calling.filterMap Listener.Effect.replacement

/-- The listener with the driver of the P2P service. -/
def listenerView (n : NodeSystem) : ListenerSystem :=
  { n.listener with driver := n.p2p.driver.replaceAll n.replacements }

/-- The submission service with its handle of the store. -/
def submissionView (n : NodeSystem) : SubmissionSystem := { n.submission with stores := n.stores }

def p2pView (n : NodeSystem) : P2pSystem := { n.p2p with stores := n.stores }

def verificationView (n : NodeSystem) : VerificationSystem := { n.verification with stores := n.stores }

/-- What a step of the node does to the store. -/
def acts (n : NodeSystem) : NodeAction → Option StoreAction
  | .listener _ | .replied => none
  | .effect now _ =>
    match n.calling with
    | .observe id :: _ => some (.observeChainVerification now id)
    | _ => none
  | .submission action => n.submissionView.acts action
  | .p2p action => n.p2pView.acts action
  | .verification action => n.verificationView.acts action
  | .evict id cause => some (.evict id cause)

/-- The own step of the listener in a step of the node. -/
def listenerLabel : NodeAction → Option ListenerAction
  | .listener action => some action
  | _ => none

/-- The step of the submission service: one of its own, or it sees what another task does to the store. -/
def submissionLabel (n : NodeSystem) : NodeAction → Option SubmissionAction
  | .submission action => some action
  | action => (n.acts action).map .store

/-- The listener sends the driver a command. -/
def p2pLabel (n : NodeSystem) : NodeAction → Option P2pAction
  | .p2p action => some action
  | .effect now call =>
    match n.calling with
    | .observe id :: _ => some (.operation (.observeChainVerification now id))
    | .replaced peers :: _ => some (.submit call (.replaceAuthorizedPeers peers))
    | _ => none
  | action => (n.acts action).map .operation

def verificationLabel (n : NodeSystem) : NodeAction → Option VerificationAction
  | .verification action => some action
  | action => (n.acts action).map .operation

/-- The services that are enabled take their own steps; the listener waits for the effects of its call. -/
def allowed (setup : NodeSetup) (n : NodeSystem) : NodeAction → Bool
  | .listener action =>
    setup.listenerEnabled && action.own && ((n.calling.isEmpty && !n.awaiting) || action.external)
  | .effect _ _ => !n.calling.isEmpty && !n.awaiting
  | .replied => n.awaiting && n.p2p.replacements.isEmpty
  | .submission action => setup.submissionEnabled && action.own
  | .p2p action => setup.listener.p2pEnabled && action.own && n.p2p.grants action
  | .verification action => action.own
  | .evict _ _ => true

section

variable [Sha256] [Ed25519] (setup : NodeSetup)

def remaining (n : NodeSystem) : NodeAction → List Listener.Effect
  | .listener action => n.calling ++ n.listenerView.effects setup.listener action
  | .effect _ _ => n.calling.tail
  | _ => n.calling

omit [Sha256] [Ed25519] in
/-- The listener waits after it has sent a command, until it gets the reply. -/
def awaits (n : NodeSystem) : NodeAction → Bool
  | .effect _ _ => (n.calling.head?.bind Listener.Effect.replacement).isSome
  | .replied => false
  | _ => n.awaiting

variable [TransactionWire] [AvailabilityWire]

/-- A step of the node is a step of each service it concerns. -/
def next (n : NodeSystem) (action : NodeAction) : Option NodeSystem :=
  if n.allowed setup action then do
    let listener ← Lts.follow (ListenerSystem.next setup.listener) n.listenerView (listenerLabel action)
    let submission ←
      Lts.follow (SubmissionSystem.next setup.submission) n.submissionView (n.submissionLabel action)
    let p2p ← Lts.follow P2pSystem.next n.p2pView (n.p2pLabel action)
    let verification ← Lts.follow VerificationSystem.next n.verificationView (n.verificationLabel action)
    pure
      { stores := n.stores.after (n.acts action), listener, calling := n.remaining setup action
        awaiting := n.awaits action, submission, p2p, verification }
  else none

omit [Sha256] [Ed25519] [TransactionWire] [AvailabilityWire] in
def initial : NodeSystem :=
  { stores := ⟨setup.store, []⟩
    listener := .initial setup.listener (.build setup.p2p setup.localPeerId setup.validators setup.listeners)
    calling := []
    awaiting := false
    submission := .initial setup.store
    p2p := .initial setup.store setup.p2p setup.localPeerId setup.validators setup.listeners setup.capacity
    verification := .initial setup.store setup.registry setup.verification setup.capacity }

/-- The node under all interleavings of its services and their surroundings. -/
def lts : Lts NodeSystem NodeAction := .ofNext (· = initial setup) (next setup)

end

end NodeSystem

/-! ### What a service leaves in the store -/

section

variable [Sha256]

theorem SubmissionSystem.stores_operation [TransactionWire] {service : SubmissionService} {s t : SubmissionSystem}
    {action : StoreAction} (h : s.next service (.store action) = some t) :
    s.stores.Enabled action ∧ t.stores = (s.stores.perform action).1 := by
  simp only [next] at h
  split_ifs at h with henabled
  cases h
  refine ⟨henabled, ?_⟩
  cases action <;> rfl

theorem SubmissionSystem.stores_own [TransactionWire] {service : SubmissionService} {s t : SubmissionSystem}
    {a : SubmissionAction} (hown : a.own = true) (h : s.next service a = some t) :
    t.stores = s.stores.after (s.acts a) := by
  cases a with
  | submit call submission =>
    simp only [next] at h
    split at h
    · cases h
    · cases h
      rfl
  | tryGetWith call =>
    simp only [next] at h
    split at h
    · split at h
      · split at h
        · cases h
          rfl
        · split at h
          · cases h
            rfl
          · cases h
            rfl
      · cases h
    · cases h
  | insertLocalProof call now =>
    simp only [next] at h
    split at h
    · rename_i c hc
      split at h
      · rename_i v hphase
        have hacts : s.acts (.insertLocalProof call now) = some (.insertLocalProof now v.proof .rpc) := by
          simp only [acts, phase, hc, Option.map_some, hphase]
        rw [hacts]
        split at h
        · cases h
          rfl
        · cases h
          rfl
      · cases h
    · cases h
  | broadcastTxSync call response =>
    simp only [next] at h
    split at h
    · split at h
      · cases h
        unfold settle cache
        split <;> rfl
      · cases h
    · cases h
  | leave call =>
    simp only [next] at h
    split at h
    · cases h
      rfl
    · cases h
  | forget hash =>
    cases h
    rfl
  | store action => cases hown

omit [Sha256] in
theorem SubmissionSystem.enabled_of_acts {s : SubmissionSystem} {a : SubmissionAction} {action : StoreAction}
    (h : s.acts a = some action) : s.stores.Enabled action := by
  unfold acts at h
  split at h
  · split at h
    · cases h
      trivial
    · cases h
  · cases h

theorem P2pSystem.stores_operation [AvailabilityWire] {s t : P2pSystem} {action : StoreAction}
    (h : s.next (.operation action) = some t) :
    s.stores.Enabled action ∧ t.stores = (s.stores.perform action).1 := by
  cases next_step h with
  | operation _ henabled | evict _ _ henabled => exact ⟨henabled, rfl⟩

theorem P2pSystem.stores_own [AvailabilityWire] {s t : P2pSystem} {a : P2pAction}
    (hown : ∀ action, a ≠ .operation action) (h : s.next a = some t) : t.stores = s.stores.after (s.acts a) := by
  have hround : ∀ u : P2pSystem, u.finishRound.stores = u.stores :=
    finishRound_keeps (·.stores) fun _ _ _ _ => rfl
  cases next_step h with
  | operation action => exact absurd rfl (hown action)
  | evict => exact absurd rfl (hown _)
  | driverCommand net caller command rest _ _ _ t ht =>
    obtain ⟨state, reply, answers, rfl⟩ := commandRound_frame ht
    rfl
  | swarmQuiet | emitDropped | emitSent | delayedResponse | expireQueries => exact hround _
  | selectStoreEvent notice receiver =>
    obtain ⟨handled, expired, htaken⟩ := { s with receiver }.recordTaken_frame notice
    rw [htaken]
    rfl
  | attach _ _ _ _ _ hcontrol | getProof _ _ _ hcontrol | attached _ _ _ _ _ hcontrol | localSnapshot _ hcontrol
  | waitingSnapshot _ hcontrol | get _ _ _ hcontrol =>
    unfold acts
    rw [hcontrol]
    rfl
  | _ => rfl

theorem VerificationSystem.stores_operation {s t : VerificationSystem} {action : StoreAction}
    (h : s.next (.operation action) = some t) :
    s.stores.Enabled action ∧ t.stores = (s.stores.perform action).1 := by
  cases next_effect h with
  | operation _ hfinish hevict =>
    refine ⟨?_, rfl⟩
    cases action with
    | finishVerification now job outcome => exact absurd rfl (hfinish now job outcome)
    | evict id cause => exact absurd rfl (hevict id cause)
    | _ => trivial
  | evict _ _ hsome => exact ⟨hsome, rfl⟩

/-- A round of `start_ready_jobs` claims the first pending record, or leaves the store alone. -/
theorem VerificationSystem.stores_start (s : VerificationSystem) :
    s.start.stores = s.stores.after (s.acts (.worker .start)) := by
  unfold start acts
  by_cases hslot : s.worker.jobs.length < s.worker.config.maxConcurrentJobs
  · cases hstop : s.stopRequested with
    | true => simp [hslot, StoreSystem.after]
    | false =>
      cases s.worker.pending with
      | nil => simp [hslot, StoreSystem.after]
      | cons id rest =>
        by_cases hactive : id ∈ s.worker.activeIds
        · simp [hslot, hactive, StoreSystem.after]
        · simp only [hslot, hactive, StoreSystem.after, if_true, if_false, and_self, Bool.false_eq_true]
          split <;> rfl
  · simp [hslot, StoreSystem.after]

theorem VerificationSystem.stores_own {s t : VerificationSystem} {a : VerificationAction} (hown : a.own = true)
    (h : s.next a = some t) : t.stores = s.stores.after (s.acts a) := by
  by_cases hstart : a = .worker .start
  · subst hstart
    cases hphase : s.worker.phase <;> simp only [next, workerStep, hphase] at h <;> split_ifs at h
    cases h
    exact s.stores_start
  · cases next_effect h with
    | operation | evict => cases hown
    | select | skip | claim => exact absurd rfl hstart
    | joinPanic _ _ _ _ _ _ hi | join _ _ _ _ _ _ _ hi =>
      simp only [acts, hi]
      rfl
    | _ => rfl

end

/-! ### What listener and P2P service do to the driver -/

namespace Driver

variable {d d' : Driver}

theorem replaceAll_append (d : Driver) (replacements later : List (Finset PeerId)) :
    d.replaceAll (replacements ++ later) = (d.replaceAll replacements).replaceAll later :=
  List.foldl_append

@[simp] theorem replaceAll_localPeerId (replacements : List (Finset PeerId)) :
    (d.replaceAll replacements).localPeerId = d.localPeerId := by
  induction replacements generalizing d with
  | nil => rfl
  | cons peers replacements ih => exact ih

/-- What is authorized after replacements does not depend on the rest of the driver. -/
theorem replaceAll_authorizedPeers (hpeers : d.authorizedPeers = d'.authorizedPeers)
    (hlocal : d.localPeerId = d'.localPeerId) (replacements : List (Finset PeerId)) :
    (d.replaceAll replacements).authorizedPeers = (d'.replaceAll replacements).authorizedPeers := by
  induction replacements generalizing d d' with
  | nil => exact hpeers
  | cons peers replacements ih => exact ih (congrArg peers.erase hlocal) hlocal

/-- Only one command replaces the authorized peers. -/
theorem handleCommand_replacement [Sha256] (d : Driver) (net : NetworkOutcome) (caller : Caller)
    {command : DriverCommand} (h : command.replacement = none) :
    (d.handleCommand net caller command).1.authorizedPeers = d.authorizedPeers := by
  rcases hc : d.handleCommand net caller command with ⟨d', replies⟩
  cases d.handleCommand_move net hc with
  | replaced peers => cases h
  | _ => rfl

end Driver

/-- A replacement in the mailbox is made, or the replacements and the authorized peers stay. -/
theorem P2pStep.replacements [Sha256] [AvailabilityWire] {p q : P2pSystem} {b : P2pAction} (h : P2pStep p b q)
    (hp : p.Protocol) (hsubmit : ∀ call peers, b ≠ .submit call (.replaceAuthorizedPeers peers))
    (hgrants : p.grants b = true) :
    (q.replacements = p.replacements ∧ q.driver.authorizedPeers = p.driver.authorizedPeers) ∨
    ∃ peers, p.replacements = peers :: q.replacements ∧
      q.driver.authorizedPeers = peers.erase p.driver.localPeerId := by
  have hround : ∀ u : P2pSystem, u.finishRound.replacements = u.replacements ∧
      u.finishRound.driver.authorizedPeers = u.driver.authorizedPeers := fun u =>
    ⟨P2pSystem.finishRound_keeps (·.replacements) (fun _ _ _ _ => rfl) u,
      P2pSystem.finishRound_keeps (·.driver.authorizedPeers) (fun _ _ _ _ => rfl) u⟩
  -- a command that is no replacement can be added to the mailbox
  have hadded : ∀ (caller : Caller) {command : DriverCommand}, command.replacement = none →
      (p.mailbox ++ [(caller, command)]).filterMap (·.2.replacement) = p.replacements := by
    intro caller command hnone
    simp [P2pSystem.replacements, hnone]
  cases h with
  | driverCommand net caller command rest hmailbox _ _ t ht =>
    obtain ⟨state, reply, answers, rfl⟩ := P2pSystem.commandRound_frame ht
    cases hreplacement : command.replacement with
    | none =>
      refine .inl ⟨?_, p.driver.handleCommand_replacement _ caller hreplacement⟩
      simp [P2pSystem.replacements, hmailbox, hreplacement]
    | some peers =>
      obtain rfl : command = .replaceAuthorizedPeers peers := by
        cases command <;> cases hreplacement
        rfl
      have hrunning : p.driver.isRunning = true := by
        simpa [P2pSystem.grants, hmailbox, DriverCommand.replacement] using hgrants
      refine .inr ⟨peers, ?_, ?_⟩
      · simp [P2pSystem.replacements, hmailbox, DriverCommand.replacement]
      · simp [Driver.handleCommand, hrunning, Driver.replaceAuthorizedPeers]
  | submit call command =>
    refine .inl ⟨hadded _ ?_, rfl⟩
    cases command with
    | replaceAuthorizedPeers peers => exact absurd rfl (hsubmit call peers)
    | _ => rfl
  | send command call hcontrol =>
    refine .inl ⟨hadded _ ?_, rfl⟩
    have hsends := hp.sends command call hcontrol
    cases command with
    | replaceAuthorizedPeers peers => cases call <;> exact hsends.elim
    | _ => rfl
  | swarmQuiet event driver _ _ hmove =>
    refine .inl ⟨(hround _).1, (hround _).2.trans ?_⟩
    cases p.driver.handleSwarmEvent_move hmove <;> rfl
  | swarmEmit event driver emitted _ _ hmove =>
    refine .inl ⟨rfl, ?_⟩
    cases p.driver.handleSwarmEvent_move hmove <;> rfl
  | emitDropped net event _ _ driver hdriver =>
    refine .inl ⟨(hround _).1, (hround _).2.trans ?_⟩
    rcases hdriver with ⟨rfl, -⟩ | ⟨requestId, peer, id, -, rfl⟩
    · rfl
    · change (p.driver.respondProof _ _ _).2.authorizedPeers = _
      rw [Driver.respondProof_erase]
  | emitSent | delayedResponse | expireQueries => exact .inl (hround _)
  | selectStoreEvent notice receiver =>
    obtain ⟨handled, expired, htaken⟩ := { p with receiver }.recordTaken_frame notice
    rw [htaken]
    exact .inl ⟨rfl, rfl⟩
  | _ => exact .inl ⟨rfl, rfl⟩

namespace ListenerSystem

open Listener

variable {setup : ListenerSetup} {s t : ListenerSystem}

theorem perform_driver (s : ListenerSystem) (effects : List Effect) :
    (s.perform effects).driver = s.driver.replaceAll (effects.filterMap Effect.replacement) := by
  induction effects generalizing s with
  | nil => rfl
  | cons effect effects ih => cases effect <;> exact ih _

/-- The driver that the P2P service runs takes any step that does not replace the authorized peers. -/
theorem next_driverStep [Sha256] [Ed25519] {driver : Driver}
    (hpeers : driver.authorizedPeers = s.driver.authorizedPeers) (hlocal : driver.localPeerId = s.driver.localPeerId) :
    s.next setup (.driverStep driver) = some { s with driver } := by
  have hnext : s.next setup (.driverStep driver) =
      if driver.authorizedPeers = s.driver.authorizedPeers ∧ driver.localPeerId = s.driver.localPeerId then
        some { s with driver }
      else none := by
    unfold next
    cases s.phase <;> rfl
  rw [hnext, if_pos ⟨hpeers, hlocal⟩]

/-- An own step makes the replacements among its effects. -/
theorem driver_next [Sha256] [Ed25519] {a : ListenerAction} (hown : a.own = true) (h : s.next setup a = some t) :
    t.driver = s.driver.replaceAll ((s.effects setup a).filterMap Effect.replacement) := by
  have hdisconnect : ∀ (established : Bool) (error : Error),
      (s.disconnect setup established error).driver = s.driver := by
    intro established error
    obtain ⟨phase, backoff, heq, -⟩ := s.disconnect_frame setup established error
    rw [heq]
  have hcall : ∀ (established : Bool) (call : Call ListenerState), (s.finishCall setup established call).driver =
      s.driver.replaceAll (call.log.filterMap Effect.replacement) :=
    fun established call => ((s.finishCall_frame setup established call).2.1).trans (s.perform_driver call.log)
  unfold next at h
  split at h
  all_goals try split at h
  all_goals cases h
  -- a step makes a call, or a part of it, or it leaves the driver
  all_goals first
    | rfl
    | exact hcall _ _
    | exact s.perform_driver _
    | exact hdisconnect _ _
    | cases hown

end ListenerSystem

/-! ### What a step of the node is for each service -/

namespace NodeSystem

variable [Sha256] [Ed25519] [TransactionWire] [AvailabilityWire] {setup : NodeSetup} {n m : NodeSystem} {a : NodeAction}

theorem next_eq_some (h : n.next setup a = some m) :
    n.allowed setup a = true ∧
    Lts.follow (ListenerSystem.next setup.listener) n.listenerView (listenerLabel a) = some m.listener ∧
    Lts.follow (SubmissionSystem.next setup.submission) n.submissionView (n.submissionLabel a) = some m.submission ∧
    Lts.follow P2pSystem.next n.p2pView (n.p2pLabel a) = some m.p2p ∧
    Lts.follow VerificationSystem.next n.verificationView (n.verificationLabel a) = some m.verification ∧
    m.stores = n.stores.after (n.acts a) ∧ m.calling = n.remaining setup a := by
  unfold next at h
  split_ifs at h with hallowed
  obtain ⟨listener, hlistener, h⟩ := Option.bind_eq_some_iff.1 h
  obtain ⟨submission, hsubmission, h⟩ := Option.bind_eq_some_iff.1 h
  obtain ⟨p2p, hp2p, h⟩ := Option.bind_eq_some_iff.1 h
  obtain ⟨verification, hverification, h⟩ := Option.bind_eq_some_iff.1 h
  cases h
  exact ⟨hallowed, hlistener, hsubmission, hp2p, hverification, rfl, rfl⟩

omit [Ed25519] [AvailabilityWire] in
private theorem submission_stores {service : SubmissionService} {o : Option StoreAction} {s t : SubmissionSystem}
    (h : Lts.follow (SubmissionSystem.next service) s (o.map .store) = some t) :
    t.stores = s.stores.after o ∧ ∀ action ∈ o, s.stores.Enabled action := by
  cases o with
  | none =>
    cases h
    exact ⟨rfl, fun _ haction => by cases haction⟩
  | some action =>
    have hnext : s.next service (.store action) = some t := h
    obtain ⟨henabled, hstores⟩ := SubmissionSystem.stores_operation hnext
    refine ⟨hstores, fun action' haction => ?_⟩
    cases haction
    exact henabled

omit [Ed25519] [TransactionWire] in
private theorem p2p_stores {o : Option StoreAction} {s t : P2pSystem}
    (h : Lts.follow P2pSystem.next s (o.map .operation) = some t) :
    t.stores = s.stores.after o ∧ ∀ action ∈ o, s.stores.Enabled action := by
  cases o with
  | none =>
    cases h
    exact ⟨rfl, fun _ haction => by cases haction⟩
  | some action =>
    obtain ⟨henabled, hstores⟩ := P2pSystem.stores_operation h
    refine ⟨hstores, fun action' haction => ?_⟩
    cases haction
    exact henabled

omit [Ed25519] [TransactionWire] [AvailabilityWire] in
private theorem verification_stores {o : Option StoreAction} {s t : VerificationSystem}
    (h : Lts.follow VerificationSystem.next s (o.map .operation) = some t) : t.stores = s.stores.after o := by
  cases o with
  | none =>
    cases h
    rfl
  | some action => exact (VerificationSystem.stores_operation h).2

omit [Sha256] [Ed25519] [TransactionWire] [AvailabilityWire] in
private theorem submissionLabel_cases (hallowed : n.allowed setup a = true) :
    n.submissionLabel a = (n.acts a).map .store ∨
      ∃ b, n.submissionLabel a = some b ∧ b.own = true ∧ n.acts a = n.submissionView.acts b := by
  cases a with
  | submission b =>
    rw [allowed, Bool.and_eq_true] at hallowed
    exact .inr ⟨b, rfl, hallowed.2, rfl⟩
  | _ => exact .inl rfl

omit [Sha256] [Ed25519] [TransactionWire] [AvailabilityWire] in
private theorem verificationLabel_cases (hallowed : n.allowed setup a = true) :
    n.verificationLabel a = (n.acts a).map .operation ∨
      ∃ b, n.verificationLabel a = some b ∧ b.own = true ∧ n.acts a = n.verificationView.acts b := by
  cases a with
  | verification b => exact .inr ⟨b, rfl, hallowed, rfl⟩
  | _ => exact .inl rfl

omit [Sha256] [Ed25519] [TransactionWire] [AvailabilityWire] in
private theorem p2pLabel_cases (hallowed : n.allowed setup a = true) :
    n.p2pLabel a = (n.acts a).map .operation ∨
      ∃ b, n.p2pLabel a = some b ∧ (∀ action, b ≠ .operation action) ∧ n.acts a = n.p2pView.acts b := by
  cases a with
  | p2p b =>
    refine .inr ⟨b, rfl, fun action hb => ?_, rfl⟩
    subst hb
    simp [allowed, P2pAction.own] at hallowed
  | effect now call =>
    unfold p2pLabel acts
    cases n.calling with
    | nil => exact .inl rfl
    | cons effect rest =>
      cases effect with
      | observe id | loaded peers => exact .inl rfl
      | replaced peers => exact .inr ⟨_, rfl, fun action hb => (by cases hb), rfl⟩
  | _ => exact .inl rfl

theorem submissionView_next (h : n.next setup a = some m) : m.submissionView = m.submission := by
  obtain ⟨hallowed, -, hsubmission, -, -, hstores, -⟩ := next_eq_some h
  have hsame : m.submission.stores = m.stores := by
    rw [hstores]
    rcases submissionLabel_cases hallowed with hlabel | ⟨b, hlabel, hown, hacts⟩
    · rw [hlabel] at hsubmission
      exact (submission_stores hsubmission).1
    · rw [hlabel] at hsubmission
      rw [hacts]
      exact SubmissionSystem.stores_own hown hsubmission
  unfold submissionView
  rw [← hsame]

theorem p2pView_next (h : n.next setup a = some m) : m.p2pView = m.p2p := by
  obtain ⟨hallowed, -, -, hp2p, -, hstores, -⟩ := next_eq_some h
  have hsame : m.p2p.stores = m.stores := by
    rw [hstores]
    rcases p2pLabel_cases hallowed with hlabel | ⟨b, hlabel, hown, hacts⟩
    · rw [hlabel] at hp2p
      exact (p2p_stores hp2p).1
    · rw [hlabel] at hp2p
      rw [hacts]
      exact P2pSystem.stores_own hown hp2p
  unfold p2pView
  rw [← hsame]

theorem verificationView_next (h : n.next setup a = some m) : m.verificationView = m.verification := by
  obtain ⟨hallowed, -, -, -, hverification, hstores, -⟩ := next_eq_some h
  have hsame : m.verification.stores = m.stores := by
    rw [hstores]
    rcases verificationLabel_cases hallowed with hlabel | ⟨b, hlabel, hown, hacts⟩
    · rw [hlabel] at hverification
      exact verification_stores hverification
    · rw [hlabel] at hverification
      rw [hacts]
      exact VerificationSystem.stores_own hown hverification
  unfold verificationView
  rw [← hsame]

theorem next_submission (h : n.next setup a = some m) :
    (SubmissionSystem.lts setup.submission setup.store).Follows n.submissionView (n.submissionLabel a)
      m.submissionView := by
  rw [submissionView_next h]
  exact Lts.follow_eq_some (next_eq_some h).2.2.1

theorem next_p2p (h : n.next setup a = some m) :
    (P2pSystem.lts setup.store setup.p2p setup.localPeerId setup.validators setup.listeners setup.capacity).Follows
      n.p2pView (n.p2pLabel a) m.p2pView := by
  rw [p2pView_next h]
  exact Lts.follow_eq_some (next_eq_some h).2.2.2.1

theorem next_verification (h : n.next setup a = some m) :
    (VerificationSystem.lts setup.store setup.registry setup.verification setup.capacity).Follows n.verificationView
      (n.verificationLabel a) m.verificationView := by
  rw [verificationView_next h]
  exact Lts.follow_eq_some (next_eq_some h).2.2.2.2.1

theorem next_stores (h : n.next setup a = some m) :
    (StoreSystem.lts setup.store).Follows n.stores (n.acts a) m.stores := by
  obtain ⟨hallowed, -, hsubmission, -, -, hstores, -⟩ := next_eq_some h
  have henabled : ∀ action ∈ n.acts a, n.stores.Enabled action := by
    rcases submissionLabel_cases hallowed with hlabel | ⟨b, -, -, hacts⟩
    · rw [hlabel] at hsubmission
      exact (submission_stores hsubmission).2
    · -- a submission inserts a proof, which is always possible
      intro action haction
      rw [hacts] at haction
      exact SubmissionSystem.enabled_of_acts haction
  cases hacts : n.acts a with
  | none =>
    rw [hacts] at hstores
    exact hstores
  | some action =>
    rw [hacts] at hstores
    exact ⟨henabled action hacts, hstores⟩

omit [Ed25519] [TransactionWire] in
private theorem p2p_replaceAll {o : Option P2pAction} {p q : P2pSystem} (hp : p.Protocol)
    (h : Lts.follow P2pSystem.next p o = some q)
    (ho : ∀ b ∈ o, (∀ call peers, b ≠ .submit call (.replaceAuthorizedPeers peers)) ∧ p.grants b = true)
    (later : List (Finset PeerId)) :
    (q.driver.replaceAll (q.replacements ++ later)).authorizedPeers =
      (p.driver.replaceAll (p.replacements ++ later)).authorizedPeers ∧
    q.driver.localPeerId = p.driver.localPeerId := by
  cases o with
  | none =>
    cases h
    exact ⟨rfl, rfl⟩
  | some b =>
    have hstep := P2pSystem.next_step h
    have hlocal : q.driver.localPeerId = p.driver.localPeerId := congrArg Prod.snd hstep.node
    refine ⟨?_, hlocal⟩
    rcases hstep.replacements hp (ho b rfl).1 (ho b rfl).2 with ⟨hsame, hpeers⟩ | ⟨peers, hfirst, hpeers⟩
    · rw [hsame]
      exact Driver.replaceAll_authorizedPeers hpeers hlocal _
    · rw [hfirst, List.cons_append]
      have hfollows : q.driver.authorizedPeers = (p.driver.replaceAuthorizedPeers peers).authorizedPeers := hpeers
      exact Driver.replaceAll_authorizedPeers hfollows hlocal _

/-- The listener takes a step of its own, or the driver takes one that leaves what it will authorize. -/
theorem next_listener (hp : n.p2pView.Protocol) (h : n.next setup a = some m) (driver : Driver) :
    ∃ b, (ListenerSystem.lts setup.listener driver).step n.listenerView b m.listenerView := by
  obtain ⟨hallowed, hlistener, -, hp2p, -, -, hcalling⟩ := next_eq_some h
  have hwaits : m.listener = n.listenerView →
      m.listenerView.driver.authorizedPeers = n.listenerView.driver.authorizedPeers ∧
        m.p2p.driver.localPeerId = n.p2p.driver.localPeerId →
      ∃ b, (ListenerSystem.lts setup.listener driver).step n.listenerView b m.listenerView := by
    rintro hsame ⟨hpeers, hlocal⟩
    refine ⟨.driverStep m.listenerView.driver, (ListenerSystem.next_driverStep hpeers ?_).trans ?_⟩
    · simpa [listenerView] using hlocal
    · rw [← hsame]
      rfl
  -- a step of another service, after which the same replacements are to come
  have hother : ∀ o, Lts.follow P2pSystem.next n.p2pView o = some m.p2p →
      (∀ b ∈ o, (∀ call peers, b ≠ .submit call (.replaceAuthorizedPeers peers)) ∧ n.p2pView.grants b = true) →
      m.calling.filterMap Listener.Effect.replacement = n.calling.filterMap Listener.Effect.replacement →
      m.listenerView.driver.authorizedPeers = n.listenerView.driver.authorizedPeers ∧
        m.p2p.driver.localPeerId = n.p2p.driver.localPeerId := by
    intro o hfollow ho hsame
    have hkept := p2p_replaceAll hp hfollow ho (m.calling.filterMap Listener.Effect.replacement)
    rw [hsame] at hkept
    rw [listenerView, replacements, hsame]
    exact hkept
  have hseen : n.p2pLabel a = (n.acts a).map .operation → m.calling = n.calling →
      m.listenerView.driver.authorizedPeers = n.listenerView.driver.authorizedPeers ∧
        m.p2p.driver.localPeerId = n.p2p.driver.localPeerId := by
    intro hlabel hsame
    refine hother _ hp2p (fun b hb => ?_) (by rw [hsame])
    rw [hlabel] at hb
    obtain ⟨action, -, rfl⟩ := Option.map_eq_some_iff.1 hb
    exact ⟨fun _ _ h => (by cases h), rfl⟩
  cases a with
  | listener b =>
    rw [allowed, Bool.and_eq_true, Bool.and_eq_true] at hallowed
    have hdriver : m.listener.driver = m.p2p.driver.replaceAll m.replacements := by
      rw [ListenerSystem.driver_next hallowed.1.2 hlistener, replacements, hcalling, remaining, List.filterMap_append,
        ← List.append_assoc, Driver.replaceAll_append, ← Option.some.inj hp2p]
      rfl
    refine ⟨b, (show _ = some m.listener from hlistener).trans (congrArg some ?_)⟩
    rw [listenerView, ← hdriver]
  | effect now call =>
    refine hwaits (Option.some.inj hlistener).symm ?_
    rw [remaining] at hcalling
    rw [p2pLabel] at hp2p
    cases hfirst : n.calling with
    | nil =>
      rw [allowed, hfirst] at hallowed
      cases hallowed
    | cons effect rest =>
      rw [hfirst] at hcalling hp2p
      cases effect with
      | observe id =>
        refine hother _ hp2p (fun b hb => ?_) (by rw [hcalling, hfirst]; rfl)
        cases hb
        exact ⟨fun _ _ h => (by cases h), rfl⟩
      | loaded peers => exact hother _ hp2p (fun b hb => by cases hb) (by rw [hcalling, hfirst]; rfl)
      | replaced peers =>
        -- the replacement moves from the call into the mailbox
        obtain ⟨hdriver, hmailbox⟩ : m.p2p.driver = n.p2p.driver ∧
            m.p2p.replacements = n.p2p.replacements ++ [peers] := by
          have hsubmit : P2pSystem.next n.p2pView (.submit call (.replaceAuthorizedPeers peers)) = some m.p2p := hp2p
          have hstep := P2pSystem.next_step hsubmit
          generalize m.p2p = q at hstep
          cases hstep
          exact ⟨rfl, by simp [P2pSystem.replacements, DriverCommand.replacement, p2pView]⟩
        have hreplacements : m.replacements = n.replacements := by
          rw [replacements, replacements, hcalling, hfirst, hmailbox]
          simp [Listener.Effect.replacement]
        rw [listenerView, hreplacements, hdriver]
        exact ⟨rfl, rfl⟩
  | p2p b =>
    rw [allowed, Bool.and_eq_true, Bool.and_eq_true] at hallowed
    refine hwaits (Option.some.inj hlistener).symm (hother (some b) hp2p (fun b' hb' => ?_) (by rw [hcalling]; rfl))
    cases hb'
    refine ⟨fun call peers hb => ?_, hallowed.2⟩
    rw [hb] at hallowed
    cases hallowed.1.2
  | _ => exact hwaits (Option.some.inj hlistener).symm (hseen rfl hcalling)

/-! ### The services in the node -/

theorem run_verification {as : List NodeAction} (h : (lts setup).Run (initial setup) as n) :
    ∃ bs, (VerificationSystem.lts setup.store setup.registry setup.verification setup.capacity).Run
        (.initial setup.store setup.registry setup.verification setup.capacity) bs n.verificationView ∧
      ∀ b ∈ bs, ∃ u, ∃ a ∈ as, verificationLabel u a = some b :=
  h.project (f := verificationView) (l := verificationLabel) next_verification

theorem reachable_p2p (h : (lts setup).Reachable n) :
    (P2pSystem.lts setup.store setup.p2p setup.localPeerId setup.validators setup.listeners setup.capacity).Reachable
      n.p2pView := by
  obtain ⟨n₀, as, rfl, hrun⟩ := h
  obtain ⟨bs, hp2p, -⟩ := hrun.project (f := p2pView) (l := p2pLabel) next_p2p
  exact ⟨_, bs, rfl, hp2p⟩

theorem reachable_listener (h : (lts setup).Reachable n) :
    (ListenerSystem.lts setup.listener
      (.build setup.p2p setup.localPeerId setup.validators setup.listeners)).Reachable n.listenerView := by
  refine h.invariant (P := fun n => (ListenerSystem.lts setup.listener
    (.build setup.p2p setup.localPeerId setup.validators setup.listeners)).Reachable n.listenerView) ?_ ?_
  · rintro n rfl
    exact .of_init rfl
  · intro n a m hreach hlistener hstep
    obtain ⟨b, hb⟩ := next_listener (P2pSystem.run_protocol (reachable_p2p hreach)) hstep _
    exact hlistener.step hb

/-- In every reachable state of the node each service and the store are in a state that their own models reach, next to
other users of the store; the driver of the listener is the one of the P2P service after the replacements that are
under way.  So what was proved of a service next to any environment holds in the node. -/
theorem services_compose (h : (lts setup).Reachable n) :
    (ListenerSystem.lts setup.listener
      (.build setup.p2p setup.localPeerId setup.validators setup.listeners)).Reachable n.listenerView ∧
    (SubmissionSystem.lts setup.submission setup.store).Reachable n.submissionView ∧
    (P2pSystem.lts setup.store setup.p2p setup.localPeerId setup.validators setup.listeners setup.capacity).Reachable
      n.p2pView ∧
    (VerificationSystem.lts setup.store setup.registry setup.verification setup.capacity).Reachable
      n.verificationView ∧
    (StoreSystem.lts setup.store).Reachable n.stores := by
  have hlistener := reachable_listener h
  have hp2p := reachable_p2p h
  obtain ⟨n₀, as, rfl, hrun⟩ := h
  obtain ⟨cs, hsubmission, -⟩ := hrun.project (f := submissionView) (l := submissionLabel) next_submission
  obtain ⟨es, hverification, -⟩ := run_verification hrun
  obtain ⟨fs, hstores, -⟩ := hrun.project (f := stores) (l := acts) next_stores
  exact ⟨hlistener, ⟨_, cs, rfl, hsubmission⟩, hp2p, ⟨_, es, rfl, hverification⟩, ⟨_, fs, rfl, hstores⟩⟩

end NodeSystem

/-! ### A small node -/

/-- A node with all services; it is the first of two validators. -/
def NodeSetup.small : NodeSetup where
  listener := ⟨⟨1, 8⟩, ⟨"pulsar-1"⟩, true⟩
  listenerEnabled := true
  submission := SubmissionSystem.smallService
  submissionEnabled := true
  p2p := .small
  localPeerId := ListenerSystem.peerOf 1
  validators := {ListenerSystem.peerOf 1, ListenerSystem.peerOf 2}
  listeners := {0}
  store := .small
  capacity := 16
  registry := ⟨(∅ : AList fun _ : ProofType => Verifier).insert .minaPickles ⟨7⟩⟩
  verification := ⟨2, 30, 2, 250⟩

namespace NodeSystem

section

variable [Sha256]

def requested : ChainAnswers where
  heightError := ""
  status := ListenerSystem.joined.status
  proofs _ :=
    [.answered ⟨1, 0, "", .ok ⟨[⟨some ⟨1, 0⟩, some (.pending ⟨1, (Sha256.digest Proof.small.proof).1,
      (Sha256.digest Proof.small.publicInputs).1, (Sha256.digest Proof.small.verificationKey).1,
      Proof.small.verificationId.bytes.1⟩)⟩], []⟩⟩]
  block := ListenerSystem.joined.block
  validators := ListenerSystem.joined.validators
  observe _ := .ok .inserted
  replace := .ok ()

/-- The listener finds the request and the validators; the record and the authorized peers follow. -/
def observing : List NodeAction :=
  [.listener (.subscribe (.ok ())), .listener (.initializeSession requested), .effect 1 0, .effect 1 0, .effect 1 0,
    .p2p (.driverCommand .calm), .replied]

/-- The proof is submitted, the worker verifies it and commits its verdict. -/
def verifying : List NodeAction :=
  [.submission (.submit 0 .small), .submission (.tryGetWith 0), .submission (.insertLocalProof 0 2),
    .verification (.worker .reconcile), .verification (.worker (.visit Proof.small.verificationId)),
    .verification (.worker .collect), .verification (.worker .top), .verification (.worker .start),
    .verification (.worker .flush), .verification (.endJob 0 fun _ => some (5, .returned (.ok .valid))),
    .verification (.worker .start), .verification (.worker (.join 0 9))]

end

/-- A node that serves a verdict: its services are in states that their models reach. -/
theorem services_compose_verified :
    letI := Sha256.standard
    letI := ListenerSystem.everyKey
    letI := TransactionWire.standard
    letI := AvailabilityWire.standard
    ∃ n, (lts .small).Reachable n ∧
      getVerificationResults n.stores.store.get [Proof.small.verificationId.bytes.1] =
        .ok [⟨Proof.small.verificationId.bytes.1, 1⟩] ∧
      (SubmissionSystem.lts SubmissionSystem.smallService .small).Reachable n.submissionView ∧
      (VerificationSystem.lts .small NodeSetup.small.registry NodeSetup.small.verification 16).Reachable
        n.verificationView := by
  let _ := Sha256.standard
  let _ := ListenerSystem.everyKey
  let _ := TransactionWire.standard
  let _ := AvailabilityWire.standard
  have hexec : (Lts.exec (next .small) (initial .small) (observing ++ verifying)).any (fun n =>
      decide (getVerificationResults n.stores.store.get [Proof.small.verificationId.bytes.1] =
        .ok [⟨Proof.small.verificationId.bytes.1, 1⟩])) = true := by
    decide +kernel
  obtain ⟨n, hn, htest⟩ := (Option.any_eq_true _ _).1 hexec
  rw [decide_eq_true_eq] at htest
  have hreach : (lts .small).Reachable n := ⟨_, _, rfl, Lts.run_of_exec hn⟩
  obtain ⟨-, hsubmission, -, hverification, -⟩ := services_compose hreach
  exact ⟨n, hreach, htest, hsubmission, hverification⟩

end NodeSystem

end PulsarVerifier
