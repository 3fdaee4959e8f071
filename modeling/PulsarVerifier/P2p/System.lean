import PulsarVerifier.Lib.Broadcast
import PulsarVerifier.P2p.Worker
import PulsarVerifier.Store.System

/-!
# Driver, worker and store

The two tasks of the P2P service and the store they share, under all interleavings.  Driver and worker exchange
commands and events through bounded channels; a call of the worker is answered through a slot of its own.  The driver
is suspended while the event it emits waits for room, the worker while its call waits for room or for the reply.

An operation of any other task on the store commits in one step and publishes its events later, one at a time; an
eviction emits its event in the step that removes the record.  Every event in flight carries the address that the store
would allocate next when the operation started (`Notice`): for a record that the operation put it is its address.
-/

namespace PulsarVerifier

/-- An event of the store and the address the store would allocate when its operation started; the address is a history
variable. -/
structure Notice where
  event : ProofStoreEvent
  addr : Nat
  deriving DecidableEq

/-- The loop that the handlers of the worker are called from. -/
inductive WorkerMode
  | running
  /-- the loop over driver events in `drain` -/
  | drainingDriver (progressed : Bool)
  /-- the loop over store events in `drain` -/
  | drainingStore (progressed : Bool)
  deriving DecidableEq

def WorkerMode.draining : WorkerMode → Bool
  | .running => false
  | _ => true

structure P2pSystem where
  stores : StoreSystem
  /-- the capacity of the channel of store events -/
  capacity : Nat
  /-- what operations of other tasks have still to publish -/
  publishing : List (List Notice)
  receiver : Receiver Notice
  /-- what the operation of the worker has still to publish -/
  outbox : List Notice
  driver : Driver
  /-- the event the driver waits to send -/
  emitting : Option DriverEvent
  mailbox : List (Caller × DriverCommand)
  events : List DriverEvent
  driverResult : Option (Except Error Unit)
  mode : WorkerMode
  worker : Worker
  /-- the reply to the call of the worker -/
  reply : Option (Except Error Reply)
  /-- the replies to other clients -/
  answers : Replies
  stopRequested : Bool
  now : Instant
  /-- history variable: the addresses of the records whose `VerificationObserved` event the worker has taken -/
  handled : List Nat

/-- The branches of `select!`, and the two queues of `drain`. -/
inductive Pick
  | stop
  | driverEvent
  | storeEvent
  | wake (i : Nat)
  deriving DecidableEq

inductive P2pAction
  /-- another task calls the store, or a record is evicted -/
  | operation (action : StoreAction)
  | publish (i : Nat)
  | tick (elapsed : Duration)
  | requestStop
  /-- another client sends a command -/
  | submit (call : Nat) (command : DriverCommand)
  | driverCommand (net : NetworkOutcome)
  | swarmEvent (event : SwarmEvent)
  | delayedResponse (i : Nat)
  | expireQueries
  | emit (net : NetworkOutcome)
  /-- the operation of the worker publishes its next event -/
  | workerFlush
  | workerSelect (pick : Pick)
  | workerSend
  /-- the worker takes the reply to its call -/
  | workerReply (choice : Nat) (delay elapsed : Duration)
  /-- the worker accesses the store; `snapshot` is the order in which a snapshot lists the identifiers -/
  | workerStore (snapshot : List VerificationId)

def noticesOf (store : ProofStore) (events : List ProofStoreEvent) : List Notice :=
  events.map fun event => ⟨event, store.nextAddr⟩

/-- The commands that clients other than the worker send. -/
def DriverCommand.ofClient : DriverCommand → Bool
  | .replaceAuthorizedPeers _ | .drain => true
  | _ => false

/-- A node is never connected to itself. -/
def SwarmEvent.remote (localPeerId : PeerId) : SwarmEvent → Bool
  | .connectionEstablished peer | .connectionClosed peer _ => decide (peer ≠ localPeerId)
  | _ => true

/-- The task of the worker is over, and with it the receiving end of the event channel. -/
def Worker.ended (w : Worker) : Bool :=
  match w.control with
  | .returned _ | .panicked _ => true
  | _ => false

namespace P2pSystem

def deliver (s : P2pSystem) : Replies → P2pSystem
  | [] => s
  | (.worker, reply) :: rest => deliver { s with reply := some reply } rest
  | (.client call, reply) :: rest => deliver { s with answers := s.answers ++ [(.client call, reply)] } rest

def finishRound (s : P2pSystem) : P2pSystem :=
  let (driver, replies) := s.driver.finishDrain
  { s with driver }.deliver replies

theorem deliver_frame (s : P2pSystem) (replies : Replies) :
    ∃ reply answers, s.deliver replies = { s with reply, answers } := by
  induction replies generalizing s with
  | nil => exact ⟨s.reply, s.answers, rfl⟩
  | cons head replies ih =>
    obtain ⟨caller, reply⟩ := head
    cases caller with
    | worker => exact ih { s with reply := some reply }
    | client call => exact ih { s with answers := s.answers ++ [(.client call, reply)] }

/-- The end of a round changes the state of the driver and the replies only. -/
theorem finishRound_frame (s : P2pSystem) :
    ∃ state reply answers, s.finishRound = { s with driver := { s.driver with state }, reply, answers } := by
  have hdriver : ∃ state, s.driver.finishDrain.1 = { s.driver with state } := by
    unfold Driver.finishDrain
    split
    · split_ifs
      · exact ⟨.drained, rfl⟩
      · exact ⟨s.driver.state, rfl⟩
    · exact ⟨s.driver.state, rfl⟩
  obtain ⟨state, hstate⟩ := hdriver
  obtain ⟨reply, answers, h⟩ := deliver_frame { s with driver := s.driver.finishDrain.1 } s.driver.finishDrain.2
  refine ⟨state, reply, answers, ?_⟩
  rw [← hstate]
  exact h

theorem finishRound_keeps {α : Type} (f : P2pSystem → α)
    (h : ∀ s state reply answers, f { s with driver := { s.driver with state }, reply, answers } = f s)
    (s : P2pSystem) : f s.finishRound = f s := by
  obtain ⟨state, reply, answers, hround⟩ := s.finishRound_frame
  rw [hround, h]

theorem commandRound_frame [Sha256] {s t : P2pSystem} {net : NetworkOutcome} {caller : Caller} {command : DriverCommand}
    {rest : List (Caller × DriverCommand)}
    (ht : t = ({ s with driver := (s.driver.handleCommand net caller command).1, mailbox := rest }.deliver
      (s.driver.handleCommand net caller command).2).finishRound) :
    ∃ state reply answers, t = { s with
      driver := { (s.driver.handleCommand net caller command).1 with state }, mailbox := rest, reply, answers } := by
  obtain ⟨reply, answers, hdeliver⟩ := deliver_frame
    { s with driver := (s.driver.handleCommand net caller command).1, mailbox := rest }
    (s.driver.handleCommand net caller command).2
  rw [ht, hdeliver]
  obtain ⟨state, reply', answers', hround⟩ := finishRound_frame
    { s with driver := (s.driver.handleCommand net caller command).1, mailbox := rest, reply, answers }
  exact ⟨state, reply', answers', hround⟩

def driverFree (s : P2pSystem) : Bool := s.emitting.isNone && s.driverResult.isNone

section

variable [Sha256]

def operation (s : P2pSystem) (action : StoreAction) : Option P2pSystem :=
  if s.stores.Enabled action then
    let (stores, events) := s.stores.perform action
    let notices := noticesOf s.stores.store events
    match action with
    | .evict _ _ => some { s with stores, receiver := s.receiver.sendAll s.capacity notices }
    | _ => some { s with stores, publishing := s.publishing ++ [notices] }
  else none

omit [Sha256] in
def publish (s : P2pSystem) (i : Nat) : Option P2pSystem :=
  match s.publishing[i]? with
  | some (notice :: rest) =>
    some { s with receiver := s.receiver.send s.capacity notice, publishing := s.publishing.set i rest }
  | _ => none

omit [Sha256] in
def submit (s : P2pSystem) (call : Nat) (command : DriverCommand) : Option P2pSystem :=
  if s.driverResult.isNone ∧ s.mailbox.length < s.driver.config.commandBuffer ∧ command.ofClient then
    some { s with mailbox := s.mailbox ++ [(.client call, command)] }
  else none

variable [AvailabilityWire]

/-! ### Steps of the driver -/

/-- libp2p gives a new request an identifier that no outstanding one has. -/
def driverCommand (s : P2pSystem) (net : NetworkOutcome) : Option P2pSystem :=
  match s.mailbox with
  | [] => none
  | (caller, command) :: rest =>
    if s.driverFree ∧ net.outboundId ∉ s.driver.outboundRequests then
      let (driver, replies) := s.driver.handleCommand { net with now := s.now } caller command
      some (({ s with driver, mailbox := rest }.deliver replies).finishRound)
    else none

def swarmEvent (s : P2pSystem) (event : SwarmEvent) : Option P2pSystem :=
  if s.driverFree ∧ event.remote s.driver.localPeerId then
    match s.driver.handleSwarmEvent event with
    | .error error => some { s with driverResult := some (.error error) }
    | .ok (driver, none) => some { s with driver }.finishRound
    | .ok (driver, some event) => some { s with driver, emitting := some event }
  else none

omit [Sha256] [AvailabilityWire] in
/-- A delayed response is published; a failure is only logged. -/
def delayedResponse (s : P2pSystem) (i : Nat) : Option P2pSystem :=
  if s.driverFree ∧ i < s.driver.delayedResponses.length then
    some { s with
      driver := { s.driver with delayedResponses := s.driver.delayedResponses.eraseIdx i } }.finishRound
  else none

omit [Sha256] [AvailabilityWire] in
def expireQueries (s : P2pSystem) : Option P2pSystem :=
  if s.driverFree then some { s with driver := s.driver.expireQueries s.now }.finishRound else none

omit [AvailabilityWire] in
/-- The event goes into the channel once there is room; after the end of the worker it is dropped, and an inbound
request is answered with `NotFound`. -/
def emit (s : P2pSystem) (net : NetworkOutcome) : Option P2pSystem :=
  match s.emitting with
  | none => none
  | some event =>
    if s.worker.ended then
      let driver :=
        match event with
        | .proofRequested requestId _ _ => (s.driver.respondProof { net with now := s.now } requestId none).2
        | _ => s.driver
      some { s with driver, emitting := none }.finishRound
    else if s.events.length < s.driver.config.eventBuffer then
      some { s with events := s.events ++ [event], emitting := none }.finishRound
    else none

/-! ### Steps of the worker -/

omit [Sha256] [AvailabilityWire] in
def workerFlush (s : P2pSystem) : Option P2pSystem :=
  match s.outbox with
  | [] => none
  | notice :: rest => some { s with receiver := s.receiver.send s.capacity notice, outbox := rest }

omit [Sha256] [AvailabilityWire] in
/-- The worker takes the next driver event in `mode`; `empty` is what it does if there is none. -/
def takeDriverEvent (s : P2pSystem) (mode : WorkerMode) (empty : Option P2pSystem) : Option P2pSystem :=
  match s.events with
  | event :: rest =>
    some { s with events := rest, mode, worker := s.worker.handleDriverEvent s.now mode.draining event }
  | [] => if s.driverResult.isSome then some { s with worker := s.worker.fail .p2pDriverClosed } else empty

omit [Sha256] [AvailabilityWire] in
/-- The history after the worker has taken a notice outside a drain. -/
def recordTaken (s : P2pSystem) (notice : Notice) : P2pSystem :=
  match notice.event with
  | .verificationObserved id =>
    { s with handled := notice.addr :: s.handled, worker := { s.worker with expired := s.worker.expired.erase id } }
  | _ => s

omit [Sha256] [AvailabilityWire] in
theorem recordTaken_frame (s : P2pSystem) (notice : Notice) :
    ∃ handled expired, s.recordTaken notice = { s with handled, worker := { s.worker with expired } } := by
  unfold recordTaken
  split
  · exact ⟨_, _, rfl⟩
  · exact ⟨s.handled, s.worker.expired, rfl⟩

omit [Sha256] [AvailabilityWire] in
def workerSelect (s : P2pSystem) (pick : Pick) : Option P2pSystem :=
  match s.mode, pick with
  | .running, .stop =>
    if s.stopRequested then
      some { s with mode := .drainingDriver false, worker := { s.worker with pending := [], wakes := [] } }
    else none
  | .running, .driverEvent => s.takeDriverEvent .running none
  | .running, .storeEvent =>
    match s.receiver.recv with
    | some (.event notice, receiver) =>
      let s := { s with receiver }.recordTaken notice
      some { s with worker := s.worker.handleStoreEvent false notice.event }
    | some (.lagged, receiver) =>
      some { s with receiver, worker := s.worker.goto (.store .locallyAvailableProofs) }
    | some (.closed, _) =>
      some { s with worker := s.worker.fail (.proofStore "proof store event channel closed") }
    | none => none
  | .running, .wake i =>
    match s.worker.wakes[i]? with
    | none => none
    | some wake =>
      if wake.due ≤ s.now then
        some { s with worker := { s.worker with wakes := s.worker.wakes.eraseIdx i }.handleWake wake s.now }
      else none
  | .drainingDriver progressed, .driverEvent =>
    s.takeDriverEvent (.drainingDriver true) (some { s with mode := .drainingStore progressed })
  | .drainingStore progressed, .storeEvent =>
    match s.receiver.recv with
    | some (.event notice, receiver) =>
      some { s with
        receiver, mode := .drainingStore true, worker := s.worker.handleStoreEvent true notice.event }
    | some (.lagged, receiver) => some { s with receiver, mode := .drainingStore true }
    | some (.closed, _) =>
      some { s with worker := s.worker.fail (.proofStore "proof store event channel closed") }
    | none =>
      if progressed then some { s with mode := .drainingDriver false }
      else some { s with worker := s.worker.goto (.returned (.ok ())) }
  | _, _ => none

omit [Sha256] [AvailabilityWire] in
def workerSend (s : P2pSystem) : Option P2pSystem :=
  match s.worker.control with
  | .sending command call =>
    if s.driverResult.isSome then
      some { s with reply := some (.error .p2pDriverClosed), worker := s.worker.goto (.waiting call) }
    else if s.mailbox.length < s.driver.config.commandBuffer then
      some { s with mailbox := s.mailbox ++ [(.worker, command)], worker := s.worker.goto (.waiting call) }
    else none
  | _ => none

omit [Sha256] [AvailabilityWire] in
/-- The reply that the worker finds: its own, or the error of a driver that is gone. -/
def replyToWorker (s : P2pSystem) : Option (Except Error Reply) :=
  match s.reply with
  | some reply => some reply
  | none => if s.driverResult.isSome then some (.error .p2pDriverClosed) else none

omit [Sha256] [AvailabilityWire] in
def workerReply (s : P2pSystem) (choice : Nat) (delay elapsed : Duration) : Option P2pSystem :=
  match s.worker.control, s.replyToWorker with
  | .waiting call, some reply =>
    let input : WorkerInput := { choice, delay, now := s.now, later := s.now + elapsed }
    (s.worker.resumeCall input call reply).map fun worker =>
      { s with worker, reply := none, now := s.now + elapsed }
  | _, _ => none

omit [AvailabilityWire] in
/-- Snapshots are taken at one instant; Moka lists the records in any order. -/
def workerStore (s : P2pSystem) (snapshot : List VerificationId) : Option P2pSystem :=
  match s.worker.control with
  | .store (.getProof requestId id) =>
    some { s with worker := s.worker.call (.respondProof requestId (s.stores.store.getProof id)) .respondProof }
  | .store (.attachDownloadedProof requestId peer id proof) =>
    let (stores, events) := s.stores.perform (.attachDownloadedProof s.now id proof peer)
    let stored := (s.stores.store.attachDownloadedProof s.now id proof peer).result
    some { s with
      stores, outbox := noticesOf s.stores.store events
      worker := s.worker.goto (.store (.attached requestId peer id stored)) }
  | .store (.attached requestId peer id stored) =>
    some { s with worker := s.worker.resumeAttached requestId peer id stored s.now s.mode.draining }
  | .store .locallyAvailableProofs =>
    if snapshot.isPerm s.stores.store.locallyAvailableProofs then
      some { s with worker := s.worker.call (.replaceLocalProofs snapshot) (.replaceLocalProofs snapshot) }
    else none
  | .store .recordsWaitingForContent =>
    if snapshot.isPerm s.stores.store.recordsWaitingForContent then
      some { s with worker := s.worker.resumeWaiting snapshot }
    else none
  | .store (.get id rest) => some { s with worker := s.worker.resumeGet id rest (s.stores.store.get id) }
  | _ => none

/-! ### The system -/

/-- The worker goes on only when its own operation has published everything. -/
def next (s : P2pSystem) : P2pAction → Option P2pSystem
  | .operation action => s.operation action
  | .publish i => s.publish i
  | .tick elapsed => some { s with now := s.now + elapsed }
  | .requestStop => some { s with stopRequested := true }
  | .submit call command => s.submit call command
  | .driverCommand net => s.driverCommand net
  | .swarmEvent event => s.swarmEvent event
  | .delayedResponse i => s.delayedResponse i
  | .expireQueries => s.expireQueries
  | .emit net => s.emit net
  | .workerFlush => s.workerFlush
  | .workerSelect pick =>
    match s.outbox, s.worker.control with
    | [], .idle => s.workerSelect pick
    | _, _ => none
  | .workerSend => s.workerSend
  | .workerReply choice delay elapsed => s.workerReply choice delay elapsed
  | .workerStore snapshot => if s.outbox.isEmpty then s.workerStore snapshot else none

omit [Sha256] [AvailabilityWire] in
def initial (store : ProofStore) (config : P2pConfig) (localPeerId : PeerId) (validators : Finset PeerId)
    (listeners : Finset Nat) (capacity : Nat) : P2pSystem :=
  { stores := ⟨store, []⟩, capacity, publishing := [], receiver := .empty, outbox := []
    driver := .build config localPeerId validators listeners, emitting := none, mailbox := [], events := []
    driverResult := none, mode := .running, worker := .new localPeerId config, reply := none, answers := []
    stopRequested := false, now := 0, handled := [] }

def lts (store : ProofStore) (config : P2pConfig) (localPeerId : PeerId) (validators : Finset PeerId)
    (listeners : Finset Nat) (capacity : Nat) : Lts P2pSystem P2pAction :=
  .ofNext (· = initial store config localPeerId validators listeners capacity) next

end

end P2pSystem

/-! ### What a step can do -/

/-- The steps of the system one by one, with the conditions under which they are taken. -/
inductive P2pStep [Sha256] [AvailabilityWire] (s : P2pSystem) : P2pAction → P2pSystem → Prop
  | operation (action : StoreAction) (henabled : s.stores.Enabled action)
      (hevict : ∀ id cause, action ≠ .evict id cause) :
    P2pStep s (.operation action)
      { s with
        stores := (s.stores.perform action).1
        publishing := s.publishing ++ [noticesOf s.stores.store (s.stores.perform action).2] }
  | evict (id : VerificationId) (cause : ProofEvictionCause) (henabled : s.stores.Enabled (.evict id cause)) :
    P2pStep s (.operation (.evict id cause))
      { s with
        stores := { s.stores with store := s.stores.store.evict id }
        receiver := s.receiver.send s.capacity ⟨.proofEvicted id cause, s.stores.store.nextAddr⟩ }
  | publish (i : Nat) (notice : Notice) (rest : List Notice) (h : s.publishing[i]? = some (notice :: rest)) :
    P2pStep s (.publish i)
      { s with receiver := s.receiver.send s.capacity notice, publishing := s.publishing.set i rest }
  | tick (elapsed : Duration) : P2pStep s (.tick elapsed) { s with now := s.now + elapsed }
  | requestStop : P2pStep s .requestStop { s with stopRequested := true }
  | submit (call : Nat) (command : DriverCommand) (hclient : command.ofClient) :
    P2pStep s (.submit call command) { s with mailbox := s.mailbox ++ [(.client call, command)] }
  | driverCommand (net : NetworkOutcome) (caller : Caller) (command : DriverCommand)
      (rest : List (Caller × DriverCommand)) (hmailbox : s.mailbox = (caller, command) :: rest) (hfree : s.driverFree)
      (hid : net.outboundId ∉ s.driver.outboundRequests) (t : P2pSystem)
      (ht : t = ({ s with
          driver := (s.driver.handleCommand { net with now := s.now } caller command).1
          mailbox := rest }.deliver (s.driver.handleCommand { net with now := s.now } caller command).2).finishRound) :
    P2pStep s (.driverCommand net) t
  | swarmError (event : SwarmEvent) (error : Error) (hfree : s.driverFree)
      (h : s.driver.handleSwarmEvent event = .error error) :
    P2pStep s (.swarmEvent event) { s with driverResult := some (.error error) }
  | swarmQuiet (event : SwarmEvent) (driver : Driver) (hfree : s.driverFree)
      (hremote : event.remote s.driver.localPeerId)
      (h : s.driver.handleSwarmEvent event = .ok (driver, none)) :
    P2pStep s (.swarmEvent event) { s with driver }.finishRound
  | swarmEmit (event : SwarmEvent) (driver : Driver) (emitted : DriverEvent) (hfree : s.driverFree)
      (hremote : event.remote s.driver.localPeerId)
      (h : s.driver.handleSwarmEvent event = .ok (driver, some emitted)) :
    P2pStep s (.swarmEvent event) { s with driver, emitting := some emitted }
  | delayedResponse (i : Nat) (hfree : s.driverFree) :
    P2pStep s (.delayedResponse i)
      { s with driver := { s.driver with delayedResponses := s.driver.delayedResponses.eraseIdx i } }.finishRound
  | expireQueries (hfree : s.driverFree) :
    P2pStep s .expireQueries { s with driver := s.driver.expireQueries s.now }.finishRound
  | emitDropped (net : NetworkOutcome) (event : DriverEvent) (hemitting : s.emitting = some event)
      (hended : s.worker.ended = true) (driver : Driver)
      (hdriver : (driver = s.driver ∧ event.requested = none) ∨
        ∃ requestId peer id, event = .proofRequested requestId peer id ∧
          driver = (s.driver.respondProof { net with now := s.now } requestId none).2) :
    P2pStep s (.emit net) { s with driver, emitting := none }.finishRound
  | emitSent (net : NetworkOutcome) (event : DriverEvent) (hemitting : s.emitting = some event)
      (hended : s.worker.ended = false) (hroom : s.events.length < s.driver.config.eventBuffer) :
    P2pStep s (.emit net) { s with events := s.events ++ [event], emitting := none }.finishRound
  | workerFlush (notice : Notice) (rest : List Notice) (h : s.outbox = notice :: rest) :
    P2pStep s .workerFlush { s with receiver := s.receiver.send s.capacity notice, outbox := rest }
  | selectStop (hidle : s.worker.control = .idle) (hmode : s.mode = .running) (houtbox : s.outbox = [])
      (hstop : s.stopRequested = true) :
    P2pStep s (.workerSelect .stop)
      { s with mode := .drainingDriver false, worker := { s.worker with pending := [], wakes := [] } }
  | selectDriverEvent (mode : WorkerMode) (event : DriverEvent) (rest : List DriverEvent)
      (hidle : s.worker.control = .idle) (houtbox : s.outbox = []) (hevents : s.events = event :: rest)
      (hmode : mode.draining = s.mode.draining) :
    P2pStep s (.workerSelect .driverEvent)
      { s with events := rest, mode, worker := s.worker.handleDriverEvent s.now mode.draining event }
  | selectDriverClosed (hidle : s.worker.control = .idle) (hdriver : s.driverResult.isSome) :
    P2pStep s (.workerSelect .driverEvent) { s with worker := s.worker.fail .p2pDriverClosed }
  | selectTurn (pick : Pick) (mode : WorkerMode) (hidle : s.worker.control = .idle) (houtbox : s.outbox = [])
      (hdraining : s.mode.draining = true) (hmode : mode.draining = true) :
    P2pStep s (.workerSelect pick) { s with mode }
  | selectStoreEvent (notice : Notice) (receiver : Receiver Notice) (hidle : s.worker.control = .idle)
      (hmode : s.mode = .running) (houtbox : s.outbox = [])
      (hrecv : s.receiver.recv = some (.event notice, receiver)) :
    P2pStep s (.workerSelect .storeEvent)
      { ({ s with receiver }.recordTaken notice) with
        worker := ({ s with receiver }.recordTaken notice).worker.handleStoreEvent false notice.event }
  | selectLagged (receiver : Receiver Notice) (hidle : s.worker.control = .idle) (hmode : s.mode = .running)
      (houtbox : s.outbox = []) (hrecv : s.receiver.recv = some (.lagged, receiver)) :
    P2pStep s (.workerSelect .storeEvent)
      { s with receiver, worker := s.worker.goto (.store .locallyAvailableProofs) }
  | selectWake (i : Nat) (wake : RetrievalWake) (hidle : s.worker.control = .idle) (hmode : s.mode = .running)
      (houtbox : s.outbox = []) (hwake : s.worker.wakes[i]? = some wake) (hdue : wake.due ≤ s.now) :
    P2pStep s (.workerSelect (.wake i))
      { s with worker := { s.worker with wakes := s.worker.wakes.eraseIdx i }.handleWake wake s.now }
  | drainStoreEvent (result : Recv Notice) (receiver : Receiver Notice) (hidle : s.worker.control = .idle)
      (hdraining : s.mode.draining = true) (houtbox : s.outbox = [])
      (hrecv : s.receiver.recv = some (result, receiver)) :
    P2pStep s (.workerSelect .storeEvent) { s with receiver, mode := .drainingStore true }
  | drained (hidle : s.worker.control = .idle) (hdraining : s.mode.draining = true) (houtbox : s.outbox = []) :
    P2pStep s (.workerSelect .storeEvent) { s with worker := s.worker.goto (.returned (.ok ())) }
  | sendClosed (command : DriverCommand) (call : DriverCall) (hcontrol : s.worker.control = .sending command call)
      (hdriver : s.driverResult.isSome) :
    P2pStep s .workerSend
      { s with reply := some (.error .p2pDriverClosed), worker := s.worker.goto (.waiting call) }
  | send (command : DriverCommand) (call : DriverCall) (hcontrol : s.worker.control = .sending command call)
      (hdriver : s.driverResult = none) :
    P2pStep s .workerSend
      { s with mailbox := s.mailbox ++ [(.worker, command)], worker := s.worker.goto (.waiting call) }
  | reply (choice : Nat) (delay elapsed : Duration) (call : DriverCall) (reply : Except Error Reply) (worker : Worker)
      (hcontrol : s.worker.control = .waiting call) (hreply : s.replyToWorker = some reply)
      (h : s.worker.resumeCall ⟨choice, delay, s.now, s.now + elapsed⟩ call reply = some worker) :
    P2pStep s (.workerReply choice delay elapsed) { s with worker, reply := none, now := s.now + elapsed }
  | getProof (snapshot : List VerificationId) (requestId : InboundProofRequestId) (id : VerificationId)
      (hcontrol : s.worker.control = .store (.getProof requestId id)) :
    P2pStep s (.workerStore snapshot)
      { s with worker := s.worker.call (.respondProof requestId (s.stores.store.getProof id)) .respondProof }
  | attach (snapshot : List VerificationId) (requestId : ProofRequestId) (peer : PeerId) (id : VerificationId)
      (proof : Proof) (hcontrol : s.worker.control = .store (.attachDownloadedProof requestId peer id proof))
      (houtbox : s.outbox = []) :
    P2pStep s (.workerStore snapshot)
      { s with
        stores := (s.stores.perform (.attachDownloadedProof s.now id proof peer)).1
        outbox :=
          noticesOf s.stores.store (s.stores.perform (.attachDownloadedProof s.now id proof peer)).2
        worker := s.worker.goto (.store (.attached requestId peer id
          (s.stores.store.attachDownloadedProof s.now id proof peer).result)) }
  | attached (snapshot : List VerificationId) (requestId : ProofRequestId) (peer : PeerId) (id : VerificationId)
      (stored : Except Error StoreChange) (hcontrol : s.worker.control = .store (.attached requestId peer id stored))
      (houtbox : s.outbox = []) :
    P2pStep s (.workerStore snapshot)
      { s with worker := s.worker.resumeAttached requestId peer id stored s.now s.mode.draining }
  | localSnapshot (snapshot : List VerificationId) (hcontrol : s.worker.control = .store .locallyAvailableProofs)
      (houtbox : s.outbox = []) (hsnapshot : snapshot.Perm s.stores.store.locallyAvailableProofs) :
    P2pStep s (.workerStore snapshot)
      { s with worker := s.worker.call (.replaceLocalProofs snapshot) (.replaceLocalProofs snapshot) }
  | waitingSnapshot (snapshot : List VerificationId) (hcontrol : s.worker.control = .store .recordsWaitingForContent)
      (houtbox : s.outbox = []) (hsnapshot : snapshot.Perm s.stores.store.recordsWaitingForContent) :
    P2pStep s (.workerStore snapshot) { s with worker := s.worker.resumeWaiting snapshot }
  | get (snapshot : List VerificationId) (id : VerificationId) (rest : List VerificationId)
      (hcontrol : s.worker.control = .store (.get id rest)) (houtbox : s.outbox = []) :
    P2pStep s (.workerStore snapshot)
      { s with worker := s.worker.resumeGet id rest (s.stores.store.get id) }

namespace P2pSystem

variable [Sha256] [AvailabilityWire] {s t : P2pSystem}

private theorem operation_step {a : StoreAction} (h : s.operation a = some t) : P2pStep s (.operation a) t := by
  unfold operation at h
  split at h
  · rename_i henabled
    cases a with
    | evict id cause =>
      cases h
      exact .evict id cause henabled
    | _ =>
      cases h
      exact .operation _ henabled (fun _ _ h => by cases h)
  · cases h

private theorem swarmEvent_step {event : SwarmEvent} (h : s.swarmEvent event = some t) :
    P2pStep s (.swarmEvent event) t := by
  unfold swarmEvent at h
  split at h
  · rename_i hg
    split at h
    · rename_i error he
      cases h
      exact .swarmError event error hg.1 he
    · rename_i driver hd
      cases h
      exact .swarmQuiet event driver hg.1 hg.2 hd
    · rename_i driver emitted hd
      cases h
      exact .swarmEmit event driver emitted hg.1 hg.2 hd
  · cases h

private theorem emit_step {net : NetworkOutcome} (h : s.emit net = some t) : P2pStep s (.emit net) t := by
  unfold emit at h
  split at h
  · cases h
  · rename_i event hemitting
    split at h
    · rename_i hended
      cases h
      refine .emitDropped net event hemitting hended _ ?_
      split
      · exact .inr ⟨_, _, _, rfl, rfl⟩
      · rename_i hnot
        refine .inl ⟨rfl, ?_⟩
        cases event with
        | proofRequested requestId peer id => exact absurd rfl (hnot requestId peer id)
        | _ => rfl
    · rename_i hended
      split at h
      · rename_i hroom
        cases h
        exact .emitSent net event hemitting (by simpa using hended) hroom
      · cases h

private theorem workerSelect_step {pick : Pick} (hidle : s.worker.control = .idle) (houtbox : s.outbox = [])
    (h : s.workerSelect pick = some t) : P2pStep s (.workerSelect pick) t := by
  unfold workerSelect at h
  split at h
  · rename_i hmode
    split at h
    · rename_i hstop
      cases h
      exact .selectStop hidle hmode houtbox hstop
    · cases h
  · rename_i hmode
    unfold takeDriverEvent at h
    split at h
    · rename_i event rest hevents
      cases h
      exact .selectDriverEvent .running event rest hidle houtbox hevents (by rw [hmode])
    · split at h
      · rename_i hd
        cases h
        exact .selectDriverClosed hidle hd
      · cases h
  · rename_i hmode
    split at h
    · rename_i notice receiver hrecv
      cases h
      exact .selectStoreEvent notice receiver hidle hmode houtbox hrecv
    · rename_i receiver hrecv
      cases h
      exact .selectLagged receiver hidle hmode houtbox hrecv
    · rename_i hrecv
      exact absurd hrecv (Receiver.recv_ne_closed _)
    · cases h
  · rename_i i hmode
    split at h
    · cases h
    · rename_i wake hwake
      split at h
      · rename_i hdue
        cases h
        exact .selectWake i wake hidle hmode houtbox hwake hdue
      · cases h
  · rename_i progressed hmode
    unfold takeDriverEvent at h
    split at h
    · rename_i event rest hevents
      cases h
      exact .selectDriverEvent _ event rest hidle houtbox hevents (by rw [hmode]; rfl)
    · split at h
      · rename_i hd
        cases h
        exact .selectDriverClosed hidle hd
      · cases h
        exact .selectTurn _ _ hidle houtbox (by rw [hmode]; rfl) rfl
  · rename_i progressed hmode
    have hdraining : s.mode.draining = true := by rw [hmode]; rfl
    split at h
    · rename_i notice receiver hrecv
      cases h
      have hsame : s.worker.handleStoreEvent true notice.event = s.worker := by
        simp [Worker.handleStoreEvent, Worker.goto, ← hidle]
      rw [hsame]
      exact .drainStoreEvent _ receiver hidle hdraining houtbox hrecv
    · rename_i receiver hrecv
      cases h
      exact .drainStoreEvent _ receiver hidle hdraining houtbox hrecv
    · rename_i hrecv
      exact absurd hrecv (Receiver.recv_ne_closed _)
    · split at h
      · cases h
        exact .selectTurn _ _ hidle houtbox hdraining rfl
      · cases h
        exact .drained hidle hdraining houtbox
  · cases h

private theorem workerStore_step {snapshot : List VerificationId} (houtbox : s.outbox = [])
    (h : s.workerStore snapshot = some t) : P2pStep s (.workerStore snapshot) t := by
  unfold workerStore at h
  split at h
  · rename_i requestId id hcontrol
    cases h
    exact .getProof snapshot requestId id hcontrol
  · rename_i requestId peer id proof hcontrol
    cases h
    exact .attach snapshot requestId peer id proof hcontrol houtbox
  · rename_i requestId peer id stored hcontrol
    cases h
    exact .attached snapshot requestId peer id stored hcontrol houtbox
  · rename_i hcontrol
    split at h
    · rename_i hperm
      cases h
      exact .localSnapshot snapshot hcontrol houtbox (List.isPerm_iff.1 hperm)
    · cases h
  · rename_i hcontrol
    split at h
    · rename_i hperm
      cases h
      exact .waitingSnapshot snapshot hcontrol houtbox (List.isPerm_iff.1 hperm)
    · cases h
  · rename_i id rest hcontrol
    cases h
    exact .get snapshot id rest hcontrol houtbox
  · cases h

theorem next_step {a : P2pAction} (h : s.next a = some t) : P2pStep s a t := by
  cases a with
  | operation action => exact operation_step h
  | publish i =>
    simp only [next, publish] at h
    split at h
    · rename_i notice rest hi
      cases h
      exact .publish i notice rest hi
    · cases h
  | tick elapsed =>
    cases h
    exact .tick elapsed
  | requestStop =>
    cases h
    exact .requestStop
  | submit call command =>
    simp only [next, submit] at h
    split at h
    · rename_i hg
      cases h
      exact .submit call command hg.2.2
    · cases h
  | driverCommand net =>
    simp only [next, driverCommand] at h
    split at h
    · cases h
    · rename_i caller command rest hmailbox
      split at h
      · rename_i hg
        cases h
        exact .driverCommand net caller command rest hmailbox hg.1 hg.2 _ rfl
      · cases h
  | swarmEvent event => exact swarmEvent_step h
  | delayedResponse i =>
    simp only [next, delayedResponse] at h
    split at h
    · rename_i hg
      cases h
      exact .delayedResponse i hg.1
    · cases h
  | expireQueries =>
    simp only [next, expireQueries] at h
    split at h
    · rename_i hfree
      cases h
      exact .expireQueries hfree
    · cases h
  | emit net => exact emit_step h
  | workerFlush =>
    simp only [next, workerFlush] at h
    split at h
    · cases h
    · rename_i notice rest houtbox
      cases h
      exact .workerFlush notice rest houtbox
  | workerSelect pick =>
    simp only [next] at h
    split at h
    · rename_i houtbox hidle
      exact workerSelect_step hidle houtbox h
    · cases h
  | workerSend =>
    simp only [next, workerSend] at h
    split at h
    · rename_i command call hcontrol
      split at h
      · rename_i hd
        cases h
        exact .sendClosed command call hcontrol hd
      · rename_i hd
        split at h
        · cases h
          exact .send command call hcontrol (by simpa using hd)
        · cases h
    · cases h
  | workerReply choice delay elapsed =>
    simp only [next, workerReply] at h
    split at h
    · rename_i call reply hcontrol hreply
      obtain ⟨worker, hworker, rfl⟩ := Option.map_eq_some_iff.1 h
      exact .reply choice delay elapsed call reply worker hcontrol hreply hworker
    · cases h
  | workerStore snapshot =>
    simp only [next] at h
    split at h
    · rename_i houtbox
      exact workerStore_step (List.isEmpty_iff.1 houtbox) h
    · cases h

end P2pSystem

namespace P2pStep

variable [Sha256] [AvailabilityWire] {s t : P2pSystem} {a : P2pAction}

theorem node (h : P2pStep s a t) : t.driver.node = s.driver.node := by
  have hround : ∀ u : P2pSystem, u.finishRound.driver.node = u.driver.node :=
    P2pSystem.finishRound_keeps (·.driver.node) fun _ _ _ _ => rfl
  cases h with
  | driverCommand net caller command rest _ _ _ t ht =>
    obtain ⟨state, reply, answers, rfl⟩ := P2pSystem.commandRound_frame ht
    exact s.driver.handleCommand_node _ _ _
  | swarmQuiet event driver _ _ hmove => exact (hround _).trans (s.driver.handleSwarmEvent_node hmove)
  | swarmEmit event driver emitted _ _ hmove => exact s.driver.handleSwarmEvent_node hmove
  | emitDropped net event _ _ driver hdriver =>
    rw [hround]
    rcases hdriver with ⟨rfl, -⟩ | ⟨requestId, peer, id, -, rfl⟩
    · rfl
    · obtain ⟨inbound, heq, -⟩ := s.driver.respondProof_driver { net with now := s.now } requestId none
      change (s.driver.respondProof _ _ _).2.node = _
      rw [heq]
      rfl
  | emitSent | delayedResponse | expireQueries => exact hround _
  | selectStoreEvent notice receiver =>
    obtain ⟨handled, expired, htaken⟩ := { s with receiver }.recordTaken_frame notice
    rw [htaken]
  | _ => rfl

theorem stores (h : P2pStep s a t) : t.stores = s.stores ∨ ∃ action, t.stores = (s.stores.perform action).1 := by
  have hround : ∀ u : P2pSystem, u.finishRound.stores = u.stores :=
    P2pSystem.finishRound_keeps (·.stores) fun _ _ _ _ => rfl
  cases h with
  | operation action => exact .inr ⟨action, rfl⟩
  | evict id cause => exact .inr ⟨.evict id cause, rfl⟩
  | attach _ requestId peer id proof => exact .inr ⟨.attachDownloadedProof s.now id proof peer, rfl⟩
  | driverCommand net caller command rest _ _ _ t ht =>
    obtain ⟨state, reply, answers, rfl⟩ := P2pSystem.commandRound_frame ht
    exact .inl rfl
  | swarmQuiet | emitDropped | emitSent | delayedResponse | expireQueries => exact .inl (hround _)
  | selectStoreEvent notice receiver =>
    obtain ⟨handled, expired, htaken⟩ := { s with receiver }.recordTaken_frame notice
    rw [htaken]
    exact .inl rfl
  | _ => exact .inl rfl

theorem driverResult (h : P2pStep s a t) (hresult : t.driverResult = none) : s.driverResult = none := by
  have hround : ∀ u : P2pSystem, u.finishRound.driverResult = u.driverResult :=
    P2pSystem.finishRound_keeps (·.driverResult) fun _ _ _ _ => rfl
  cases h with
  | driverCommand net caller command rest _ hfree =>
    rw [P2pSystem.driverFree, Bool.and_eq_true, Option.isNone_iff_eq_none, Option.isNone_iff_eq_none] at hfree
    exact hfree.2
  | swarmError => cases hresult
  | swarmQuiet | emitDropped | emitSent | delayedResponse | expireQueries => rwa [hround] at hresult
  | selectStoreEvent notice receiver =>
    obtain ⟨handled, expired, htaken⟩ := { s with receiver }.recordTaken_frame notice
    rw [htaken] at hresult
    exact hresult
  | _ => exact hresult

theorem mode (h : P2pStep s a t) (hmode : t.mode = .running) : s.mode = .running := by
  have hround : ∀ u : P2pSystem, u.finishRound.mode = u.mode :=
    P2pSystem.finishRound_keeps (·.mode) fun _ _ _ _ => rfl
  cases h with
  | driverCommand net caller command rest _ _ _ t ht =>
    obtain ⟨state, reply, answers, rfl⟩ := P2pSystem.commandRound_frame ht
    exact hmode
  | swarmQuiet | emitDropped | emitSent | delayedResponse | expireQueries => rwa [hround] at hmode
  | selectStop => cases hmode
  | selectDriverEvent mode _ _ _ _ _ hsame =>
    obtain rfl : mode = .running := hmode
    cases hs : s.mode with
    | running => rfl
    | drainingDriver | drainingStore => rw [hs] at hsame; cases hsame
  | selectTurn _ mode _ _ _ hdraining =>
    obtain rfl : mode = .running := hmode
    cases hdraining
  | drainStoreEvent => cases hmode
  | selectStoreEvent notice receiver _ hs => exact hs
  | _ => exact hmode

end P2pStep

/-! ### A small service -/

/-- Three validators. -/
def PeerId.here : PeerId := ⟨[0, 1, 1]⟩

def PeerId.there : PeerId := ⟨[0, 1, 2]⟩

def PeerId.elsewhere : PeerId := ⟨[0, 1, 3]⟩

def VerificationId.small : VerificationId := ⟨⟨List.replicate 32 7, rfl⟩⟩

def P2pConfig.small : P2pConfig :=
  { chainId := "pulsar-1", maxProofBytes := 1024, proofRequestTimeout := 10, maxConcurrentRetrievals := 4
    retrievalTimeout := 60, retrievalInitialBackoff := 1, retrievalMaxBackoff := 8, commandBuffer := 1
    eventBuffer := 1 }

def NetworkOutcome.calm : NetworkOutcome :=
  { publish := .ok (), sendResponse := true, queryId := ⟨⟨List.replicate 16 0, rfl⟩⟩, outboundId := 0, now := 0 }

namespace P2pSystem

/-- The worker calls the driver and gets the reply. -/
def exchange (net : NetworkOutcome) : List P2pAction := [.workerSend, .driverCommand net, .workerReply 0 0 0]

/-- The worker reconciles with an empty store. -/
def reconcile : List P2pAction := [.workerStore []] ++ exchange .calm ++ [.workerStore []]

/-- A proof is stored, and the worker announces it. -/
def announce (proof : Proof) (net : NetworkOutcome) : List P2pAction :=
  [.operation (.insertLocalProof 0 proof .rpc), .publish 0, .workerSelect .storeEvent] ++ exchange net

/-- The worker takes the observation of a record, finds no provider and sends a query. -/
def observe (id : VerificationId) : List P2pAction :=
  [.operation (.observeChainVerification 0 id), .publish 0, .workerSelect .storeEvent, .workerStore []] ++
    exchange .calm ++ exchange .calm

/-- A peer announces a proof that the worker looks for. -/
def hear [AvailabilityWire] (id : VerificationId) : List P2pAction :=
  [.swarmEvent (.gossipMessage (some .there) .there (announcement "pulsar-1" id)), .emit .calm,
    .workerSelect .driverEvent, .workerStore []] ++ exchange .calm

end P2pSystem

end PulsarVerifier
