import PulsarVerifier.P2p.Driver
import PulsarVerifier.Store.Operations

/-!
# The P2P worker

The retrieval of missing proofs.  The worker is one task: between two points where it waits it runs without
interruption, and at such a point it has to wait for the store, for room in the mailbox of the driver, for the reply of
the driver, or for the next event in `select!`.  Each asynchronous function of the source is cut at these points:
`Control` says where the worker waits, and a function such as `resumeProviders` is the code that follows the reply.

`rest` are the identifiers that `reconcile_store` has still to pass to `ensure_retrieval`; it is empty in any other
handler.
-/

namespace PulsarVerifier

structure RetrievalState where
  discoveryDeadline : Option Instant
  transferDeadline : Option Instant
  attempted : Finset PeerId
  active : Option (ProofRequestId × PeerId)
  query : Option QueryId
  retryRound : Nat
  timerGeneration : UInt64
  queued : Bool
  finished : Bool
  deriving DecidableEq

def RetrievalState.new : RetrievalState :=
  { discoveryDeadline := none, transferDeadline := none, attempted := ∅, active := none, query := none
    retryRound := 0, timerGeneration := 0, queued := false, finished := false }

def activeDeadline (state : RetrievalState) : Option Instant := state.transferDeadline <|> state.discoveryDeadline

def passed (deadline : Option Instant) (now : Instant) : Bool := deadline.any fun deadline => decide (deadline ≤ now)

structure RetrievalWake where
  verificationId : VerificationId
  generation : UInt64
  due : Instant
  deriving DecidableEq

inductive StoreAccess
  /-- `get_proof` for an inbound request -/
  | getProof (requestId : InboundProofRequestId) (id : VerificationId)
  | attachDownloadedProof (requestId : ProofRequestId) (peer : PeerId) (id : VerificationId) (proof : Proof)
  /-- `attach_downloaded_proof` has committed; its events are published before it returns -/
  | attached (requestId : ProofRequestId) (peer : PeerId) (id : VerificationId) (stored : Except Error StoreChange)
  /-- the first snapshot of `reconcile_store` -/
  | locallyAvailableProofs
  /-- the second snapshot of `reconcile_store` -/
  | recordsWaitingForContent
  /-- `get` in `ensure_retrieval` -/
  | get (id : VerificationId) (rest : List VerificationId)

/-- The call of the driver whose reply the worker waits for. -/
inductive DriverCall
  | respondProof
  /-- `announce` in `handle_store_event` -/
  | announceStored
  | forgetLocalProof
  /-- `replace_local_proofs`, with the identifiers to announce next -/
  | replaceLocalProofs (announce : List VerificationId)
  /-- `announce` in `reconcile_store`, with the identifiers to announce next -/
  | announceLocal (announce : List VerificationId)
  | providers (id : VerificationId) (attempted : Finset PeerId) (rest : List VerificationId)
  | requestProof (id : VerificationId) (peer : PeerId) (rest : List VerificationId)
  | queryAvailability (id : VerificationId) (rest : List VerificationId)

inductive Control
  /-- between two handlers: in `select!`, or in the loops of `drain` -/
  | idle
  | store (access : StoreAccess)
  /-- `DriverClient::call` waits for room in the mailbox -/
  | sending (command : DriverCommand) (call : DriverCall)
  /-- `DriverClient::call` waits for the reply -/
  | waiting (call : DriverCall)
  | returned (result : Except Error Unit)
  | panicked (message : String)

def Control.isIdle : Control → Bool
  | .idle => true
  | _ => false

theorem Control.isIdle_iff {control : Control} : control.isIdle = true ↔ control = .idle := by
  cases control <;> simp [isIdle]

/-- Processes network and store events; `expired` is a history variable: the identifiers of which a retrieval ended
because its deadline had passed. -/
structure Worker where
  localPeerId : PeerId
  config : P2pConfig
  retrievals : AList fun _ : VerificationId => RetrievalState
  pending : List VerificationId
  activeRetrievals : Nat
  wakes : List RetrievalWake
  control : Control
  expired : Finset VerificationId

/-- The random choices and the readings of the clock of one step: which of the shuffled providers comes last, the delay
of a retry, and the times of the first and of the second reading. -/
structure WorkerInput where
  choice : Nat
  delay : Duration
  now : Instant
  later : Instant

namespace Worker

def new (localPeerId : PeerId) (config : P2pConfig) : Worker :=
  { localPeerId, config, retrievals := ∅, pending := [], activeRetrievals := 0, wakes := []
    control := .store .locallyAvailableProofs, expired := ∅ }

def entry (w : Worker) (id : VerificationId) : Option RetrievalState := w.retrievals.lookup id

def setEntry (w : Worker) (id : VerificationId) (state : RetrievalState) : Worker :=
  { w with retrievals := w.retrievals.insert id state }

def removeEntry (w : Worker) (id : VerificationId) : Worker := { w with retrievals := w.retrievals.erase id }

def goto (w : Worker) (control : Control) : Worker := { w with control }

def call (w : Worker) (command : DriverCommand) (call : DriverCall) : Worker := w.goto (.sending command call)

def fail (w : Worker) (error : Error) : Worker := w.goto (.returned (.error error))

/-! ### Functions without a wait -/

def enqueue (w : Worker) (id : VerificationId) : Worker :=
  match w.entry id with
  | none => w
  | some state =>
    if state.queued || state.active.isSome || state.finished then w
    else { w.setEntry id { state with queued := true } with pending := w.pending ++ [id] }

def stopRetrieval (w : Worker) (id : VerificationId) : Worker :=
  match w.entry id with
  | none => w
  | some state =>
    if state.active.isNone then w.removeEntry id
    else
      w.setEntry id
        { state with finished := true, queued := false, query := none, timerGeneration := state.timerGeneration + 1 }

def stopExpired (w : Worker) (id : VerificationId) : Worker :=
  { w with expired := insert id w.expired }.stopRetrieval id

def clearQuery (w : Worker) (id : VerificationId) : Worker :=
  match w.entry id with
  | none => w
  | some state => w.setEntry id { state with query := none, timerGeneration := state.timerGeneration + 1 }

/-- `checked_sub` on the number of active retrievals panics at zero. -/
def finishRequest (w : Worker) (id : VerificationId) (requestId : ProofRequestId) (peer : PeerId) (succeeded : Bool)
    (now : Instant) : Except String Worker :=
  match w.entry id with
  | none => .ok w
  | some state =>
    if state.active ≠ some (requestId, peer) then .ok w
    else if w.activeRetrievals = 0 then .error "tracked proof request owns one retrieval slot"
    else
      let w := { w with activeRetrievals := w.activeRetrievals - 1 }
      if succeeded || state.finished then .ok (w.removeEntry id)
      else if passed (activeDeadline state) now then
        .ok ({ w with expired := insert id w.expired }.removeEntry id)
      else
        .ok ((w.setEntry id { state with active := none, attempted := insert peer state.attempted }).enqueue id)

def retryCap (initial maximum : Duration) (round : Nat) : Duration :=
  min (min (initial * 2 ^ min round 31) durationMax) maximum

/-- The largest delay that `full_jitter` can draw. -/
def jitterBound (cap remaining : Duration) : Duration := min (min cap remaining) (2 ^ 64 - 1)

/-- The retry that follows a query; a delay outside the range of `full_jitter` is not drawn. -/
def scheduleRetry (w : Worker) (id : VerificationId) (delay : Duration) (now : Instant) :
    Option (Except String Worker) :=
  match w.entry id with
  | none => some (.ok w)
  | some state =>
    match activeDeadline state with
    | none => some (.error "scheduled retrieval retry has an active deadline")
    | some deadline =>
      let cap := retryCap w.config.retrievalInitialBackoff w.config.retrievalMaxBackoff state.retryRound
      if delay ≤ jitterBound cap (deadline - now) then
        let generation := state.timerGeneration + 1
        some (.ok
          { w.setEntry id
              { state with retryRound := min (state.retryRound + 1) (2 ^ 32 - 1), timerGeneration := generation } with
            wakes := w.wakes ++ [⟨id, generation, now + delay⟩] })
      else none

/-! ### `drive_pending`, `ensure_retrieval` and `reconcile_store` -/

/-- The end of `ensure_retrieval`: the next identifier of a reconciliation, or the end of the handler. -/
def ensureNext (w : Worker) : List VerificationId → Worker
  | [] => w.goto .idle
  | id :: rest => w.goto (.store (.get id rest))

def tryRetrieve (w : Worker) (id : VerificationId) (rest : List VerificationId) : Worker :=
  w.call (.providers id) (.providers id (((w.entry id).map (·.attempted)).getD ∅) rest)

/-- The loop of `drive_pending` over the identifiers that are left in `pending`. -/
def drivePendingFrom (rest : List VerificationId) : List VerificationId → Worker → Worker
  | [], w => { w with pending := [] }.ensureNext rest
  | id :: pending, w =>
    if w.activeRetrievals < w.config.maxConcurrentRetrievals then
      match w.entry id with
      | none => drivePendingFrom rest pending w
      | some state =>
        let w := w.setEntry id { state with queued := false }
        if state.finished || state.active.isSome then drivePendingFrom rest pending w
        else { w with pending }.tryRetrieve id rest
    else { w with pending := id :: pending }.ensureNext rest

def drivePending (w : Worker) (rest : List VerificationId) : Worker := drivePendingFrom rest w.pending w

def resumeGet (w : Worker) (id : VerificationId) (rest : List VerificationId) (record : Option (Arc ProofRecord)) :
    Worker :=
  if record.any fun e => ProofStore.waitingForContent e.value then
    let w := if (w.entry id).isSome then w else w.setEntry id .new
    (w.enqueue id).drivePending rest
  else (w.stopRetrieval id).ensureNext rest

/-- The loop of `reconcile_store` that announces the local proofs. -/
def announceNext (w : Worker) : List VerificationId → Worker
  | [] => w.goto (.store .recordsWaitingForContent)
  | id :: rest => w.call (.announce id) (.announceLocal rest)

/-- `reconcile_store` after the second snapshot: retrievals that are not waited for are stopped. -/
def resumeWaiting (w : Worker) (waiting : List VerificationId) : Worker :=
  ((w.retrievals.keys.filter (· ∉ waiting)).foldl stopRetrieval w).ensureNext waiting

/-! ### `try_retrieve` -/

/-- After the reply of `providers`: a request to one of them, a query, or the end of this retrieval. -/
def resumeProviders (w : Worker) (id : VerificationId) (attempted : Finset PeerId) (rest : List VerificationId)
    (providers : List PeerId) (input : WorkerInput) : Option Worker :=
  match providers.filter fun peer => peer ≠ w.localPeerId ∧ peer ∉ attempted with
  | [] =>
    if (w.entry id).any (·.query.isSome) then some (w.drivePending rest)
    else if passed ((w.entry id).bind activeDeadline) input.now then some ((w.stopExpired id).drivePending rest)
    else some (w.call (.queryAvailability id) (.queryAvailability id rest))
  | candidates =>
    match candidates[input.choice]? with
    | none => none
    | some peer =>
      if passed ((w.entry id).bind (·.transferDeadline)) input.now then some ((w.stopExpired id).drivePending rest)
      else if w.activeRetrievals ≥ w.config.maxConcurrentRetrievals then some ((w.enqueue id).drivePending rest)
      else some (w.call (.requestProof peer id) (.requestProof id peer rest))

/-- The retrieval of `id` has the request `requestId` to `peer`. -/
def startRequest (w : Worker) (id : VerificationId) (requestId : ProofRequestId) (peer : PeerId) (now : Instant) :
    Worker :=
  match w.entry id with
  | none => w
  | some state =>
    { w.setEntry id
        { state with
          transferDeadline := some (state.transferDeadline.getD (now + w.config.retrievalTimeout)), query := none
          timerGeneration := state.timerGeneration + 1, active := some (requestId, peer) } with
      activeRetrievals := w.activeRetrievals + 1 }

def addAttempted (w : Worker) (id : VerificationId) (peer : PeerId) : Worker :=
  match w.entry id with
  | none => w
  | some state => w.setEntry id { state with attempted := insert peer state.attempted }

def resumeRequestProof (w : Worker) (id : VerificationId) (peer : PeerId) (rest : List VerificationId)
    (reply : Except Error ProofRequestId) (input : WorkerInput) : Worker :=
  match reply with
  | .ok requestId => (w.startRequest id requestId peer input.now).drivePending rest
  | .error (.p2pAuthorization _) => (w.addAttempted id peer).tryRetrieve id rest
  | .error .p2pDraining => (w.stopRetrieval id).drivePending rest
  | .error error => w.fail error

/-- The retrieval of `id` waits for the query `queryId`. -/
def startQuery (w : Worker) (id : VerificationId) (queryId : QueryId) (now : Instant) : Worker :=
  match w.entry id with
  | none => w
  | some state =>
    w.setEntry id
      { state with
        discoveryDeadline := some (state.discoveryDeadline.getD (now + w.config.retrievalTimeout))
        query := some queryId }

def resumeQueryAvailability (w : Worker) (id : VerificationId) (rest : List VerificationId)
    (reply : Except Error QueryId) (input : WorkerInput) : Option Worker :=
  match reply with
  | .ok queryId =>
    match (w.startQuery id queryId input.now).scheduleRetry id input.delay input.later with
    | none => none
    | some (.error message) => some (w.goto (.panicked message))
    | some (.ok w) => some (w.drivePending rest)
  | .error .p2pDraining => some ((w.stopRetrieval id).drivePending rest)
  | .error error => some (w.fail error)

def resumeCall (w : Worker) (input : WorkerInput) : DriverCall → Except Error Reply → Option Worker
  | .respondProof, .ok .unit => some (w.goto .idle)
  | .announceStored, .ok .unit => some (w.drivePending [])
  | .forgetLocalProof, .ok .unit => some (w.drivePending [])
  | .replaceLocalProofs ids, .ok .unit => some (w.announceNext ids)
  | .announceLocal ids, .ok .unit => some (w.announceNext ids)
  | .providers id attempted rest, .ok (.providers peers) => w.resumeProviders id attempted rest peers input
  | .requestProof id peer rest, .ok (.requestId requestId) =>
    some (w.resumeRequestProof id peer rest (.ok requestId) input)
  | .requestProof id peer rest, .error error => some (w.resumeRequestProof id peer rest (.error error) input)
  | .queryAvailability id rest, .ok (.queryId queryId) => w.resumeQueryAvailability id rest (.ok queryId) input
  | .queryAvailability id rest, .error error => w.resumeQueryAvailability id rest (.error error) input
  | _, .error error => some (w.fail error)
  | _, .ok _ => none

/-! ### Handlers -/

/-- After `finish_request`; outside a drain the pending retrievals are driven on. -/
def afterFinish (w : Worker) (draining : Bool) : Except String Worker → Worker
  | .error message => w.goto (.panicked message)
  | .ok w => if draining then w.goto .idle else w.drivePending []

def resumeAttached (w : Worker) (requestId : ProofRequestId) (peer : PeerId) (id : VerificationId)
    (stored : Except Error StoreChange) (now : Instant) (draining : Bool) : Worker :=
  match stored with
  | .ok _ => w.afterFinish draining (w.finishRequest id requestId peer true now)
  | .error (.verificationIdMismatch _) | .error (.proofTooLarge _ _ _) =>
    w.afterFinish draining (w.finishRequest id requestId peer false now)
  | .error (.proofNotObserved _) =>
    w.afterFinish draining ((w.finishRequest id requestId peer true now).map fun w => w.stopRetrieval id)
  | .error error => w.fail error

def handleDriverEvent (w : Worker) (now : Instant) (draining : Bool) : DriverEvent → Worker
  | .proofRequested requestId _ id => w.goto (.store (.getProof requestId id))
  | .proofReceived requestId peer id proof => w.goto (.store (.attachDownloadedProof requestId peer id proof))
  | .proofNotFound requestId peer id | .proofRequestFailed requestId peer id _ =>
    w.afterFinish draining (w.finishRequest id requestId peer false now)
  | .availabilityAnnounced peer id =>
    if draining || (w.entry id).any (fun state => peer ∈ state.attempted) then w.goto .idle
    else w.goto (.store (.get id []))
  | .providersDiscovered queryId id _ =>
    if draining then w.goto .idle
    else if (w.entry id).any (fun state => state.query = some queryId) then
      ((w.clearQuery id).enqueue id).drivePending []
    else w.goto .idle
  | .peerConnected _ => if draining then w.goto .idle else w.goto (.store .locallyAvailableProofs)
  | .listening _ | .peerDisconnected _ => w.goto .idle

def handleStoreEvent (w : Worker) (draining : Bool) (event : ProofStoreEvent) : Worker :=
  if draining then w.goto .idle
  else
    match event with
    | .verificationObserved id => w.goto (.store (.get id []))
    | .proofStored id _ => (w.stopRetrieval id).call (.announce id) .announceStored
    | .proofEvicted id _ => (w.stopRetrieval id).call (.forgetLocalProof id) .forgetLocalProof
    | .verificationChanged id _ => (w.stopRetrieval id).drivePending []

def handleWake (w : Worker) (wake : RetrievalWake) (now : Instant) : Worker :=
  match w.entry wake.verificationId with
  | none => w.goto .idle
  | some state =>
    if state.timerGeneration ≠ wake.generation || state.finished then w.goto .idle
    else
      let w := w.setEntry wake.verificationId { state with query := none }
      if passed (activeDeadline state) now then (w.stopExpired wake.verificationId).goto .idle
      else (w.enqueue wake.verificationId).drivePending []

end Worker

end PulsarVerifier
