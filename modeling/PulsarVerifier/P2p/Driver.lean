import PulsarVerifier.P2p.Messages

/-!
# The P2P driver

The single owner of the swarm: it executes the commands of its mailbox and handles swarm events, and correlates proof
requests with their responses.  What the network does with an operation (whether a publish or a response succeeds, the
identifiers it hands out, the time) is an input of each step, `NetworkOutcome`.  A swarm event leads to at most one
driver event, which the driver then emits.
-/

namespace PulsarVerifier

structure P2pConfig where
  chainId : String
  maxProofBytes : Nat
  proofRequestTimeout : Duration
  maxConcurrentRetrievals : Nat
  retrievalTimeout : Duration
  retrievalInitialBackoff : Duration
  retrievalMaxBackoff : Duration
  commandBuffer : Nat
  eventBuffer : Nat

/-- Stable application identifier of an outbound request, independent of the identifiers of libp2p. -/
abbrev ProofRequestId := Nat

/-- Opaque token used to answer one inbound proof request exactly once. -/
abbrev InboundProofRequestId := Nat

/-- The identifier libp2p gives to an outbound request. -/
abbrev OutboundRequestId := Nat

inductive DriverEvent
  | listening (address : String)
  | peerConnected (peer : PeerId)
  | peerDisconnected (peer : PeerId)
  | availabilityAnnounced (peer : PeerId) (verificationId : VerificationId)
  | providersDiscovered (queryId : QueryId) (verificationId : VerificationId) (providers : List PeerId)
  | proofRequested (requestId : InboundProofRequestId) (peer : PeerId) (verificationId : VerificationId)
  | proofReceived (requestId : ProofRequestId) (peer : PeerId) (verificationId : VerificationId) (proof : Proof)
  | proofNotFound (requestId : ProofRequestId) (peer : PeerId) (verificationId : VerificationId)
  | proofRequestFailed (requestId : ProofRequestId) (peer : PeerId) (verificationId : VerificationId)
      (reason : String)
  deriving DecidableEq

inductive DriverCommand
  | announce (verificationId : VerificationId)
  | forgetLocalProof (verificationId : VerificationId)
  | replaceLocalProofs (verificationIds : List VerificationId)
  | queryAvailability (verificationId : VerificationId)
  | providers (verificationId : VerificationId)
  | requestProof (peer : PeerId) (verificationId : VerificationId)
  | respondProof (requestId : InboundProofRequestId) (proof : Option Proof)
  | replaceAuthorizedPeers (peers : Finset PeerId)
  | drain
  deriving DecidableEq

/-- The value of a successful reply. -/
inductive Reply
  | unit
  | queryId (queryId : QueryId)
  | providers (peers : List PeerId)
  | requestId (requestId : ProofRequestId)
  deriving DecidableEq

/-- Who waits for the reply to a command: the worker, or a numbered call of another client. -/
inductive Caller
  | worker
  | client (call : Nat)
  deriving DecidableEq

abbrev Replies := List (Caller × Except Error Reply)

inductive PublishError
  | duplicate
  | signingError (text : String)
  | noPeersSubscribedToTopic
  | messageTooLarge
  | transformFailed (text : String)
  | allQueuesFull (peers : Nat)
  deriving DecidableEq

def PublishError.text : PublishError → String
  | .duplicate => "Duplicate"
  | .signingError text => s!"SigningError({text})"
  | .noPeersSubscribedToTopic => "NoPeersSubscribedToTopic"
  | .messageTooLarge => "MessageTooLarge"
  | .transformFailed text => s!"TransformFailed({text})"
  | .allQueuesFull peers => s!"AllQueuesFull({peers})"

/-- What the network and the clock contribute to a step of the driver. -/
structure NetworkOutcome where
  publish : Except PublishError Unit
  /-- `send_response` accepts the response: the requesting peer still waits for it -/
  sendResponse : Bool
  queryId : QueryId
  outboundId : OutboundRequestId
  now : Instant

structure WireProof where
  proofType : Int
  proof : Bytes
  publicInputs : Bytes
  verificationKey : Bytes
  deriving DecidableEq

/-- `impl From<ProofType> for i32`. -/
def ProofType.toI32 : ProofType → Int
  | .minaPickles => 1
  | .noirBarretenberg => 2

def WireProof.ofProof (proof : Proof) : WireProof :=
  ⟨proof.proofType.toI32, proof.proof, proof.publicInputs, proof.verificationKey⟩

inductive ProofResult
  | proof (proof : WireProof)
  | notFound
  deriving DecidableEq

structure GetProofResponse where
  chainId : String
  result : Option ProofResult
  deriving DecidableEq

/-- What the swarm reports; `other` stands for the events that only lead to a log line. -/
inductive SwarmEvent
  | newListenAddr (listener : Nat) (address : String)
  | listenerError (listener : Nat) (error : String)
  | connectionEstablished (peer : PeerId)
  | connectionClosed (peer : PeerId) (numEstablished : Nat)
  | gossipMessage (source : Option PeerId) (propagationSource : PeerId) (data : Bytes)
  | proofRequest (peer : PeerId) (chainId : String) (verificationId : Bytes)
  | proofResponse (peer : PeerId) (requestId : OutboundRequestId) (response : GetProofResponse)
  | outboundFailure (peer : PeerId) (requestId : OutboundRequestId) (error : String)
  | other
  deriving DecidableEq

structure OutboundProofRequest where
  applicationId : ProofRequestId
  peer : PeerId
  verificationId : VerificationId
  deriving DecidableEq

structure InboundProofRequest where
  peer : PeerId
  verificationId : VerificationId
  deriving DecidableEq

inductive DriverState
  | running
  | draining (caller : Caller)
  | drained
  deriving DecidableEq

structure Driver where
  config : P2pConfig
  localPeerId : PeerId
  authorizedPeers : Finset PeerId
  availability : AvailabilityIndex
  outstandingQueries : AList fun _ : QueryId => VerificationId × Instant
  outboundRequests : AList fun _ : OutboundRequestId => OutboundProofRequest
  inFlight : Finset (PeerId × VerificationId)
  inboundRequests : AList fun _ : InboundProofRequestId => InboundProofRequest
  nextProofRequestId : Nat
  nextInboundRequestId : Nat
  delayedResponses : List Bytes
  pendingListeners : Finset Nat
  listeners : Finset Nat
  /-- what was reported to the task that starts the service, once something was -/
  ready : Option (Except Error Unit)
  state : DriverState

def maxProviderHints : Nat := 128

/-- The protobuf size of a received proof; an enumeration value is a varint of its 64-bit form. -/
def WireProof.encodedLen (proof : WireProof) : Nat :=
  (if proof.proofType = 0 then 0 else 1 + encodedLenVarint (proof.proofType % 2 ^ 64).toNat) +
    encodedBytesLen proof.proof + encodedBytesLen proof.publicInputs + encodedBytesLen proof.verificationKey

section

variable [Sha256]

/-- The checks on a received proof; a failure is the text of its `P2pProtocol` error. -/
def validateWireProof (proof : WireProof) (expectedId : VerificationId) (maximumBytes : Nat) : Except String Proof :=
  if proof.encodedLen > maximumBytes then .error "proof response exceeds configured limit"
  else
    match ProofType.tryFrom proof.proofType with
    | .error _ => .error s!"invalid proof response: unsupported proof type: {proof.proofType}"
    | .ok proofType =>
      let proof : Proof := ⟨proofType, proof.proof, proof.publicInputs, proof.verificationKey⟩
      if proof.verificationId ≠ expectedId then .error "proof response failed verification ID binding"
      else .ok proof

end

namespace Driver

/-- The driver that `build` hands out, with the validators of the active set and its listeners. -/
def build (config : P2pConfig) (localPeerId : PeerId) (authorizedPeers : Finset PeerId) (listeners : Finset Nat) :
    Driver :=
  { config, localPeerId, authorizedPeers := authorizedPeers.erase localPeerId, availability := .empty
    outstandingQueries := ∅, outboundRequests := ∅, inFlight := ∅, inboundRequests := ∅
    nextProofRequestId := 1, nextInboundRequestId := 1, delayedResponses := []
    pendingListeners := listeners, listeners, ready := none, state := .running }

def isRunning (d : Driver) : Bool := decide (d.state = .running)

/-! ### Commands -/

section

variable [AvailabilityWire] (d : Driver) (net : NetworkOutcome)

/-- A full mesh queue, an oversized or unsigned message are errors; nobody listening and a repeated announcement are
not. -/
def announce (id : VerificationId) : Except Error Unit × Driver :=
  let added := { d with availability := d.availability.add id d.localPeerId }
  if !added.isRunning then (.ok (), added)
  else
    match net.publish with
    | .ok () | .error .noPeersSubscribedToTopic | .error .duplicate => (.ok (), added)
    | .error error => (.error (.p2pDriver s!"failed to publish announcement: {error.text}"), added)

def queryAvailability (id : VerificationId) : Except Error QueryId × Driver :=
  if !d.isRunning then (.error .p2pDraining, d)
  else
    let recorded := { d with outstandingQueries := d.outstandingQueries.insert net.queryId (id, net.now) }
    match net.publish with
    | .ok () | .error .noPeersSubscribedToTopic => (.ok net.queryId, recorded)
    | .error error => (.error (.p2pDriver s!"failed to publish query: {error.text}"), d)

omit [AvailabilityWire] in
def requestProof (peer : PeerId) (id : VerificationId) : Except Error ProofRequestId × Driver :=
  if !d.isRunning then (.error .p2pDraining, d)
  else if peer ∉ d.authorizedPeers then
    (.error (.p2pAuthorization s!"refusing proof request to unauthorized peer {peer.toBase58}"), d)
  else if (peer, id) ∈ d.inFlight then
    (.error (.p2pDriver s!"proof request to {peer.toBase58} is already in flight"), d)
  else
    (.ok d.nextProofRequestId,
      { d with
        inFlight := insert (peer, id) d.inFlight
        nextProofRequestId := d.nextProofRequestId + 1
        outboundRequests := d.outboundRequests.insert net.outboundId ⟨d.nextProofRequestId, peer, id⟩ })

omit [AvailabilityWire] in
/-- The message that `respond_proof` sends, if its checks pass. -/
def proofResponse [Sha256] (inbound : InboundProofRequest) : Option Proof → Except Error GetProofResponse
  | some proof =>
    if proof.encodedLen > d.config.maxProofBytes then .error (.p2pProtocol "proof exceeds configured limit")
    else if proof.verificationId ≠ inbound.verificationId then
      .error (.p2pProtocol "proof response does not match inbound request")
    else .ok ⟨d.config.chainId, some (.proof (.ofProof proof))⟩
  | none => .ok ⟨d.config.chainId, some .notFound⟩

omit [AvailabilityWire] in
def respondProof [Sha256] (requestId : InboundProofRequestId) (proof : Option Proof) : Except Error Unit × Driver :=
  match d.inboundRequests.lookup requestId with
  | none => (.error (.p2pDriver s!"unknown inbound proof request InboundProofRequestId({requestId})"), d)
  | some inbound =>
    ((d.proofResponse inbound proof).bind fun _ =>
      if net.sendResponse then .ok () else .error (.p2pDriver s!"failed to respond to {inbound.peer.toBase58}"),
      { d with inboundRequests := d.inboundRequests.erase requestId })

end

/-- The removed validators leave the index; connections and the mesh are the swarm's. -/
def replaceAuthorizedPeers (d : Driver) (peers : Finset PeerId) : Driver :=
  let peers := peers.erase d.localPeerId
  let removed := PeerId.sortByBytes (d.authorizedPeers \ peers)
  { d with availability := removed.foldl AvailabilityIndex.removePeer d.availability, authorizedPeers := peers }

def beginDrain (d : Driver) (caller : Caller) : Driver :=
  { d with
    pendingListeners := d.pendingListeners \ d.listeners, listeners := ∅, outstandingQueries := ∅
    state := .draining caller }

/-- The end of every round of `run`: a drain is over when no exchange is left. -/
def finishDrain (d : Driver) : Driver × Replies :=
  match d.state with
  | .draining caller =>
    if d.inboundRequests.keys.isEmpty ∧ d.outboundRequests.keys.isEmpty ∧ d.inFlight = ∅ ∧
        d.delayedResponses.isEmpty then
      ({ d with state := .drained }, [(caller, .ok .unit)])
    else (d, [])
  | _ => (d, [])

section

variable [AvailabilityWire] [Sha256]

def handleCommand (d : Driver) (net : NetworkOutcome) (caller : Caller) : DriverCommand → Driver × Replies
  | .announce id =>
    let (result, d) := d.announce net id
    (d, [(caller, result.map fun _ => .unit)])
  | .forgetLocalProof id =>
    ({ d with availability := d.availability.removeProvider id d.localPeerId }, [(caller, .ok .unit)])
  | .replaceLocalProofs ids =>
    ({ d with availability := d.availability.replaceProviderProofs d.localPeerId ids }, [(caller, .ok .unit)])
  | .queryAvailability id =>
    let (result, d) := d.queryAvailability net id
    (d, [(caller, result.map .queryId)])
  | .providers id => (d, [(caller, .ok (.providers (d.availability.providers id)))])
  | .requestProof peer id =>
    let (result, d) := d.requestProof net peer id
    (d, [(caller, result.map .requestId)])
  | .respondProof requestId proof =>
    let (result, d) := d.respondProof net requestId proof
    (d, [(caller, result.map fun _ => .unit)])
  | .replaceAuthorizedPeers peers =>
    if d.isRunning then (d.replaceAuthorizedPeers peers, [(caller, .ok .unit)])
    else (d, [(caller, .error .p2pDraining)])
  | .drain =>
    match d.state with
    | .running => (d.beginDrain caller, [])
    | .draining _ => (d, [(caller, .error .p2pDraining)])
    | .drained => (d, [(caller, .ok .unit)])

/-! ### Swarm events -/

omit [Sha256] in
/-- The verdict on a gossip message that is reported to gossipsub: `some` for `Accept`. -/
def validateGossip (d : Driver) (source : Option PeerId) (propagationSource : PeerId) (data : Bytes) :
    Except Error (PeerId × ValidatedAvailability) :=
  match source with
  | some source =>
    if source ∈ d.authorizedPeers ∧ propagationSource ∈ d.authorizedPeers then
      (decodeAndValidate data d.config.chainId d.authorizedPeers maxProviderHints).map fun payload => (source, payload)
    else .error (.p2pProtocol "unauthorized gossip source")
  | none => .error (.p2pProtocol "unauthorized gossip source")

omit [Sha256] in
/-- The effect of a validated message of a running driver. -/
def applyGossip (d : Driver) (source : PeerId) : ValidatedAvailability → Driver × Option DriverEvent
  | .announcement id =>
    ({ d with availability := d.availability.add id source }, some (.availabilityAnnounced source id))
  | .query queryId id =>
    let providers := d.availability.providers id
    if providers.isEmpty then (d, none)
    else
      let bytes := response d.config.chainId queryId id (providers.take maxProviderHints)
      ({ d with delayedResponses := d.delayedResponses ++ [bytes] }, none)
  | .response queryId id providers =>
    let d := { d with availability := providers.foldl (fun index peer => index.add id peer) d.availability }
    if (d.outstandingQueries.lookup queryId).any (·.1 = id) then
      (d, some (.providersDiscovered queryId id providers))
    else (d, none)

omit [Sha256] in
def handleGossip (d : Driver) (source : Option PeerId) (propagationSource : PeerId) (data : Bytes) :
    Driver × Option DriverEvent :=
  match d.validateGossip source propagationSource data with
  | .error _ => (d, none)
  | .ok (source, payload) => if d.isRunning then d.applyGossip source payload else (d, none)

omit [AvailabilityWire] [Sha256] in
/-- A request from outside the validator set, for another chain or with a malformed identifier is answered at once. -/
def handleInboundRequest (d : Driver) (peer : PeerId) (chainId : String) (verificationId : Bytes) :
    Driver × Option DriverEvent :=
  if !d.isRunning then (d, none)
  else if peer ∈ d.authorizedPeers ∧ chainId = d.config.chainId then
    match VerificationId.tryFrom verificationId with
    | .error _ => (d, none)
    | .ok id =>
      ({ d with
          nextInboundRequestId := d.nextInboundRequestId + 1
          inboundRequests := d.inboundRequests.insert d.nextInboundRequestId ⟨peer, id⟩ },
        some (.proofRequested d.nextInboundRequestId peer id))
  else (d, none)

omit [AvailabilityWire] [Sha256] in
def emitFailed (d : Driver) (request : OutboundProofRequest) (reason : String) : Driver × Option DriverEvent :=
  ({ d with availability := d.availability.removeProvider request.verificationId request.peer },
    some (.proofRequestFailed request.applicationId request.peer request.verificationId reason))

omit [AvailabilityWire] [Sha256] in
/-- The driver without the outbound request `requestId`. -/
def forgetOutbound (d : Driver) (requestId : OutboundRequestId) (request : OutboundProofRequest) : Driver :=
  { d with
    outboundRequests := d.outboundRequests.erase requestId
    inFlight := d.inFlight.erase (request.peer, request.verificationId) }

omit [AvailabilityWire] in
def handleOutboundResponse (d : Driver) (peer : PeerId) (requestId : OutboundRequestId) (response : GetProofResponse) :
    Driver × Option DriverEvent :=
  match d.outboundRequests.lookup requestId with
  | none => (d, none)
  | some request =>
    let d := d.forgetOutbound requestId request
    let id := request.verificationId
    if peer ≠ request.peer ∨ response.chainId ≠ d.config.chainId then
      d.emitFailed request "proof response context mismatch"
    else
      match response.result with
      | some (.proof proof) =>
        match validateWireProof proof id d.config.maxProofBytes with
        | .error message => d.emitFailed request s!"P2P protocol error: {message}"
        | .ok proof =>
          ({ d with availability := d.availability.add id peer },
            some (.proofReceived request.applicationId peer id proof))
      | some .notFound =>
        ({ d with availability := d.availability.removeProvider id peer },
          some (.proofNotFound request.applicationId peer id))
      | none => d.emitFailed request "proof response has no result"

omit [AvailabilityWire] [Sha256] in
def handleOutboundFailure (d : Driver) (peer : PeerId) (requestId : OutboundRequestId) (error : String) :
    Driver × Option DriverEvent :=
  match d.outboundRequests.lookup requestId with
  | none => (d, none)
  | some request =>
    let d := d.forgetOutbound requestId request
    ({ d with availability := d.availability.removeProvider request.verificationId request.peer },
      some (.proofRequestFailed request.applicationId peer request.verificationId error))

omit [AvailabilityWire] [Sha256] in
def whenRunning (d : Driver) (event : DriverEvent) : Option DriverEvent := if d.isRunning then some event else none

/-- The driver after a swarm event and the event it emits; an error ends `run`. -/
def handleSwarmEvent (d : Driver) : SwarmEvent → Except Error (Driver × Option DriverEvent)
  | .newListenAddr listener address =>
    let pending := d.pendingListeners.erase listener
    let ready := if pending = ∅ ∧ d.ready.isNone then some (.ok ()) else d.ready
    .ok ({ d with listeners := insert listener d.listeners, pendingListeners := pending, ready },
      d.whenRunning (.listening address))
  | .listenerError listener error =>
    let failure : Except Error Unit := .error (.p2pDriver s!"listener failed during startup: {error}")
    let d' :=
      { d with
        listeners := d.listeners.erase listener, pendingListeners := d.pendingListeners.erase listener
        ready := if d.ready.isNone then some failure else d.ready }
    if d.isRunning then .error (.p2pDriver s!"listener failed: {error}") else .ok (d', none)
  | .connectionEstablished peer => .ok (d, d.whenRunning (.peerConnected peer))
  | .connectionClosed peer numEstablished =>
    if numEstablished = 0 then
      .ok ({ d with availability := d.availability.removePeer peer }, d.whenRunning (.peerDisconnected peer))
    else .ok (d, none)
  | .gossipMessage source propagationSource data => .ok (d.handleGossip source propagationSource data)
  | .proofRequest peer chainId verificationId => .ok (d.handleInboundRequest peer chainId verificationId)
  | .proofResponse peer requestId response => .ok (d.handleOutboundResponse peer requestId response)
  | .outboundFailure peer requestId error => .ok (d.handleOutboundFailure peer requestId error)
  | .other => .ok (d, none)

end

def expireQueries (d : Driver) (now : Instant) : Driver :=
  { d with
    outstandingQueries := d.outstandingQueries.retain fun _ query =>
      if now - query.2 < d.config.proofRequestTimeout then some query else none }

end Driver

/-! ### What the driver can do -/

/-- The request an event answers: its application identifier, the peer it names and what was asked for. -/
def DriverEvent.answered : DriverEvent → Option (ProofRequestId × PeerId × VerificationId)
  | .proofReceived requestId peer id _ | .proofNotFound requestId peer id | .proofRequestFailed requestId peer id _ =>
    some (requestId, peer, id)
  | _ => none

def DriverEvent.requested : DriverEvent → Option (InboundProofRequestId × VerificationId)
  | .proofRequested requestId _ id => some (requestId, id)
  | _ => none

/-- The outbound request whose end a swarm event reports. -/
def SwarmEvent.terminal : SwarmEvent → Option OutboundRequestId
  | .proofResponse _ requestId _ | .outboundFailure _ requestId _ => some requestId
  | _ => none

/-- The effects of a command, with the replies it sends at once. -/
inductive CommandMove (d : Driver) (net : NetworkOutcome) (caller : Caller) : DriverCommand → Driver → Replies → Prop
  /-- only the index may change -/
  | answered (command : DriverCommand) (availability : AvailabilityIndex) (reply : Except Error Reply)
      (hreply : ∀ requestId, reply ≠ .ok (.requestId requestId))
      (hrespond : ∀ requestId proof, command ≠ .respondProof requestId proof)
      (hdrain : command = .drain → d.state = .drained ∨ ((∃ c, d.state = .draining c) ∧ reply = .error .p2pDraining)) :
    CommandMove d net caller command { d with availability } [(caller, reply)]
  | queried (id : VerificationId) (hrunning : d.isRunning) :
    CommandMove d net caller (.queryAvailability id)
      { d with outstandingQueries := d.outstandingQueries.insert net.queryId (id, net.now) }
      [(caller, .ok (.queryId net.queryId))]
  | requested (peer : PeerId) (id : VerificationId) (hrunning : d.isRunning) (hauth : peer ∈ d.authorizedPeers)
      (hnew : (peer, id) ∉ d.inFlight) :
    CommandMove d net caller (.requestProof peer id)
      { d with
        inFlight := insert (peer, id) d.inFlight
        nextProofRequestId := d.nextProofRequestId + 1
        outboundRequests := d.outboundRequests.insert net.outboundId ⟨d.nextProofRequestId, peer, id⟩ }
      [(caller, .ok (.requestId d.nextProofRequestId))]
  | responded (requestId : InboundProofRequestId) (proof : Option Proof) (reply : Except Error Reply)
      (hreply : ∀ requestId, reply ≠ .ok (.requestId requestId)) :
    CommandMove d net caller (.respondProof requestId proof)
      { d with inboundRequests := d.inboundRequests.erase requestId } [(caller, reply)]
  | replaced (peers : Finset PeerId) (hrunning : d.isRunning) :
    CommandMove d net caller (.replaceAuthorizedPeers peers) (d.replaceAuthorizedPeers peers) [(caller, .ok .unit)]
  | drain (hrunning : d.state = .running) : CommandMove d net caller .drain (d.beginDrain caller) []

/-- The effects of a swarm event that does not end the driver. -/
inductive SwarmMove (d : Driver) : SwarmEvent → Driver → Option DriverEvent → Prop
  | quiet (event : SwarmEvent) : SwarmMove d event d none
  | listening (event : SwarmEvent) (listeners pending : Finset Nat) (ready : Option (Except Error Unit))
      (emitted : Option DriverEvent) (hemitted : ∀ e ∈ emitted, d.isRunning ∧ ∃ address, e = .listening address) :
    SwarmMove d event { d with listeners, pendingListeners := pending, ready } emitted
  | connected (peer : PeerId) (hrunning : d.isRunning) :
    SwarmMove d (.connectionEstablished peer) d (some (.peerConnected peer))
  | disconnected (peer : PeerId) (n : Nat) (emitted : Option DriverEvent)
      (hemitted : ∀ e ∈ emitted, d.isRunning ∧ e = .peerDisconnected peer) :
    SwarmMove d (.connectionClosed peer n) { d with availability := d.availability.removePeer peer } emitted
  | announced (event : SwarmEvent) (source : PeerId) (id : VerificationId) (hrunning : d.isRunning)
      (hauth : source ∈ d.authorizedPeers) :
    SwarmMove d event { d with availability := d.availability.add id source } (some (.availabilityAnnounced source id))
  | queried (event : SwarmEvent) (bytes : Bytes) (hrunning : d.isRunning) :
    SwarmMove d event { d with delayedResponses := d.delayedResponses ++ [bytes] } none
  | responded (event : SwarmEvent) (queryId : QueryId) (id : VerificationId) (providers : List PeerId)
      (emitted : Option DriverEvent) (hrunning : d.isRunning) (hauth : ∀ peer ∈ providers, peer ∈ d.authorizedPeers)
      (hemitted : ∀ e ∈ emitted, e = .providersDiscovered queryId id providers) :
    SwarmMove d event
      { d with availability := providers.foldl (fun index peer => index.add id peer) d.availability } emitted
  | requested (event : SwarmEvent) (peer : PeerId) (id : VerificationId) (hrunning : d.isRunning) :
    SwarmMove d event
      { d with
        nextInboundRequestId := d.nextInboundRequestId + 1
        inboundRequests := d.inboundRequests.insert d.nextInboundRequestId ⟨peer, id⟩ }
      (some (.proofRequested d.nextInboundRequestId peer id))
  | answered (event : SwarmEvent) (requestId : OutboundRequestId) (request : OutboundProofRequest)
      (availability : AvailabilityIndex) (emitted : DriverEvent) (peer : PeerId)
      (hlookup : d.outboundRequests.lookup requestId = some request)
      (havailability : availability = d.availability.add request.verificationId request.peer ∨
        availability = d.availability.removeProvider request.verificationId request.peer)
      (hanswered : emitted.answered = some (request.applicationId, peer, request.verificationId)) :
    SwarmMove d event { d.forgetOutbound requestId request with availability } (some emitted)

namespace CommandMove

variable {d d' : Driver} {net : NetworkOutcome} {caller : Caller} {command : DriverCommand} {replies : Replies}

theorem replies_caller (h : CommandMove d net caller command d' replies) (c : Caller) (reply : Except Error Reply)
    (hmem : (c, reply) ∈ replies) : c = caller := by
  cases h with
  | drain => cases hmem
  | _ => exact congrArg Prod.fst (List.mem_singleton.1 hmem)

/-- Only a drain changes the state, of a running driver. -/
theorem state (h : CommandMove d net caller command d' replies) :
    (d'.state = d.state ∧ (d.state = .running → command ≠ .drain)) ∨
      (d.state = .running ∧ command = .drain ∧ d'.state = .draining caller ∧ replies = []) := by
  cases h with
  | drain hrunning => exact .inr ⟨hrunning, rfl, rfl, rfl⟩
  | answered _ _ _ _ _ hdrain =>
    refine .inl ⟨rfl, fun hrunning heq => ?_⟩
    rcases hdrain heq with hdrained | ⟨⟨c, hdraining⟩, -⟩
    · cases hrunning.symm.trans hdrained
    · cases hrunning.symm.trans hdraining
  | _ => exact .inl ⟨rfl, (fun _ heq => nomatch heq)⟩

end CommandMove

namespace Driver

section

variable (d : Driver)

private theorem whenRunning_eq {event e : DriverEvent} (h : e ∈ d.whenRunning event) : d.isRunning ∧ e = event := by
  unfold whenRunning at h
  split at h
  · rename_i hrunning
    cases h
    exact ⟨hrunning, rfl⟩
  · cases h

private theorem handleGossip_move [AvailabilityWire] (source : Option PeerId) (propagationSource : PeerId)
    (data : Bytes) :
    SwarmMove d (.gossipMessage source propagationSource data) (d.handleGossip source propagationSource data).1
      (d.handleGossip source propagationSource data).2 := by
  unfold handleGossip
  split
  · exact .quiet _
  · rename_i sender payload hvalid
    split_ifs with hrunning
    · -- a validated message has an authorized source
      unfold validateGossip at hvalid
      split at hvalid
      · split_ifs at hvalid with hauth
        cases hdecoded : decodeAndValidate data d.config.chainId d.authorizedPeers maxProviderHints with
        | error error =>
          rw [hdecoded] at hvalid
          cases hvalid
        | ok decoded =>
          rw [hdecoded] at hvalid
          cases hvalid
          unfold applyGossip
          split
          · exact .announced _ _ _ hrunning hauth.1
          · dsimp only
            split_ifs
            · exact .quiet _
            · exact .queried _ _ hrunning
          · rename_i queryId id providers
            have hproviders : ∀ peer ∈ providers, peer ∈ d.authorizedPeers :=
              fun peer hpeer => decodeAndValidate_response hdecoded hpeer
            dsimp only
            split_ifs
            · exact .responded _ queryId id providers _ hrunning hproviders (fun e he => by cases he; rfl)
            · exact .responded _ queryId id providers _ hrunning hproviders (fun e he => by cases he)
      · cases hvalid
    · exact .quiet _

private theorem handleInboundRequest_move (peer : PeerId) (chainId : String) (verificationId : Bytes) :
    SwarmMove d (.proofRequest peer chainId verificationId) (d.handleInboundRequest peer chainId verificationId).1
      (d.handleInboundRequest peer chainId verificationId).2 := by
  unfold handleInboundRequest
  split_ifs with hrunning
  · exact .quiet _
  · split
    · exact .quiet _
    · exact .requested _ peer _ (by simpa using hrunning)
  · exact .quiet _

/-- A response to an outstanding request ends it, whatever it says. -/
private theorem handleOutboundResponse_some [Sha256] (peer : PeerId) {requestId : OutboundRequestId}
    (response : GetProofResponse) {request : OutboundProofRequest}
    (hlookup : d.outboundRequests.lookup requestId = some request) :
    ∃ availability emitted, d.handleOutboundResponse peer requestId response =
        ({ d.forgetOutbound requestId request with availability }, some emitted) ∧
      (availability = d.availability.add request.verificationId request.peer ∨
        availability = d.availability.removeProvider request.verificationId request.peer) ∧
      emitted.answered = some (request.applicationId, request.peer, request.verificationId) := by
  unfold handleOutboundResponse
  rw [hlookup]
  dsimp only
  split_ifs with hcontext
  · exact ⟨_, _, rfl, .inr rfl, rfl⟩
  · obtain ⟨rfl, -⟩ : peer = request.peer ∧ response.chainId = d.config.chainId := by
      simpa [forgetOutbound, not_or] using hcontext
    split
    · split
      · exact ⟨_, _, rfl, .inr rfl, rfl⟩
      · exact ⟨_, _, rfl, .inl rfl, rfl⟩
    · exact ⟨_, _, rfl, .inr rfl, rfl⟩
    · exact ⟨_, _, rfl, .inr rfl, rfl⟩

private theorem handleOutboundFailure_some (peer : PeerId) {requestId : OutboundRequestId} (error : String)
    {request : OutboundProofRequest} (hlookup : d.outboundRequests.lookup requestId = some request) :
    d.handleOutboundFailure peer requestId error =
      ({ d.forgetOutbound requestId request with
          availability := d.availability.removeProvider request.verificationId request.peer },
        some (.proofRequestFailed request.applicationId peer request.verificationId error)) := by
  unfold handleOutboundFailure
  rw [hlookup]
  rfl

theorem handleSwarmEvent_unknown [AvailabilityWire] [Sha256] {event : SwarmEvent} {k : OutboundRequestId}
    (hk : event.terminal = some k) (hlookup : d.outboundRequests.lookup k = none) :
    d.handleSwarmEvent event = .ok (d, none) := by
  cases event with
  | proofResponse peer requestId response =>
    cases hk
    simp only [handleSwarmEvent, handleOutboundResponse, hlookup]
  | outboundFailure peer requestId error =>
    cases hk
    simp only [handleSwarmEvent, handleOutboundFailure, hlookup]
  | _ => cases hk

theorem handleSwarmEvent_ended [AvailabilityWire] [Sha256] {event : SwarmEvent} {k : OutboundRequestId}
    {request : OutboundProofRequest} (hk : event.terminal = some k)
    (hlookup : d.outboundRequests.lookup k = some request) :
    ∃ availability emitted peer,
      d.handleSwarmEvent event = .ok ({ d.forgetOutbound k request with availability }, some emitted) ∧
      (availability = d.availability.add request.verificationId request.peer ∨
        availability = d.availability.removeProvider request.verificationId request.peer) ∧
      emitted.answered = some (request.applicationId, peer, request.verificationId) := by
  cases event with
  | proofResponse peer requestId response =>
    cases hk
    obtain ⟨availability, emitted, heq, havailability, hanswered⟩ := d.handleOutboundResponse_some peer response hlookup
    exact ⟨availability, emitted, request.peer, congrArg Except.ok heq, havailability, hanswered⟩
  | outboundFailure peer requestId error =>
    cases hk
    exact ⟨_, _, peer, congrArg Except.ok (d.handleOutboundFailure_some peer error hlookup), .inr rfl, rfl⟩
  | _ => cases hk

private theorem handleSwarmEvent_terminal_move [AvailabilityWire] [Sha256] {event : SwarmEvent} {k : OutboundRequestId}
    {d' : Driver} {emitted : Option DriverEvent} (hk : event.terminal = some k)
    (h : d.handleSwarmEvent event = .ok (d', emitted)) : SwarmMove d event d' emitted := by
  cases hlookup : d.outboundRequests.lookup k with
  | none =>
    rw [d.handleSwarmEvent_unknown hk hlookup] at h
    cases h
    exact .quiet _
  | some request =>
    obtain ⟨availability, emitted', peer, heq, havailability, hanswered⟩ := d.handleSwarmEvent_ended hk hlookup
    rw [heq] at h
    cases h
    exact .answered _ k request _ _ peer hlookup havailability hanswered

theorem handleSwarmEvent_move [AvailabilityWire] [Sha256] {event : SwarmEvent} {d' : Driver}
    {emitted : Option DriverEvent} (h : d.handleSwarmEvent event = .ok (d', emitted)) :
    SwarmMove d event d' emitted := by
  cases event with
  | newListenAddr listener address =>
    cases h
    refine .listening _ _ _ _ _ (fun e he => ?_)
    obtain ⟨hrunning, rfl⟩ := d.whenRunning_eq he
    exact ⟨hrunning, address, rfl⟩
  | listenerError listener error =>
    simp only [handleSwarmEvent] at h
    split at h
    · cases h
    · cases h
      exact .listening _ _ _ _ _ (fun e he => by cases he)
  | connectionEstablished peer =>
    cases h
    cases hrunning : d.isRunning with
    | true =>
      rw [whenRunning, if_pos hrunning]
      exact .connected peer hrunning
    | false =>
      rw [whenRunning, if_neg (by simp [hrunning])]
      exact .quiet _
  | connectionClosed peer numEstablished =>
    simp only [handleSwarmEvent] at h
    split at h
    · cases h
      exact .disconnected peer _ _ (fun e he => d.whenRunning_eq he)
    · cases h
      exact .quiet _
  | gossipMessage source propagationSource data =>
    obtain ⟨rfl, rfl⟩ := Prod.mk.inj (Except.ok.inj h.symm)
    exact d.handleGossip_move source propagationSource data
  | proofRequest peer chainId verificationId =>
    obtain ⟨rfl, rfl⟩ := Prod.mk.inj (Except.ok.inj h.symm)
    exact d.handleInboundRequest_move peer chainId verificationId
  | proofResponse peer requestId response | outboundFailure peer requestId error =>
    exact d.handleSwarmEvent_terminal_move rfl h
  | other =>
    cases h
    exact .quiet _

/-- Only the report of the end of a request leads to an answer. -/
theorem handleSwarmEvent_unanswered [AvailabilityWire] [Sha256] {event : SwarmEvent} {d' : Driver} {e : DriverEvent}
    (h : d.handleSwarmEvent event = .ok (d', some e)) (hnone : event.terminal = none) : e.answered = none := by
  have hwhen : ∀ e', d.whenRunning e' = some e → e'.answered = none → e.answered = none := by
    intro e' he hanswered
    rwa [(d.whenRunning_eq he).2]
  cases event with
  | newListenAddr listener address => exact hwhen _ (Prod.mk.inj (Except.ok.inj h)).2 rfl
  | listenerError listener error =>
    simp only [handleSwarmEvent] at h
    split at h <;> cases h
  | connectionEstablished peer => exact hwhen _ (Prod.mk.inj (Except.ok.inj h)).2 rfl
  | connectionClosed peer numEstablished =>
    simp only [handleSwarmEvent] at h
    split at h
    · exact hwhen _ (Prod.mk.inj (Except.ok.inj h)).2 rfl
    · cases h
  | gossipMessage source propagationSource data =>
    simp only [handleSwarmEvent, handleGossip, applyGossip, Except.ok.injEq] at h
    split at h
    · cases h
    · split at h
      · split at h
        · cases h
          rfl
        · split at h <;> cases h
        · split at h <;> cases h
          rfl
      · cases h
  | proofRequest peer chainId verificationId =>
    simp only [handleSwarmEvent, handleInboundRequest, Except.ok.injEq] at h
    split_ifs at h
    · cases h
    · split at h <;> cases h
      rfl
    · cases h
  | proofResponse peer requestId response | outboundFailure peer requestId error => cases hnone
  | other => cases h

end

section

variable (d : Driver) (net : NetworkOutcome)

theorem announce_driver (id : VerificationId) :
    (d.announce net id).2 = { d with availability := d.availability.add id d.localPeerId } := by
  unfold announce
  dsimp only
  split
  · rfl
  · split <;> rfl

theorem proofResponse_some [Sha256] {inbound : InboundProofRequest} {proof : Proof}
    {response : GetProofResponse} :
    d.proofResponse inbound (some proof) = .ok response ↔
      proof.encodedLen ≤ d.config.maxProofBytes ∧ proof.verificationId = inbound.verificationId ∧
      response = ⟨d.config.chainId, some (.proof (.ofProof proof))⟩ := by
  unfold proofResponse
  dsimp only
  split_ifs with hlarge hid
  · simp only [false_iff]
    omega
  · simp only [false_iff]
    exact fun h => hid h.2.1
  · simp only [Except.ok.injEq]
    exact ⟨fun h => ⟨by omega, not_not.1 hid, h.symm⟩, fun h => h.2.2.symm⟩

theorem respondProof_erase [Sha256] (requestId : InboundProofRequestId) (proof : Option Proof) :
    (d.respondProof net requestId proof).2 = { d with inboundRequests := d.inboundRequests.erase requestId } := by
  unfold respondProof
  split
  · rename_i hnone
    have herase : d.inboundRequests.erase requestId = d.inboundRequests :=
      AList.ext (List.kerase_of_notMem_keys (AList.lookup_eq_none.1 hnone))
    rw [herase]
  · rfl

theorem handleCommand_move [Sha256] {caller : Caller} {command : DriverCommand} {d' : Driver} {replies : Replies}
    (h : d.handleCommand net caller command = (d', replies)) : CommandMove d net caller command d' replies := by
  obtain ⟨rfl, rfl⟩ : (d.handleCommand net caller command).1 = d' ∧
      (d.handleCommand net caller command).2 = replies := by
    rw [h]
    exact ⟨rfl, rfl⟩
  have hunit : ∀ (result : Except Error Unit) (requestId : ProofRequestId),
      (result.map fun _ => Reply.unit) ≠ .ok (.requestId requestId) := by
    rintro (_ | _) requestId h <;> cases h
  have hkept : ∀ (reply : Except Error Reply), (∀ requestId, reply ≠ .ok (.requestId requestId)) →
      (∀ requestId proof, command ≠ .respondProof requestId proof) → command ≠ .drain →
      CommandMove d net caller command d [(caller, reply)] :=
    fun reply hreply hrespond hdrain => .answered command d.availability reply hreply hrespond (absurd · hdrain)
  cases command with
  | announce id =>
    change CommandMove d net caller _ (d.announce net id).2 [(caller, (d.announce net id).1.map fun _ => .unit)]
    rw [announce_driver]
    exact .answered _ _ _ (hunit _) (fun _ _ h => nomatch h) (fun h => nomatch h)
  | forgetLocalProof id => exact .answered _ _ _ (fun _ h => nomatch h) (fun _ _ h => nomatch h) (fun h => nomatch h)
  | replaceLocalProofs ids =>
    exact .answered _ _ _ (fun _ h => nomatch h) (fun _ _ h => nomatch h) (fun h => nomatch h)
  | queryAvailability id =>
    simp only [handleCommand, queryAvailability]
    split
    · exact hkept _ (fun _ h => nomatch h) (fun _ _ h => nomatch h) (fun h => nomatch h)
    · rename_i hrunning
      have hrunning : d.isRunning = true := by simpa using hrunning
      split
      · exact .queried id hrunning
      · exact .queried id hrunning
      · exact hkept _ (fun _ h => nomatch h) (fun _ _ h => nomatch h) (fun h => nomatch h)
  | providers id => exact hkept _ (fun _ h => nomatch h) (fun _ _ h => nomatch h) (fun h => nomatch h)
  | requestProof peer id =>
    simp only [handleCommand, requestProof]
    split_ifs with hrunning hauth hinFlight
    · exact hkept _ (fun _ h => nomatch h) (fun _ _ h => nomatch h) (fun h => nomatch h)
    · exact hkept _ (fun _ h => nomatch h) (fun _ _ h => nomatch h) (fun h => nomatch h)
    · exact .requested peer id (by simpa using hrunning) hauth hinFlight
    · exact hkept _ (fun _ h => nomatch h) (fun _ _ h => nomatch h) (fun h => nomatch h)
  | respondProof requestId proof =>
    change CommandMove d net caller _ (d.respondProof net requestId proof).2
      [(caller, (d.respondProof net requestId proof).1.map fun _ => .unit)]
    rw [respondProof_erase]
    exact .responded requestId proof _ (hunit _)
  | replaceAuthorizedPeers peers =>
    simp only [handleCommand]
    split_ifs with hrunning
    · exact .replaced peers hrunning
    · exact hkept _ (fun _ h => nomatch h) (fun _ _ h => nomatch h) (fun h => nomatch h)
  | drain =>
    simp only [handleCommand]
    split
    · rename_i hrunning
      exact .drain hrunning
    · rename_i c hdraining
      exact .answered _ d.availability _ (fun _ h => nomatch h) (fun _ _ h => nomatch h)
        (fun _ => .inr ⟨⟨c, hdraining⟩, rfl⟩)
    · rename_i hdrained
      exact .answered _ d.availability _ (fun _ h => nomatch h) (fun _ _ h => nomatch h) (fun _ => .inl hdrained)

/-! ### What the driver never changes -/

/-- The configuration and the identity of a driver. -/
def node (d : Driver) : P2pConfig × PeerId := (d.config, d.localPeerId)

theorem respondProof_driver [Sha256] (requestId : InboundProofRequestId) (proof : Option Proof) :
    ∃ inbound, (d.respondProof net requestId proof).2 = { d with inboundRequests := inbound } ∧
      ∀ k, inbound.lookup k = if k = requestId then none else d.inboundRequests.lookup k := by
  exact ⟨_, d.respondProof_erase net requestId proof, AList.lookup_erase_eq_ite _ _⟩

theorem handleCommand_node [Sha256] (caller : Caller) (command : DriverCommand) :
    (d.handleCommand net caller command).1.node = d.node := by
  rcases h : d.handleCommand net caller command with ⟨d', replies⟩
  cases d.handleCommand_move net h <;> rfl

theorem respondProof_state [Sha256] (requestId : InboundProofRequestId) (proof : Option Proof) :
    (d.respondProof net requestId proof).2.state = d.state := by
  obtain ⟨inbound, h, -⟩ := d.respondProof_driver net requestId proof
  rw [h]

theorem handleSwarmEvent_state [AvailabilityWire] [Sha256] {event : SwarmEvent} {d' : Driver}
    {emitted : Option DriverEvent} (h : d.handleSwarmEvent event = .ok (d', emitted)) : d'.state = d.state := by
  cases d.handleSwarmEvent_move h <;> rfl

theorem handleSwarmEvent_node [AvailabilityWire] [Sha256] {event : SwarmEvent} {d' : Driver}
    {emitted : Option DriverEvent} (h : d.handleSwarmEvent event = .ok (d', emitted)) : d'.node = d.node := by
  cases d.handleSwarmEvent_move h <;> rfl

end

end Driver

end PulsarVerifier
