import PulsarVerifier.P2p.Codec
import PulsarVerifier.P2p.Inbound
import PulsarVerifier.P2p.Ownership

/-!
# What nodes tell each other

The gossip messages and proof responses that pass between nodes, and what they say about which node has had which proof.
A node goes by such statements in many places: the index of the driver, responses it will publish, requests it has
sent, commands and replies between driver and worker, and events of the store that are under way (`Believes`).  What
the driver knows after a command or an event of the swarm it knew before, or the command rests on it, or the event
brought it.
-/

namespace PulsarVerifier

/-! ### Messages -/

/-- What passes between nodes: the data of a gossip message, or the response to a proof request. -/
inductive NetworkMessage
  | gossip (data : Bytes)
  | response (response : GetProofResponse)
  deriving DecidableEq

def notFoundResponse (chainId : String) : GetProofResponse := ⟨chainId, some .notFound⟩

namespace Driver

variable [AvailabilityWire] [Sha256]

/-- What a command hands to the swarm, whether or not the swarm can send it. -/
def handed (d : Driver) (net : NetworkOutcome) : DriverCommand → List NetworkMessage
  | .announce id => if d.isRunning then [.gossip (announcement d.config.chainId id)] else []
  | .queryAvailability id => if d.isRunning then [.gossip (query d.config.chainId net.queryId id)] else []
  | .respondProof requestId proof =>
    match d.inboundRequests.lookup requestId with
    | none => []
    | some inbound =>
      match d.proofResponse inbound proof with
      | .ok response => [.response response]
      | .error _ => []
  | _ => []

end Driver

/-- The message that an event of the swarm brings, with the node it is attributed to. -/
def SwarmEvent.brought : SwarmEvent → List (PeerId × NetworkMessage)
  | .gossipMessage (some source) _ data => [(source, .gossip data)]
  | .proofResponse peer _ response => [(peer, .response response)]
  | _ => []

/-! ### What messages say -/

section

variable [AvailabilityWire]

/-- What is encoded is decoded again, and the bytes of a peer are those of no other. -/
structure AvailabilityWire.Faithful : Prop where
  message : ∀ m : AvailabilityMessage, AvailabilityWire.decode (AvailabilityWire.encode m) = .ok m
  peer : ∀ peer peer' : PeerId, AvailabilityWire.peerFromBytes peer.toBytes = .ok peer' → peer' = peer

/-- The proof of a response, if its type is known. -/
def WireProof.content (wire : WireProof) : Option Proof :=
  match ProofType.tryFrom wire.proofType with
  | .ok proofType => some ⟨proofType, wire.proof, wire.publicInputs, wire.verificationKey⟩
  | .error _ => none

variable [Sha256]

/-- A message of `author` says that a node has had a proof. -/
inductive NetworkMessage.Tells (author : PeerId) : NetworkMessage → PeerId → VerificationId → Prop
  | announcement (data : Bytes) (chainId : String) (id : VerificationId)
      (hdecode : AvailabilityWire.decode data = .ok ⟨chainId, some (.announcement id.bytes.1)⟩) :
    Tells author (.gossip data) author id
  | provider (data : Bytes) (chainId : String) (requestId : Bytes) (id : VerificationId) (hints : List Bytes)
      (hint : Bytes) (peer : PeerId)
      (hdecode : AvailabilityWire.decode data = .ok ⟨chainId, some (.response requestId id.bytes.1 hints)⟩)
      (hhint : hint ∈ hints) (hpeer : AvailabilityWire.peerFromBytes hint = .ok peer) :
    Tells author (.gossip data) peer id
  | proof (chainId : String) (wire : WireProof) (proof : Proof) (hproof : wire.content = some proof) :
    Tells author (.response ⟨chainId, some (.proof wire)⟩) author proof.verificationId

/-! ### What a node believes -/

/-- The pairs of a node and a proof that it has had which a command of the node `self` rests on. -/
def DriverCommand.claimed (self : PeerId) : DriverCommand → List (PeerId × VerificationId)
  | .announce id => [(self, id)]
  | .replaceLocalProofs ids => ids.map (self, ·)
  | .respondProof _ (some proof) => [(self, proof.verificationId)]
  | .requestProof peer id => [(peer, id)]
  | _ => []

omit [AvailabilityWire] [Sha256] in
/-- A snapshot of the local proofs is announced one by one. -/
def DriverCall.claimed (self : PeerId) : DriverCall → List (PeerId × VerificationId)
  | .replaceLocalProofs ids | .announceLocal ids => ids.map (self, ·)
  | _ => []

omit [AvailabilityWire] in
def Control.claimed (self : PeerId) : Control → List (PeerId × VerificationId)
  | .sending command call => command.claimed self ++ call.claimed self
  | .waiting call => call.claimed self
  | _ => []

/-- The driver lists the peer, has a response in store that names it, or has asked it for the proof. -/
inductive Driver.Knows (d : Driver) (peer : PeerId) (id : VerificationId) : Prop
  | listed (h : peer ∈ d.availability.providerSet id)
  | delayed (data : Bytes) (h : data ∈ d.delayedResponses)
      (htells : NetworkMessage.Tells d.localPeerId (.gossip data) peer id)
  | requested (k : OutboundRequestId) (request : OutboundProofRequest)
      (h : d.outboundRequests.lookup k = some request) (hpeer : request.peer = peer) (hid : request.verificationId = id)

/-- Some part of the node goes by `peer` having had the proof: the driver, the worker, a command or a reply between the
two, or an event of the store that is under way. -/
inductive P2pSystem.Believes (self : PeerId) (s : P2pSystem) (peer : PeerId) (id : VerificationId) : Prop
  | driver (h : s.driver.Knows peer id)
  | worker (h : (peer, id) ∈ s.worker.control.claimed self)
  | command (command : DriverCommand) (h : command ∈ s.workerCommands) (hclaimed : (peer, id) ∈ command.claimed self)
  | reply (attempted : Finset PeerId) (rest : List VerificationId) (peers : List PeerId)
      (hcontrol : s.worker.control = .waiting (.providers id attempted rest))
      (hreply : s.reply = some (.ok (.providers peers))) (h : peer ∈ peers)
  | event (notice : Notice) (h : notice ∈ s.unpublished ∨ notice ∈ s.receiver.queue)
      (hadd : notice.event.update = some (.add id)) (hself : peer = self)

end

/-! ### The driver -/

section

variable [AvailabilityWire] [Sha256] {d : Driver} {peer : PeerId} {id : VerificationId}

omit [Sha256] in
theorem AuthorizedHints.exists_hint {authorized : Finset PeerId} {hints : List Bytes} {peers : List PeerId}
    (h : AuthorizedHints authorized hints peers) (hpeer : peer ∈ peers) :
    ∃ hint ∈ hints, AvailabilityWire.peerFromBytes hint = .ok peer := by
  induction h with
  | nil => cases hpeer
  | cons hhead _ ih =>
    rcases List.mem_cons.1 hpeer with rfl | hpeer
    · exact ⟨_, List.mem_cons_self, hhead.1⟩
    · obtain ⟨hint, hhint, hparsed⟩ := ih hpeer
      exact ⟨hint, List.mem_cons_of_mem _ hhint, hparsed⟩

omit [AvailabilityWire] [Sha256] in
theorem WireProof.content_ofProof (proof : Proof) : (WireProof.ofProof proof).content = some proof := by
  obtain ⟨proofType, proof, publicInputs, verificationKey⟩ := proof
  cases proofType <;> rfl

theorem tells_response (hwire : AvailabilityWire.Faithful) {author : PeerId} {chainId : String}
    {queryId : QueryId} {id' : VerificationId} {providers : List PeerId}
    (h : NetworkMessage.Tells author (.gossip (response chainId queryId id' providers)) peer id) :
    id = id' ∧ peer ∈ providers := by
  have hmessage := hwire.message ⟨chainId, some (.response queryId.bytes.1 id'.bytes.1 (providers.map PeerId.toBytes))⟩
  cases h with
  | announcement _ _ _ hdecode => cases hmessage.symm.trans hdecode
  | provider _ _ _ _ hints hint _ hdecode hhint hpeer =>
    have hsame := hmessage.symm.trans hdecode
    simp only [Except.ok.injEq, AvailabilityMessage.mk.injEq, Option.some.injEq,
      AvailabilityPayload.response.injEq] at hsame
    obtain ⟨-, -, hid, rfl⟩ := hsame
    obtain ⟨provider, hprovider, rfl⟩ := List.mem_map.1 hhint
    obtain rfl := hwire.peer provider peer hpeer
    exact ⟨congrArg VerificationId.mk (Subtype.ext hid.symm), hprovider⟩

theorem tells_announcement (hwire : AvailabilityWire.Faithful) {author : PeerId} {chainId : String}
    {id' : VerificationId} (h : NetworkMessage.Tells author (.gossip (announcement chainId id')) peer id) :
    id = id' ∧ peer = author := by
  have hmessage := hwire.message ⟨chainId, some (.announcement id'.bytes.1)⟩
  cases h with
  | announcement _ _ _ hdecode =>
    have hsame := hmessage.symm.trans hdecode
    simp only [Except.ok.injEq, AvailabilityMessage.mk.injEq, Option.some.injEq,
      AvailabilityPayload.announcement.injEq] at hsame
    exact ⟨congrArg VerificationId.mk (Subtype.ext hsame.2.symm), rfl⟩
  | provider _ _ _ _ _ _ _ hdecode => cases hmessage.symm.trans hdecode

theorem Driver.handed_tells (hwire : AvailabilityWire.Faithful) {net : NetworkOutcome} {command : DriverCommand}
    {m : NetworkMessage} (hm : m ∈ d.handed net command) (h : m.Tells d.localPeerId peer id) :
    (peer, id) ∈ command.claimed d.localPeerId := by
  cases command with
  | announce id' =>
    simp only [handed] at hm
    split at hm
    · obtain rfl := List.mem_singleton.1 hm
      obtain ⟨rfl, rfl⟩ := tells_announcement hwire h
      exact List.mem_cons_self
    · cases hm
  | queryAvailability id' =>
    simp only [handed] at hm
    split at hm
    · obtain rfl := List.mem_singleton.1 hm
      have hmessage := hwire.message ⟨d.config.chainId, some (.query net.queryId.bytes.1 id'.bytes.1)⟩
      cases h with
      | announcement _ _ _ hdecode | provider _ _ _ _ _ _ _ hdecode => cases hmessage.symm.trans hdecode
    · cases hm
  | respondProof requestId proof =>
    simp only [handed] at hm
    split at hm
    · cases hm
    · split at hm
      · rename_i response hresponse
        obtain rfl := List.mem_singleton.1 hm
        cases proof with
        | none =>
          cases hresponse
          cases h
        | some proof =>
          obtain ⟨-, -, rfl⟩ := (proofResponse_some d).1 hresponse
          cases h with
          | proof _ _ proof hproof =>
            rw [WireProof.content_ofProof] at hproof
            cases hproof
            exact List.mem_cons_self
      · cases hm
  | _ => cases hm

omit [AvailabilityWire] in
theorem Driver.listed_of_handleCommand {net : NetworkOutcome} {caller : Caller} {command : DriverCommand}
    (h : peer ∈ (d.handleCommand net caller command).1.availability.providerSet id) :
    peer ∈ d.availability.providerSet id ∨ (peer, id) ∈ command.claimed d.localPeerId := by
  cases command with
  | announce id' =>
    change peer ∈ (d.announce net id').2.availability.providerSet id at h
    rw [announce_driver] at h
    rcases AvailabilityIndex.mem_providerSet_add.1 h with ⟨rfl, rfl⟩ | hold
    · exact .inr List.mem_cons_self
    · exact .inl hold
  | forgetLocalProof id' => exact .inl (AvailabilityIndex.mem_providerSet_removeProvider.1 h).1
  | replaceLocalProofs ids =>
    rcases AvailabilityIndex.mem_providerSet_replaceProviderProofs.1 h with ⟨rfl, hid⟩ | ⟨-, hold⟩
    · exact .inr (List.mem_map.2 ⟨id, hid, rfl⟩)
    · exact .inl hold
  | queryAvailability id' =>
    have hsame : (d.queryAvailability net id').2.availability = d.availability := by
      unfold queryAvailability
      dsimp only
      split
      · rfl
      · split <;> rfl
    change peer ∈ (d.queryAvailability net id').2.availability.providerSet id at h
    rw [hsame] at h
    exact .inl h
  | providers id' => exact .inl h
  | requestProof peer' id' =>
    have hsame : (d.requestProof net peer' id').2.availability = d.availability := by
      unfold requestProof
      split_ifs <;> rfl
    change peer ∈ (d.requestProof net peer' id').2.availability.providerSet id at h
    rw [hsame] at h
    exact .inl h
  | respondProof requestId proof =>
    change peer ∈ (d.respondProof net requestId proof).2.availability.providerSet id at h
    rw [respondProof_erase] at h
    exact .inl h
  | replaceAuthorizedPeers peers =>
    simp only [handleCommand] at h
    split_ifs at h
    · exact .inl (AvailabilityIndex.mem_providerSet_removeAll.1 h).1
    · exact .inl h
  | drain =>
    simp only [handleCommand] at h
    split at h
    · exact .inl h
    · exact .inl h
    · exact .inl h

omit [AvailabilityWire] [Sha256] in
theorem CommandMove.delayedResponses {d' : Driver} {net : NetworkOutcome} {caller : Caller} {command : DriverCommand}
    {replies : Replies} (h : CommandMove d net caller command d' replies) :
    d'.delayedResponses = d.delayedResponses := by
  cases h <;> rfl

omit [AvailabilityWire] [Sha256] in
theorem CommandMove.outboundRequests {d' : Driver} {net : NetworkOutcome} {caller : Caller} {command : DriverCommand}
    {replies : Replies} (h : CommandMove d net caller command d' replies) {k : OutboundRequestId}
    {request : OutboundProofRequest} (hlookup : d'.outboundRequests.lookup k = some request) :
    d.outboundRequests.lookup k = some request ∨ command = .requestProof request.peer request.verificationId := by
  cases h with
  | requested peer id =>
    by_cases hk : k = net.outboundId
    · subst hk
      rw [AList.lookup_insert] at hlookup
      cases hlookup
      exact .inr rfl
    · rw [AList.lookup_insert_ne hk] at hlookup
      exact .inl hlookup
  | _ => exact .inl hlookup

theorem Driver.Knows.of_handleCommand {net : NetworkOutcome} {caller : Caller} {command : DriverCommand}
    (h : (d.handleCommand net caller command).1.Knows peer id) :
    d.Knows peer id ∨ (peer, id) ∈ command.claimed d.localPeerId := by
  have hmove : CommandMove d net caller command (d.handleCommand net caller command).1 _ := d.handleCommand_move net rfl
  have hlocal : (d.handleCommand net caller command).1.localPeerId = d.localPeerId :=
    congrArg Prod.snd (d.handleCommand_node net caller command)
  cases h with
  | listed h => exact (listed_of_handleCommand h).imp_left .listed
  | delayed data h htells =>
    rw [hmove.delayedResponses] at h
    rw [hlocal] at htells
    exact .inl (.delayed data h htells)
  | requested k request h hpeer hid =>
    rcases hmove.outboundRequests h with hold | hnew
    · exact .inl (.requested k request hold hpeer hid)
    · rw [hnew, hpeer, hid]
      exact .inr List.mem_cons_self

theorem Driver.Knows.mono {d' : Driver} (h : d'.Knows peer id) (hlocal : d'.localPeerId = d.localPeerId)
    (hlisted : peer ∈ d'.availability.providerSet id → peer ∈ d.availability.providerSet id)
    (hdelayed : d'.delayedResponses = d.delayedResponses)
    (houtbound : ∀ k request, d'.outboundRequests.lookup k = some request →
      d.outboundRequests.lookup k = some request) : d.Knows peer id := by
  cases h with
  | listed h => exact .listed (hlisted h)
  | delayed data h htells => exact .delayed data (hdelayed ▸ h) (hlocal ▸ htells)
  | requested k request h hpeer hid => exact .requested k request (houtbound k request h) hpeer hid

theorem Driver.validateGossip_tells {source : Option PeerId} {propagationSource : PeerId} {data : Bytes}
    {author : PeerId} {payload : ValidatedAvailability}
    (h : d.validateGossip source propagationSource data = .ok (author, payload)) :
    source = some author ∧ (∀ id, payload = .announcement id → NetworkMessage.Tells author (.gossip data) author id) ∧
      ∀ queryId id providers, payload = .response queryId id providers → ∀ peer ∈ providers,
        NetworkMessage.Tells author (.gossip data) peer id := by
  unfold validateGossip at h
  split at h
  · split_ifs at h
    cases hdecoded : decodeAndValidate data d.config.chainId d.authorizedPeers maxProviderHints with
    | error error =>
      rw [hdecoded] at h
      cases h
    | ok decoded =>
      rw [hdecoded] at h
      cases h
      obtain ⟨wire, hdecode, hvalid⟩ := decodeAndValidate_eq_ok_iff.1 hdecoded
      refine ⟨rfl, fun id hid => ?_, fun queryId id providers hproviders peer hpeer => ?_⟩
      · subst hid
        cases hvalid
        exact .announcement data _ id hdecode
      · subst hproviders
        cases hvalid with
        | response _ _ hints peers _ hhints =>
          rw [PeerId.mem_sortByBytes, List.mem_toFinset] at hpeer
          obtain ⟨hint, hhint, hparsed⟩ := hhints.exists_hint hpeer
          exact .provider data _ _ id hints hint peer hdecode hhint hparsed
  · cases h

theorem Driver.Knows.of_handleGossip (hwire : AvailabilityWire.Faithful) {source : Option PeerId}
    {propagationSource : PeerId} {data : Bytes} (h : (d.handleGossip source propagationSource data).1.Knows peer id) :
    d.Knows peer id ∨ ∃ author, source = some author ∧ NetworkMessage.Tells author (.gossip data) peer id := by
  unfold handleGossip at h
  split at h
  · exact .inl h
  · rename_i author payload hvalid
    obtain ⟨rfl, hannouncement, hresponse⟩ := validateGossip_tells hvalid
    split_ifs at h
    · cases payload with
      | announcement id' =>
        have htells := hannouncement id' rfl
        by_cases hnew : id = id' ∧ peer = author
        · obtain ⟨rfl, rfl⟩ := hnew
          exact .inr ⟨_, rfl, htells⟩
        · refine .inl (h.mono rfl (fun hmem => ?_) rfl fun _ _ hlookup => hlookup)
          exact (AvailabilityIndex.mem_providerSet_add.1 hmem).resolve_left hnew
      | query queryId id' =>
        simp only [applyGossip] at h
        split_ifs at h
        · exact .inl h
        · -- the response that is delayed names providers of the index
          cases h with
          | listed h => exact .inl (.listed h)
          | requested k request h hpeer hid => exact .inl (.requested k request h hpeer hid)
          | delayed data' h htells =>
            rcases List.mem_append.1 h with hold | hnew
            · exact .inl (.delayed data' hold htells)
            · obtain rfl := List.mem_singleton.1 hnew
              obtain ⟨rfl, hmem⟩ := tells_response hwire htells
              exact .inl (.listed (AvailabilityIndex.mem_providers.1 (List.mem_of_mem_take hmem)))
      | response queryId id' providers =>
        have hadded : (d.applyGossip author (.response queryId id' providers)).1 =
            { d with availability := providers.foldl (fun index peer => index.add id' peer) d.availability } := by
          simp only [applyGossip]
          split_ifs <;> rfl
        rw [hadded] at h
        by_cases hnew : id = id' ∧ peer ∈ providers
        · obtain ⟨rfl, hmem⟩ := hnew
          exact .inr ⟨_, rfl, hresponse queryId _ providers rfl peer hmem⟩
        · refine .inl (h.mono rfl (fun hmem => ?_) rfl fun _ _ hlookup => hlookup)
          exact (AvailabilityIndex.mem_providerSet_addAll.1 hmem).resolve_left hnew
    · exact .inl h

omit [AvailabilityWire] in
theorem validateWireProof_content {wire : WireProof} {maximum : Nat} {proof : Proof}
    (h : validateWireProof wire id maximum = .ok proof) : wire.content = some proof ∧ proof.verificationId = id := by
  unfold validateWireProof at h
  split_ifs at h
  split at h
  · cases h
  · rename_i proofType htype
    dsimp only at h
    split_ifs at h with hid
    cases h
    refine ⟨?_, not_not.1 hid⟩
    unfold WireProof.content
    rw [htype]

theorem Driver.Knows.of_forgetOutbound {k : OutboundRequestId} {request : OutboundProofRequest}
    {availability : AvailabilityIndex} (h : Knows { d.forgetOutbound k request with availability } peer id)
    (hlisted : peer ∈ availability.providerSet id → peer ∈ d.availability.providerSet id) : d.Knows peer id := by
  refine h.mono rfl hlisted rfl fun k' request' hlookup => ?_
  change (d.outboundRequests.erase k).lookup k' = some request' at hlookup
  by_cases hk : k' = k
  · subst hk
    rw [AList.lookup_erase] at hlookup
    cases hlookup
  · rwa [AList.lookup_erase_ne hk] at hlookup

theorem Driver.Knows.of_handleOutboundResponse {sender : PeerId} {k : OutboundRequestId} {response : GetProofResponse}
    (h : (d.handleOutboundResponse sender k response).1.Knows peer id) :
    d.Knows peer id ∨ NetworkMessage.Tells sender (.response response) peer id := by
  have hremoved : ∀ {request : OutboundProofRequest} {id' peer'}, Knows { d.forgetOutbound k request with
      availability := d.availability.removeProvider id' peer' } peer id → d.Knows peer id :=
    fun h' => h'.of_forgetOutbound fun hmem => (AvailabilityIndex.mem_providerSet_removeProvider.1 hmem).1
  unfold handleOutboundResponse at h
  split at h
  · exact .inl h
  · rename_i request hlookup
    dsimp only at h
    split at h
    · exact .inl (hremoved h)
    · split at h
      · split at h
        · exact .inl (hremoved h)
        · rename_i wire hresult _ proof hvalid
          obtain ⟨hcontent, hid⟩ := validateWireProof_content hvalid
          by_cases hnew : id = request.verificationId ∧ peer = sender
          · obtain ⟨rfl, rfl⟩ := hnew
            obtain ⟨chainId, result⟩ := response
            cases hresult
            rw [← hid]
            exact .inr (.proof chainId wire proof hcontent)
          · refine .inl (h.of_forgetOutbound fun hmem => ?_)
            exact (AvailabilityIndex.mem_providerSet_add.1 hmem).resolve_left hnew
      · exact .inl (hremoved h)
      · exact .inl (hremoved h)

theorem Driver.Knows.of_handleSwarmEvent (hwire : AvailabilityWire.Faithful) {event : SwarmEvent} {d' : Driver}
    {emitted : Option DriverEvent} (hevent : d.handleSwarmEvent event = .ok (d', emitted)) (h : d'.Knows peer id) :
    d.Knows peer id ∨ ∃ m ∈ event.brought, m.2.Tells m.1 peer id := by
  cases event with
  | newListenAddr listener address =>
    cases hevent
    exact .inl (h.mono rfl (fun hmem => hmem) rfl fun _ _ hlookup => hlookup)
  | listenerError listener error =>
    simp only [handleSwarmEvent] at hevent
    split at hevent
    · cases hevent
    · cases hevent
      exact .inl (h.mono rfl (fun hmem => hmem) rfl fun _ _ hlookup => hlookup)
  | connectionEstablished peer =>
    cases hevent
    exact .inl h
  | connectionClosed peer numEstablished =>
    simp only [handleSwarmEvent] at hevent
    split_ifs at hevent
    · cases hevent
      exact .inl (h.mono rfl (fun hmem => (AvailabilityIndex.mem_providerSet_removePeer.1 hmem).1) rfl
        fun _ _ hlookup => hlookup)
    · cases hevent
      exact .inl h
  | gossipMessage source propagationSource data =>
    obtain rfl : (d.handleGossip source propagationSource data).1 = d' := congrArg Prod.fst (Except.ok.inj hevent)
    refine (h.of_handleGossip hwire).imp_right ?_
    rintro ⟨author, rfl, htells⟩
    exact ⟨_, List.mem_cons_self, htells⟩
  | proofRequest peer chainId verificationId =>
    obtain rfl : (d.handleInboundRequest peer chainId verificationId).1 = d' :=
      congrArg Prod.fst (Except.ok.inj hevent)
    unfold handleInboundRequest at h
    split_ifs at h
    · exact .inl h
    · split at h
      · exact .inl h
      · exact .inl (h.mono rfl (fun hmem => hmem) rfl fun _ _ hlookup => hlookup)
    · exact .inl h
  | proofResponse peer requestId response =>
    obtain rfl : (d.handleOutboundResponse peer requestId response).1 = d' := congrArg Prod.fst (Except.ok.inj hevent)
    exact h.of_handleOutboundResponse.imp_right fun htells => ⟨_, List.mem_cons_self, htells⟩
  | outboundFailure peer requestId error =>
    obtain rfl : (d.handleOutboundFailure peer requestId error).1 = d' := congrArg Prod.fst (Except.ok.inj hevent)
    unfold handleOutboundFailure at h
    split at h
    · exact .inl h
    · exact .inl (h.of_forgetOutbound fun hmem => (AvailabilityIndex.mem_providerSet_removeProvider.1 hmem).1)
  | other =>
    cases hevent
    exact .inl h

end

/-! ### The worker -/

namespace Worker

variable [Sha256] {w w' : Worker} {rest : List VerificationId} {id : VerificationId} (self : PeerId)

theorem Driven.claimed (h : w.Driven rest) : w.control.claimed self = [] :=
  h.on (P := (·.claimed self = [])) rfl (fun _ _ => rfl) fun _ _ _ => rfl

theorem EventMove.claimed {draining : Bool} {event : DriverEvent} (h : w.EventMove draining event w') :
    w'.control.claimed self = [] :=
  h.on (P := (·.claimed self = [])) (fun h => h.claimed self) (fun _ _ => rfl) fun _ _ => rfl

theorem claimed_resumeAttached {requestId : ProofRequestId} {peer : PeerId} {stored : Except Error StoreChange}
    {now : Instant} {draining : Bool} :
    (w.resumeAttached requestId peer id stored now draining).control.claimed self = [] :=
  resumeAttached_on (P := (·.claimed self = [])) (fun h => h.claimed self) (fun _ => rfl) fun _ => rfl

theorem ReplyMove.claimed {call : DriverCall} {reply : Except Error Reply} {peer : PeerId}
    (h : w.ReplyMove call reply w') (hclaimed : (peer, id) ∈ w'.control.claimed self) :
    (peer, id) ∈ call.claimed self ∨ ∃ attempted rest peers, call = .providers id attempted rest ∧
      reply = .ok (.providers peers) ∧ peer ∈ peers := by
  have hnone : ∀ {control : Control}, control.claimed self = [] → (peer, id) ∈ control.claimed self →
      (peer, id) ∈ call.claimed self ∨ ∃ attempted rest peers, call = .providers id attempted rest ∧
        reply = .ok (.providers peers) ∧ peer ∈ peers := by
    intro control hnil hmem
    rw [hnil] at hmem
    cases hmem
  refine h.on (P := fun control => (peer, id) ∈ control.claimed self → _) (fun h => hnone (h.claimed self)) (hnone rfl)
    (fun _ _ _ => hnone rfl) (hnone rfl) (fun first ids hcall hmem => ?_) (fun _ _ => hnone rfl) ?_
    (fun _ _ _ _ => hnone rfl) hclaimed
  · rcases hcall with rfl | rfl <;> exact .inl hmem
  · intro id' attempted rest peers peer' hcall hreply hpeer _ hmem
    obtain ⟨rfl, rfl⟩ : peer = peer' ∧ id = id' := by
      simpa [Control.claimed, DriverCommand.claimed, DriverCall.claimed] using hmem
    exact .inr ⟨attempted, rest, peers, hcall, hreply, hpeer⟩

end Worker

end PulsarVerifier
