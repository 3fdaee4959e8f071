import PulsarVerifier.P2p.DriverTask
import PulsarVerifier.P2p.Gossip

/-!
# The peers in the availability index

The index is fed by the announcements of the node itself, by gossip and by completed transfers, while the set of
validators is replaced under way.  Gossip is checked against the present set, and a replacement takes the validators
that leave out of the index.  A transfer is not checked again when its proof arrives: a validator that was removed in
the meantime comes back into the index.
-/

namespace PulsarVerifier

def SwarmEvent.deliverer : SwarmEvent → Option PeerId
  | .proofResponse peer _ ⟨_, some (.proof _)⟩ => some peer
  | _ => none

namespace Driver

variable {d d' : Driver}

/-- Every provider in the index is the node itself or a validator. -/
def Indexed (d : Driver) : Prop :=
  ∀ id peer, peer ∈ d.availability.providerSet id → peer = d.localPeerId ∨ peer ∈ d.authorizedPeers

/-- The driver has the same validators, and no provider in its index that is neither known before nor one of
`d.localPeerId` and the validators. -/
structure IndexedAfter (d d' : Driver) : Prop where
  localPeerId : d'.localPeerId = d.localPeerId
  authorizedPeers : d'.authorizedPeers = d.authorizedPeers
  providers : ∀ id peer, peer ∈ d'.availability.providerSet id →
    peer ∈ d.availability.providerSet id ∨ peer = d.localPeerId ∨ peer ∈ d.authorizedPeers

theorem Indexed.after (h : d.Indexed) (hafter : d.IndexedAfter d') : d'.Indexed := by
  intro id peer hpeer
  rw [hafter.localPeerId, hafter.authorizedPeers]
  rcases hafter.providers id peer hpeer with hbefore | hnew
  · exact h id peer hbefore
  · exact hnew

/-- Only the validators that leave have to be taken out of the index. -/
theorem Indexed.replaceAuthorizedPeers (h : d.Indexed) (peers : Finset PeerId) :
    (d.replaceAuthorizedPeers peers).Indexed := by
  intro id peer hpeer
  have hkept := AvailabilityIndex.mem_providerSet_removeAll.1 hpeer
  rw [PeerId.mem_sortByBytes, Finset.mem_sdiff, not_and, not_not] at hkept
  rcases h id peer hkept.1 with hlocal | hauthorized
  · exact .inl hlocal
  · exact .inr (hkept.2 hauthorized)

section

variable [AvailabilityWire] [Sha256]

omit [AvailabilityWire] in
theorem Indexed.handleCommand (h : d.Indexed) (net : NetworkOutcome) (caller : Caller) (command : DriverCommand) :
    (d.handleCommand net caller command).1.Indexed := by
  cases command with
  | announce id =>
    refine h.after ?_
    change d.IndexedAfter (d.announce net id).2
    rw [announce_driver]
    refine ⟨rfl, rfl, fun id' peer hpeer => ?_⟩
    rcases AvailabilityIndex.mem_providerSet_add.1 hpeer with ⟨-, hlocal⟩ | hbefore
    · exact .inr (.inl hlocal)
    · exact .inl hbefore
  | forgetLocalProof id =>
    exact h.after ⟨rfl, rfl, fun _ _ hpeer => .inl (AvailabilityIndex.mem_providerSet_removeProvider.1 hpeer).1⟩
  | replaceLocalProofs ids =>
    refine h.after ⟨rfl, rfl, fun id peer hpeer => ?_⟩
    rcases AvailabilityIndex.mem_providerSet_replaceProviderProofs.1 hpeer with ⟨hlocal, -⟩ | ⟨-, hbefore⟩
    · exact .inr (.inl hlocal)
    · exact .inl hbefore
  | queryAvailability id =>
    simp only [Driver.handleCommand, Driver.queryAvailability]
    split
    · exact h
    · split <;> exact h
  | providers id => exact h
  | requestProof peer id =>
    simp only [Driver.handleCommand, Driver.requestProof]
    split_ifs <;> exact h
  | respondProof requestId proof =>
    change (d.respondProof net requestId proof).2.Indexed
    rw [respondProof_erase]
    exact h
  | replaceAuthorizedPeers peers =>
    simp only [Driver.handleCommand]
    split
    · exact h.replaceAuthorizedPeers peers
    · exact h
  | drain =>
    simp only [Driver.handleCommand]
    split <;> exact h

omit [Sha256] in
theorem authorized_of_validateGossip {source : Option PeerId} {propagationSource signer : PeerId} {data : Bytes}
    {payload : ValidatedAvailability} (h : d.validateGossip source propagationSource data = .ok (signer, payload)) :
    source = some signer ∧ signer ∈ d.authorizedPeers ∧ propagationSource ∈ d.authorizedPeers ∧
      decodeAndValidate data d.config.chainId d.authorizedPeers maxProviderHints = .ok payload := by
  unfold validateGossip at h
  split at h
  · split_ifs at h with hauthorized
    cases hdecode : decodeAndValidate data d.config.chainId d.authorizedPeers maxProviderHints with
    | error error =>
      rw [hdecode] at h
      cases h
    | ok decoded =>
      rw [hdecode] at h
      cases h
      exact ⟨rfl, hauthorized.1, hauthorized.2, rfl⟩
  · cases h

omit [Sha256] in
theorem indexedAfter_handleGossip (d : Driver) (source : Option PeerId) (propagationSource : PeerId) (data : Bytes) :
    d.IndexedAfter (d.handleGossip source propagationSource data).1 := by
  have hsame : d.IndexedAfter d := ⟨rfl, rfl, fun _ _ hpeer => .inl hpeer⟩
  unfold handleGossip
  split
  · exact hsame
  · rename_i signer payload hvalid
    obtain ⟨-, hsigner, -, hdecode⟩ := authorized_of_validateGossip hvalid
    split
    · cases payload with
      | announcement id =>
        refine ⟨rfl, rfl, fun id' peer hpeer => ?_⟩
        rcases AvailabilityIndex.mem_providerSet_add.1 hpeer with ⟨-, rfl⟩ | hbefore
        · exact .inr (.inr hsigner)
        · exact .inl hbefore
      | query queryId id =>
        simp only [applyGossip]
        split <;> exact ⟨rfl, rfl, fun _ _ hpeer => .inl hpeer⟩
      | response queryId id providers =>
        -- the providers that a response lists are checked when it is decoded
        have hadded : ∀ id' peer, peer ∈
            (providers.foldl (fun index peer => index.add id peer) d.availability).providerSet id' →
            peer ∈ d.availability.providerSet id' ∨ peer = d.localPeerId ∨ peer ∈ d.authorizedPeers := by
          intro id' peer hpeer
          rcases AvailabilityIndex.mem_providerSet_addAll.1 hpeer with ⟨-, hlisted⟩ | hbefore
          · exact .inr (.inr (decodeAndValidate_response hdecode hlisted))
          · exact .inl hbefore
        simp only [applyGossip]
        split <;> exact ⟨rfl, rfl, hadded⟩
    · exact hsame

omit [AvailabilityWire] in
theorem indexedAfter_handleOutboundResponse (peer : PeerId) (requestId : OutboundRequestId)
    (response : GetProofResponse)
    (hproof : ∀ proof, response.result = some (.proof proof) → peer ∈ d.authorizedPeers) :
    d.IndexedAfter (d.handleOutboundResponse peer requestId response).1 := by
  -- every answer but a valid proof removes the peer
  have hremoved : ∀ id peer' emitted, d.IndexedAfter
      (({ d.forgetOutbound requestId emitted with
        availability := d.availability.removeProvider id peer' },
          (none : Option DriverEvent)).1) := fun id peer' emitted =>
    ⟨rfl, rfl, fun _ _ hpeer => .inl (AvailabilityIndex.mem_providerSet_removeProvider.1 hpeer).1⟩
  unfold handleOutboundResponse
  split
  · exact ⟨rfl, rfl, fun _ _ hpeer => .inl hpeer⟩
  · rename_i request _
    dsimp only
    split
    · exact hremoved _ _ _
    · split
      · rename_i proof hresult
        split
        · exact hremoved _ _ _
        · refine ⟨rfl, rfl, fun id' peer' hpeer => ?_⟩
          rcases AvailabilityIndex.mem_providerSet_add.1 hpeer with ⟨-, rfl⟩ | hbefore
          · exact .inr (.inr (hproof proof hresult))
          · exact .inl hbefore
      · exact hremoved _ _ _
      · exact hremoved _ _ _

/-- A swarm event that the driver handles; a response with a proof has to come from a validator. -/
theorem Indexed.handleSwarmEvent {event : SwarmEvent} {emitted : Option DriverEvent} (h : d.Indexed)
    (hproof : ∀ peer ∈ event.deliverer, peer ∈ d.authorizedPeers)
    (hevent : d.handleSwarmEvent event = .ok (d', emitted)) : d'.Indexed := by
  cases event with
  | newListenAddr listener address =>
    cases hevent
    exact h
  | listenerError listener error =>
    simp only [Driver.handleSwarmEvent] at hevent
    split at hevent
    · cases hevent
    · cases hevent
      exact h
  | connectionEstablished peer =>
    cases hevent
    exact h
  | connectionClosed peer numEstablished =>
    simp only [Driver.handleSwarmEvent] at hevent
    split at hevent
    · cases hevent
      exact h.after ⟨rfl, rfl, fun _ _ hpeer => .inl (AvailabilityIndex.mem_providerSet_removePeer.1 hpeer).1⟩
    · cases hevent
      exact h
  | gossipMessage source propagationSource data =>
    obtain ⟨rfl, -⟩ := Prod.mk.inj (Except.ok.inj hevent.symm)
    exact h.after (d.indexedAfter_handleGossip source propagationSource data)
  | proofRequest peer chainId verificationId =>
    obtain rfl : (d.handleInboundRequest peer chainId verificationId).1 = d' :=
      congrArg Prod.fst (Except.ok.inj hevent)
    unfold handleInboundRequest
    split
    · exact h
    · split
      · split <;> exact h
      · exact h
  | proofResponse peer requestId response =>
    obtain ⟨rfl, -⟩ := Prod.mk.inj (Except.ok.inj hevent.symm)
    refine h.after (indexedAfter_handleOutboundResponse peer requestId response fun proof hresult => ?_)
    obtain ⟨chainId, result⟩ := response
    obtain rfl : result = some (.proof proof) := hresult
    exact hproof peer rfl
  | outboundFailure peer requestId error =>
    obtain rfl : (d.handleOutboundFailure peer requestId error).1 = d' := congrArg Prod.fst (Except.ok.inj hevent)
    unfold handleOutboundFailure
    split
    · exact h
    · exact h.after ⟨rfl, rfl, fun _ _ hpeer => .inl (AvailabilityIndex.mem_providerSet_removeProvider.1 hpeer).1⟩
  | other =>
    cases hevent
    exact h

end

end Driver

/-! ### Every order of commands and swarm events -/

namespace DriverTask

variable [Sha256] [AvailabilityWire] {s t : DriverTask}

/-- A response with a proof comes from a peer that is authorized when it arrives. -/
def StillAuthorized (s : DriverTask) : DriverAction → Prop
  | .swarmEvent event => ∀ peer ∈ event.deliverer, peer ∈ s.driver.authorizedPeers
  | _ => True

instance (s : DriverTask) (a : DriverAction) : Decidable (s.StillAuthorized a) :=
  match a with
  | .swarmEvent event => inferInstanceAs (Decidable (∀ peer ∈ event.deliverer, peer ∈ s.driver.authorizedPeers))
  | .command _ _ _ | .delayedResponse _ | .expireQueries _ | .emit _ _ => .isTrue trivial

omit [Sha256] [AvailabilityWire] in
theorem indexed_finishRound (h : s.driver.Indexed) : s.finishRound.driver.Indexed := by
  obtain ⟨state, hframe⟩ := s.finishRound_frame
  rw [hframe]
  exact h

theorem indexed_next {a : DriverAction} (h : s.driver.Indexed) (hauthorized : s.StillAuthorized a)
    (hnext : s.next a = some t) : t.driver.Indexed := by
  cases a with
  | command net caller command =>
    simp only [next] at hnext
    split_ifs at hnext
    cases hnext
    exact indexed_finishRound (h.handleCommand net caller command)
  | swarmEvent event =>
    cases next_step hnext with
    | swarmQuiet _ driver _ hevent => exact indexed_finishRound (h.handleSwarmEvent hauthorized hevent)
    | swarmEmit _ driver emitted _ hevent => exact h.handleSwarmEvent hauthorized hevent
  | delayedResponse i | expireQueries now =>
    cases next_step hnext
    exact indexed_finishRound h
  | emit net sent =>
    cases next_step hnext with
    | emit _ _ event driver _ hdriver =>
      refine indexed_finishRound ?_
      rcases hdriver with rfl | ⟨requestId, rfl⟩ <;> exact h

theorem gossip_of_changed {source : Option PeerId} {propagationSource : PeerId} {data : Bytes}
    (hnext : s.next (.swarmEvent (.gossipMessage source propagationSource data)) = some t)
    (hchanged : t.driver.availability ≠ s.driver.availability) :
    ∃ signer, source = some signer ∧ signer ∈ s.driver.authorizedPeers ∧
      propagationSource ∈ s.driver.authorizedPeers := by
  have hindex : t.driver.availability = (s.driver.handleGossip source propagationSource data).1.availability := by
    cases next_step hnext with
    | swarmQuiet _ driver _ hevent =>
      obtain rfl : (s.driver.handleGossip source propagationSource data).1 = driver :=
        congrArg Prod.fst (Except.ok.inj hevent)
      obtain ⟨state, hframe⟩ := finishRound_frame _
      rw [hframe]
    | swarmEmit _ driver emitted _ hevent =>
      obtain rfl : (s.driver.handleGossip source propagationSource data).1 = driver :=
        congrArg Prod.fst (Except.ok.inj hevent)
      rfl
  unfold Driver.handleGossip at hindex
  split at hindex
  · exact absurd hindex hchanged
  · rename_i signer payload hvalid
    obtain ⟨hsource, hsigner, hrelay, -⟩ := Driver.authorized_of_validateGossip hvalid
    exact ⟨signer, hsource, hsigner, hrelay⟩

theorem node_next {a : DriverAction} (hnext : s.next a = some t) : t.driver.node = s.driver.node := by
  have hround : ∀ u : DriverTask, u.finishRound.driver.node = u.driver.node := by
    intro u
    obtain ⟨state, hframe⟩ := u.finishRound_frame
    rw [hframe]
    rfl
  cases next_step hnext with
  | command net caller command driver replies _ _ hmove =>
    rw [hround]
    cases hmove <;> rfl
  | swarmQuiet event driver _ hevent => exact (hround _).trans (s.driver.handleSwarmEvent_node hevent)
  | swarmEmit event driver emitted _ hevent => exact s.driver.handleSwarmEvent_node hevent
  | delayedResponse | expireQueries => exact hround _
  | emit net sent event driver _ hdriver =>
    rw [hround]
    rcases hdriver with rfl | ⟨requestId, rfl⟩ <;> rfl

variable {config : P2pConfig} {localPeerId : PeerId} {validators : Finset PeerId} {listeners : Finset Nat}

theorem reachable_indexed (h : ((lts config localPeerId validators listeners).restrict StillAuthorized).Reachable s) :
    s.driver.Indexed ∧ s.driver.localPeerId = localPeerId := by
  refine h.invariant (P := fun s => s.driver.Indexed ∧ s.driver.localPeerId = localPeerId) ?_ ?_
  · rintro s rfl
    exact ⟨(fun id peer hpeer => nomatch hpeer), rfl⟩
  · rintro s a t - ⟨hindexed, hlocal⟩ ⟨hnext, hauthorized⟩
    exact ⟨indexed_next hindexed hauthorized hnext, (congrArg Prod.snd (node_next hnext)).trans hlocal⟩

/-- If every response with a proof comes from a peer that is still authorized, then every provider in the index is the
node itself or a validator of the present set.  Gossip changes the index only when the signer and the forwarding peer
are validators, without any condition. -/
theorem providers_authorized (config : P2pConfig) (localPeerId : PeerId) (validators : Finset PeerId)
    (listeners : Finset Nat) :
    (∀ s, ((lts config localPeerId validators listeners).restrict StillAuthorized).Reachable s →
      ∀ id peer, peer ∈ s.driver.availability.providers id →
        peer = localPeerId ∨ peer ∈ s.driver.authorizedPeers) ∧
    ∀ s, (lts config localPeerId validators listeners).Reachable s →
      ∀ source propagationSource data t,
        s.next (.swarmEvent (.gossipMessage source propagationSource data)) = some t →
        t.driver.availability ≠ s.driver.availability →
        ∃ signer, source = some signer ∧ signer ∈ s.driver.authorizedPeers ∧
          propagationSource ∈ s.driver.authorizedPeers := by
  refine ⟨fun s hs id peer hpeer => ?_, fun s _ source propagationSource data t => gossip_of_changed⟩
  obtain ⟨hindexed, hlocal⟩ := reachable_indexed hs
  rw [← hlocal]
  exact hindexed id peer (AvailabilityIndex.mem_providers.1 hpeer)

end DriverTask

/-! ### A validator that announces a proof, and one that is removed while it sends one -/

private def announcedByThere [AvailabilityWire] : DriverAction :=
  .swarmEvent (.gossipMessage (some .there) .there (announcement "pulsar-1" .small))

/-- `there` is indexed after its announcement, and it is a validator. -/
theorem DriverTask.providers_authorized_announced :
    letI := Sha256.standard
    letI := AvailabilityWire.standard
    ∃ s t, (lts .small .here {.here, .there} {0}).Reachable s ∧ s.next announcedByThere = some t ∧
      ((lts .small .here {.here, .there} {0}).restrict StillAuthorized).Reachable t ∧
      PeerId.there ∈ t.driver.availability.providers .small ∧ t.driver.availability ≠ s.driver.availability ∧
      (PeerId.there = .here ∨ PeerId.there ∈ t.driver.authorizedPeers) ∧
      ∃ signer, some PeerId.there = some signer ∧ signer ∈ s.driver.authorizedPeers ∧
        PeerId.there ∈ s.driver.authorizedPeers := by
  let _ := Sha256.standard
  let _ := AvailabilityWire.standard
  have hstep : ((initial .small .here {.here, .there} {0}).next announcedByThere).any (fun t =>
      decide (PeerId.there ∈ t.driver.availability.providers .small)) = true := by
    decide +kernel
  obtain ⟨t, hnext, htest⟩ := (Option.any_eq_true _ _).1 hstep
  have hprovider := of_decide_eq_true htest
  have hchanged : t.driver.availability ≠ (initial .small .here {.here, .there} {0}).driver.availability := by
    intro hsame
    rw [hsame] at hprovider
    revert hprovider
    decide +kernel
  have hs : (lts .small .here {.here, .there} {0}).Reachable (initial .small .here {.here, .there} {0}) :=
    .of_init rfl
  have ht : ((lts .small .here {.here, .there} {0}).restrict StillAuthorized).Reachable t :=
    (Lts.Reachable.of_init rfl).step ⟨hnext, fun _ hpeer => nomatch hpeer⟩
  obtain ⟨hindexed, hgossip⟩ := providers_authorized .small .here {.here, .there} {0}
  exact ⟨_, t, hs, hnext, ht, hprovider, hchanged, hindexed t ht _ _ hprovider,
    hgossip _ hs _ _ _ t hnext hchanged⟩

/-- A proof is requested from `there`, which then leaves the validator set, and its response arrives. -/
private def removedDuringTransfer [Sha256] : List DriverAction :=
  [.command .calm (.client 0) (.requestProof .there (Proof.verificationId .small)),
    .command { NetworkOutcome.calm with outboundId := 1 } (.client 1) (.replaceAuthorizedPeers {.here}),
    .swarmEvent (.proofResponse .there 0 ⟨"pulsar-1", some (.proof ⟨1, [1, 2], [3], [4]⟩)⟩), .emit .calm true]

/-- The removed validator is in the index again, although it is not authorized any more. -/
theorem DriverTask.removed_validator_indexed :
    letI := Sha256.standard
    letI := AvailabilityWire.standard
    ∃ s, ((lts .small .here {.here, .there} {0}).restrict Faithful).Reachable s ∧
      s.driver.availability.providers (Proof.verificationId .small) = [.there] ∧ s.driver.localPeerId = .here ∧
      s.driver.authorizedPeers = ∅ := by
  let _ := Sha256.standard
  let _ := AvailabilityWire.standard
  have hrun : (Lts.exec (Lts.guarded next Faithful) (initial .small .here {.here, .there} {0})
      removedDuringTransfer).any (fun s =>
        decide (s.driver.availability.providers (Proof.verificationId .small) = [.there] ∧
          s.driver.localPeerId = .here ∧ s.driver.authorizedPeers = ∅)) = true := by
    decide +kernel
  obtain ⟨s, hs, htest⟩ := (Option.any_eq_true _ _).1 hrun
  exact ⟨s, ⟨_, _, rfl, Lts.run_restrict_of_exec hs⟩, of_decide_eq_true htest⟩

end PulsarVerifier
