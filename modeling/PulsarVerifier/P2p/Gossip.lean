import PulsarVerifier.P2p.System
import PulsarVerifier.Store.Invariant

/-!
# Availability responses between validators

A node answers an availability query with the providers it knows.  Every other node validates the response against the
validator set without itself.  A node that the response does not list reads back exactly what was sent; a node that it
lists rejects it.
-/

namespace PulsarVerifier

/-! ### Two validators -/

namespace Driver

/-- The validator set that the driver was authorized from last. -/
def AuthorizedFrom (d : Driver) (validators : Finset PeerId) : Prop :=
  d.authorizedPeers = validators.erase d.localPeerId

instance (d : Driver) (validators : Finset PeerId) : Decidable (d.AuthorizedFrom validators) :=
  inferInstanceAs (Decidable (d.authorizedPeers = validators.erase d.localPeerId))

theorem replaceAuthorizedPeers_authorizedFrom (d : Driver) (validators : Finset PeerId) :
    (d.replaceAuthorizedPeers validators).AuthorizedFrom validators := rfl

variable [AvailabilityWire] {b j : Driver} {source : Option PeerId} {asker relay : PeerId} {data bytes : Bytes}
  {query : QueryId} {id : VerificationId}

/-- The answer to a query lists the first of the known providers. -/
theorem handleGossip_answer (hquery : b.validateGossip source relay data = .ok (asker, .query query id))
    (hanswer : (b.handleGossip source relay data).1.delayedResponses = b.delayedResponses ++ [bytes]) :
    bytes = response b.config.chainId query id ((b.availability.providers id).take maxProviderHints) := by
  have hnot : b.delayedResponses ≠ b.delayedResponses ++ [bytes] := by
    intro h
    have hlength := congrArg List.length h
    rw [List.length_append, List.length_singleton] at hlength
    omega
  unfold handleGossip at hanswer
  rw [hquery] at hanswer
  dsimp only at hanswer
  split_ifs at hanswer
  · unfold applyGossip at hanswer
    dsimp only at hanswer
    split_ifs at hanswer
    · exact absurd hanswer hnot
    · exact (List.cons.inj (List.append_cancel_left hanswer)).1.symm
  · exact absurd hanswer hnot

private theorem validateGossip_of_authorized {sender : PeerId} (hsender : sender ∈ j.authorizedPeers)
    (hrelay : relay ∈ j.authorizedPeers) :
    j.validateGossip (some sender) relay bytes =
      (decodeAndValidate bytes j.config.chainId j.authorizedPeers maxProviderHints).map fun payload =>
        (sender, payload) := by
  unfold validateGossip
  dsimp only
  rw [if_pos ⟨hsender, hrelay⟩]

/-- A validator rejects every answer that lists it. -/
theorem response_rejected (validators : Finset PeerId) (hj : j.AuthorizedFrom validators)
    (hchain : j.config.chainId = b.config.chainId)
    (hindex : ∀ id, b.availability.providerSet id ⊆ validators) (hwire : AvailabilityWire.RoundTrip validators)
    (hquery : b.validateGossip source relay data = .ok (asker, .query query id))
    (hanswer : (b.handleGossip source relay data).1.delayedResponses = b.delayedResponses ++ [bytes])
    (hlisted : j.localPeerId ∈ (b.availability.providers id).take maxProviderHints) {propagationSource : PeerId} :
    ∃ error, j.validateGossip (some b.localPeerId) propagationSource bytes = .error error := by
  by_cases hauthorized : b.localPeerId ∈ j.authorizedPeers ∧ propagationSource ∈ j.authorizedPeers
  · have hself : j.localPeerId ∉ j.authorizedPeers := by
      rw [hj]
      exact Finset.notMem_erase _ _
    have hhint := hwire.peer _ (hindex id (AvailabilityIndex.mem_providers.1 (List.mem_of_mem_take hlisted)))
    rw [handleGossip_answer hquery hanswer, validateGossip_of_authorized hauthorized.1 hauthorized.2, hchain]
    cases hresult : decodeAndValidate (response b.config.chainId query id
        ((b.availability.providers id).take maxProviderHints)) b.config.chainId j.authorizedPeers maxProviderHints with
    | error error => exact ⟨error, rfl⟩
    | ok value =>
      obtain ⟨-, hgood⟩ := decodeAndValidate_hints hresult (hwire.message _) rfl
      exact absurd (.inr ⟨_, hhint, hself⟩) (hgood _ (List.mem_map_of_mem hlisted))
  · unfold validateGossip
    dsimp only
    rw [if_neg hauthorized]
    exact ⟨_, rfl⟩

/-- The answer of one validator is accepted by another validator of the same set, whoever relays it, exactly if it does
not list that validator; what is accepted is what was sent. -/
theorem response_accepted (validators : Finset PeerId) (hj : j.AuthorizedFrom validators)
    (hmem : b.localPeerId ∈ validators) (hdistinct : b.localPeerId ≠ j.localPeerId)
    (hchain : j.config.chainId = b.config.chainId)
    (hindex : ∀ id, b.availability.providerSet id ⊆ validators) (hwire : AvailabilityWire.RoundTrip validators)
    (hquery : b.validateGossip source relay data = .ok (asker, .query query id))
    (hanswer : (b.handleGossip source relay data).1.delayedResponses = b.delayedResponses ++ [bytes])
    {propagationSource : PeerId} (hpropagation : propagationSource ∈ validators)
    (hremote : propagationSource ≠ j.localPeerId) {result : PeerId × ValidatedAvailability} :
    j.validateGossip (some b.localPeerId) propagationSource bytes = .ok result ↔
      j.localPeerId ∉ (b.availability.providers id).take maxProviderHints ∧
        result = (b.localPeerId, .response query id ((b.availability.providers id).take maxProviderHints)) := by
  by_cases hself : j.localPeerId ∈ (b.availability.providers id).take maxProviderHints
  · obtain ⟨error, herror⟩ := response_rejected validators hj hchain hindex hwire hquery hanswer hself
    rw [herror]
    simp [hself]
  · have hauthorized : ∀ peer ∈ validators, peer ≠ j.localPeerId → peer ∈ j.authorizedPeers := by
      intro peer hpeer hne
      rw [hj]
      exact Finset.mem_erase.2 ⟨hne, hpeer⟩
    have hlisted : ∀ peer ∈ (b.availability.providers id).take maxProviderHints, peer ∈ validators :=
      fun peer hpeer => hindex id (AvailabilityIndex.mem_providers.1 (List.mem_of_mem_take hpeer))
    have hother : ∀ peer ∈ (b.availability.providers id).take maxProviderHints, peer ∈ j.authorizedPeers := by
      intro peer hpeer
      refine hauthorized peer (hlisted peer hpeer) ?_
      rintro rfl
      exact hself hpeer
    have haccepted : j.validateGossip (some b.localPeerId) propagationSource bytes =
        .ok (b.localPeerId, .response query id ((b.availability.providers id).take maxProviderHints)) := by
      rw [handleGossip_answer hquery hanswer,
        validateGossip_of_authorized (hauthorized _ hmem hdistinct) (hauthorized _ hpropagation hremote), hchain,
        decodeAndValidate_of_response hwire _ _ _ (List.length_take_le _ _) hlisted hother,
        AvailabilityIndex.providers, PeerId.sortByBytes_take]
      rfl
    rw [haccepted, Except.ok.injEq, and_iff_right hself]
    exact eq_comm

end Driver

/-! ### Three validators -/

private def three : Finset PeerId := {.here, .there, .elsewhere}

private theorem three_roundTrip :
    letI := AvailabilityWire.standard
    AvailabilityWire.RoundTrip three := by
  let _ := AvailabilityWire.standard
  exact ⟨AvailabilityMessage.decode_encode, by decide +kernel⟩

/-- `here` has announced a proof, and `elsewhere` asks for it.  The answer lists only `here`, and `there` accepts it. -/
theorem Driver.response_accepted_third :
    letI := AvailabilityWire.standard
    (((Driver.build .small .here {.here, .there, .elsewhere} {0}).announce .calm .small).2.handleGossip
        (some .elsewhere) .elsewhere (query "pulsar-1" NetworkOutcome.calm.queryId .small)).1.delayedResponses =
      [response "pulsar-1" NetworkOutcome.calm.queryId .small [.here]] ∧
    (Driver.build .small .there {.here, .there, .elsewhere} {0}).validateGossip (some .here) .elsewhere
        (response "pulsar-1" NetworkOutcome.calm.queryId .small [.here]) =
      .ok (.here, .response NetworkOutcome.calm.queryId .small [.here]) := by
  let _ := AvailabilityWire.standard
  let b : Driver := ((Driver.build .small .here three {0}).announce .calm .small).2
  have hindex : ∀ id, b.availability.providerSet id ⊆ three := by
    intro id peer hpeer
    rw [show b = _ from announce_driver _ _ _, AvailabilityIndex.mem_providerSet_add] at hpeer
    rcases hpeer with ⟨-, rfl⟩ | hpeer
    · decide
    · cases hpeer
  have hquery : b.validateGossip (some .elsewhere) .elsewhere (query "pulsar-1" NetworkOutcome.calm.queryId .small) =
      .ok (.elsewhere, .query NetworkOutcome.calm.queryId .small) := by
    decide +kernel
  have hanswer : (b.handleGossip (some .elsewhere) .elsewhere
      (query "pulsar-1" NetworkOutcome.calm.queryId .small)).1.delayedResponses =
      b.delayedResponses ++ [response "pulsar-1" NetworkOutcome.calm.queryId .small [.here]] := by
    decide +kernel
  have hmem : PeerId.elsewhere ∈ three := by decide +kernel
  exact ⟨hanswer, (response_accepted (b := b) (j := Driver.build .small .there three {0}) three rfl (by decide +kernel)
    (by decide +kernel) rfl hindex three_roundTrip hquery hanswer hmem (by decide +kernel)).2
    ⟨by decide +kernel, by decide +kernel⟩⟩

/-- `there` has announced a proof to `here`, and `elsewhere` asks for it.  The answer of `here` names `there`, which
rejects it. -/
theorem P2pSystem.response_rejected_by_provider :
    letI := Sha256.standard
    letI := AvailabilityWire.standard
    ∃ s, (lts .small .small .here {.here, .there, .elsewhere} {0} 16).Reachable s ∧
      s.driver.AuthorizedFrom {.here, .there, .elsewhere} ∧
      s.driver.delayedResponses = [response "pulsar-1" NetworkOutcome.calm.queryId .small [.there]] ∧
      (Driver.build .small .there {.here, .there, .elsewhere} {0}).validateGossip (some .here) .elsewhere
          (response "pulsar-1" NetworkOutcome.calm.queryId .small [.there]) =
        .error (.p2pProtocol "provider 15T is not an active validator") := by
  let _ := Sha256.standard
  let _ := AvailabilityWire.standard
  have hexec : (Lts.exec next (initial .small .small .here {.here, .there, .elsewhere} {0} 16)
      [.swarmEvent (.gossipMessage (some .there) .there (announcement "pulsar-1" .small)), .emit .calm,
        .swarmEvent (.gossipMessage (some .elsewhere) .elsewhere
          (query "pulsar-1" NetworkOutcome.calm.queryId .small))]).any (fun s =>
        decide (s.driver.AuthorizedFrom {.here, .there, .elsewhere} ∧
          s.driver.delayedResponses = [response "pulsar-1" NetworkOutcome.calm.queryId .small [.there]])) = true := by
    decide +kernel
  obtain ⟨s, hs, hanswer⟩ := (Option.any_eq_true _ _).1 hexec
  obtain ⟨hauthorized, hresponses⟩ := of_decide_eq_true hanswer
  exact ⟨s, ⟨_, _, rfl, Lts.run_of_exec hs⟩, hauthorized, hresponses, by decide +kernel⟩

end PulsarVerifier
