import PulsarVerifier.Store.System

/-!
# The record invariant

Every record that the operations can produce is well formed: its content has the identifier it is stored under and
fits the size limit, the three content fields come together, a verification state exists exactly when chain
observation and content are both there, and a completion time exists exactly for a verdict.  The invariant is kept by
each `RecordMove`, hence by every step of the store.

The source of content is an argument of `insert_local_proof`.  Its only caller passes `Rpc`; in runs that do the same,
content from a peer is only stored for observed identifiers.
-/

namespace PulsarVerifier

section

variable [Sha256]

/-- The invariant of a record stored under `id` in a store with proofs of at most `maxBytes`. -/
structure ProofRecord.WellFormed (maxBytes : Nat) (id : VerificationId) (r : ProofRecord) : Prop where
  content_id : ∀ p, r.proof = some p → p.verificationId = id ∧ p.encodedLen ≤ maxBytes
  content_source : r.metadata.contentSource.isSome = r.proof.isSome
  content_stored_at : r.metadata.contentStoredAt.isSome = r.proof.isSome
  verification_iff : r.metadata.verification.isSome ↔ r.metadata.chainObservedAt.isSome ∧ r.proof.isSome
  completed_iff : r.metadata.completedAt.isSome ↔ ∃ verdict, r.metadata.verification = some (.completed verdict)
  present : r.metadata.chainObservedAt.isSome ∨ r.proof.isSome

/-- Content from a peer is stored only for an observed identifier. -/
def ProofRecord.PeerObserved (r : ProofRecord) : Prop :=
  ∀ peer, r.metadata.contentSource = some (.peer peer) → r.metadata.chainObservedAt.isSome

def ProofStore.WellFormed (store : ProofStore) : Prop :=
  ∀ id e, store.get id = some e → e.value.WellFormed store.maxProofBytes id

/-- Local content is inserted with source `Rpc`, as the submission service does. -/
def StoreAction.LocalSource : StoreAction → Prop
  | .insertLocalProof _ _ source => source = .rpc
  | _ => True

/-! ### One move -/

omit [Sha256] in
private theorem completedAt_isSome (now : Instant) (state : VerificationState) :
    (ProofStore.completedAt now state).isSome ↔ ∃ verdict, some state = some (.completed verdict) := by
  cases state <;> simp [ProofStore.completedAt]

private theorem queueIfReady_wellFormed {maxBytes : Nat} {id : VerificationId} {r : ProofRecord}
    (hid : ∀ p, r.proof = some p → p.verificationId = id ∧ p.encodedLen ≤ maxBytes)
    (hsource : r.metadata.contentSource.isSome = r.proof.isSome)
    (hstored : r.metadata.contentStoredAt.isSome = r.proof.isSome)
    (hnone : r.metadata.verification = none) (hcompleted : r.metadata.completedAt = none)
    (hpresent : r.metadata.chainObservedAt.isSome ∨ r.proof.isSome) :
    (queueIfReady r).WellFormed maxBytes id := by
  unfold queueIfReady
  split
  · rename_i hready
    simp only [Bool.and_eq_true] at hready
    refine ⟨hid, hsource, hstored, ?_, ?_, hpresent⟩
    · simp [hready.1.1, hready.1.2]
    · simp [hcompleted]
  · rename_i hready
    refine ⟨hid, hsource, hstored, ?_, ?_, hpresent⟩
    · rw [hnone]
      simp only [hnone, Option.isNone_none, Bool.and_true, Bool.and_eq_true] at hready
      simp only [Option.isSome_none, Bool.false_eq_true, false_iff]
      exact hready
    · simp [hnone, hcompleted]

private theorem completedAt_none_of_verification_none {maxBytes : Nat} {id : VerificationId} {r : ProofRecord}
    (h : r.WellFormed maxBytes id) (hv : r.metadata.verification = none) : r.metadata.completedAt = none := by
  have := h.completed_iff
  rw [hv] at this
  simpa using this

theorem ProofRecord.WellFormed.verification_none {maxBytes : Nat} {id : VerificationId} {r : ProofRecord}
    (h : r.WellFormed maxBytes id) (hmiss : r.metadata.chainObservedAt = none ∨ r.proof = none) :
    r.metadata.verification = none := by
  have := h.verification_iff
  rcases hmiss with hm | hm <;> simpa [hm] using this

theorem RecordMove.wellFormed {maxBytes : Nat} {a : StoreAction} {id : VerificationId} {old : Option (Arc ProofRecord)}
    {r : ProofRecord} (hmove : RecordMove maxBytes a id old r)
    (hold : ∀ e, old = some e → e.value.WellFormed maxBytes id) : r.WellFormed maxBytes id := by
  cases hmove with
  | observeNew now id => exact ⟨by simp, rfl, rfl, by simp, by simp, by simp⟩
  | observe now id e h =>
    have he := hold e rfl
    have hv := he.verification_none (.inl h)
    have hc := completedAt_none_of_verification_none he hv
    exact queueIfReady_wellFormed he.content_id he.content_source he.content_stored_at hv hc (.inl rfl)
  | insertNew now proof source hlen =>
    refine ⟨?_, rfl, rfl, by simp, by simp, by simp⟩
    rintro p ⟨⟩
    exact ⟨rfl, hlen⟩
  | insert now proof source e hlen h | attach now proof peer e hlen ho h =>
    have he := hold e rfl
    have hv := he.verification_none (.inr h)
    have hc := completedAt_none_of_verification_none he hv
    refine queueIfReady_wellFormed ?_ rfl rfl hv hc (.inr rfl)
    rintro p ⟨⟩
    exact ⟨rfl, hlen⟩
  | begin id e ho hp hv =>
    have he := hold e rfl
    refine ⟨he.content_id, he.content_source, he.content_stored_at, by simp [ho, hp], ?_, he.present⟩
    have := he.completed_iff
    simpa [hv] using this
  | finish now job outcome e hptr hv =>
    have he := hold e rfl
    have hboth : e.value.metadata.chainObservedAt.isSome ∧ e.value.proof.isSome := he.verification_iff.1 (by simp [hv])
    exact ⟨he.content_id, he.content_source, he.content_stored_at, by simp [hboth], completedAt_isSome _ _, he.present⟩
  | retry id e failure hv hr =>
    have he := hold e rfl
    have hboth : e.value.metadata.chainObservedAt.isSome ∧ e.value.proof.isSome := he.verification_iff.1 (by simp [hv])
    exact ⟨he.content_id, he.content_source, he.content_stored_at, by simp [hboth], by simp, he.present⟩

omit [Sha256] in
@[simp] theorem queueIfReady_chainObservedAt (r : ProofRecord) :
    (queueIfReady r).metadata.chainObservedAt = r.metadata.chainObservedAt := by
  unfold queueIfReady; split <;> rfl

omit [Sha256] in
@[simp] theorem queueIfReady_contentSource (r : ProofRecord) :
    (queueIfReady r).metadata.contentSource = r.metadata.contentSource := by
  unfold queueIfReady; split <;> rfl

theorem RecordMove.peerObserved {maxBytes : Nat} {a : StoreAction} {id : VerificationId}
    {old : Option (Arc ProofRecord)} {r : ProofRecord} (hmove : RecordMove maxBytes a id old r) (ha : a.LocalSource)
    (hold : ∀ e, old = some e → e.value.PeerObserved) : r.PeerObserved := by
  cases hmove with
  | observeNew now id => intro peer h; cases h
  | observe now id e h => intro peer _; simp
  | insertNew now proof source hlen =>
    obtain rfl : source = .rpc := ha
    intro peer h
    cases h
  | insert now proof source e hlen h =>
    obtain rfl : source = .rpc := ha
    intro peer h
    simp [ProofStore.withContent] at h
  | attach now proof peer e hlen ho h => intro peer _; simpa [ProofStore.withContent] using ho
  | begin id e ho hp hv | finish now job outcome e hptr hv | retry id e failure hv hr => exact hold e rfl

/-! ### Runs -/

theorem StoreSystem.perform_maxProofBytes (s : StoreSystem) (a : StoreAction) :
    (s.perform a).1.store.maxProofBytes = s.store.maxProofBytes := by
  rcases s.perform_cases a with ⟨h, -⟩ | ⟨id, r, -, h, -⟩ | ⟨id, cause, -, h, -⟩
  · rw [h]
  · rw [h, ProofStore.put_maxProofBytes]
  · rw [h, ProofStore.evict_maxProofBytes]

/-- A property of single records that every move keeps holds of all records after any action. -/
theorem StoreSystem.perform_forall {P : VerificationId → ProofRecord → Prop} {s : StoreSystem} {a : StoreAction}
    (hmove : ∀ id r, RecordMove s.store.maxProofBytes a id (s.store.get id) r →
      (∀ e, s.store.get id = some e → P id e.value) → P id r)
    (hs : ∀ id e, s.store.get id = some e → P id e.value) :
    ∀ id e, (s.perform a).1.store.get id = some e → P id e.value := by
  intro id e he
  rcases s.perform_cases a with ⟨h, -⟩ | ⟨id', r, hm, h, -⟩ | ⟨id', cause, -, h, -⟩
  · rw [h] at he
    exact hs id e he
  · rw [h] at he
    by_cases hid : id = id'
    · subst hid
      rw [ProofStore.get_put_self] at he
      cases he
      exact hmove id r hm (hs id)
    · rw [ProofStore.get_put_of_ne hid] at he
      exact hs id e he
  · rw [h] at he
    by_cases hid : id = id'
    · subst hid
      simp at he
    · simp only [ProofStore.get_evict_of_ne hid] at he
      exact hs id e he

theorem ProofStore.WellFormed.perform {s : StoreSystem} (hs : s.store.WellFormed) (a : StoreAction) :
    (s.perform a).1.store.WellFormed := by
  unfold ProofStore.WellFormed
  rw [StoreSystem.perform_maxProofBytes]
  exact StoreSystem.perform_forall (fun id r hm hold => hm.wellFormed hold) hs

omit [Sha256] in
theorem ProofStore.new_eq_ok {config : ProofStoreConfig} {store : ProofStore} (h : ProofStore.new config = .ok store) :
    store = { records := ∅, maxProofBytes := config.maxProofBytes, nextAddr := 0 } := by
  unfold ProofStore.new at h
  split at h
  · cases h
  · split at h
    · cases h
    · split at h
      · cases h
      · cases h; rfl

omit [Sha256] in
theorem ProofStore.new_get {config : ProofStoreConfig} {store : ProofStore} (h : ProofStore.new config = .ok store)
    (id : VerificationId) : store.get id = none := by
  rw [ProofStore.new_eq_ok h]; rfl

/-- Every store that `ProofStore::new` accepts keeps only well-formed records, whatever the operations and
evictions. -/
theorem StoreSystem.reachable_wellFormed {config : ProofStoreConfig} {store : ProofStore}
    (h : ProofStore.new config = .ok store) {s : StoreSystem} (hs : (StoreSystem.lts store).Reachable s) :
    s.store.WellFormed ∧ s.store.maxProofBytes = config.maxProofBytes := by
  refine hs.invariant (P := fun s => s.store.WellFormed ∧ s.store.maxProofBytes = config.maxProofBytes) ?_ ?_
  · rintro s rfl
    refine ⟨fun id e he => ?_, by rw [ProofStore.new_eq_ok h]⟩
    rw [ProofStore.new_get h] at he
    cases he
  · rintro s a t - ⟨hwf, hmax⟩ ⟨-, rfl⟩
    exact ⟨hwf.perform a, by rw [StoreSystem.perform_maxProofBytes, hmax]⟩

/-- A claim never finds a record without proof. -/
theorem ProofStore.beginVerification_ok (store : ProofStore) (id : VerificationId) :
    ∃ job, (store.beginVerification id).result = .ok job := by
  rcases store.beginVerification_cases id with ⟨-, h, -⟩ | ⟨r, proof, -, -, h⟩
  · exact ⟨_, h⟩
  · exact ⟨_, h⟩

theorem StoreSystem.run_peerObserved {store : ProofStore} (hempty : ∀ id, store.get id = none)
    {as : List StoreAction} {s : StoreSystem} (hrun : (StoreSystem.lts store).Run ⟨store, []⟩ as s)
    (has : ∀ a ∈ as, a.LocalSource) (id : VerificationId) (e : Arc ProofRecord) (he : s.store.get id = some e) :
    e.value.PeerObserved := by
  refine hrun.invariant_of_forall (P := fun s => ∀ id e, s.store.get id = some e → e.value.PeerObserved)
    (Q := StoreAction.LocalSource) ?_ has ?_ id e he
  · rintro s a t hs ha ⟨-, rfl⟩
    exact StoreSystem.perform_forall (P := fun _ r => r.PeerObserved) (fun id r hm hold => hm.peerObserved ha hold) hs
  · intro id e he
    rw [hempty] at he
    cases he

/-- The record invariant along every run from a new store. -/
theorem StoreSystem.run_record_invariant {config : ProofStoreConfig} {store : ProofStore}
    (hnew : ProofStore.new config = .ok store) {as : List StoreAction} {s : StoreSystem}
    (hrun : (StoreSystem.lts store).Run ⟨store, []⟩ as s) :
    (∀ id e, s.store.get id = some e → e.value.WellFormed config.maxProofBytes id) ∧
    ((∀ a ∈ as, a.LocalSource) → ∀ id e, s.store.get id = some e → e.value.PeerObserved) ∧
    ∀ id, (s.store.beginVerification id).result ≠
      .error (.invalidVerificationTransition id .claimedRecordHasNoProof) := by
  obtain ⟨hwf, hmax⟩ := StoreSystem.reachable_wellFormed hnew ⟨_, as, rfl, hrun⟩
  refine ⟨fun id e he => hmax ▸ hwf id e he, fun has => ?_, fun id h => ?_⟩
  · exact StoreSystem.run_peerObserved (ProofStore.new_get hnew) hrun has
  · obtain ⟨job, hjob⟩ := s.store.beginVerification_ok id
    rw [hjob] at h
    cases h

end

/-! ### A small store -/

def ProofStoreConfig.small : ProofStoreConfig :=
  { maxCapacityBytes := 4096, maxProofBytes := 1024, terminalRetention := 60, eventBuffer := 16 }

def ProofStore.small : ProofStore := { records := ∅, maxProofBytes := 1024, nextAddr := 0 }

def Proof.small : Proof := ⟨.minaPickles, [1, 2], [3], [4]⟩

def PeerId.small : PeerId := ⟨[0]⟩

/-- A peer's content for an observed identifier: the invariant holds and says something about the record. -/
theorem StoreSystem.run_record_invariant_attached :
    letI := Sha256.standard
    let id := Proof.small.verificationId
    ∃ s, (StoreSystem.lts .small).Run ⟨.small, []⟩
        [.observeChainVerification 1 id, .attachDownloadedProof 2 id .small .small] s ∧
      (∃ e, s.store.get id = some e ∧ e.value.metadata.contentSource = some (.peer .small) ∧
        e.value.WellFormed ProofStoreConfig.small.maxProofBytes id ∧ e.value.PeerObserved) ∧
      (s.store.beginVerification id).result ≠ .error (.invalidVerificationTransition id .claimedRecordHasNoProof) := by
  let _ := Sha256.standard
  intro id
  have hrun : (StoreSystem.lts .small).Run ⟨.small, []⟩
      [.observeChainVerification 1 id, .attachDownloadedProof 2 id .small .small] _ :=
    .cons ⟨trivial, rfl⟩ (.cons ⟨trivial, rfl⟩ (.refl _))
  obtain ⟨hwf, hpeer, hbegin⟩ := StoreSystem.run_record_invariant
    (show ProofStore.new .small = .ok .small from rfl) hrun
  have hsource : ((StoreSystem.perform (StoreSystem.perform ⟨.small, []⟩ (.observeChainVerification 1 id)).1
      (.attachDownloadedProof 2 id .small .small)).1.store.get id).map (·.value.metadata.contentSource) =
        some (some (.peer .small)) := by
    decide +kernel
  obtain ⟨e, he, hs⟩ := Option.map_eq_some_iff.1 hsource
  refine ⟨_, hrun, ⟨e, he, hs, hwf id e he, hpeer ?_ id e he⟩, hbegin id⟩
  intro a ha
  rcases List.mem_pair.1 ha with rfl | rfl <;> trivial

/-- `insert_local_proof` accepts the source `Peer` for an identifier that was never observed. -/
theorem StoreSystem.insertLocalProof_peer_unobserved :
    letI := Sha256.standard
    ∃ s e, ProofStore.new .small = .ok .small ∧
      (StoreSystem.lts .small).Run ⟨.small, []⟩ [.insertLocalProof 1 .small (.peer .small)] s ∧
      s.store.get Proof.small.verificationId = some e ∧
      e.value.metadata.contentSource = some (.peer .small) ∧ e.value.metadata.chainObservedAt = none := by
  let _ := Sha256.standard
  have hrecord : ((StoreSystem.perform ⟨.small, []⟩ (.insertLocalProof 1 .small (.peer .small))).1.store.get
      Proof.small.verificationId).map (fun e => (e.value.metadata.contentSource, e.value.metadata.chainObservedAt)) =
        some (some (.peer .small), none) := by
    decide +kernel
  obtain ⟨e, he, hs⟩ := Option.map_eq_some_iff.1 hrecord
  simp only [Prod.mk.injEq] at hs
  exact ⟨_, e, rfl, .cons ⟨trivial, rfl⟩ (.refl _), he, hs.1, hs.2⟩

end PulsarVerifier
