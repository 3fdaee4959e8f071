import PulsarVerifier.Store.Invariant

/-!
# Content and its events

An operation other than an eviction never takes content away, and it publishes a `ProofStored` event exactly for the
identifier that gets content.  A record that waits for content keeps its address for as long as it waits.
-/

namespace PulsarVerifier

namespace ProofStore

variable {store : ProofStore} {id : VerificationId}

theorem mem_keys_of_get {e : Arc ProofRecord} (he : store.get id = some e) : id ∈ store.records.keys :=
  AList.mem_keys.2 (AList.lookup_isSome.1 (Option.isSome_iff_exists.2 ⟨e, he⟩))

theorem mem_snapshot {predicate : ProofRecord → Bool} :
    id ∈ store.snapshot predicate ↔ ∃ e, store.get id = some e ∧ predicate e.value = true := by
  unfold snapshot
  rw [List.mem_filter, Option.any_eq_true]
  refine and_iff_right_of_imp ?_
  rintro ⟨e, he, -⟩
  exact mem_keys_of_get he

theorem mem_locallyAvailableProofs : id ∈ store.locallyAvailableProofs ↔ (store.getProof id).isSome := by
  unfold locallyAvailableProofs getProof
  rw [mem_snapshot, Option.isSome_bind, Option.any_eq_true]

@[simp] theorem getProof_evict_self : (store.evict id).getProof id = none := by
  unfold getProof
  rw [get_evict_self]
  rfl

theorem getProof_evict_of_ne {id' : VerificationId} (h : id' ≠ id) :
    (store.evict id).getProof id' = store.getProof id' := by
  unfold getProof
  rw [get_evict_of_ne h]

end ProofStore

@[simp] theorem queueIfReady_proof (r : ProofRecord) : (queueIfReady r).proof = r.proof := by
  unfold queueIfReady
  split <;> rfl

variable [Sha256]

omit [Sha256] in
private theorem proofStored_notMem_readyEvents (id id' : VerificationId) (source : ProofSource) (r : ProofRecord) :
    ProofStoreEvent.proofStored id source ∉ readyEvents id' r := by
  unfold readyEvents
  split_ifs <;> simp

theorem RecordMove.content {maxBytes : Nat} {a : StoreAction} {id : VerificationId} {old : Option (Arc ProofRecord)}
    {r : ProofRecord} (hmove : RecordMove maxBytes a id old r) :
    r.proof.isSome ↔ (old.bind (·.value.proof)).isSome ∨ ∃ source, .proofStored id source ∈ moveEvents id r a := by
  cases hmove with
  | observeNew now id | observe now id e h => simp [moveEvents, proofStored_notMem_readyEvents]
  | insertNew now proof source hlen => exact iff_of_true rfl (.inr ⟨source, List.mem_cons_self⟩)
  | insert now proof source e hlen h =>
    exact iff_of_true (by simp [ProofStore.withContent]) (.inr ⟨source, List.mem_cons_self⟩)
  | attach now proof peer e hlen ho h =>
    exact iff_of_true (by simp [ProofStore.withContent]) (.inr ⟨.peer peer, List.mem_cons_self⟩)
  | begin id e ho hp hv | finish now job outcome e hptr hv | retry id e failure hv hr => simp [moveEvents]

/-- The content that an operation brings to the store. -/
def StoreAction.content : StoreAction → Option Proof
  | .insertLocalProof _ proof _ | .attachDownloadedProof _ _ proof _ => some proof
  | _ => none

/-- A record keeps its content, or gets the content of the operation. -/
theorem RecordMove.content_eq {maxBytes : Nat} {a : StoreAction} {id : VerificationId} {old : Option (Arc ProofRecord)}
    {r : ProofRecord} (hmove : RecordMove maxBytes a id old r) :
    r.proof = old.bind (·.value.proof) ∨ r.proof = a.content := by
  cases hmove with
  | observeNew now id => exact .inl rfl
  | observe now id e h => exact .inl (queueIfReady_proof _)
  | insertNew now proof source hlen => exact .inr rfl
  | insert now proof source e hlen h | attach now proof peer e hlen ho h => exact .inr (queueIfReady_proof _)
  | begin id e ho hp hv | finish now job outcome e hptr hv | retry id e failure hv hr => exact .inl rfl

omit [Sha256] in
theorem mem_moveEvents_proofStored {a : StoreAction} {id id' : VerificationId} {source : ProofSource} {r : ProofRecord}
    (h : .proofStored id' source ∈ moveEvents id r a) : id' = id := by
  have hready := proofStored_notMem_readyEvents id' id source r
  cases a with
  | observeChainVerification now _ => simp [moveEvents, hready] at h
  | insertLocalProof now proof source' =>
    simp only [moveEvents, List.mem_cons, hready, or_false, ProofStoreEvent.proofStored.injEq] at h
    exact h.1
  | attachDownloadedProof now _ proof peer =>
    simp only [moveEvents, List.mem_cons, hready, or_false, ProofStoreEvent.proofStored.injEq] at h
    exact h.1
  | beginVerification _ | finishVerification now job outcome | retryVerification _ | evict _ _ => simp [moveEvents] at h

omit [Sha256] in
theorem proofEvicted_notMem_moveEvents {a : StoreAction} {id id' : VerificationId} {cause : ProofEvictionCause}
    {r : ProofRecord} : .proofEvicted id' cause ∉ moveEvents id r a := by
  have hready : ProofStoreEvent.proofEvicted id' cause ∉ readyEvents id r := by
    unfold readyEvents
    split_ifs <;> simp
  cases a <;> simp [moveEvents, hready]

namespace StoreSystem

/-- After an operation an identifier has content if it had content before, or if the operation says so. -/
theorem perform_content (s : StoreSystem) {a : StoreAction} (hevict : ∀ id cause, a ≠ .evict id cause)
    (id : VerificationId) :
    ((s.perform a).1.store.getProof id).isSome ↔
      (s.store.getProof id).isSome ∨ ∃ source, .proofStored id source ∈ (s.perform a).2 := by
  rcases s.perform_cases a with ⟨hsame, hevents⟩ | ⟨id', r, hmove, hput, hevents, -⟩ | ⟨id', cause, rfl, -⟩
  · rw [hsame, hevents]
    simp
  · rw [hput, hevents]
    unfold ProofStore.getProof
    by_cases hid : id = id'
    · subst hid
      rw [ProofStore.get_put_self]
      exact hmove.content
    · rw [ProofStore.get_put_of_ne hid]
      refine (or_iff_left ?_).symm
      rintro ⟨source, hmem⟩
      exact hid (mem_moveEvents_proofStored hmem)
  · exact absurd rfl (hevict id' cause)

theorem perform_getProof {s : StoreSystem} {a : StoreAction} {id : VerificationId} {proof : Proof}
    (h : (s.perform a).1.store.getProof id = some proof) :
    s.store.getProof id = some proof ∨ a.content = some proof := by
  rcases s.perform_cases a with ⟨hsame, -⟩ | ⟨id', r, hmove, hput, -⟩ | ⟨id', cause, -, hevicted, -⟩
  · rw [hsame] at h
    exact .inl h
  · rw [hput] at h
    unfold ProofStore.getProof at h ⊢
    by_cases hid : id = id'
    · subst hid
      rw [ProofStore.get_put_self, Option.bind_some] at h
      rcases hmove.content_eq with hold | hnew
      · exact .inl (hold.symm.trans h)
      · exact .inr (hnew.symm.trans h)
    · rw [ProofStore.get_put_of_ne hid] at h
      exact .inl h
  · rw [hevicted] at h
    by_cases hid : id = id'
    · rw [hid, ProofStore.getProof_evict_self] at h
      cases h
    · rw [ProofStore.getProof_evict_of_ne hid] at h
      exact .inl h

theorem proofEvicted_notMem_perform (s : StoreSystem) {a : StoreAction} (hevict : ∀ id cause, a ≠ .evict id cause)
    {id : VerificationId} {cause : ProofEvictionCause} : .proofEvicted id cause ∉ (s.perform a).2 := by
  rcases s.perform_cases a with ⟨-, hevents⟩ | ⟨id', r, -, -, hevents, -⟩ | ⟨id', cause', rfl, -⟩
  · rw [hevents]
    exact List.not_mem_nil
  · rw [hevents]
    exact proofEvicted_notMem_moveEvents
  · exact absurd rfl (hevict id' cause')

end StoreSystem

/-! ### Records that wait for content -/

namespace ProofStore

variable {store : ProofStore} {id : VerificationId} {addr : Nat}

/-- The address of the record of `id`, if it waits for content. -/
def waitingAt (store : ProofStore) (id : VerificationId) : Option Nat :=
  ((store.get id).filter fun e => waitingForContent e.value).map (·.addr)

omit [Sha256] in
theorem waitingAt_eq_some :
    store.waitingAt id = some addr ↔ ∃ e, store.get id = some e ∧ waitingForContent e.value = true ∧ e.addr = addr := by
  simp [waitingAt, Option.filter_eq_some_iff, and_assoc]

omit [Sha256] in
theorem waitingAt_eq_none :
    store.waitingAt id = none ↔ ∀ e, store.get id = some e → waitingForContent e.value = false := by
  simp [waitingAt, Option.filter_eq_none_iff]

omit [Sha256] in
theorem mem_recordsWaitingForContent :
    id ∈ store.recordsWaitingForContent ↔ ∃ addr, store.waitingAt id = some addr := by
  simp [recordsWaitingForContent, mem_snapshot, waitingAt_eq_some]

omit [Sha256] in
theorem waitingAt_evict {id' : VerificationId} (h : (store.evict id).waitingAt id' = some addr) :
    id' ≠ id ∧ store.waitingAt id' = some addr := by
  unfold waitingAt at h
  by_cases hid : id' = id
  · rw [hid, get_evict_self] at h
    cases h
  · rw [get_evict_of_ne hid] at h
    exact ⟨hid, h⟩

/-- Storing a downloaded proof succeeds, or finds nothing to store it for: in either case no record waits for it. -/
theorem waitingAt_attachDownloadedProof {now : Instant} {proof : Proof} {peer : PeerId}
    (h : (∃ change, (store.attachDownloadedProof now id proof peer).result = .ok change) ∨
      ∃ id', (store.attachDownloadedProof now id proof peer).result = .error (.proofNotObserved id')) :
    (store.attachDownloadedProof now id proof peer).store.waitingAt id = none := by
  rw [waitingAt_eq_none]
  intro e he
  rcases store.attachDownloadedProof_cases now id proof peer with
    ⟨-, hlarge | hmismatch⟩ | ⟨⟨hstore, -⟩, -, hobserved⟩ | ⟨⟨hstore, -⟩, -, e', he', hproof⟩ | ⟨r, hmoves, -⟩
  · rcases h with ⟨change, h⟩ | ⟨id', h⟩ <;> cases hlarge.symm.trans h
  · rcases h with ⟨change, h⟩ | ⟨id', h⟩ <;> cases hmismatch.symm.trans h
  · rw [hstore] at he
    simp [waitingForContent, hobserved e he]
  · rw [hstore, he'] at he
    cases he
    simp [waitingForContent, hproof]
  · rw [hmoves.store_eq, get_put_self] at he
    cases he
    have hcontent : r.proof.isSome := hmoves.move.content.2 (.inr ⟨.peer peer, List.mem_cons_self⟩)
    simp [waitingForContent, hcontent]

end ProofStore

/-- A local proof that is accepted is in the store, or other content of its identifier was there before. -/
theorem ProofStore.getProof_insertLocalProof {store : ProofStore} {now : Instant} {proof : Proof} {source : ProofSource}
    {result : VerificationId × StoreChange} (h : (store.insertLocalProof now proof source).result = .ok result) :
    ((store.insertLocalProof now proof source).store.getProof proof.verificationId).isSome := by
  rcases store.insertLocalProof_cases now proof source with
    ⟨-, -, herror⟩ | ⟨⟨hstore, -⟩, -, e, he, hproof⟩ | ⟨r, hmoves, -⟩
  · cases herror.symm.trans h
  · unfold getProof
    rw [hstore, he]
    exact hproof
  · unfold getProof
    rw [hmoves.store_eq, get_put_self]
    exact hmoves.move.content.2 (.inr ⟨source, List.mem_cons_self⟩)

theorem ProofStore.insertLocalProof_of_lt {store : ProofStore} {proof : Proof}
    (hlen : store.maxProofBytes < proof.encodedLen) (now : Instant) (source : ProofSource) :
    store.insertLocalProof now proof source =
      ⟨.error (.proofTooLarge proof.verificationId proof.encodedLen store.maxProofBytes), [], store⟩ := by
  simp [insertLocalProof, validateProof, hlen]

/-- A local proof within the limit is accepted; content that its identifier already has is kept. -/
theorem ProofStore.insertLocalProof_of_le {store : ProofStore} {proof : Proof}
    (hlen : proof.encodedLen ≤ store.maxProofBytes) (now : Instant) (source : ProofSource) :
    ∃ change, (store.insertLocalProof now proof source).result = .ok (proof.verificationId, change) ∧
      (store.insertLocalProof now proof source).store.getProof proof.verificationId =
        some ((store.getProof proof.verificationId).getD proof) := by
  rcases store.insertLocalProof_cases now proof source with
    ⟨-, hlarge, -⟩ | ⟨⟨hstore, -⟩, hresult, e, he, hproof⟩ | ⟨r, hmoves, hresult⟩
  · omega
  · obtain ⟨content, hcontent⟩ := Option.isSome_iff_exists.1 hproof
    refine ⟨_, hresult, ?_⟩
    simp only [getProof, hstore, he, hcontent, Option.bind_some, Option.getD_some]
  · refine ⟨_, hresult, ?_⟩
    have hnone : store.getProof proof.verificationId = none ∧ r.proof = some proof := by
      have hmove := hmoves.move
      unfold getProof
      generalize store.get proof.verificationId = old at hmove
      cases hmove with
      | insertNew => exact ⟨rfl, rfl⟩
      | insert _ _ _ e _ hempty => exact ⟨hempty, queueIfReady_proof _⟩
    rw [hnone.1, Option.getD_none, getProof, hmoves.store_eq, get_put_self]
    exact hnone.2

omit [Sha256] in
private theorem mem_moveEvents_verificationObserved {a : StoreAction} {id id' : VerificationId} {r : ProofRecord}
    (h : .verificationObserved id' ∈ moveEvents id r a) : id' = id := by
  have hready : ProofStoreEvent.verificationObserved id' ∉ readyEvents id r := by
    unfold readyEvents
    split_ifs <;> simp
  cases a <;> simp [moveEvents, hready] at h
  exact h

namespace StoreSystem

theorem perform_waitingAt {s : StoreSystem} {a : StoreAction} {id : VerificationId} {addr : Nat}
    (h : (s.perform a).1.store.waitingAt id = some addr) :
    s.store.waitingAt id = some addr ∨
      (addr = s.store.nextAddr ∧ addr < (s.perform a).1.store.nextAddr ∧
        ∀ id', .verificationObserved id' ∈ (s.perform a).2 → id' = id) := by
  rcases s.perform_cases a with ⟨hsame, -⟩ | ⟨id', r, hmove, hput, hevents, -⟩ | ⟨id', cause, -, hevicted, -⟩
  · rw [hsame] at h
    exact .inl h
  · rw [hput] at h
    by_cases hid : id = id'
    · subst hid
      obtain ⟨e, he, -, rfl⟩ := ProofStore.waitingAt_eq_some.1 h
      rw [ProofStore.get_put_self] at he
      cases he
      refine .inr ⟨rfl, ?_, fun id' hmem => mem_moveEvents_verificationObserved (hevents ▸ hmem)⟩
      rw [hput]
      exact Nat.lt_succ_self _
    · left
      unfold ProofStore.waitingAt at h ⊢
      rwa [ProofStore.get_put_of_ne hid] at h
  · rw [hevicted] at h
    exact .inl (ProofStore.waitingAt_evict h).2

theorem nextAddr_le_perform (s : StoreSystem) (a : StoreAction) :
    s.store.nextAddr ≤ (s.perform a).1.store.nextAddr := by
  rcases s.perform_cases a with ⟨hsame, -⟩ | ⟨id, r, -, hput, -⟩ | ⟨id, cause, -, hevicted, -⟩
  · rw [hsame]
  · rw [hput]
    exact Nat.le_succ _
  · rw [hevicted]
    exact le_rfl

theorem nextAddr_lt_perform (s : StoreSystem) {a : StoreAction} (hevict : ∀ id cause, a ≠ .evict id cause)
    {event : ProofStoreEvent} (h : event ∈ (s.perform a).2) : s.store.nextAddr < (s.perform a).1.store.nextAddr := by
  rcases s.perform_cases a with ⟨-, hevents⟩ | ⟨id, r, -, hput, -⟩ | ⟨id, cause, rfl, -⟩
  · rw [hevents] at h
    cases h
  · rw [hput]
    exact Nat.lt_succ_self _
  · exact absurd rfl (hevict id cause)

end StoreSystem

end PulsarVerifier
