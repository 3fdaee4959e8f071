import PulsarVerifier.Store.Content

/-!
# What an operation reports

The result of an operation, the change of the records and the published events come from three places of the code.  They
always agree: a failed operation has done nothing, `Unchanged` is returned exactly if nothing changed, and the events of
a change are those of the observation or the content and of the new verification state.
-/

namespace PulsarVerifier

section

variable [Sha256]

/-! ### Calls -/

/-- The identifier whose record an operation is about; an eviction is no operation. -/
def StoreAction.target : StoreAction → Option VerificationId
  | .observeChainVerification _ id | .attachDownloadedProof _ id _ _ | .beginVerification id
  | .retryVerification id => some id
  | .insertLocalProof _ proof _ => some proof.verificationId
  | .finishVerification _ job _ => some job.verificationId
  | .evict _ _ => none

/-- An operation on the store with the change that it reports; for a claim, a job is an update. -/
def ProofStore.call (store : ProofStore) : StoreAction → Commit StoreChange
  | .observeChainVerification now id => store.observeChainVerification now id
  | .insertLocalProof now proof source =>
    let commit := store.insertLocalProof now proof source
    ⟨commit.result.map Prod.snd, commit.events, commit.store⟩
  | .attachDownloadedProof now id proof peer => store.attachDownloadedProof now id proof peer
  | .beginVerification id =>
    let commit := store.beginVerification id
    ⟨commit.result.map fun job => if job.isSome then .updated else .unchanged, commit.events, commit.store⟩
  | .finishVerification now job outcome => store.finishVerification now job outcome
  | .retryVerification id => store.retryVerification id
  | .evict id cause => ⟨.ok .updated, [.proofEvicted id cause], store.evict id⟩

/-- The event of an observation or of stored content. -/
def StoreAction.announcement : StoreAction → List ProofStoreEvent
  | .observeChainVerification _ id => [.verificationObserved id]
  | .insertLocalProof _ proof source => [.proofStored proof.verificationId source]
  | .attachDownloadedProof _ id _ peer => [.proofStored id (.peer peer)]
  | _ => []

omit [Sha256] in
/-- The event of a verification state that became `state`, having been `before`. -/
def stateChange (id : VerificationId) (before state : Option VerificationState) : List ProofStoreEvent :=
  if state = before then [] else state.toList.map (.verificationChanged id)

def ProofStore.verification (store : ProofStore) (id : VerificationId) : Option VerificationState :=
  (store.get id).bind (·.value.metadata.verification)

/-- The operations that create no record. -/
def StoreAction.needsRecord : StoreAction → Bool
  | .observeChainVerification _ _ | .insertLocalProof _ _ _ => false
  | _ => true

theorem RecordMove.present {maxBytes : Nat} {a : StoreAction} {id : VerificationId} {old : Option (Arc ProofRecord)}
    {r : ProofRecord} (hmove : RecordMove maxBytes a id old r) (ha : a.needsRecord = true) : old.isSome = true := by
  cases hmove with
  | observeNew | insertNew => cases ha
  | _ => rfl

theorem RecordMove.ne {maxBytes : Nat} {a : StoreAction} {id : VerificationId} {e : Arc ProofRecord} {r : ProofRecord}
    (hmove : RecordMove maxBytes a id (some e) r) : r ≠ e.value := by
  intro heq
  cases hmove with
  | observe now id e h =>
    have hobserved := congrArg (·.metadata.chainObservedAt) heq
    simp [h] at hobserved
  | insert now proof source e hlen h | attach now proof peer e hlen ho h =>
    have hcontent := congrArg ProofRecord.proof heq
    simp [ProofStore.withContent, h] at hcontent
  | begin id e ho hp hv =>
    have hstate := congrArg (·.metadata.verification) heq
    simp [hv] at hstate
  | finish now job outcome e hptr hv =>
    have hstate := congrArg (·.metadata.verification) heq
    cases outcome <;> simp [hv, VerificationOutcome.state] at hstate
  | retry id e failure hv hr =>
    have hstate := congrArg (·.metadata.verification) heq
    simp [hv] at hstate

omit [Sha256] in
theorem readyEvents_queueIfReady (id : VerificationId) {r : ProofRecord} (h : r.metadata.verification = none) :
    readyEvents id (queueIfReady r) = stateChange id none (queueIfReady r).metadata.verification := by
  unfold queueIfReady
  split <;> simp [readyEvents, stateChange, h]

/-- The events of a move: the announcement, then the new verification state if it is another one. -/
theorem RecordMove.events {maxBytes : Nat} {a : StoreAction} {id : VerificationId} {old : Option (Arc ProofRecord)}
    {r : ProofRecord} (hmove : RecordMove maxBytes a id old r)
    (hold : ∀ e, old = some e → e.value.WellFormed maxBytes id) :
    moveEvents id r a =
      a.announcement ++ stateChange id (old.bind (·.value.metadata.verification)) r.metadata.verification := by
  cases hmove with
  | observeNew now id => rfl
  | observe now id e h =>
    have hnone := (hold e rfl).verification_none (.inl h)
    rw [Option.bind_some, hnone]
    refine congrArg (List.cons _) (readyEvents_queueIfReady id ?_)
    exact hnone
  | insertNew now proof source hlen => rfl
  | insert now proof source e hlen h | attach now proof peer e hlen ho h =>
    have hnone := (hold e rfl).verification_none (.inr h)
    rw [Option.bind_some, hnone]
    refine congrArg (List.cons _) (readyEvents_queueIfReady _ ?_)
    exact hnone
  | begin id e ho hp hv => simp [moveEvents, StoreAction.announcement, stateChange, hv]
  | finish now job outcome e hptr hv =>
    cases outcome <;> simp [moveEvents, StoreAction.announcement, stateChange, hv, VerificationOutcome.state]
  | retry id e failure hv hr => simp [moveEvents, StoreAction.announcement, stateChange, hv]

namespace ProofStore

variable {store : ProofStore}

theorem Moves.changeOf_eq {α : Type} {a : StoreAction} {id : VerificationId} {r : ProofRecord} {commit : Commit α}
    (hmoves : store.Moves a id r commit) (ha : a.needsRecord = true) : store.changeOf id = .updated :=
  if_pos (hmoves.move.present ha)

/-- An operation fails and does nothing, finds nothing to do, or replaces the record of its identifier; it says
which. -/
theorem call_cases (store : ProofStore) {a : StoreAction} {id : VerificationId} (hid : a.target = some id) :
    (store.Idle (store.call a) ∧ ∃ error, (store.call a).result = .error error) ∨
    (store.Idle (store.call a) ∧ (store.call a).result = .ok .unchanged) ∨
    ∃ r, store.Moves a id r (store.call a) ∧ (store.call a).result = .ok (store.changeOf id) := by
  cases a with
  | observeChainVerification now id' =>
    cases hid
    rcases store.observeChainVerification_cases now id with ⟨hidle, hresult, -⟩ | ⟨r, hmoves, hresult⟩
    · exact .inr (.inl ⟨hidle, hresult⟩)
    · exact .inr (.inr ⟨r, hmoves, hresult⟩)
  | insertLocalProof now proof source =>
    cases hid
    simp only [call]
    rcases store.insertLocalProof_cases now proof source with
      ⟨hidle, -, hresult⟩ | ⟨hidle, hresult, -⟩ | ⟨r, hmoves, hresult⟩
    · exact .inl ⟨hidle, _, by rw [hresult]; rfl⟩
    · exact .inr (.inl ⟨hidle, by rw [hresult]; rfl⟩)
    · exact .inr (.inr ⟨r, ⟨hmoves.move, hmoves.store_eq, hmoves.events_eq⟩, by rw [hresult]; rfl⟩)
  | attachDownloadedProof now id' proof peer =>
    cases hid
    rcases store.attachDownloadedProof_cases now id proof peer with
      ⟨hidle, hresult | hresult⟩ | ⟨hidle, hresult, -⟩ | ⟨hidle, hresult, -⟩ | ⟨r, hmoves, hresult⟩
    · exact .inl ⟨hidle, _, hresult⟩
    · exact .inl ⟨hidle, _, hresult⟩
    · exact .inl ⟨hidle, _, hresult⟩
    · exact .inr (.inl ⟨hidle, hresult⟩)
    · exact .inr (.inr ⟨r, hmoves, hresult.trans (congrArg _ (hmoves.changeOf_eq rfl).symm)⟩)
  | beginVerification id' =>
    cases hid
    simp only [call]
    rcases store.beginVerification_cases id with ⟨hidle, hresult, -⟩ | ⟨r, proof, hmoves, -, hresult⟩
    · exact .inr (.inl ⟨hidle, by rw [hresult]; rfl⟩)
    · refine .inr (.inr ⟨r, ⟨hmoves.move, hmoves.store_eq, hmoves.events_eq⟩, ?_⟩)
      rw [hresult, hmoves.changeOf_eq rfl]
      rfl
  | finishVerification now job outcome =>
    cases hid
    rcases store.finishVerification_cases now job outcome with
      ⟨hidle, hresult, -⟩ | ⟨hidle, e, -, -, -, hresult⟩ | ⟨e, r, he, -, -, hmoves, hresult⟩
    · exact .inr (.inl ⟨hidle, hresult⟩)
    · exact .inl ⟨hidle, _, hresult⟩
    · exact .inr (.inr ⟨r, hmoves, hresult.trans (congrArg _ (hmoves.changeOf_eq rfl).symm)⟩)
  | retryVerification id' =>
    cases hid
    rcases store.retryVerification_cases id with ⟨hidle, fault, hresult⟩ | ⟨hidle, hresult⟩ | ⟨r, hmoves, hresult⟩
    · exact .inl ⟨hidle, _, hresult⟩
    · exact .inr (.inl ⟨hidle, hresult⟩)
    · exact .inr (.inr ⟨r, hmoves, hresult.trans (congrArg _ (hmoves.changeOf_eq rfl).symm)⟩)
  | evict id' cause => cases hid

omit [Sha256] in
/-- The exact condition under which a retry is refused. -/
theorem retryVerification_error_iff (store : ProofStore) (id : VerificationId) :
    (∃ error, (store.retryVerification id).result = .error error) ↔
      store.get id = none ∨ (store.verification id ≠ some .queued ∧
        ∀ failure, store.verification id = some (.failed failure) → failure.retryable = false) := by
  have hcompute : (∃ error, (store.retryVerification id).result = .error error) ↔
      ∃ error, retryCompute id (store.get id) = .error error := by
    unfold retryVerification
    rcases commitWith_cases store id (retryCompute id) storeChange (stateEvents id .queued) with
      ⟨error, hc, he⟩ | ⟨hc, result, -, he⟩ | ⟨r, result, hc, -, -, he⟩ <;> rw [hc, he] <;> simp
  rw [hcompute]
  unfold verification
  cases hget : store.get id with
  | none => simp [retryCompute]
  | some e =>
    cases hstate : e.value.metadata.verification with
    | none => simp [retryCompute, hstate]
    | some state =>
      cases state with
      | failed failure => cases hretryable : failure.retryable <;> simp [retryCompute, hstate, hretryable]
      | _ => simp [retryCompute, hstate]

end ProofStore

/-- Every operation on a reachable store does what it reports: a failure leaves the records alone and publishes nothing;
`Unchanged` (no job, for a claim) means that the records are the same, and again nothing is published; `Inserted` and
`Updated` (a job) tell whether there was a record; only the record of the identifier changes; and a change is announced
by the event of the observation or the content, and by the new verification state if it is another one.  A retry fails
exactly if there is no record, or one that is neither queued nor failed in a way that can be retried. -/
theorem store_call_reported {config : ProofStoreConfig} {store : ProofStore} (hnew : ProofStore.new config = .ok store)
    {s : StoreSystem} (hs : (StoreSystem.lts store).Reachable s) :
    (∀ a id, a.target = some id →
      (∀ error, (s.store.call a).result = .error error → (s.store.call a).store = s.store ∧
        (s.store.call a).events = []) ∧
      ∀ change, (s.store.call a).result = .ok change →
        (change = .unchanged ↔
          ∀ id', ((s.store.call a).store.get id').map (·.value) = (s.store.get id').map (·.value)) ∧
        (change = .unchanged → (s.store.call a).store = s.store ∧ (s.store.call a).events = []) ∧
        (change = .inserted → s.store.get id = none) ∧
        (change = .updated → (s.store.get id).isSome) ∧
        (∀ id', id' ≠ id → (s.store.call a).store.get id' = s.store.get id') ∧
        (change ≠ .unchanged → (s.store.call a).events = a.announcement ++
          stateChange id (s.store.verification id) ((s.store.call a).store.verification id))) ∧
    ∀ id, (∃ error, (s.store.retryVerification id).result = .error error) ↔
      s.store.get id = none ∨ (s.store.verification id ≠ some .queued ∧
        ∀ failure, s.store.verification id = some (.failed failure) → failure.retryable = false) := by
  have hwf := (StoreSystem.reachable_wellFormed hnew hs).1
  refine ⟨fun a id hid => ?_, s.store.retryVerification_error_iff⟩
  rcases s.store.call_cases hid with ⟨hidle, error, hresult⟩ | ⟨hidle, hresult⟩ | ⟨r, hmoves, hresult⟩
  · refine ⟨fun _ _ => hidle, fun change hchange => ?_⟩
    cases hresult.symm.trans hchange
  · refine ⟨fun _ _ => hidle, fun change hchange => ?_⟩
    cases hresult.symm.trans hchange
    have hsame : ∀ id', (s.store.call a).store.get id' = s.store.get id' := fun id' => by rw [hidle.1]
    exact ⟨iff_of_true rfl fun id' => by rw [hsame id'], fun _ => hidle, nofun, nofun, fun id' _ => hsame id',
      fun h => absurd rfl h⟩
  · refine ⟨fun error herror => ?_, fun change hchange => ?_⟩
    · cases hresult.symm.trans herror
    cases hresult.symm.trans hchange
    have hafter : (s.store.call a).store.get id = some ⟨s.store.nextAddr, r⟩ := by
      rw [hmoves.store_eq, ProofStore.get_put_self]
    have hchanged : ((s.store.call a).store.get id).map (·.value) ≠ (s.store.get id).map (·.value) := by
      have hmove := hmoves.move
      rw [hafter]
      cases hget : s.store.get id with
      | none => simp
      | some e =>
        rw [hget] at hmove
        simpa using hmove.ne
    have hreport : s.store.changeOf id ≠ .unchanged ∧ (s.store.changeOf id = .inserted → s.store.get id = none) ∧
        (s.store.changeOf id = .updated → (s.store.get id).isSome) := by
      unfold ProofStore.changeOf
      cases s.store.get id <;> simp
    refine ⟨iff_of_false hreport.1 fun h => hchanged (h id), fun h => absurd h hreport.1, hreport.2.1, hreport.2.2,
      ?_, ?_⟩
    · intro id' hne
      rw [hmoves.store_eq, ProofStore.get_put_of_ne hne]
    · intro _
      have hstate : (s.store.call a).store.verification id = r.metadata.verification := by
        rw [ProofStore.verification, hafter]
        rfl
      rw [hmoves.events_eq, hstate]
      exact hmoves.move.events (hwf id)

end

/-- Content without an observation: a retry is refused, and the observation is announced with the new state. -/
theorem store_call_reported_small :
    letI := Sha256.standard
    let id := Proof.small.verificationId
    ∃ s, (StoreSystem.lts .small).Run ⟨.small, []⟩ [.insertLocalProof 1 .small .rpc] s ∧
      (∃ error, (s.store.retryVerification id).result = .error error) ∧
      (s.store.call (.observeChainVerification 2 id)).result = .ok .updated ∧
      (s.store.call (.observeChainVerification 2 id)).events =
        [.verificationObserved id] ++ stateChange id none (some .queued) := by
  let _ := Sha256.standard
  intro id
  let s := (StoreSystem.perform ⟨.small, []⟩ (.insertLocalProof 1 .small .rpc)).1
  have hrun : (StoreSystem.lts .small).Run ⟨.small, []⟩ [.insertLocalProof 1 .small .rpc] s :=
    .cons ⟨trivial, rfl⟩ (.refl _)
  obtain ⟨hcalls, hretry⟩ := store_call_reported (show ProofStore.new .small = .ok .small from rfl) ⟨_, _, rfl, hrun⟩
  have hresult : (s.store.call (.observeChainVerification 2 id)).result = .ok .updated := by decide +kernel
  have hbefore : s.store.verification id = none := by decide +kernel
  have hafter : (s.store.call (.observeChainVerification 2 id)).store.verification id =
    some .queued := by decide +kernel
  obtain ⟨-, hreport⟩ := hcalls (.observeChainVerification 2 id) id rfl
  obtain ⟨-, -, -, -, -, hevents⟩ := hreport .updated hresult
  refine ⟨s, hrun, (hretry id).2 (.inr ⟨?_, ?_⟩), hresult, ?_⟩
  · simp [hbefore]
  · simp [hbefore]
  · rw [hevents (by decide), hbefore, hafter]
    rfl

end PulsarVerifier
