import PulsarVerifier.Listener.Coverage
import PulsarVerifier.Node.System
import PulsarVerifier.Verification.Jobs

/-!
# A node loses no request

The listener observes the requests that are active on the chain, an observed record waits for its content, a record
with content is queued, and the verification worker takes queued records and commits an outcome for each.  Every request
that is active is at one of these stages at any time, unless Moka has evicted its record (`NodeSystem.request_in_hand`);
in particular a node at rest has an outcome for every active request whose proof it has.

What crosses the border between two services is an event or an effect that is still to come, so a stage may be that
such an event is on its way.
-/

namespace PulsarVerifier

/-! ### Observed records -/

theorem RecordMove.observed_of_old [Sha256] {maxBytes : Nat} {a : StoreAction} {id : VerificationId}
    {e : Arc ProofRecord} {r : ProofRecord} (h : RecordMove maxBytes a id (some e) r)
    (he : e.value.metadata.chainObservedAt.isSome) : r.metadata.chainObservedAt.isSome := by
  cases h with
  | observe now id e h => simp
  | insert now proof source e hlen h | attach now proof peer e hlen ho h => simpa [ProofStore.withContent] using he
  | begin id e ho hp hv | finish now job outcome e hptr hv | retry id e failure hv hr => exact he

def ProofStore.Observed (store : ProofStore) (id : VerificationId) : Prop :=
  ∃ e, store.get id = some e ∧ e.value.metadata.chainObservedAt.isSome

namespace StoreSystem

variable [Sha256] {s : StoreSystem} {id : VerificationId}

theorem observed_perform {action : StoreAction} (hevict : ∀ cause, action ≠ .evict id cause)
    (h : s.store.Observed id) : (s.perform action).1.store.Observed id := by
  obtain ⟨e, he, hobserved⟩ := h
  rcases s.perform_cases action with ⟨hsame, -⟩ | ⟨id', r, hmove, hput, -⟩ | ⟨id', cause, rfl, hevicted, -⟩
  · rw [hsame]
    exact ⟨e, he, hobserved⟩
  · rw [ProofStore.Observed, hput]
    by_cases hid : id = id'
    · subst hid
      rw [he] at hmove
      exact ⟨_, ProofStore.get_put_self .., hmove.observed_of_old hobserved⟩
    · rw [ProofStore.get_put_of_ne hid]
      exact ⟨e, he, hobserved⟩
  · have hid : id ≠ id' := by
      rintro rfl
      exact hevict cause rfl
    rw [hevicted]
    exact ⟨e, by rw [← he]; exact ProofStore.get_evict_of_ne hid, hobserved⟩

theorem observed_observe (now : Instant) : (s.perform (.observeChainVerification now id)).1.store.Observed id := by
  rcases s.store.observeChainVerification_cases now id with ⟨⟨hstore, -⟩, -, e, he, hobserved⟩ | ⟨r, hmoves, -⟩
  · refine ⟨e, ?_, hobserved⟩
    rw [← he]
    exact congrArg (fun store => store.get id) hstore
  · refine ⟨⟨s.store.nextAddr, r⟩, ?_, ?_⟩
    · rw [show (s.perform (.observeChainVerification now id)).1.store = s.store.put id r from hmoves.store_eq]
      exact ProofStore.get_put_self ..
    · have hmove := hmoves.move
      generalize s.store.get id = old at hmove
      cases hmove with
      | observeNew now id => rfl
      | observe now id e h => simp

end StoreSystem

/-! ### The listener -/

/-- What a step of the listener adds to its observations is among the effects of the step. -/
theorem ListenerSystem.observed_next [Sha256] [Ed25519] {setup : ListenerSetup} {s t : ListenerSystem}
    {a : ListenerAction} (h : s.next setup a = some t) {id : VerificationId} (hid : id ∈ t.observed) :
    id ∈ s.observed ∨ .observe id ∈ s.effects setup a := by
  have hdisconnect : ∀ (established : Bool) (error : Error), (s.disconnect setup established error).observed =
      s.observed := by
    intro established error
    obtain ⟨phase, backoff, heq, -⟩ := s.disconnect_frame setup established error
    rw [heq]
  have hcall : ∀ {established : Bool} {call : Listener.Call Listener.ListenerState},
      id ∈ (s.finishCall setup established call).observed → id ∈ s.observed ∨ .observe id ∈ call.log :=
    fun h => ((s.finishCall_frame setup _ _).2.2 id).1 h
  unfold next at h
  split at h
  all_goals try split at h
  all_goals cases h
  -- a step makes a call, or a part of it, or it leaves the observations
  all_goals first
    | exact .inl hid
    | exact hcall hid
    | exact mem_observed_perform.1 hid
    | (rw [hdisconnect] at hid; exact .inl hid)

/-! ### The node -/

namespace NodeSystem

/-- What makes a step of the node act on the store. -/
inductive Cause (n : NodeSystem) : NodeAction → StoreAction → Prop
  | observed (now : Instant) (call : Nat) (id : VerificationId) (h : .observe id ∈ n.calling) :
    Cause n (.effect now call) (.observeChainVerification now id)
  | submitted (b : SubmissionAction) (now : Instant) (proof : Proof) :
    Cause n (.submission b) (.insertLocalProof now proof .rpc)
  | downloaded (b : P2pAction) (now : Instant) (id : VerificationId) (proof : Proof) (peer : PeerId) :
    Cause n (.p2p b) (.attachDownloadedProof now id proof peer)
  | claimed (b : VerificationAction) (id : VerificationId) : Cause n (.verification b) (.beginVerification id)
  | committed (b : VerificationAction) (now : Instant) (job : VerificationJob) (outcome : VerificationOutcome) :
    Cause n (.verification b) (.finishVerification now job outcome)
  | evicted (id : VerificationId) (cause : ProofEvictionCause) : Cause n (.evict id cause) (.evict id cause)

theorem acts_cause {n : NodeSystem} {a : NodeAction} {action : StoreAction} (h : n.acts a = some action) :
    Cause n a action := by
  cases a with
  | listener b | replied => cases h
  | effect now call =>
    simp only [acts] at h
    split at h
    · rename_i id rest hcalling
      cases h
      exact .observed now call id (by rw [hcalling]; exact List.mem_cons_self)
    · cases h
  | submission b =>
    simp only [acts, SubmissionSystem.acts] at h
    split at h
    · split at h
      · cases h
        exact .submitted ..
      · cases h
    · cases h
  | p2p b =>
    simp only [acts, P2pSystem.acts] at h
    split at h
    · split at h
      · cases h
        exact .downloaded ..
      · cases h
    · cases h
  | verification b =>
    simp only [acts, VerificationSystem.acts] at h
    split at h
    · split_ifs at h
      split at h
      · cases h
      · split_ifs at h
        cases h
        exact .claimed ..
    · split at h
      · cases h
        exact .committed ..
      · cases h
    · cases h
  | evict id cause =>
    cases h
    exact .evicted id cause

section

variable [Sha256] [Ed25519] [TransactionWire] [AvailabilityWire] {setup : NodeSetup} {as : List NodeAction}
  {n m : NodeSystem} {a : NodeAction} {id : VerificationId}

/-- Every observation of the listener is still to be made, is in the store, or its record was evicted. -/
def Registered (as : List NodeAction) (n : NodeSystem) : Prop :=
  ∀ id ∈ n.listener.observed,
    .observe id ∈ n.calling ∨ n.stores.store.Observed id ∨ ∃ cause, .evict id cause ∈ as

omit [TransactionWire] [AvailabilityWire] in
theorem mem_remaining_of_mem (setup : NodeSetup) (a : NodeAction) {effect : Listener.Effect} (h : effect ∈ n.calling) :
    effect ∈ n.remaining setup a ∨ ∃ now call rest, a = .effect now call ∧ n.calling = effect :: rest := by
  cases a with
  | listener b => exact .inl (List.mem_append_left _ h)
  | effect now call =>
    cases hcalling : n.calling with
    | nil =>
      rw [hcalling] at h
      cases h
    | cons first rest =>
      rw [hcalling] at h
      rcases List.mem_cons.1 h with rfl | h
      · exact .inr ⟨now, call, rest, rfl, rfl⟩
      · refine .inl ?_
        simp only [remaining, hcalling, List.tail_cons]
        exact h
  | _ => exact .inl h

omit [Ed25519] [TransactionWire] [AvailabilityWire] in
theorem observed_after (h : n.stores.store.Observed id) :
    (n.stores.after (n.acts a)).store.Observed id ∨ ∃ cause, a = .evict id cause := by
  cases hacts : n.acts a with
  | none => exact .inl h
  | some action =>
    by_cases hevict : ∃ cause, action = .evict id cause
    · obtain ⟨cause, rfl⟩ := hevict
      cases acts_cause hacts with
      | evicted id cause => exact .inr ⟨cause, rfl⟩
    · exact .inl (StoreSystem.observed_perform (fun cause hcause => hevict ⟨cause, hcause⟩) h)

theorem Registered.next (h : Registered as n) (hnext : n.next setup a = some m) : Registered (as ++ [a]) m := by
  obtain ⟨-, hlistener, -, -, -, hstores, hcalling⟩ := next_eq_some hnext
  intro id hid
  rw [hstores, hcalling]
  -- the observation is an old one or an effect of this step
  have hold : id ∈ n.listener.observed ∨
      ∃ b, a = .listener b ∧ .observe id ∈ n.listenerView.effects setup.listener b := by
    cases a with
    | listener b =>
      rcases ListenerSystem.observed_next hlistener hid with hold | hnew
      · exact .inl hold
      · exact .inr ⟨b, rfl, hnew⟩
    | _ =>
      rw [← Option.some.inj hlistener] at hid
      exact .inl hid
  rcases hold with hold | ⟨b, rfl, heffect⟩
  · rcases h id hold with hpending | hobserved | ⟨cause, hcause⟩
    · rcases mem_remaining_of_mem setup a hpending with hpending | ⟨now, call, rest, rfl, hhead⟩
      · exact .inl hpending
      · refine .inr (.inl ?_)
        have hacts : n.acts (.effect now call) = some (.observeChainVerification now id) := by
          simp only [acts, hhead]
        rw [hacts]
        exact StoreSystem.observed_observe now
    · rcases observed_after (a := a) hobserved with hobserved | ⟨cause, rfl⟩
      · exact .inr (.inl hobserved)
      · exact .inr (.inr ⟨cause, by simp⟩)
    · exact .inr (.inr ⟨cause, List.mem_append_left _ hcause⟩)
  · exact .inl (List.mem_append_right _ heffect)

/-- Every observation of the listener reaches the store. -/
theorem run_registered (hrun : (lts setup).Run (initial setup) as n) : Registered as n := by
  refine hrun.invariant_trace (P := Registered) Registered.next ?_
  intro id hid
  cases hid

/-! ### The stages of a request -/

/-- What the listener gets from the chain in a step is true. -/
def Truthful (chain : ChainHistory) (setup : NodeSetup) (n : NodeSystem) (a : NodeAction) : Prop :=
  ∀ b, listenerLabel a = some b → chain.Honest setup.listener n.listenerView b

theorem run_covered {chain : ChainHistory}
    (hrun : ((lts setup).restrict (Truthful chain setup)).Run (initial setup) as n) :
    n.listener.Covered chain := by
  refine hrun.invariant (P := fun n => n.listener.Covered chain) (fun {n a m} hcovered hstep => ?_)
    (ListenerSystem.covered_initial chain _ _)
  have hlistener := (next_eq_some hstep.1).2.1
  have htrue := hstep.2
  unfold Truthful at htrue
  cases hlabel : listenerLabel a with
  | none =>
    rw [hlabel] at hlistener
    rw [← Option.some.inj hlistener]
    exact ⟨hcovered.window, hcovered.committed, hcovered.streaming⟩
  | some b =>
    rw [hlabel] at hlistener
    have hview : n.listenerView.Covered chain := ⟨hcovered.window, hcovered.committed, hcovered.streaming⟩
    exact hview.step hlistener (htrue b hlabel)

/-- The verification worker is the only one to claim records. -/
theorem next_leavesClaims (h : n.next setup a = some m) :
    ((VerificationSystem.lts setup.store setup.registry setup.verification setup.capacity).restrict
      fun _ b => b.leavesClaims).Follows n.verificationView (n.verificationLabel a) m.verificationView := by
  have hfollows := next_verification h
  cases hlabel : n.verificationLabel a with
  | none =>
    rw [hlabel] at hfollows
    exact hfollows
  | some b =>
    rw [hlabel] at hfollows
    refine ⟨hfollows, ?_⟩
    -- an operation on the store that the worker sees is not its own
    by_contra hclaim
    obtain ⟨id, rfl⟩ : ∃ id, b = .operation (.beginVerification id) := by
      dsimp only [VerificationAction.leavesClaims] at hclaim
      split at hclaim
      · exact ⟨_, rfl⟩
      · exact absurd rfl hclaim
    have hallowed := (next_eq_some h).1
    cases a with
    | verification b =>
      cases hlabel
      cases hallowed
    | _ =>
      simp only [verificationLabel, Option.map_eq_some_iff, VerificationAction.operation.injEq, exists_eq_right]
        at hlabel
      cases acts_cause hlabel

/-- Where the node is with a request. -/
inductive Stage (n : NodeSystem) (id : VerificationId) : Prop
  /-- the listener is about to observe it -/
  | observing (h : .observe id ∈ n.calling)
  /-- its record has no content yet -/
  | waiting (e : Arc ProofRecord) (he : n.stores.store.get id = some e)
      (h : ProofStore.waitingForContent e.value = true)
  /-- it is queued, and the worker has it or will hear of it -/
  | queued (e : Arc ProofRecord) (he : n.stores.store.get id = some e)
      (h : e.value.metadata.verification = some .queued)
      (hattended : n.verification.worker.Knows id ∨ n.verification.Announced id)
  /-- a job for this very record runs -/
  | verifying (e : Arc ProofRecord) (he : n.stores.store.get id = some e)
      (h : e.value.metadata.verification = some .verifying) (job : VerificationJob)
      (hjob : job ∈ n.verification.worker.runningJobs) (hid : job.verificationId = id) (hclaim : job.claim = e)
  | completed (e : Arc ProofRecord) (he : n.stores.store.get id = some e) (verdict : VerificationVerdict)
      (h : e.value.metadata.verification = some (.completed verdict))
  | failed (e : Arc ProofRecord) (he : n.stores.store.get id = some e) (failure : VerificationFailure)
      (h : e.value.metadata.verification = some (.failed failure))

theorem stage_of_observed {config : ProofStoreConfig} (hnew : ProofStore.new config = .ok setup.store)
    (hretries : setup.verification.maxRetries ≤ 32) (hrun : (lts setup).Run (initial setup) as n)
    (h : n.stores.store.Observed id) : n.Stage id := by
  obtain ⟨e, he, hobserved⟩ := h
  obtain ⟨bs, hbs, -⟩ := run_verification hrun
  obtain ⟨cs, hcs, -⟩ := hrun.project (f := verificationView) (l := verificationLabel) next_leavesClaims
  have hattentive := VerificationSystem.reachable_attentive hnew ⟨_, bs, rfl, hbs⟩
  obtain ⟨hok, hflight⟩ := VerificationSystem.run_flight hnew hcs
  cases hverification : e.value.metadata.verification with
  | none =>
    refine .waiting e he ?_
    have hproof : e.value.proof = none := by
      by_contra hsome
      have hiff := (hattentive.wellFormed id e he).verification_iff.2 ⟨hobserved, Option.isSome_iff_ne_none.2 hsome⟩
      rw [hverification] at hiff
      cases hiff
    rw [ProofStore.waitingForContent, hobserved, hproof]
    rfl
  | some state =>
    cases state with
    | queued => exact .queued e he hverification (hattentive.attends id ⟨e, he, hverification⟩)
    | verifying =>
      obtain ⟨job, hjob, hid, hclaim⟩ := (hflight (hok hretries)).1.verifying id e he hverification
      exact .verifying e he hverification job hjob hid hclaim
    | completed verdict => exact .completed e he verdict hverification
    | failed failure => exact .failed e he failure hverification

/-- Nothing is under way in the listener and the verification worker. -/
structure AtRest (n : NodeSystem) : Prop where
  calling : n.calling = []
  phase : n.verification.worker.phase = .selecting
  pending : n.verification.worker.pending = []
  activeIds : n.verification.worker.activeIds = ∅
  jobs : n.verification.worker.jobs = []
  queue : n.verification.receiver.queue = []
  lagged : n.verification.receiver.lagged = false
  publishing : ∀ events ∈ n.verification.publishing, events = []

/-- The node is done with a request, or has no content for it. -/
def Settled (n : NodeSystem) (id : VerificationId) : Prop :=
  ∃ e, n.stores.store.get id = some e ∧ (e.value.proof = none ∨
    (∃ verdict, e.value.metadata.verification = some (.completed verdict)) ∨
    ∃ failure, e.value.metadata.verification = some (.failed failure))

omit [Sha256] [Ed25519] [TransactionWire] [AvailabilityWire] in
theorem Stage.settled (h : n.Stage id) (hrest : n.AtRest) : n.Settled id := by
  cases h with
  | observing h =>
    rw [hrest.calling] at h
    cases h
  | waiting e he h =>
    rw [ProofStore.waitingForContent, Bool.and_eq_true, Option.isNone_iff_eq_none] at h
    exact ⟨e, he, .inl h.2⟩
  | queued e he h hattended =>
    rcases hattended with (hpending | hactive | hrecovers) | (hqueue | ⟨events, hevents, hevent⟩ | hlagged)
    · rw [hrest.pending] at hpending
      cases hpending
    · rw [hrest.activeIds] at hactive
      exact absurd hactive (Finset.notMem_empty id)
    · rw [hrest.phase] at hrecovers
      exact hrecovers.elim
    · rw [hrest.queue] at hqueue
      cases hqueue
    · rw [hrest.publishing events hevents] at hevent
      cases hevent
    · rw [hrest.lagged] at hlagged
      cases hlagged
  | verifying e he h job hjob hid hclaim =>
    rw [VerificationWorker.runningJobs, hrest.jobs] at hjob
    cases hjob
  | completed e he verdict h => exact ⟨e, he, .inr (.inl ⟨verdict, h⟩)⟩
  | failed e he failure h => exact ⟨e, he, .inr (.inr ⟨failure, h⟩)⟩

/-- Every request that is pending and was submitted at one of the three heights up to the last one is at one of the
stages, unless its record was evicted.  A node at rest has an outcome for it, or no content. -/
theorem request_in_hand (chain : ChainHistory) {config : ProofStoreConfig}
    (hnew : ProofStore.new config = .ok setup.store) (hretries : setup.verification.maxRetries ≤ 32)
    (hrun : ((lts setup).restrict (Truthful chain setup)).Run (initial setup) as n) {height : Nat}
    (hlast : n.listener.state.lastHeight = some height) {r : Request} (hr : chain.pending n.listener.tip r)
    (hfirst : max 1 (height - 2) ≤ r.height) (hlatest : r.height ≤ height)
    (hkept : ∀ cause, .evict r.verificationId cause ∉ as) :
    n.Stage r.verificationId ∧ (n.AtRest → n.Settled r.verificationId) := by
  have hobserved : r.verificationId ∈ n.listener.observed :=
    (run_covered hrun).window height hlast r hr (Listener.mem_activeHeights.2 ⟨hfirst, hlatest⟩)
  have hstage : n.Stage r.verificationId := by
    rcases run_registered hrun.of_restrict r.verificationId hobserved with hcalling | hrecord | ⟨cause, hevicted⟩
    · exact .observing hcalling
    · exact stage_of_observed hnew hretries hrun.of_restrict hrecord
    · exact absurd hevicted (hkept cause)
  exact ⟨hstage, hstage.settled⟩

end

section

variable [Sha256]

private def oneRequest : Request := ⟨1, 0, Proof.small.verificationId⟩

private def oneHistory : ChainHistory where
  requests := {oneRequest}
  pending _ r := r = oneRequest
  pending_mem h := h
  pending_of_le _ _ h := h

private def firstBlock (n : NodeSystem) : NodeAction → Bool
  | .listener (.initializeSession _) => n.listener.tip = 1
  | _ => true

/-- The chain lists its only request. -/
private theorem truthful_of_mem {n : NodeSystem} {a : NodeAction} (hfirst : firstBlock n a = true)
    (ha : a ∈ .listener .commit :: observing ++ verifying) : Truthful oneHistory .small n a := by
  intro b hb
  cases a with
  | listener b' =>
    cases hb
    simp only [observing, verifying, List.cons_append, List.nil_append, List.mem_cons, NodeAction.listener.injEq,
      reduceCtorEq, List.not_mem_nil, or_false] at ha
    rcases ha with rfl | rfl | rfl
    · trivial
    · trivial
    · have htip : n.listener.tip = 1 := of_decide_eq_true hfirst
      intro status hstatus
      have hheight : PulsarClient.status ⟨"pulsar-1"⟩ (.answered ⟨"pulsar-1", false, 1⟩) = .ok ⟨1⟩ := by
        decide
      cases hheight.symm.trans hstatus
      refine ⟨htip.ge, fun height _ => ⟨1, le_rfl, htip.ge, fun r hr _ => ?_⟩⟩
      cases hr
      exact ⟨_, List.mem_cons_self, _, rfl, rfl⟩
  | _ => cases hb

end

/-- A request is observed and its proof submitted; the verification worker has committed an outcome. -/
theorem request_in_hand_verified :
    letI := Sha256.standard
    letI := ListenerSystem.everyKey
    letI := TransactionWire.standard
    letI := AvailabilityWire.standard
    ∃ as n, ((lts .small).restrict (Truthful oneHistory .small)).Run (initial .small) as n ∧
      n.stores.store.getProof oneRequest.verificationId = some .small ∧ n.Stage oneRequest.verificationId := by
  let _ := Sha256.standard
  let _ := ListenerSystem.everyKey
  let _ := TransactionWire.standard
  let _ := AvailabilityWire.standard
  have hexec : (Lts.exec (Lts.guarded (next .small) fun n a => firstBlock n a) (initial .small)
      (.listener .commit :: observing ++ verifying)).any (fun n => decide (n.listener.state.lastHeight = some 1) &&
        decide (n.stores.store.getProof oneRequest.verificationId = some .small)) = true := by
    decide +kernel
  obtain ⟨n, hn, htest⟩ := (Option.any_eq_true _ _).1 hexec
  rw [Bool.and_eq_true, decide_eq_true_eq, decide_eq_true_eq] at htest
  have hfirst : ((lts .small).restrict fun n a => firstBlock n a).Run (initial .small) _ n :=
    Lts.run_restrict_of_exec hn
  have hmember := hfirst.restrict_and (Q := (· ∈ .listener .commit :: observing ++ verifying)) fun _ ha => ha
  obtain ⟨as, hrun, hlabels⟩ := hmember.project (M := (lts .small).restrict (Truthful oneHistory .small))
    (f := fun n => n) (l := fun _ a => some a) (by
      rintro s a t ⟨hnext, hblock, hmem⟩
      exact ⟨hnext, truthful_of_mem hblock hmem⟩)
  have hkept : ∀ cause, .evict oneRequest.verificationId cause ∉ as := by
    intro cause hmem
    obtain ⟨-, a, ha, haction⟩ := hlabels _ hmem
    cases haction
    simp [observing, verifying] at ha
  exact ⟨as, n, hrun, htest.2, (request_in_hand oneHistory (show ProofStore.new .small = .ok NodeSetup.small.store
    from rfl) (by decide) hrun htest.1 rfl le_rfl le_rfl hkept).1⟩

end NodeSystem

end PulsarVerifier
