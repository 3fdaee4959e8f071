import PulsarVerifier.Lib.Absorb
import PulsarVerifier.Store.Content

/-!
# Arrival in any order

Observations from the chain and contents from local submissions reach the store in any order and any number of times.
Timestamps and the source of the content aside, what the store says of an identifier in the end depends only on which
of them arrived: an arrival is absorbed into the view of its record (`Arrival.absorb`), and views absorb arrivals in any
order.
-/

namespace PulsarVerifier

/-! ### Arrivals -/

/-- An observation of an identifier, or content. -/
inductive Arrival
  | observe (id : VerificationId)
  | insert (proof : Proof)
  deriving DecidableEq

/-- A call that brings an arrival, with the time it reads; the source is that of content. -/
structure ArrivalCall where
  arrival : Arrival
  now : Instant
  source : ProofSource

/-- The store after calls in a row, the events that they publish, and their results. -/
structure ArrivalOutcome where
  store : ProofStore
  events : List ProofStoreEvent
  results : List (Except Error VerificationId)

section

variable [Sha256]

def Arrival.id : Arrival → VerificationId
  | .observe id => id
  | .insert proof => proof.verificationId

/-- Content is refused only for its size. -/
def Arrival.admission (maxBytes : Nat) : Arrival → Except Error VerificationId
  | .observe id => .ok id
  | .insert proof =>
    if proof.encodedLen ≤ maxBytes then .ok proof.verificationId
    else .error (.proofTooLarge proof.verificationId proof.encodedLen maxBytes)

def ProofStore.arrive (store : ProofStore) (call : ArrivalCall) : Commit VerificationId :=
  match call.arrival with
  | .observe id =>
    let commit := store.observeChainVerification call.now id
    ⟨commit.result.map fun _ => id, commit.events, commit.store⟩
  | .insert proof =>
    let commit := store.insertLocalProof call.now proof call.source
    ⟨commit.result.map Prod.fst, commit.events, commit.store⟩

def ProofStore.arriveAll (store : ProofStore) : List ArrivalCall → ArrivalOutcome
  | [] => ⟨store, [], []⟩
  | call :: calls =>
    let commit := store.arrive call
    let rest := commit.store.arriveAll calls
    ⟨rest.store, commit.events ++ rest.events, commit.result :: rest.results⟩

end

/-! ### Views -/

/-- What a record says, timestamps and the source of its content aside. -/
structure RecordView where
  observed : Bool
  proof : Option Proof
  verification : Option VerificationState
  deriving DecidableEq

def ProofRecord.view (r : ProofRecord) : RecordView :=
  ⟨r.metadata.chainObservedAt.isSome, r.proof, r.metadata.verification⟩

def ProofStore.view (store : ProofStore) (id : VerificationId) : Option RecordView := (store.get id).map (·.value.view)

namespace RecordView

def empty : RecordView := ⟨false, none, none⟩

def ready (v : RecordView) : Bool := v.observed && v.proof.isSome

/-- A view that became ready is queued, unless it has a state. -/
def queued (v : RecordView) : RecordView :=
  if v.ready && v.verification.isNone then { v with verification := some .queued } else v

def observe (v : RecordView) : RecordView := if v.observed then v else { v with observed := true }.queued

def insert (v : RecordView) (proof : Proof) : RecordView :=
  if v.proof.isSome then v else { v with proof := some proof }.queued

theorem observe_observe (v : RecordView) : v.observe.observe = v.observe := by
  obtain ⟨observed, content, verification⟩ := v
  cases observed <;> cases content <;> cases verification <;> rfl

theorem insert_insert (v : RecordView) (proof : Proof) : (v.insert proof).insert proof = v.insert proof := by
  obtain ⟨observed, content, verification⟩ := v
  cases observed <;> cases content <;> cases verification <;> rfl

/-- The observation and the content may come in either order. -/
theorem insert_observe (v : RecordView) (proof : Proof) : v.observe.insert proof = (v.insert proof).observe := by
  obtain ⟨observed, content, verification⟩ := v
  cases observed <;> cases content <;> cases verification <;> rfl

end RecordView

/-- The view of an entry; that of an identifier without a record is empty. -/
def entryView : Option (Arc ProofRecord) → RecordView
  | none => .empty
  | some e => e.value.view

theorem getD_view (store : ProofStore) (id : VerificationId) :
    (store.view id).getD .empty = entryView (store.get id) := by
  unfold ProofStore.view
  cases store.get id <;> rfl

theorem queueIfReady_view (r : ProofRecord) : (queueIfReady r).view = r.view.queued := by
  unfold queueIfReady RecordView.queued
  rw [apply_ite ProofRecord.view]
  rfl

section

variable [Sha256]

/-- The view of `id` after an arrival. -/
def Arrival.absorb (maxBytes : Nat) (id : VerificationId) (v : Option RecordView) (arrival : Arrival) :
    Option RecordView :=
  match arrival with
  | .observe id' => if id' = id then some (v.getD .empty).observe else v
  | .insert proof =>
    if proof.verificationId = id ∧ proof.encodedLen ≤ maxBytes then some ((v.getD .empty).insert proof) else v

/-- Arrivals with one proof for each identifier are absorbed into the view of `id`. -/
theorem Arrival.absorbs (maxBytes : Nat) (id : VerificationId) {S : Set Arrival}
    (hinj : Set.InjOn Proof.verificationId {proof | .insert proof ∈ S}) :
    FoldAbsorbs (Arrival.absorb maxBytes id) S := by
  constructor
  · intro v x hx y hy
    cases x with
    | observe a =>
      cases y with
      | observe b => by_cases ha : a = id <;> by_cases hb : b = id <;> simp [absorb, ha, hb]
      | insert q =>
        by_cases ha : a = id <;> by_cases hq : q.verificationId = id ∧ q.encodedLen ≤ maxBytes <;>
          simp [absorb, ha, hq, RecordView.insert_observe]
    | insert p =>
      cases y with
      | observe b =>
        by_cases hp : p.verificationId = id ∧ p.encodedLen ≤ maxBytes <;> by_cases hb : b = id <;>
          simp [absorb, hp, hb, RecordView.insert_observe]
      | insert q =>
        by_cases hp : p.verificationId = id ∧ p.encodedLen ≤ maxBytes <;>
          by_cases hq : q.verificationId = id ∧ q.encodedLen ≤ maxBytes
        · -- two contents of one identifier are one content
          rw [hinj hx hy (hp.1.trans hq.1.symm)]
        all_goals simp [absorb, hp, hq]
  · intro v x _
    cases x with
    | observe a => by_cases ha : a = id <;> simp [absorb, ha, RecordView.observe_observe]
    | insert p =>
      by_cases hp : p.verificationId = id ∧ p.encodedLen ≤ maxBytes <;> simp [absorb, hp, RecordView.insert_insert]

/-! ### One arrival -/

theorem RecordMove.view_observe {maxBytes : Nat} {now : Instant} {id : VerificationId} {old : Option (Arc ProofRecord)}
    {r : ProofRecord} (hmove : RecordMove maxBytes (.observeChainVerification now id) id old r) :
    (entryView old).observed = false ∧
      r.view = (entryView old).observe := by
  cases hmove with
  | observeNew => exact ⟨rfl, rfl⟩
  | observe _ _ e h =>
    have hobserved : e.value.view.observed = false := by simp [ProofRecord.view, h]
    refine ⟨hobserved, ?_⟩
    rw [queueIfReady_view, entryView, RecordView.observe, hobserved]
    rfl

theorem RecordMove.view_insert {maxBytes : Nat} {now : Instant} {proof : Proof} {source : ProofSource}
    {old : Option (Arc ProofRecord)} {r : ProofRecord}
    (hmove : RecordMove maxBytes (.insertLocalProof now proof source) proof.verificationId old r) :
    proof.encodedLen ≤ maxBytes ∧ (entryView old).proof = none ∧
      r.view = (entryView old).insert proof := by
  cases hmove with
  | insertNew _ _ _ hlen => exact ⟨hlen, rfl, rfl⟩
  | insert _ _ _ e hlen h =>
    refine ⟨hlen, h, ?_⟩
    have hview : e.value.view.proof = none := h
    rw [ProofStore.withContent, queueIfReady_view, entryView, RecordView.insert, hview]
    rfl

/-- A view has a state exactly if it is ready, as every well-formed record. -/
def RecordView.Staged (v : RecordView) : Prop := v.verification.isSome = v.ready

namespace RecordView

omit [Sha256]

theorem observe_queued_iff {v : RecordView} (hv : v.Staged) (hobserved : v.observed = false) :
    v.observe.verification = some .queued ↔ v.observe.ready = true := by
  obtain ⟨observed, content, verification⟩ := v
  cases observed <;> cases content <;> cases verification <;> simp_all [Staged, observe, queued, ready]

theorem insert_queued_iff {v : RecordView} (hv : v.Staged) (hcontent : v.proof = none) (proof : Proof) :
    (v.insert proof).verification = some .queued ↔ (v.insert proof).ready = true := by
  obtain ⟨observed, content, verification⟩ := v
  cases observed <;> cases content <;> cases verification <;> simp_all [Staged, insert, queued, ready]

end RecordView

namespace ProofStore

variable {store : ProofStore}

omit [Sha256] in
@[simp] theorem view_put_self (id : VerificationId) (r : ProofRecord) : (store.put id r).view id = some r.view := by
  rw [view, get_put_self]
  rfl

omit [Sha256] in
theorem view_put_of_ne {id id' : VerificationId} (h : id' ≠ id) (r : ProofRecord) :
    (store.put id r).view id' = store.view id' := by
  rw [view, get_put_of_ne h, view]

def ready (store : ProofStore) (id : VerificationId) : Bool := (entryView (store.get id)).ready

theorem WellFormed.staged (hwf : store.WellFormed) (id : VerificationId) : (entryView (store.get id)).Staged := by
  cases he : store.get id with
  | none => rfl
  | some e =>
    have hiff := (hwf id e he).verification_iff
    rw [← Bool.and_eq_true] at hiff
    exact Bool.eq_iff_iff.2 hiff

/-- An arrival leaves the store alone, or puts a record that lacked what has arrived; it queues a record that becomes
ready. -/
theorem arrive_cases (hwf : store.WellFormed) (call : ArrivalCall) :
    ((store.arrive call).store = store ∧ (store.arrive call).events = []) ∨
    ∃ r first, (store.arrive call).store = store.put call.arrival.id r ∧
      (store.arrive call).events = first :: readyEvents call.arrival.id r ∧
      (∀ id state, first ≠ .verificationChanged id state) ∧ store.ready call.arrival.id = false ∧
      (r.metadata.verification = some .queued ↔ r.view.ready = true) := by
  obtain ⟨arrival, now, source⟩ := call
  unfold ready
  cases arrival with
  | observe id =>
    rcases store.observeChainVerification_cases now id with ⟨hidle, -⟩ | ⟨r, hmoves, -⟩
    · exact .inl hidle
    · obtain ⟨hobserved, hview⟩ := hmoves.move.view_observe
      have hiff := RecordView.observe_queued_iff (hwf.staged id) hobserved
      rw [← hview] at hiff
      refine .inr ⟨r, _, hmoves.store_eq, hmoves.events_eq, by simp, ?_, hiff⟩
      simp [RecordView.ready, Arrival.id, hobserved]
  | insert proof =>
    rcases store.insertLocalProof_cases now proof source with ⟨hidle, -⟩ | ⟨hidle, -⟩ | ⟨r, hmoves, -⟩
    · exact .inl hidle
    · exact .inl hidle
    · obtain ⟨-, hcontent, hview⟩ := hmoves.move.view_insert
      have hiff := RecordView.insert_queued_iff (hwf.staged proof.verificationId) hcontent proof
      rw [← hview] at hiff
      refine .inr ⟨r, _, hmoves.store_eq, hmoves.events_eq, by simp, ?_, hiff⟩
      simp [RecordView.ready, Arrival.id, hcontent]

/-- The view of every identifier absorbs the arrival. -/
theorem view_arrive (store : ProofStore) (call : ArrivalCall) (id : VerificationId) :
    (store.arrive call).store.view id = call.arrival.absorb store.maxProofBytes id (store.view id) := by
  obtain ⟨arrival, now, source⟩ := call
  cases arrival with
  | observe id' =>
    change (store.observeChainVerification now id').store.view id = if id' = id then _ else _
    rcases store.observeChainVerification_cases now id' with ⟨hidle, -, e, he, hobserved⟩ | ⟨r, hmoves, -⟩
    · rw [hidle.1]
      split_ifs with hid
      · subst hid
        have hview : e.value.view.observed = true := hobserved
        rw [getD_view, view, he, entryView, RecordView.observe, hview]
        rfl
      · rfl
    · rw [hmoves.store_eq]
      split_ifs with hid
      · subst hid
        rw [view_put_self, hmoves.move.view_observe.2, getD_view]
      · exact view_put_of_ne (Ne.symm hid) r
  | insert proof =>
    change (store.insertLocalProof now proof source).store.view id = if _ ∧ _ then _ else _
    rcases store.insertLocalProof_cases now proof source with
      ⟨hidle, hlarge, -⟩ | ⟨hidle, -, e, he, hcontent⟩ | ⟨r, hmoves, -⟩
    · rw [hidle.1, if_neg (by omega)]
    · rw [hidle.1]
      split_ifs with hid
      · obtain ⟨rfl, -⟩ := hid
        have hview : e.value.view.proof.isSome = true := hcontent
        rw [getD_view, view, he, entryView, RecordView.insert, hview]
        rfl
      · rfl
    · obtain ⟨hlen, -, hview⟩ := hmoves.move.view_insert
      rw [hmoves.store_eq]
      split_ifs with hid
      · obtain ⟨rfl, -⟩ := hid
        rw [view_put_self, hview, getD_view]
      · exact view_put_of_ne (fun h => hid ⟨h.symm, hlen⟩) r

theorem arrive_result (store : ProofStore) (call : ArrivalCall) :
    (store.arrive call).result = call.arrival.admission store.maxProofBytes := by
  obtain ⟨arrival, now, source⟩ := call
  cases arrival with
  | observe id =>
    change (store.observeChainVerification now id).result.map _ = .ok id
    rcases store.observeChainVerification_cases now id with ⟨-, hresult, -⟩ | ⟨r, -, hresult⟩ <;> rw [hresult] <;> rfl
  | insert proof =>
    change (store.insertLocalProof now proof source).result.map _ = if _ then _ else _
    split_ifs with hlen
    · obtain ⟨change, hresult, -⟩ := store.insertLocalProof_of_le hlen now source
      rw [hresult]
      rfl
    · rw [store.insertLocalProof_of_lt (Nat.lt_of_not_le hlen) now source]
      rfl

theorem arrive_maxProofBytes (store : ProofStore) (call : ArrivalCall) :
    (store.arrive call).store.maxProofBytes = store.maxProofBytes := by
  obtain ⟨arrival, now, source⟩ := call
  cases arrival with
  | observe id => exact StoreSystem.perform_maxProofBytes ⟨store, []⟩ (.observeChainVerification now id)
  | insert proof => exact StoreSystem.perform_maxProofBytes ⟨store, []⟩ (.insertLocalProof now proof source)

theorem WellFormed.arrive (hwf : store.WellFormed) (call : ArrivalCall) : (store.arrive call).store.WellFormed := by
  obtain ⟨arrival, now, source⟩ := call
  have hs : (⟨store, []⟩ : StoreSystem).store.WellFormed := hwf
  cases arrival with
  | observe id => exact hs.perform (.observeChainVerification now id)
  | insert proof => exact hs.perform (.insertLocalProof now proof source)

/-! ### All arrivals -/

theorem view_arriveAll (store : ProofStore) (calls : List ArrivalCall) (id : VerificationId) :
    (store.arriveAll calls).store.view id =
      (calls.map (·.arrival)).foldl (Arrival.absorb store.maxProofBytes id) (store.view id) := by
  induction calls generalizing store with
  | nil => rfl
  | cons call calls ih =>
    rw [arriveAll, ih, arrive_maxProofBytes, view_arrive]
    rfl

theorem results_arriveAll (store : ProofStore) (calls : List ArrivalCall) :
    (store.arriveAll calls).results = calls.map fun call => call.arrival.admission store.maxProofBytes := by
  induction calls generalizing store with
  | nil => rfl
  | cons call calls ih =>
    rw [arriveAll, List.map_cons, ← arrive_result, ← store.arrive_maxProofBytes call, ← ih]

/-- The number of `VerificationChanged(Queued)` events for an identifier. -/
def queuedCount (id : VerificationId) (events : List ProofStoreEvent) : Nat :=
  events.count (.verificationChanged id .queued)

omit [Sha256] in
theorem queuedCount_readyEvents (id id' : VerificationId) (r : ProofRecord) :
    queuedCount id (readyEvents id' r) = if id' = id ∧ r.metadata.verification = some .queued then 1 else 0 := by
  unfold queuedCount readyEvents
  by_cases hqueued : r.metadata.verification = some .queued <;> by_cases hid : id' = id <;> simp [hqueued, hid]

theorem queuedCount_arrive (hwf : store.WellFormed) (call : ArrivalCall) (id : VerificationId) :
    (store.ready id = true → (store.arrive call).store.ready id = true) ∧
    queuedCount id (store.arrive call).events =
      if store.ready id = false ∧ (store.arrive call).store.ready id = true then 1 else 0 := by
  rcases arrive_cases hwf call with ⟨hstore, hevents⟩ | ⟨r, first, hstore, hevents, hfirst, hready, hqueued⟩
  · rw [hstore, hevents]
    refine ⟨fun h => h, ?_⟩
    rw [if_neg (by simp)]
    rfl
  · have hcount : queuedCount id (first :: readyEvents call.arrival.id r) =
        queuedCount id (readyEvents call.arrival.id r) := List.count_cons_of_ne (hfirst id .queued)
    rw [hstore, hevents, hcount, queuedCount_readyEvents]
    by_cases hid : call.arrival.id = id
    · subst hid
      have hput : (store.put call.arrival.id r).ready call.arrival.id = r.view.ready := by
        rw [ready, get_put_self, entryView]
      rw [hput, hready]
      exact ⟨fun h => (by cases h), by simp [hqueued]⟩
    · have hput : (store.put call.arrival.id r).ready id = store.ready id := by
        rw [ready, get_put_of_ne (Ne.symm hid), ready]
      rw [hput]
      refine ⟨fun h => h, ?_⟩
      rw [if_neg (fun h => hid h.1), if_neg (by simp)]

theorem queuedCount_arriveAll (hwf : store.WellFormed) (calls : List ArrivalCall) (id : VerificationId) :
    (store.ready id = true → (store.arriveAll calls).store.ready id = true) ∧
    queuedCount id (store.arriveAll calls).events =
      if store.ready id = false ∧ (store.arriveAll calls).store.ready id = true then 1 else 0 := by
  induction calls generalizing store with
  | nil =>
    refine ⟨fun h => h, ?_⟩
    rw [if_neg (by simp [arriveAll])]
    rfl
  | cons call calls ih =>
    obtain ⟨hstay, hfirst⟩ := queuedCount_arrive hwf call id
    obtain ⟨hstay', hrest⟩ := ih (hwf.arrive call)
    refine ⟨fun h => hstay' (hstay h), ?_⟩
    have happend : queuedCount id (store.arriveAll (call :: calls)).events =
        queuedCount id (store.arrive call).events + queuedCount id ((store.arrive call).store.arriveAll calls).events :=
      List.count_append
    rw [happend, hfirst, hrest, arriveAll]
    -- the identifier becomes ready at this call, at a later one, or never
    cases hbefore : store.ready id <;> cases hmiddle : (store.arrive call).store.ready id <;>
      simp_all

end ProofStore

/-- Observations and local contents with one proof for each identifier may arrive in any order and number: what the
store says of every identifier in the end, the result of every call, and the one announcement of every identifier that
becomes ready are the same. -/
theorem arrival_order_irrelevant {config : ProofStoreConfig} {store : ProofStore}
    (hnew : ProofStore.new config = .ok store) {s : StoreSystem} (hs : (StoreSystem.lts store).Reachable s)
    {calls calls' : List ArrivalCall}
    (hinj : Set.InjOn Proof.verificationId {proof | .insert proof ∈ calls.map (·.arrival)})
    (hsame : ∀ arrival, arrival ∈ calls.map (·.arrival) ↔ arrival ∈ calls'.map (·.arrival)) :
    (∀ id, (s.store.arriveAll calls).store.view id = (s.store.arriveAll calls').store.view id) ∧
    ((s.store.arriveAll calls).results = calls.map (fun call => call.arrival.admission s.store.maxProofBytes) ∧
      (s.store.arriveAll calls').results = calls'.map (fun call => call.arrival.admission s.store.maxProofBytes)) ∧
    ∀ id, ProofStore.queuedCount id (s.store.arriveAll calls).events =
        ProofStore.queuedCount id (s.store.arriveAll calls').events ∧
      ProofStore.queuedCount id (s.store.arriveAll calls).events =
        if s.store.ready id = false ∧ (s.store.arriveAll calls).store.ready id = true then 1 else 0 := by
  have hwf := (StoreSystem.reachable_wellFormed hnew hs).1
  have hviews : ∀ id, (s.store.arriveAll calls).store.view id = (s.store.arriveAll calls').store.view id := by
    intro id
    rw [ProofStore.view_arriveAll, ProofStore.view_arriveAll]
    exact (Arrival.absorbs s.store.maxProofBytes id hinj).foldl_eq (fun _ h => h) hsame _
  refine ⟨hviews, ⟨s.store.results_arriveAll calls, s.store.results_arriveAll calls'⟩, fun id => ?_⟩
  have hready : (s.store.arriveAll calls).store.ready id = (s.store.arriveAll calls').store.ready id := by
    unfold ProofStore.ready
    rw [← getD_view, hviews, getD_view]
  have hcount := (ProofStore.queuedCount_arriveAll hwf calls id).2
  have hcount' := (ProofStore.queuedCount_arriveAll hwf calls' id).2
  rw [← hready] at hcount'
  exact ⟨hcount.trans hcount'.symm, hcount⟩

end

/-- The observation comes first and is repeated, or it comes after the content: the identifier is queued once. -/
theorem arrival_order_irrelevant_small :
    letI := Sha256.standard
    let id := Proof.small.verificationId
    let chainFirst : List ArrivalCall := [⟨.observe id, 1, .rpc⟩, ⟨.insert .small, 2, .rpc⟩, ⟨.observe id, 3, .rpc⟩]
    let contentFirst : List ArrivalCall := [⟨.insert .small, 4, .peer .small⟩, ⟨.observe id, 5, .rpc⟩]
    (ProofStore.small.arriveAll chainFirst).store.view id = (ProofStore.small.arriveAll contentFirst).store.view id ∧
      (ProofStore.small.arriveAll chainFirst).store.view id = some ⟨true, some .small, some .queued⟩ ∧
      ProofStore.queuedCount id (ProofStore.small.arriveAll chainFirst).events = 1 ∧
      ProofStore.queuedCount id (ProofStore.small.arriveAll contentFirst).events = 1 := by
  let _ := Sha256.standard
  intro id chainFirst contentFirst
  have hsame : ∀ arrival, arrival ∈ chainFirst.map (·.arrival) ↔ arrival ∈ contentFirst.map (·.arrival) := by
    intro arrival
    simp only [chainFirst, contentFirst, List.map_cons, List.map_nil, List.mem_cons, List.not_mem_nil, or_false]
    constructor
    · rintro (h | h | h) <;> simp [h]
    · rintro (h | h) <;> simp [h]
  have hinj : Set.InjOn Proof.verificationId {proof | .insert proof ∈ chainFirst.map (·.arrival)} := by
    have hone : ∀ proof, .insert proof ∈ chainFirst.map (·.arrival) → proof = .small := by
      intro proof hproof
      simpa [chainFirst] using hproof
    intro p hp q hq _
    rw [hone p hp, hone q hq]
  obtain ⟨hviews, -, hqueued⟩ := arrival_order_irrelevant (show ProofStore.new .small = .ok .small from rfl)
    (.of_init rfl) hinj hsame
  have hcount : ProofStore.queuedCount id (ProofStore.small.arriveAll chainFirst).events = 1 := by decide +kernel
  exact ⟨hviews id, by decide +kernel, hcount, (hqueued id).1.symm.trans hcount⟩

end PulsarVerifier
