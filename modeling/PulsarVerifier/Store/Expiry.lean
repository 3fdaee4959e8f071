import Mathlib.Logic.Function.Basic
import PulsarVerifier.Lib.Expiry
import PulsarVerifier.Store.Report
import PulsarVerifier.Store.SingleFlight

/-!
# Retention of completed records

Moka asks `TerminalExpiry` for the lifetime of an entry when it is created, replaced or read.  `TimedStore` is the store
with the deadlines that Moka keeps; every call, read and removal comes with the reading of Moka's clock at that moment,
and nothing is assumed about these readings.

* A deadline is there exactly for a completed record, and it is the time at which `finish_verification` put the verdict
  plus the retention.
* No call and no read moves the deadline of a completed record, since no `RecordMove` starts from one.
* Only a completed record leaves the store as expired, and not before its retention is over.
-/

namespace PulsarVerifier

/-- Starts retention only after verification reaches a terminal state. -/
structure TerminalExpiry where
  retention : Duration

namespace TerminalExpiry

def duration (expiry : TerminalExpiry) (record : ProofRecord) : Option Duration :=
  match record.metadata.verification with
  | some (.completed _) => some expiry.retention
  | _ => none

/-- The implementation of Moka's `Expiry`. -/
def policy (expiry : TerminalExpiry) : ExpiryPolicy VerificationId (Arc ProofRecord) where
  expireAfterCreate _ value _ := expiry.duration value.value
  expireAfterRead _ _ _ durationUntilExpiry _ := durationUntilExpiry
  expireAfterUpdate _ value _ _ := expiry.duration value.value

end TerminalExpiry

def ProofRecord.Completed (r : ProofRecord) : Prop := ∃ verdict, r.metadata.verification = some (.completed verdict)

theorem TerminalExpiry.duration_eq_some_iff {expiry : TerminalExpiry} {r : ProofRecord} {d : Duration} :
    expiry.duration r = some d ↔ r.Completed ∧ d = expiry.retention := by
  unfold duration ProofRecord.Completed
  split
  · rename_i verdict hv
    simp [hv, eq_comm]
  · rename_i hv
    refine iff_of_false nofun ?_
    rintro ⟨⟨verdict, hcompleted⟩, -⟩
    exact hv verdict hcompleted

/-! ### The store with deadlines -/

/-- The store and what Moka keeps beside each of its entries. -/
structure TimedStore where
  system : StoreSystem
  times : VerificationId → Option EntryTimes

/-- A call of an operation, a `get`, or a removal by Moka, at a reading of Moka's clock. -/
inductive TimedAction
  | call (clock : Instant) (action : StoreAction)
  | get (clock : Instant) (id : VerificationId)
  | remove (clock : Instant) (id : VerificationId) (cause : ProofEvictionCause)

def TimedAction.clock : TimedAction → Instant
  | .call clock _ | .get clock _ | .remove clock _ _ => clock

namespace TimedStore

variable [Sha256]

def initial (store : ProofStore) : TimedStore := { system := ⟨store, []⟩, times := fun _ => none }

omit [Sha256] in
def get (s : TimedStore) (id : VerificationId) : Option (Arc ProofRecord) := s.system.store.get id

def deadline (s : TimedStore) (id : VerificationId) : Option Instant := (s.times id).bind (·.deadline)

/-- The entry of `id` is still in the table, but nobody finds it any more. -/
def lapsed (s : TimedStore) (clock : Instant) (id : VerificationId) : Bool := (s.times id).any (·.lapsed clock)

def remove (s : TimedStore) (id : VerificationId) (cause : ProofEvictionCause) : TimedStore :=
  { system := (s.system.perform (.evict id cause)).1, times := Function.update s.times id none }

/-- Whoever looks for a lapsed entry finds none: it leaves the table at the latest now. -/
def expire (s : TimedStore) (clock : Instant) (id : VerificationId) : TimedStore :=
  if s.lapsed clock id then s.remove id .expired else s

def read (expiry : TerminalExpiry) (s : TimedStore) (clock : Instant) (id : VerificationId) : TimedStore :=
  match s.get id with
  | none => s
  | some entry =>
    { s with times := Function.update s.times id ((s.times id).map (·.read expiry.policy id entry clock)) }

/-- What Moka keeps beside the entry of `id` that was `before` and is `after`: it was put if it is another
allocation. -/
def settle (expiry : TerminalExpiry) (clock : Instant) (id : VerificationId) (times : Option EntryTimes) :
    (before after : Option (Arc ProofRecord)) → Option EntryTimes
  | _, none => none
  | none, some entry => some (.created expiry.policy id entry clock)
  | some old, some entry =>
    if old.ptrEq entry then times else times.map (·.updated expiry.policy id entry clock)

/-- An operation on the entry of `id`: `and_try_compute_with` reads the entry, then puts another one or not. -/
def call (expiry : TerminalExpiry) (s : TimedStore) (clock : Instant) (id : VerificationId) (action : StoreAction) :
    TimedStore :=
  let s := read expiry (s.expire clock id) clock id
  let system := (s.system.perform action).1
  { system, times := Function.update s.times id (settle expiry clock id (s.times id) (s.get id) (system.store.get id)) }

/-- Moka removes only present entries, and for their age only after the deadline. -/
def next (expiry : TerminalExpiry) (s : TimedStore) : TimedAction → Option TimedStore
  | .call clock action =>
    match action.target with
    | none => none
    | some id => if s.system.Enabled action then some (call expiry s clock id action) else none
  | .get clock id => some (if s.lapsed clock id then s else read expiry s clock id)
  | .remove clock id cause =>
    if (s.get id).isSome ∧ (cause = .expired → s.lapsed clock id = true) then some (s.remove id cause) else none

/-- All orders of calls, reads and removals, with any readings of the clock. -/
def lts (expiry : TerminalExpiry) (store : ProofStore) : Lts TimedStore TimedAction :=
  .ofNext (· = initial store) (next expiry)

/-- The entries that leave the store in a step without being replaced, and why. -/
def removals (s : TimedStore) : TimedAction → List (VerificationId × ProofEvictionCause)
  | .call clock action => (action.target.filter (s.lapsed clock)).toList.map fun id => (id, .expired)
  | .get _ _ => []
  | .remove _ id cause => [(id, cause)]

/-! ### What a step does to one entry -/

/-- The invariant of a store with deadlines: the deadline of an entry is counted from its last change. -/
structure Sound (expiry : TerminalExpiry) (s : TimedStore) : Prop where
  wellFormed : s.system.store.WellFormed
  fresh : s.system.ClaimsFresh
  times_isSome : ∀ id, (s.times id).isSome = (s.get id).isSome
  deadline_eq : ∀ id e times, s.get id = some e → s.times id = some times →
    times.deadline = (expiry.duration e.value).map (times.lastModified + ·)

/-- What a step can do to the entry of `id`. -/
inductive EntryStep (expiry : TerminalExpiry) (s : TimedStore) (a : TimedAction) (id : VerificationId)
    (t : TimedStore) : Prop
  | kept (hget : t.get id = s.get id) (htimes : t.times id = s.times id)
  | removed (cause : ProofEvictionCause) (hcause : (id, cause) ∈ s.removals a) (hget : t.get id = none)
    (htimes : t.times id = none)
  | put (clock : Instant) (action : StoreAction) (old : Option (Arc ProofRecord)) (e : Arc ProofRecord)
    (ha : a = .call clock action) (hold : old = s.get id ∨ old = none ∧ (id, .expired) ∈ s.removals a)
    (hmove : RecordMove s.system.store.maxProofBytes action id old e.value) (hget : t.get id = some e)
    (htimes : t.times id = some ⟨clock, (expiry.duration e.value).map (clock + ·)⟩)

end TimedStore

theorem RecordMove.target {maxBytes : Nat} [Sha256] {a : StoreAction} {id : VerificationId}
    {old : Option (Arc ProofRecord)} {r : ProofRecord} (hmove : RecordMove maxBytes a id old r) :
    a.target = some id := by
  cases hmove <;> rfl

namespace TimedStore

variable [Sha256] {expiry : TerminalExpiry} {s t : TimedStore} {a : TimedAction} {clock : Instant}
  {id id' : VerificationId}

omit [Sha256] in
theorem read_eq_self (h : s.lapsed clock id = false) : read expiry s clock id = s := by
  unfold read
  cases hget : s.get id with
  | none => rfl
  | some e =>
    have htimes : (s.times id).map (·.read expiry.policy id e clock) = s.times id := by
      unfold lapsed at h
      cases ht : s.times id with
      | none => rfl
      | some times =>
        rw [ht] at h
        exact congrArg some (EntryTimes.read_eq_self (fun _ _ => rfl) h)
    simp only [htimes, Function.update_eq_self]

theorem get_remove_self {cause : ProofEvictionCause} : (s.remove id cause).get id = none := ProofStore.get_evict_self

theorem get_remove_of_ne {cause : ProofEvictionCause} (h : id' ≠ id) : (s.remove id cause).get id' = s.get id' :=
  ProofStore.get_evict_of_ne h

@[simp] theorem times_remove_self {cause : ProofEvictionCause} : (s.remove id cause).times id = none :=
  Function.update_self ..

theorem times_remove_of_ne {cause : ProofEvictionCause} (h : id' ≠ id) : (s.remove id cause).times id' = s.times id' :=
  Function.update_of_ne h ..

theorem lapsed_expire : (s.expire clock id).lapsed clock id = false := by
  unfold expire
  split
  · simp [lapsed]
  · rename_i hlapsed
    exact Bool.eq_false_iff.2 hlapsed

theorem Sound.remove (h : s.Sound expiry) (cause : ProofEvictionCause) : (s.remove id cause).Sound expiry := by
  refine ⟨h.wellFormed.perform _, h.fresh.perform _, fun id' => ?_, fun id' e times hget htimes => ?_⟩
  · by_cases hid : id' = id
    · subst hid
      rw [times_remove_self, get_remove_self]
      rfl
    · rw [times_remove_of_ne hid, get_remove_of_ne hid]
      exact h.times_isSome id'
  · by_cases hid : id' = id
    · subst hid
      rw [get_remove_self] at hget
      cases hget
    · rw [get_remove_of_ne hid] at hget
      rw [times_remove_of_ne hid] at htimes
      exact h.deadline_eq id' e times hget htimes

theorem Sound.expire (h : s.Sound expiry) : (s.expire clock id).Sound expiry := by
  unfold TimedStore.expire
  split
  · exact h.remove .expired
  · exact h

theorem expire_cases (s : TimedStore) (clock : Instant) (id : VerificationId) {action : StoreAction}
    (htarget : action.target = some id) :
    (s.expire clock id = s) ∨
    ((id, .expired) ∈ s.removals (.call clock action) ∧ s.expire clock id = s.remove id .expired) := by
  unfold expire
  split
  · rename_i hlapsed
    exact .inr ⟨by simp [removals, htarget, hlapsed], rfl⟩
  · exact .inl rfl

omit [Sha256] in
theorem settle_self {times : Option EntryTimes} {old : Option (Arc ProofRecord)}
    (htimes : times.isSome = old.isSome) : settle expiry clock id times old old = times := by
  cases old with
  | none =>
    cases times with
    | none => rfl
    | some times => cases htimes
  | some e => simp [settle, Arc.ptrEq]

omit [Sha256] in
theorem settle_put {times : Option EntryTimes} {old : Option (Arc ProofRecord)} {e : Arc ProofRecord}
    (htimes : times.isSome = old.isSome) (hfresh : ∀ e', old = some e' → e'.addr ≠ e.addr) :
    settle expiry clock id times old (some e) = some ⟨clock, (expiry.duration e.value).map (clock + ·)⟩ := by
  cases old with
  | none => rfl
  | some e' =>
    obtain ⟨times, rfl⟩ := Option.isSome_iff_exists.1 htimes
    simp [settle, Arc.ptrEq, hfresh e' rfl, EntryTimes.updated, TerminalExpiry.policy]

private theorem entryStep_perform (clock : Instant) (hs : s.Sound expiry) {action : StoreAction}
    (htarget : action.target = some id)
    (ht : t = { system := (s.system.perform action).1
                times := Function.update s.times id
                  (settle expiry clock id (s.times id) (s.get id) ((s.system.perform action).1.store.get id)) }) :
    (t.get id = s.get id ∧ t.times id = s.times id ∨
      ∃ e, RecordMove s.system.store.maxProofBytes action id (s.get id) e.value ∧ t.get id = some e ∧
        t.times id = some ⟨clock, (expiry.duration e.value).map (clock + ·)⟩) ∧
    ∀ id', id' ≠ id → t.get id' = s.get id' ∧ t.times id' = s.times id' := by
  subst ht
  unfold get
  simp only [Function.update_self]
  rcases s.system.perform_cases action with ⟨hsame, -⟩ | ⟨id₁, r, hmove, hstore, -⟩ | ⟨id₁, cause, rfl, -, -⟩
  · rw [hsame]
    refine ⟨.inl ⟨rfl, settle_self (hs.times_isSome id)⟩, fun id' hne => ⟨rfl, Function.update_of_ne hne ..⟩⟩
  · obtain rfl : id₁ = id := Option.some.inj (hmove.target.symm.trans htarget)
    rw [hstore, ProofStore.get_put_self]
    refine ⟨.inr ⟨⟨_, r⟩, hmove, rfl, settle_put (hs.times_isSome id₁) fun e' he' => ?_⟩, fun id' hne => ⟨?_, ?_⟩⟩
    · exact (hs.fresh.entry_lt id₁ e' he').ne
    · exact ProofStore.get_put_of_ne hne r
    · exact Function.update_of_ne hne ..
  · cases htarget

/-- A step does one of three things to each entry: it leaves it alone, it removes it, or a call puts a record. -/
theorem next_entryStep (hs : s.Sound expiry) (h : next expiry s a = some t) (id : VerificationId) :
    EntryStep expiry s a id t := by
  cases a with
  | get clock id₀ =>
    have hsame : t = s := by
      cases h
      split
      · rfl
      · rename_i hlapsed
        exact read_eq_self (Bool.eq_false_iff.2 hlapsed)
    rw [hsame]
    exact .kept rfl rfl
  | remove clock id₀ cause =>
    simp only [next] at h
    split at h
    · cases h
      by_cases hid : id = id₀
      · subst hid
        exact .removed cause List.mem_cons_self get_remove_self times_remove_self
      · exact .kept (get_remove_of_ne hid) (times_remove_of_ne hid)
    · cases h
  | call clock action =>
    simp only [next] at h
    cases htarget : action.target with
    | none =>
      rw [htarget] at h
      cases h
    | some id₀ =>
      rw [htarget] at h
      simp only at h
      split at h
      · simp only [Option.some.injEq, call, read_eq_self lapsed_expire] at h
        obtain ⟨hself, hother⟩ := entryStep_perform clock hs.expire htarget h.symm
        by_cases hid : id = id₀
        · subst hid
          rcases s.expire_cases clock id htarget with hexpire | ⟨hremoved, hexpire⟩
          · rw [hexpire] at hself
            rcases hself with ⟨hget, htimes⟩ | ⟨e, hmove, hget, htimes⟩
            · exact .kept hget htimes
            · exact .put clock action _ e rfl (.inl rfl) hmove hget htimes
          · rw [hexpire, get_remove_self, times_remove_self] at hself
            rcases hself with ⟨hget, htimes⟩ | ⟨e, hmove, hget, htimes⟩
            · exact .removed .expired hremoved hget htimes
            · exact .put clock action none e rfl (.inr ⟨rfl, hremoved⟩) hmove hget htimes
        · obtain ⟨hget, htimes⟩ := hother id hid
          unfold expire at hget htimes
          split at hget
          · rw [if_pos ‹_›, times_remove_of_ne hid] at htimes
            rw [get_remove_of_ne hid] at hget
            exact .kept hget htimes
          · rw [if_neg ‹_›] at htimes
            exact .kept hget htimes
      · cases h

/-! ### Runs -/

omit [Sha256] in
@[simp] theorem read_system : (read expiry s clock id).system = s.system := by
  unfold read
  split <;> rfl

theorem next_keeps {P : StoreSystem → Prop} (hP : ∀ system action, P system → P (system.perform action).1)
    (h : next expiry s a = some t) (hs : P s.system) : P t.system := by
  cases a with
  | get clock id =>
    cases h
    split
    · exact hs
    · rwa [read_system]
  | remove clock id cause =>
    simp only [next] at h
    split at h
    · cases h
      exact hP _ _ hs
    · cases h
  | call clock action =>
    simp only [next] at h
    split at h
    · cases h
    · split at h
      · cases h
        refine hP _ _ ?_
        rw [read_system]
        unfold expire
        split
        · exact hP _ _ hs
        · exact hs
      · cases h

theorem Sound.next (hs : s.Sound expiry) (h : next expiry s a = some t) : t.Sound expiry := by
  have hsystem : t.system.store.WellFormed ∧ t.system.ClaimsFresh :=
    next_keeps (P := fun system => system.store.WellFormed ∧ system.ClaimsFresh)
      (fun _ action hsystem => ⟨hsystem.1.perform action, hsystem.2.perform action⟩) h ⟨hs.wellFormed, hs.fresh⟩
  refine ⟨hsystem.1, hsystem.2, fun id => ?_, fun id e times hget htimes => ?_⟩
  · cases next_entryStep hs h id with
    | kept hget htimes => rw [hget, htimes, hs.times_isSome id]
    | removed cause hcause hget htimes | put clock action old e ha hold hmove hget htimes =>
      rw [hget, htimes]
      rfl
  · cases next_entryStep hs h id with
    | kept hget' htimes' =>
      rw [hget'] at hget
      rw [htimes'] at htimes
      exact hs.deadline_eq id e times hget htimes
    | removed cause hcause hget' htimes' =>
      rw [hget'] at hget
      cases hget
    | put clock action old e' ha hold hmove hget' htimes' =>
      rw [hget'] at hget
      rw [htimes'] at htimes
      cases hget
      cases htimes
      rfl

theorem Sound.initial {store : ProofStore} (hempty : ∀ id, store.get id = none) :
    (initial store).Sound expiry := by
  have hget : ∀ id e, (TimedStore.initial store).get id ≠ some e := by
    intro id e he
    cases (hempty id).symm.trans he
  refine ⟨fun id e he => absurd he (hget id e), ⟨fun id e he => absurd he (hget id e), ?_, ?_, ?_⟩, ?_, ?_⟩
  · rintro job ⟨⟩
  · exact .nil
  · rintro job ⟨⟩
  · intro id
    rw [show (TimedStore.initial store).get id = none from hempty id]
    rfl
  · rintro id e times - ⟨⟩

/-- A deadline is there exactly for a completed record. -/
theorem Sound.deadline_isSome_iff (hs : s.Sound expiry) {e : Arc ProofRecord} (he : s.get id = some e) :
    (s.deadline id).isSome ↔ e.value.Completed := by
  have hsome := hs.times_isSome id
  rw [he] at hsome
  obtain ⟨times, htimes⟩ := Option.isSome_iff_exists.1 hsome
  rw [deadline, htimes, Option.bind_some, hs.deadline_eq id e times he htimes, Option.isSome_map,
    Option.isSome_iff_exists]
  simp only [TerminalExpiry.duration_eq_some_iff, exists_and_left, exists_eq, and_true]

theorem lapsed_of_removals (h : next expiry s a = some t) (hid : (id, .expired) ∈ s.removals a) :
    s.lapsed a.clock id = true := by
  cases a with
  | get clock id₀ => cases hid
  | remove clock id₀ cause =>
    simp only [removals, List.mem_singleton, Prod.mk.injEq] at hid
    obtain ⟨rfl, rfl⟩ := hid
    simp only [next] at h
    split at h
    · rename_i henabled
      exact henabled.2 trivial
    · cases h
  | call clock action =>
    simp only [removals, List.mem_map, Prod.mk.injEq, and_true, exists_eq_right] at hid
    rw [Option.mem_toList, Option.filter_eq_some_iff] at hid
    exact hid.2

variable {store : ProofStore} {as : List TimedAction}

/-- In the run `as` to `s`, the record `e` of `id` was put at `clock` by the call of `finish_verification` that
committed its verdict, and it has been there since. -/
def CommittedAt (expiry : TerminalExpiry) (store : ProofStore) (as : List TimedAction) (s : TimedStore)
    (id : VerificationId) (e : Arc ProofRecord) (clock : Instant) : Prop :=
  ∃ before now job verdict after u claim v,
    as = before ++ .call clock (.finishVerification now job (.completed verdict)) :: after ∧
    job.verificationId = id ∧ e.value.metadata.verification = some (.completed verdict) ∧
    (lts expiry store).Run (initial store) before u ∧ u.get id = some claim ∧
    claim.value.metadata.verification = some .verifying ∧
    next expiry u (.call clock (.finishVerification now job (.completed verdict))) = some v ∧ v.get id = some e ∧
    (lts expiry store).Run v after s

theorem CommittedAt.snoc {e : Arc ProofRecord} {clock : Instant} (h : CommittedAt expiry store as s id e clock)
    {a : TimedAction} (hstep : next expiry s a = some t) : CommittedAt expiry store (as ++ [a]) t id e clock := by
  obtain ⟨before, now, job, verdict, after, u, claim, v, rfl, hid, he, hbefore, hu, hclaim, hcommit, hv, hafter⟩ := h
  exact ⟨before, now, job, verdict, after ++ [a], u, claim, v, by simp, hid, he, hbefore, hu, hclaim, hcommit, hv,
    hafter.snoc hstep⟩

/-- Along every run the deadline of a completed record is counted from the commit of its verdict. -/
theorem run_committed (hempty : ∀ id, store.get id = none) (hrun : (lts expiry store).Run (initial store) as s) :
    s.Sound expiry ∧ ∀ id e, s.get id = some e → e.value.Completed →
      ∃ clock, CommittedAt expiry store as s id e clock ∧ s.deadline id = some (clock + expiry.retention) := by
  let P : List TimedAction → TimedStore → Prop := fun as s =>
    (lts expiry store).Run (initial store) as s ∧ s.Sound expiry ∧ ∀ id e, s.get id = some e → e.value.Completed →
      ∃ clock, CommittedAt expiry store as s id e clock ∧ s.deadline id = some (clock + expiry.retention)
  suffices hP : P as s from hP.2
  refine hrun.invariant_trace (P := P) ?_ ⟨.refl _, .initial hempty, fun id e he => ?_⟩
  · rintro as s a t ⟨hrun, hs, hcommitted⟩ hst
    refine ⟨hrun.snoc hst, hs.next hst, fun id e he hcompleted => ?_⟩
    cases next_entryStep hs hst id with
    | kept hget htimes =>
      obtain ⟨clock, hcommit, hdeadline⟩ := hcommitted id e (hget ▸ he) hcompleted
      refine ⟨clock, hcommit.snoc hst, ?_⟩
      rw [deadline, htimes]
      exact hdeadline
    | removed cause hcause hget htimes => cases hget.symm.trans he
    | put clock action old e' ha hold hmove hget htimes =>
      cases hget.symm.trans he
      obtain ⟨verdict, hverdict⟩ := hcompleted
      -- the verdict was not there before, so this is the call that commits it
      have hwf : ∀ e', old = some e' → e'.value.WellFormed s.system.store.maxProofBytes id := by
        rintro e' rfl
        rcases hold with hold | ⟨hnone, -⟩
        · exact hs.wellFormed id e' hold.symm
        · cases hnone
      obtain ⟨now, job, claim, rfl, hid, rfl, hclaim⟩ := hmove.completed hwf hverdict
      rcases hold with hold | ⟨hnone, -⟩
      · subst ha
        refine ⟨clock, ⟨as, now, job, verdict, [], s, claim, t, rfl, hid, hverdict, hrun, hold.symm, hclaim, hst, he,
          .refl t⟩, ?_⟩
        rw [deadline, htimes, Option.bind_some, TerminalExpiry.duration_eq_some_iff.2 ⟨⟨verdict, hverdict⟩, rfl⟩]
        rfl
      · cases hnone
  · cases (hempty id).symm.trans he

/-- Retention starts with the verdict and is never extended.  At any point of any run, with any readings of the clock:
an entry has a deadline exactly if its record is completed, and the deadline is the time at which `finish_verification`
committed the verdict plus the retention.  The next step, whatever call, read or removal it is, leaves a completed entry
and its deadline alone or removes the entry; and what it removes as expired is a completed record whose verdict is at
least as old as the retention. -/
theorem run_retention {config : ProofStoreConfig} (hnew : ProofStore.new config = .ok store)
    (hrun : (lts ⟨config.terminalRetention⟩ store).Run (initial store) as s) :
    (∀ id e, s.get id = some e → ((s.deadline id).isSome ↔ e.value.Completed) ∧
      (e.value.Completed → ∃ clock, CommittedAt ⟨config.terminalRetention⟩ store as s id e clock ∧
        s.deadline id = some (clock + config.terminalRetention))) ∧
    ∀ a t, next ⟨config.terminalRetention⟩ s a = some t →
      (∀ id e, s.get id = some e → e.value.Completed →
        (t.get id = some e ∧ t.deadline id = s.deadline id) ∨ ∃ cause, (id, cause) ∈ s.removals a) ∧
      ∀ id, (id, .expired) ∈ s.removals a → ∃ e clock, s.get id = some e ∧ e.value.Completed ∧
        CommittedAt ⟨config.terminalRetention⟩ store as s id e clock ∧ clock + config.terminalRetention ≤ a.clock := by
  obtain ⟨hs, hcommitted⟩ := run_committed (ProofStore.new_get hnew) hrun
  refine ⟨fun id e he => ⟨hs.deadline_isSome_iff he, hcommitted id e he⟩, fun a t hst => ⟨?_, ?_⟩⟩
  · intro id e he hcompleted
    cases next_entryStep hs hst id with
    | kept hget htimes =>
      refine .inl ⟨hget.trans he, ?_⟩
      rw [deadline, htimes]
      rfl
    | removed cause hcause hget htimes => exact .inr ⟨cause, hcause⟩
    | put clock action old e' ha hold hmove hget htimes =>
      rcases hold with rfl | ⟨-, hcause⟩
      · -- no move starts from a verdict
        obtain ⟨verdict, hverdict⟩ := hcompleted
        rw [he] at hmove
        exact absurd hverdict ((hmove.verification_step (hs.wellFormed id e he)).2 verdict)
      · exact .inr ⟨.expired, hcause⟩
  · intro id hid
    have hlapsed := lapsed_of_removals hst hid
    obtain ⟨times, htimes, hpassed⟩ := (Option.any_eq_true _ _).1 hlapsed
    obtain ⟨deadline, hdeadline, hle⟩ := EntryTimes.lapsed_iff.1 hpassed
    have hsome := hs.times_isSome id
    rw [htimes] at hsome
    obtain ⟨e, he⟩ := Option.isSome_iff_exists.1 hsome.symm
    have hid' : s.deadline id = some deadline := by rw [TimedStore.deadline, htimes, Option.bind_some, hdeadline]
    have hcompleted : e.value.Completed := (hs.deadline_isSome_iff he).1 (by rw [hid']; rfl)
    obtain ⟨clock, hcommit, hclock⟩ := hcommitted id e he hcompleted
    obtain rfl : deadline = clock + config.terminalRetention := Option.some.inj (hid'.symm.trans hclock)
    exact ⟨e, clock, he, hcompleted, hcommit, hle⟩

end TimedStore

/-- A verdict committed at 20 with a retention of 60: neither a read at 50 nor another observation at 70 moves the
deadline, and the record can leave as expired at 80, not at 79. -/
theorem TimedStore.run_retention_small :
    letI := Sha256.standard
    let id := Proof.small.verificationId
    let job : VerificationJob :=
      ⟨id, .small, ⟨2, ⟨⟨some 9, some .rpc, some 10, some .verifying, none⟩, some .small⟩⟩⟩
    let expiry : TerminalExpiry := ⟨ProofStoreConfig.small.terminalRetention⟩
    let as : List TimedAction :=
      [.call 10 (.observeChainVerification 9 id), .call 11 (.insertLocalProof 10 .small .rpc),
        .call 12 (.beginVerification id), .call 20 (.finishVerification 19 job (.completed .valid)), .get 50 id,
        .call 70 (.observeChainVerification 69 id)]
    ∃ s t, (lts expiry .small).Run (initial .small) as s ∧ s.deadline id = some 80 ∧
      (next expiry s (.remove 79 id .expired)).isNone ∧ next expiry s (.remove 80 id .expired) = some t ∧
      ∃ e clock, s.get id = some e ∧ e.value.Completed ∧ CommittedAt expiry .small as s id e clock ∧
        clock + expiry.retention ≤ 80 := by
  let _ := Sha256.standard
  intro id job expiry as
  have hexec : (Lts.exec (next expiry) (initial .small) as).any (fun s =>
      decide (s.deadline id = some 80) && (next expiry s (.remove 79 id .expired)).isNone &&
        (next expiry s (.remove 80 id .expired)).isSome) = true := by decide +kernel
  obtain ⟨s, hs, hfacts⟩ := (Option.any_eq_true _ _).1 hexec
  simp only [Bool.and_eq_true, decide_eq_true_eq] at hfacts
  obtain ⟨⟨hdeadline, hearly⟩, hremove⟩ := hfacts
  obtain ⟨t, ht⟩ := Option.isSome_iff_exists.1 hremove
  have hrun : (lts expiry .small).Run (initial .small) as s := Lts.run_of_exec hs
  obtain ⟨-, hstep⟩ := run_retention (show ProofStore.new .small = .ok .small from rfl) hrun
  exact ⟨s, t, hrun, hdeadline, hearly, ht, (hstep _ t ht).2 id (List.mem_singleton_self _)⟩

end PulsarVerifier
