import Mathlib.Data.Set.Insert
import PulsarVerifier.Lib.Broadcast

/-!
# A set mirrored through a lossy channel

The owner of a set reports its changes through a channel, and a reader replays them on a copy.  A removal is reported at
once; an addition may be reported later, and until then its key is pending.  `Mirrors` says that the copy will be right
once the reports under way are replayed; a reader that has lost reports has no copy, and then this is only said of the
keys that a report names.  A snapshot of the set gives the reader a copy again (`Mirrors.refresh`).
-/

inductive Update (κ : Type)
  | add (k : κ)
  | remove (k : κ)

namespace Update

variable {κ : Type}

def key : Update κ → κ
  | add k | remove k => k

def apply : Update κ → Set κ → Set κ
  | add k, S => insert k S
  | remove k, S => S \ {k}

/-- The set after the updates `us`, in this order. -/
def replay (us : List (Update κ)) (S : Set κ) : Set κ := us.foldl (fun S u => u.apply S) S

variable {us : List (Update κ)} {u : Update κ} {S : Set κ} {k : κ}

theorem replay_append (us' : List (Update κ)) : replay (us ++ us') S = replay us' (replay us S) := List.foldl_append

theorem mem_apply_of_ne (h : u.key ≠ k) : k ∈ u.apply S ↔ k ∈ S := by
  cases u with
  | add k' =>
    rw [apply, Set.mem_insert_iff]
    exact or_iff_right (fun heq => h heq.symm)
  | remove k' =>
    rw [apply, Set.mem_sdiff, Set.mem_singleton_iff]
    exact and_iff_left (fun heq => h heq.symm)

theorem mem_replay_of_unnamed (h : k ∉ us.map key) : k ∈ replay us S ↔ k ∈ S := by
  induction us generalizing S with
  | nil => exact Iff.rfl
  | cons u us ih =>
    rw [List.map_cons, List.mem_cons, not_or] at h
    exact (ih h.2).trans (mem_apply_of_ne (fun heq => h.1 heq.symm))

theorem mem_replay_of_named (S S' : Set κ) (h : k ∈ us.map key) : k ∈ replay us S ↔ k ∈ replay us S' := by
  induction us generalizing S S' with
  | nil => cases h
  | cons u us ih =>
    by_cases hlater : k ∈ us.map key
    · exact ih _ _ hlater
    · -- the first update is the only one that names the key
      have hkey : u.key = k := by
        rw [List.map_cons, List.mem_cons] at h
        exact (h.resolve_right hlater).symm
      have hfirst : k ∈ u.apply S ↔ k ∈ u.apply S' := by
        cases u with
        | add k' =>
          obtain rfl : k' = k := hkey
          exact iff_of_true (Set.mem_insert _ _) (Set.mem_insert _ _)
        | remove k' =>
          obtain rfl : k' = k := hkey
          exact iff_of_false (fun hmem => hmem.2 rfl) (fun hmem => hmem.2 rfl)
      exact (mem_replay_of_unnamed hlater).trans (hfirst.trans (mem_replay_of_unnamed hlater).symm)

end Update

open Update

/-- The reader is right about `k`, except that it may not know yet that it was added. -/
def Right {κ : Type} (held pending S : Set κ) (k : κ) : Prop := (k ∈ held → k ∈ S ∨ k ∈ pending) ∧ (k ∈ S → k ∈ held)

/-- The copy of the reader is right once the updates under way are replayed. -/
def Mirrors {κ : Type} (held pending : Set κ) (us : List (Update κ)) (copy : Option (Set κ)) : Prop :=
  ∀ k S, k ∈ us.map key ∨ S ∈ copy → Right held pending (replay us S) k

namespace Mirrors

variable {κ : Type} {held held' pending pending' : Set κ} {us : List (Update κ)} {u : Update κ} {copy : Option (Set κ)}
  {k : κ}

theorem weaken (h : Mirrors held pending us copy) : Mirrors held pending us none := by
  intro k S hk
  exact h k S (hk.imp_right (fun hS => nomatch hS))

/-- A snapshot is a right copy: the updates that are under way do no harm. -/
theorem refresh (h : Mirrors held pending us copy) : Mirrors held pending us (some held) := by
  intro k S hk
  by_cases hnamed : k ∈ us.map key
  · exact h k S (.inl hnamed)
  · obtain rfl : held = S := Option.some.inj (hk.resolve_left hnamed)
    rw [Right, mem_replay_of_unnamed hnamed]
    exact ⟨.inl, id⟩

theorem tail (h : Mirrors held pending (u :: us) copy) : Mirrors held pending us (copy.map u.apply) := by
  intro k S hk
  rcases hk with hnamed | hS
  · have hright := h k S (.inl (List.mem_cons_of_mem _ hnamed))
    change Right held pending (replay us (u.apply S)) k at hright
    rwa [Right, mem_replay_of_named _ S hnamed] at hright
  · obtain ⟨S₀, hS₀, rfl⟩ := Option.map_eq_some_iff.1 hS
    exact h k S₀ (.inr hS₀)

theorem commit (h : Mirrors held pending us copy) (hheld : held ⊆ held') (hpending : pending ⊆ pending')
    (hadded : held' ⊆ held ∪ pending') : Mirrors held' pending' us copy := by
  intro k S hk
  obtain ⟨hknown, hright⟩ := h k S hk
  refine ⟨fun hmem => ?_, fun hmem => hheld (hright hmem)⟩
  rcases hadded hmem with hmem | hmem
  · exact (hknown hmem).imp_right (fun hmem => hpending hmem)
  · exact .inr hmem

private theorem named_append (hne : u.key ≠ k) {S : Set κ} (h : k ∈ (us ++ [u]).map key ∨ S ∈ copy) :
    k ∈ us.map key ∨ S ∈ copy := by
  refine h.imp_left (fun hmem => ?_)
  rw [List.map_append, List.mem_append, List.map_singleton, List.mem_singleton] at hmem
  exact hmem.resolve_right (fun heq => hne heq.symm)

/-- An addition is reported while the key is held. -/
theorem report_add (h : Mirrors held pending us copy) (hheld : k ∈ held) (hpending : pending ⊆ insert k pending') :
    Mirrors held pending' (us ++ [.add k]) copy := by
  intro k' S hk
  rw [Right, replay_append]
  by_cases heq : k = k'
  · subst heq
    exact ⟨fun _ => .inl (Set.mem_insert _ _), fun _ => hheld⟩
  · obtain ⟨hknown, hright⟩ := h k' S (named_append (u := .add k) heq hk)
    change (k' ∈ held → k' ∈ Update.apply (.add k) (replay us S) ∨ k' ∈ pending') ∧
      (k' ∈ Update.apply (.add k) (replay us S) → k' ∈ held)
    rw [mem_apply_of_ne (u := .add k) heq]
    refine ⟨fun hmem => (hknown hmem).imp_right (fun hmem => ?_), hright⟩
    exact (Set.mem_insert_iff.1 (hpending hmem)).resolve_left (fun heq' => heq heq'.symm)

/-- A removal is reported in the same step. -/
theorem report_remove (h : Mirrors held pending us copy) : Mirrors (held \ {k}) pending (us ++ [.remove k]) copy := by
  intro k' S hk
  rw [Right, replay_append]
  by_cases heq : k = k'
  · subst heq
    exact ⟨fun hmem => absurd rfl hmem.2, fun hmem => absurd rfl hmem.2⟩
  · obtain ⟨hknown, hright⟩ := h k' S (named_append (u := .remove k) heq hk)
    change (k' ∈ held \ {k} → k' ∈ Update.apply (.remove k) (replay us S) ∨ k' ∈ pending) ∧
      (k' ∈ Update.apply (.remove k) (replay us S) → k' ∈ held \ {k})
    rw [mem_apply_of_ne (u := .remove k) heq]
    exact ⟨fun hmem => hknown hmem.1, fun hmem => ⟨hright hmem, fun heq' => heq heq'.symm⟩⟩

theorem eq_held {S : Set κ} (h : Mirrors held ∅ [] (some S)) : S = held := by
  ext k
  obtain ⟨hknown, hright⟩ := h k S (.inr rfl)
  exact ⟨hright, fun hmem => (hknown hmem).resolve_right (Set.notMem_empty k)⟩

/-! ### Over a bounded channel -/

variable {ε : Type} {r : Receiver ε}

/-- A report goes into the channel; if this drops an older one, the reader has lost its copy. -/
theorem send (update : ε → Option (Update κ)) (capacity : Nat) (value : ε)
    (h : Mirrors held pending (r.queue.filterMap update ++ (update value).toList) copy) :
    Mirrors held pending ((r.send capacity value).queue.filterMap update)
      (if (r.send capacity value).lagged then none else copy) := by
  have happend : (r.queue ++ [value]).filterMap update = r.queue.filterMap update ++ (update value).toList := by
    rw [List.filterMap_append, List.filterMap_cons]
    cases update value <;> rfl
  rw [← happend] at h
  unfold Receiver.send
  by_cases hroom : r.queue.length < capacity
  · rw [if_pos hroom]
    split_ifs
    · exact h.weaken
    · exact h
  · -- the oldest value is dropped
    rw [if_neg hroom]
    change Mirrors held pending ((r.queue ++ [value]).tail.filterMap update) none
    cases hqueue : r.queue ++ [value] with
    | nil => simp at hqueue
    | cons first rest =>
      rw [hqueue] at h
      rw [List.tail_cons]
      cases hfirst : update first with
      | none =>
        rw [List.filterMap_cons_none hfirst] at h
        exact h.weaken
      | some u =>
        rw [List.filterMap_cons_some hfirst] at h
        exact h.tail.weaken

end Mirrors
