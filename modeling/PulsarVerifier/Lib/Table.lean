import Mathlib.Data.Finset.Card
import Mathlib.Data.List.AList

/-!
# Entries of a finite map

`retain` visits every entry of an association list once and keeps it, changes it or drops it; and some facts about the
entries that are left after an erasure.
-/

namespace AList

variable {α : Type} {β : α → Type} [DecidableEq α]

/-- The entry of `a` becomes `f a b`, or is dropped. -/
def retain (f : (a : α) → β a → Option (β a)) (m : AList β) : AList β where
  entries := m.entries.filterMap fun s => (f s.1 s.2).map (Sigma.mk s.1)
  nodupKeys := by
    have hsub : ∀ l : List (Sigma β),
        (l.filterMap fun s => (f s.1 s.2).map (Sigma.mk s.1)).keys.Sublist l.keys := by
      intro l
      induction l with
      | nil => exact List.Sublist.refl _
      | cons s l ih =>
        rw [List.filterMap_cons]
        cases f s.1 s.2 with
        | none => exact ih.trans (List.sublist_cons_self _ _)
        | some b => exact ih.cons_cons s.1
    exact (hsub m.entries).nodup m.nodupKeys

theorem lookup_retain (f : (a : α) → β a → Option (β a)) (m : AList β) (a : α) :
    (m.retain f).lookup a = (m.lookup a).bind (f a) := by
  obtain ⟨l, hl⟩ := m
  change List.dlookup a (l.filterMap fun s => (f s.1 s.2).map (Sigma.mk s.1)) = (List.dlookup a l).bind (f a)
  have hnone : ∀ l : List (Sigma β), a ∉ l.keys →
      List.dlookup a (l.filterMap fun s => (f s.1 s.2).map (Sigma.mk s.1)) = none := by
    intro l hl
    rw [List.dlookup_eq_none]
    intro hmem
    obtain ⟨b, hb⟩ := List.exists_of_mem_keys hmem
    obtain ⟨s, hs, hsb⟩ := List.mem_filterMap.1 hb
    obtain ⟨b', -, he⟩ := Option.map_eq_some_iff.1 hsb
    cases he
    exact hl (List.mem_keys_of_mem hs)
  induction l with
  | nil => rfl
  | cons s l ih =>
    have hnd := List.nodupKeys_cons.1 hl
    rw [List.filterMap_cons]
    by_cases hs : s.1 = a
    · -- the key is here, and nowhere in the tail
      obtain ⟨a', b⟩ := s
      obtain rfl : a' = a := hs
      rw [List.dlookup_cons_eq]
      change _ = f a' b
      cases hf : f a' b with
      | none => exact hnone l hnd.1
      | some b' => exact List.dlookup_cons_eq _ _ _
    · rw [List.dlookup_cons_ne _ _ (Ne.symm hs), ← ih hnd.2]
      cases f s.1 s.2 with
      | none => rfl
      | some b' => exact List.dlookup_cons_ne _ ⟨s.1, b'⟩ (Ne.symm hs)

theorem lookup_erase_eq_ite (m : AList β) (a a' : α) :
    (m.erase a).lookup a' = if a' = a then none else m.lookup a' := by
  by_cases ha : a' = a
  · subst ha
    rw [if_pos rfl, lookup_erase]
  · rw [if_neg ha, lookup_erase_ne ha]

theorem lookup_erase_some {m : AList β} {a a' : α} {b : β a'} (h : (m.erase a).lookup a' = some b) :
    a' ≠ a ∧ m.lookup a' = some b := by
  by_cases ha : a' = a
  · subst ha
    rw [lookup_erase] at h
    cases h
  · exact ⟨ha, by rwa [lookup_erase_ne ha] at h⟩

omit [DecidableEq α] in
theorem keys_eq_nil {m : AList β} : m.keys = [] ↔ m = ∅ := by
  constructor
  · intro h
    exact ext (List.map_eq_nil_iff.1 h)
  · rintro rfl
    rfl

theorem eq_empty_of_lookup {m : AList β} (h : ∀ a b, m.lookup a ≠ some b) : m = ∅ := by
  rw [← keys_eq_nil, List.eq_nil_iff_forall_not_mem]
  intro a ha
  obtain ⟨b, hb⟩ := Option.isSome_iff_exists.1 (lookup_isSome.2 ha)
  exact h a b hb

/-- The keys whose entries have a property are as many as these entries. -/
theorem card_eq_countP {m : AList β} {p : Sigma β → Bool} {ks : Finset α}
    (h : ∀ a, a ∈ ks ↔ ∃ b, m.lookup a = some b ∧ p ⟨a, b⟩ = true) : ks.card = m.entries.countP p := by
  have hnodup : ((m.entries.filter p).map Sigma.fst).Nodup :=
    (List.filter_sublist.map Sigma.fst).nodup m.nodupKeys
  have hks : ks = ((m.entries.filter p).map Sigma.fst).toFinset := by
    ext a
    rw [h, List.mem_toFinset, List.mem_map]
    constructor
    · rintro ⟨b, hb, hp⟩
      exact ⟨⟨a, b⟩, List.mem_filter.2 ⟨mem_lookup_iff.1 hb, hp⟩, rfl⟩
    · rintro ⟨⟨a, b⟩, he, rfl⟩
      obtain ⟨he, hp⟩ := List.mem_filter.1 he
      exact ⟨b, mem_lookup_iff.2 he, hp⟩
  rw [hks, List.toFinset_card_of_nodup hnodup, List.length_map, List.countP_eq_length_filter]

end AList
