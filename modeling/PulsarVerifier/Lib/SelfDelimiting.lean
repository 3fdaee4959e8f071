import Mathlib.Data.List.Infix
import Mathlib.InformationTheory.Coding.UniquelyDecodable

/-!
# Self-delimiting words

A set of words is self-delimiting if no word of it is empty or the beginning of another one.  Such a word can be read
off the front of any text, so a text is in at most one way a sequence of such words.
-/

/-- No word is empty, and none is the beginning of another. -/
structure SelfDelimiting {α : Type} (words : Set (List α)) : Prop where
  ne_nil : ∀ w ∈ words, w ≠ []
  eq_of_isPrefix : ∀ v ∈ words, ∀ w ∈ words, v <+: w → v = w

namespace SelfDelimiting

variable {α : Type} {words : Set (List α)}

/-- The word at the front of a text, and what follows it, are determined by the text. -/
theorem append_inj (h : SelfDelimiting words) {v w x y : List α} (hv : v ∈ words) (hw : w ∈ words)
    (heq : v ++ x = w ++ y) : v = w ∧ x = y := by
  have hvw : v = w := by
    rcases List.append_eq_append_iff.1 heq with ⟨z, hz, -⟩ | ⟨z, hz, -⟩
    · exact h.eq_of_isPrefix v hv w hw ⟨z, hz.symm⟩
    · exact (h.eq_of_isPrefix w hw v hv ⟨z, hz.symm⟩).symm
  subst hvw
  exact ⟨rfl, List.append_cancel_left heq⟩

theorem uniquelyDecodable (h : SelfDelimiting words) : InformationTheory.UniquelyDecodable words := by
  intro vs ws hvs hws heq
  induction vs generalizing ws with
  | nil =>
    cases ws with
    | nil => rfl
    | cons w ws =>
      have hw : w = [] := List.append_eq_nil_iff.1 (List.flatten_cons ▸ heq.symm) |>.1
      exact absurd hw (h.ne_nil w (hws w List.mem_cons_self))
  | cons v vs ih =>
    rw [List.forall_mem_cons] at hvs
    cases ws with
    | nil =>
      have hv : v = [] := List.append_eq_nil_iff.1 (List.flatten_cons ▸ heq) |>.1
      exact absurd hv (h.ne_nil v hvs.1)
    | cons w ws =>
      rw [List.forall_mem_cons] at hws
      rw [List.flatten_cons, List.flatten_cons] at heq
      obtain ⟨rfl, hrest⟩ := h.append_inj hvs.1 hws.1 heq
      rw [ih ws hvs.2 hws.2 hrest]

end SelfDelimiting
