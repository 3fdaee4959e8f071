import Mathlib.Data.List.Basic

/-!
# Chains of checks

A validation is a chain of checks and partial functions in `Except`.  `rejectIf` is one check; a chain succeeds
exactly if each of its links does (`bind_eq_ok_iff`).
-/

namespace Except

variable {ε α β : Type}

def rejectIf (p : Prop) [Decidable p] (error : ε) : Except ε Unit := if p then .error error else .ok ()

theorem bind_eq_ok_iff {x : Except ε α} {f : α → Except ε β} {b : β} :
    (x >>= f) = .ok b ↔ ∃ a, x = .ok a ∧ f a = .ok b := by
  cases x with
  | error error => exact ⟨fun h => (nomatch h), fun ⟨_, h, _⟩ => (nomatch h)⟩
  | ok a =>
    constructor
    · intro h
      exact ⟨a, rfl, h⟩
    · rintro ⟨a', h, hf⟩
      cases h
      exact hf

theorem rejectIf_eq_ok_iff {p : Prop} [Decidable p] {error : ε} {u : Unit} : rejectIf p error = .ok u ↔ ¬ p := by
  unfold rejectIf
  by_cases hp : p
  · simp [hp]
  · simp [hp]

/-- Every error of the computation has the property. -/
def OnlyFails (P : ε → Prop) (x : Except ε α) : Prop := ∀ error, x = .error error → P error

theorem OnlyFails.bind {P : ε → Prop} {x : Except ε α} {f : α → Except ε β} (hx : OnlyFails P x)
    (hf : ∀ a, x = .ok a → OnlyFails P (f a)) : OnlyFails P (x >>= f) := by
  intro error h
  cases hresult : x with
  | error error' =>
    rw [hresult] at h
    cases h
    exact hx error hresult
  | ok a =>
    rw [hresult] at h
    exact hf a hresult error h

theorem OnlyFails.rejectIf {P : ε → Prop} {p : Prop} [Decidable p] {error : ε} (h : p → P error) :
    OnlyFails P (rejectIf p error) := by
  intro error' h'
  unfold Except.rejectIf at h'
  split at h'
  · cases h'
    exact h ‹p›
  · cases h'

theorem OnlyFails.ok {P : ε → Prop} {a : α} : OnlyFails P (.ok a : Except ε α) := by
  intro error h
  cases h

theorem OnlyFails.error {P : ε → Prop} {e : ε} (h : P e) : OnlyFails P (.error e : Except ε α) := by
  intro error herror
  cases herror
  exact h

theorem mem_of_mapM_eq_ok {f : α → Except ε β} {as : List α} {bs : List β} (h : as.mapM f = .ok bs) {a : α}
    (ha : a ∈ as) : ∃ b ∈ bs, f a = .ok b := by
  induction as generalizing bs with
  | nil => cases ha
  | cons first rest ih =>
    rw [List.mapM_cons, bind_eq_ok_iff] at h
    obtain ⟨b, hb, h⟩ := h
    obtain ⟨others, hothers, h⟩ := bind_eq_ok_iff.1 h
    cases h
    rcases List.mem_cons.1 ha with rfl | ha
    · exact ⟨b, List.mem_cons_self, hb⟩
    · obtain ⟨b', hb', hf⟩ := ih hothers ha
      exact ⟨b', List.mem_cons_of_mem _ hb', hf⟩

end Except
