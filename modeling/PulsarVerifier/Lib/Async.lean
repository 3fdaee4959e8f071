import Mathlib.Data.List.Basic

/-!
# Calls that may wait

The state of an asynchronous call: it waits, it has panicked, it has failed or it has returned.  What a call reads from
outside comes in over time; a call that has ended on a part of it has the same end on the whole (`Before`).  `select`
polls a call together with a cancellation.
-/

namespace Async

inductive Outcome (ε α : Type)
  | pending
  | panicked (message : String)
  | failed (error : ε)
  | returned (value : α)
  deriving DecidableEq

namespace Outcome

variable {ε α β γ : Type}

def bind : Outcome ε α → (α → Outcome ε β) → Outcome ε β
  | .pending, _ => .pending
  | .panicked message, _ => .panicked message
  | .failed error, _ => .failed error
  | .returned value, f => f value

instance : Monad (Outcome ε) where
  pure := .returned
  bind := Outcome.bind

theorem bind_eq_returned_iff {x : Outcome ε α} {f : α → Outcome ε β} {b : β} :
    (x >>= f) = .returned b ↔ ∃ a, x = .returned a ∧ f a = .returned b := by
  constructor
  · intro h
    cases x with
    | returned a => exact ⟨a, rfl, h⟩
    | pending | panicked | failed => cases h
  · rintro ⟨a, rfl, h⟩
    exact h

/-- The call has not panicked, and its failure has the property. -/
def Within (P : ε → Prop) (x : Outcome ε α) : Prop :=
  (∀ message, x ≠ .panicked message) ∧ ∀ error, x = .failed error → P error

theorem Within.pending {P : ε → Prop} : Within P (.pending : Outcome ε α) := ⟨nofun, nofun⟩

theorem Within.returned {P : ε → Prop} (a : α) : Within P (.returned a) := ⟨nofun, nofun⟩

theorem Within.failed {P : ε → Prop} {error : ε} (h : P error) : Within P (.failed error : Outcome ε α) := by
  refine ⟨nofun, ?_⟩
  rintro _ ⟨⟩
  exact h

theorem Within.bind {P : ε → Prop} {x : Outcome ε α} {f : α → Outcome ε β} (hx : Within P x)
    (hf : ∀ a, Within P (f a)) : Within P (x >>= f) := by
  cases x with
  | pending => exact .pending
  | panicked message => exact absurd rfl (hx.1 message)
  | failed error => exact .failed (hx.2 error rfl)
  | returned a => exact hf a

/-! ### Seeing more of the outside -/

/-- The first call waits, or both have ended in the same way, with related results. -/
inductive Before (R : α → β → Prop) : Outcome ε α → Outcome ε β → Prop
  | pending (y : Outcome ε β) : Before R .pending y
  | panicked (message : String) : Before R (.panicked message) (.panicked message)
  | failed (error : ε) : Before R (.failed error) (.failed error)
  | returned {a : α} {b : β} (h : R a b) : Before R (.returned a) (.returned b)

theorem Before.bind {α' β' : Type} {R : α → α' → Prop} {S : β → β' → Prop} {x : Outcome ε α} {y : Outcome ε α'}
    {f : α → Outcome ε β} {g : α' → Outcome ε β'} (h : Before R x y)
    (hfg : ∀ a a', R a a' → Before S (f a) (g a')) : Before S (x >>= f) (y >>= g) := by
  cases h with
  | pending y => exact .pending _
  | panicked message => exact .panicked message
  | failed error => exact .failed error
  | returned h => exact hfg _ _ h

theorem Before.eq {x y : Outcome ε α} (h : Before Eq x y) (hended : x ≠ .pending) : x = y := by
  cases h with
  | pending y => exact absurd rfl hended
  | panicked message | failed error => rfl
  | returned h => rw [h]

end Outcome

/-! ### Cancellation -/

/-- One poll of a call together with a cancellation. -/
structure Poll (σ : Type) where
  /-- What the call sees of the outside. -/
  view : σ
  cancelled : Bool
  /-- The cancellation is looked at before the call. -/
  cancelFirst : Bool
  deriving DecidableEq

variable {σ ε δ α : Type}

def settle : Outcome ε α → Outcome δ (Option (Except ε α))
  | .pending => .pending
  | .panicked message => .panicked message
  | .failed error => .returned (some (.error error))
  | .returned value => .returned (some (.ok value))

/-- Whichever is ready first, on successive polls; `none` is the cancellation. -/
def select (call : σ → Outcome ε α) : List (Poll σ) → Outcome δ (Option (Except ε α))
  | [] => .pending
  | poll :: later =>
    if poll.cancelled && poll.cancelFirst then .returned none
    else
      match call poll.view with
      | .pending => if poll.cancelled then .returned none else select call later
      | ended => settle ended

/-- The call ends at some poll, and no cancellation is taken before. -/
def Finishes (call : σ → Outcome ε α) (polls : List (Poll σ)) : Prop :=
  ∃ before poll after, polls = before ++ poll :: after ∧
    (∀ earlier ∈ before, earlier.cancelled = false ∧ call earlier.view = .pending) ∧
    (poll.cancelled && poll.cancelFirst) = false ∧ call poll.view ≠ .pending

variable {call : σ → Outcome ε α} {poll : Poll σ} {polls : List (Poll σ)}

theorem select_cons_cases (call : σ → Outcome ε α) (poll : Poll σ) (polls : List (Poll σ)) :
    (poll.cancelled = false ∧ call poll.view = .pending ∧
      (select call (poll :: polls) : Outcome δ (Option (Except ε α))) = select call polls) ∨
    (poll.cancelled = true ∧ (poll.cancelFirst = true ∨ call poll.view = .pending) ∧
      (select call (poll :: polls) : Outcome δ (Option (Except ε α))) = .returned none) ∨
    ((poll.cancelled && poll.cancelFirst) = false ∧ call poll.view ≠ .pending ∧
      (select call (poll :: polls) : Outcome δ (Option (Except ε α))) = settle (call poll.view)) := by
  rw [select]
  split
  · rename_i hfirst
    rw [Bool.and_eq_true] at hfirst
    exact .inr (.inl ⟨hfirst.1, .inl hfirst.2, rfl⟩)
  · rename_i hfirst
    split
    · rename_i hpending
      split
      · rename_i hcancelled
        exact .inr (.inl ⟨hcancelled, .inr hpending, rfl⟩)
      · rename_i hcancelled
        exact .inl ⟨Bool.eq_false_iff.2 hcancelled, hpending, rfl⟩
    · rename_i hended
      exact .inr (.inr ⟨Bool.eq_false_iff.2 hfirst, hended, rfl⟩)

theorem finishes_cons_of_waiting (hcancelled : poll.cancelled = false) (hpending : call poll.view = .pending) :
    Finishes call (poll :: polls) ↔ Finishes call polls := by
  constructor
  · rintro ⟨before, last, after, hpolls, hbefore, hlast, hended⟩
    cases before with
    | nil =>
      cases hpolls
      exact absurd hpending hended
    | cons head before =>
      cases hpolls
      exact ⟨before, last, after, rfl, fun earlier h => hbefore earlier (List.mem_cons_of_mem _ h), hlast, hended⟩
  · rintro ⟨before, last, after, rfl, hbefore, hlast, hended⟩
    exact ⟨poll :: before, last, after, rfl, List.forall_mem_cons.2 ⟨⟨hcancelled, hpending⟩, hbefore⟩, hlast, hended⟩

theorem not_finishes_cons_of_cancelled (hcancelled : poll.cancelled = true)
    (hfirst : poll.cancelFirst = true ∨ call poll.view = .pending) : ¬Finishes call (poll :: polls) := by
  rintro ⟨before, last, after, hpolls, hbefore, hlast, hended⟩
  cases before with
  | nil =>
    cases hpolls
    rcases hfirst with hfirst | hpending
    · rw [hcancelled, hfirst] at hlast
      cases hlast
    · exact hended hpending
  | cons head before =>
    cases hpolls
    exact Bool.noConfusion ((hbefore poll List.mem_cons_self).1.symm.trans hcancelled)

/-- What the call shows when it ends is its end with everything in sight. -/
theorem select_eq_some_iff {whole : Outcome ε α} (hbefore : ∀ view, Outcome.Before Eq (call view) whole)
    {result : Except ε α} :
    (select call polls : Outcome δ (Option (Except ε α))) = .returned (some result) ↔
      Finishes call polls ∧ (settle whole : Outcome δ (Option (Except ε α))) = .returned (some result) := by
  induction polls with
  | nil =>
    refine ⟨nofun, ?_⟩
    rintro ⟨⟨before, last, after, hpolls, -⟩, -⟩
    exact absurd hpolls.symm (List.append_ne_nil_of_right_ne_nil before (List.cons_ne_nil last after))
  | cons poll polls ih =>
    rcases select_cons_cases (δ := δ) call poll polls with ⟨hcancelled, hpending, hselect⟩ |
      ⟨hcancelled, hfirst, hselect⟩ | ⟨hfirst, hended, hselect⟩
    · rw [hselect, ih, finishes_cons_of_waiting hcancelled hpending]
    · rw [hselect]
      exact ⟨nofun, fun h => absurd h.1 (not_finishes_cons_of_cancelled hcancelled hfirst)⟩
    · rw [hselect, (hbefore poll.view).eq hended]
      exact (and_iff_right ⟨[], poll, polls, rfl, nofun, hfirst, hended⟩).symm

end Async
