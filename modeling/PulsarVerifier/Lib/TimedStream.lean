import Mathlib.Algebra.GroupWithZero.Nat
import Mathlib.Data.List.Basic

/-!
# Streams whose values arrive in time

The receiving end of a stream: what arrives, in order, each with the time since the arrival before it.  After the last
arrival nothing more comes.  A reader whose time is limited gets a value only if it arrives in that time.
-/

/-- What a reader gets from a stream: a value, the end of the stream, or an error. -/
inductive Arrival (α ε : Type)
  | value (a : α)
  | eof
  | failed (error : ε)
  deriving DecidableEq

namespace TimedStream

variable {α ε : Type}

/-- The result of waiting for the next value: the value with the time that is left and what follows, or why there is
none. -/
inductive Next (α ε : Type)
  | value (a : α) (left : Nat) (rest : List (Nat × Arrival α ε))
  | eof
  | failed (error : ε)
  | timedOut

def next (limit : Nat) : List (Nat × Arrival α ε) → Next α ε
  | [] => .timedOut
  | (after, arrival) :: rest =>
    if limit < after then .timedOut
    else
      match arrival with
      | .value a => .value a (limit - after) rest
      | .eof => .eof
      | .failed error => .failed error

/-- These arrivals come first, in this order, and all of them within `limit`. -/
def Arrives (limit : Nat) (arrivals : List (Arrival α ε)) (stream : List (Nat × Arrival α ε)) : Prop :=
  ∃ first rest, stream = first ++ rest ∧ first.map Prod.snd = arrivals ∧ (first.map Prod.fst).sum ≤ limit

/-- The values come first, in this order, and all of them within `limit`. -/
def Delivers (limit : Nat) (values : List α) (stream : List (Nat × Arrival α ε)) : Prop :=
  Arrives limit (values.map Arrival.value) stream

variable {limit left : Nat} {a : α} {error : ε} {values : List α} {arrival : Arrival α ε}
  {arrivals : List (Arrival α ε)} {stream rest : List (Nat × Arrival α ε)}

theorem Arrives.nil : Arrives limit [] stream := ⟨[], stream, rfl, rfl, Nat.zero_le _⟩

theorem arrives_cons_iff :
    Arrives limit (arrival :: arrivals) stream ↔
      ∃ after rest, stream = (after, arrival) :: rest ∧ after ≤ limit ∧ Arrives (limit - after) arrivals rest := by
  constructor
  · rintro ⟨first, rest, rfl, harrivals, htime⟩
    cases first with
    | nil => cases harrivals
    | cons head first =>
      obtain ⟨after, arrival⟩ := head
      rw [List.map_cons] at harrivals
      obtain ⟨rfl, hothers⟩ := List.cons.inj harrivals
      rw [List.map_cons, List.sum_cons] at htime
      exact ⟨after, first ++ rest, rfl, Nat.le_trans (Nat.le_add_right _ _) htime, first, rest, rfl, hothers,
        Nat.le_sub_of_add_le' htime⟩
  · rintro ⟨after, _, rfl, hafter, first, rest, rfl, hothers, htime⟩
    refine ⟨(after, arrival) :: first, rest, rfl, by rw [List.map_cons, hothers], ?_⟩
    rw [List.map_cons, List.sum_cons]
    exact Nat.add_le_of_le_sub' hafter htime

theorem next_eq_value_iff :
    next limit stream = .value a left rest ↔
      ∃ after, stream = (after, .value a) :: rest ∧ after ≤ limit ∧ left = limit - after := by
  cases stream with
  | nil => simp [next]
  | cons head stream =>
    obtain ⟨after, arrival⟩ := head
    by_cases hafter : limit < after
    · simp [next, hafter, Nat.not_le.2 hafter]
    · cases arrival with
      | value b =>
        simp only [next, if_neg hafter, Next.value.injEq]
        constructor
        · rintro ⟨rfl, rfl, rfl⟩
          exact ⟨after, rfl, Nat.not_lt.1 hafter, rfl⟩
        · rintro ⟨_, heq, -, rfl⟩
          cases heq
          exact ⟨rfl, rfl, rfl⟩
      | eof | failed error => simp [next, hafter]

theorem next_eq_failed_iff :
    next limit stream = .failed error ↔ ∃ after rest, stream = (after, .failed error) :: rest ∧ after ≤ limit := by
  cases stream with
  | nil => simp [next]
  | cons head stream =>
    obtain ⟨after, arrival⟩ := head
    by_cases hafter : limit < after
    · simp [next, hafter]
    · cases arrival with
      | value b | eof => simp [next, hafter]
      | failed error => simp [next, hafter, Nat.not_lt.1 hafter]

/-- A value that arrives is the next one, and the others come in the time that is left. -/
theorem arrives_value_iff :
    Arrives limit (.value a :: arrivals) stream ↔
      ∃ left rest, next limit stream = .value a left rest ∧ Arrives left arrivals rest := by
  simp only [arrives_cons_iff, next_eq_value_iff]
  constructor
  · rintro ⟨after, rest, rfl, hafter, h⟩
    exact ⟨_, rest, ⟨after, rfl, hafter, rfl⟩, h⟩
  · rintro ⟨_, rest, ⟨after, rfl, hafter, rfl⟩, h⟩
    exact ⟨after, rest, rfl, hafter, h⟩

theorem arrives_failed_iff : Arrives limit [.failed error] stream ↔ next limit stream = .failed error := by
  simp only [arrives_cons_iff, next_eq_failed_iff, Arrives.nil, and_true]

end TimedStream
