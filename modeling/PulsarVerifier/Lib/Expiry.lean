import Mathlib.Logic.Basic

/-!
# Entries with a deadline

A cache may ask its user how long an entry stays: once when the entry is created, again when its value is replaced, and
again on every read.  An answer `some d` puts the deadline of the entry `d` after the time of the question, `none` takes
the deadline away.  An entry whose deadline has passed is no longer found.

Times and durations are natural numbers.
-/

/-- The questions of the cache: the time until the present deadline is passed along, and on a read also the time of the
last change. -/
structure ExpiryPolicy (κ ν : Type) where
  expireAfterCreate : (key : κ) → (value : ν) → (createdAt : Nat) → Option Nat
  expireAfterRead : (key : κ) → (value : ν) → (readAt : Nat) → (durationUntilExpiry : Option Nat) →
    (lastModifiedAt : Nat) → Option Nat
  expireAfterUpdate : (key : κ) → (value : ν) → (updatedAt : Nat) → (durationUntilExpiry : Option Nat) → Option Nat

/-- What the cache keeps beside an entry. -/
structure EntryTimes where
  lastModified : Nat
  deadline : Option Nat
  deriving DecidableEq

namespace EntryTimes

variable {κ ν : Type} (policy : ExpiryPolicy κ ν) (key : κ) (value : ν) (clock : Nat)

def lapsed (times : EntryTimes) : Bool := times.deadline.any fun deadline => decide (deadline ≤ clock)

/-- The time until the deadline; none if it lies in the past. -/
def durationUntilExpiry (times : EntryTimes) : Option Nat :=
  times.deadline.bind fun deadline => if clock ≤ deadline then some (deadline - clock) else none

def created : EntryTimes :=
  { lastModified := clock, deadline := (policy.expireAfterCreate key value clock).map (clock + ·) }

def read (times : EntryTimes) : EntryTimes :=
  { times with
    deadline := (policy.expireAfterRead key value clock (times.durationUntilExpiry clock) times.lastModified).map
      (clock + ·) }

def updated (times : EntryTimes) : EntryTimes :=
  { lastModified := clock
    deadline := (policy.expireAfterUpdate key value clock (times.durationUntilExpiry clock)).map (clock + ·) }

variable {policy key value clock}

theorem lapsed_iff {times : EntryTimes} :
    times.lapsed clock = true ↔ ∃ deadline, times.deadline = some deadline ∧ deadline ≤ clock := by
  unfold lapsed
  cases times.deadline <;> simp

/-- A read that answers with the time that is left moves no deadline that is still ahead. -/
theorem read_eq_self {times : EntryTimes}
    (hpolicy : ∀ left lastModified, policy.expireAfterRead key value clock left lastModified = left)
    (hlapsed : times.lapsed clock = false) : times.read policy key value clock = times := by
  obtain ⟨lastModified, deadline⟩ := times
  unfold read
  rw [hpolicy]
  cases deadline with
  | none => rfl
  | some deadline =>
    have hahead : clock < deadline := by simpa [lapsed] using hlapsed
    have hback : clock + (deadline - clock) = deadline := by omega
    simp [durationUntilExpiry, Nat.le_of_lt hahead, hback]

end EntryTimes
