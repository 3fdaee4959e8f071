import Mathlib.Data.List.Basic

/-!
# Programs that wait

A program works on a state that also changes by itself: what happens around a program happens while it waits.  It waits
until one of several alternatives is ready, or until the deadline of the timeout it runs in has passed; then it is given
up where it is, and the changes it has made to the state stay.  What is to happen, between which events the program is
polled, and which of several alternatives that are ready is taken, are inputs (`Schedule`), so a statement about all
schedules is one about all interleavings.

`Meets` states what holds when a program ends and whenever it waits.  There is one rule for each construct; what is
known while a program waits has to be stable.
-/

/-- States in which things happen, and that know the time. -/
class Surrounded (σ : Type) (ε : outParam Type) where
  now : σ → Nat
  happen : σ → ε → σ

/-- How far a program has come. -/
inductive Progress (α : Type)
  /-- it waits, and nothing more happens -/
  | waiting
  /-- it was given up at its deadline -/
  | elapsed
  | panicked (message : String)
  | done (value : α)
  deriving DecidableEq

/-- What happens around a program, which alternatives it takes when several are ready, and whether it is polled before
the next event; it always is before the events that are not listed, and when nothing more happens. -/
structure Schedule (ε : Type) where
  coming : List ε
  picks : List Nat := []
  polls : List Bool := []
  deriving DecidableEq

/-- A program in a timeout with this deadline, if it runs in one. -/
def Program (σ ε α : Type) : Type := Option Nat → σ → Schedule ε → Progress α × σ × Schedule ε

namespace Program

variable {σ ε α β : Type}

instance : Monad (Program σ ε) where
  pure a := fun _ s schedule => (.done a, s, schedule)
  bind p f := fun deadline s schedule =>
    match p deadline s schedule with
    | (.done a, s, schedule) => f a deadline s schedule
    | (.waiting, rest) => (.waiting, rest)
    | (.elapsed, rest) => (.elapsed, rest)
    | (.panicked message, rest) => (.panicked message, rest)

def read (f : σ → α) : Program σ ε α := fun _ s schedule => (.done (f s), s, schedule)

def update (f : σ → σ) : Program σ ε Unit := fun _ s schedule => (.done (), f s, schedule)

def panicWith (message : String) : Program σ ε α := fun _ s schedule => (.panicked message, s, schedule)

def choose (alternatives : Nat) : Program σ ε Nat := fun _ s schedule =>
  (.done (schedule.picks.headD 0 % alternatives), s, { schedule with picks := schedule.picks.tail })

variable [Surrounded σ ε]

/-- One look at the alternatives and the clock; `none` if the wait goes on. -/
def look (ready : σ → List (α × σ)) (deadline : Option Nat) (schedule : Schedule ε) (s : σ) :
    Option (Progress α × σ × Schedule ε) :=
  match ready s with
  | first :: others =>
    let taken := ((first :: others)[schedule.picks.headD 0 % (others.length + 1)]?).getD first
    some (.done taken.1, taken.2, { schedule with picks := schedule.picks.tail })
  | [] => if deadline.any (· ≤ Surrounded.now s) then some (.elapsed, s, schedule) else none

def awaitFrom (ready : σ → List (α × σ)) (deadline : Option Nat) (picks : List Nat) :
    List Bool → List ε → σ → Progress α × σ × Schedule ε
  | polls, [], s => (look ready deadline ⟨[], picks, polls⟩ s).getD (.waiting, s, ⟨[], picks, polls⟩)
  | polls, event :: coming, s =>
    let onward := awaitFrom ready deadline picks polls.tail coming (Surrounded.happen s event)
    if polls.headD true then (look ready deadline ⟨event :: coming, picks, polls.tail⟩ s).getD onward else onward

/-- The wait for one of the alternatives `ready`. -/
def await (ready : σ → List (α × σ)) : Program σ ε α := fun deadline s schedule =>
  awaitFrom ready deadline schedule.picks schedule.polls schedule.coming s

/-- `none` if the program was given up.  The innermost timeout counts. -/
def timeout (limit : Nat) (p : Program σ ε α) : Program σ ε (Option α) := fun _ s schedule =>
  match p (some (Surrounded.now s + limit)) s schedule with
  | (.done a, rest) => (.done (some a), rest)
  | (.elapsed, rest) => (.done none, rest)
  | (.waiting, rest) => (.waiting, rest)
  | (.panicked message, rest) => (.panicked message, rest)

/-- The `?` operator: the rest runs only if the program succeeds. -/
def andThen {δ : Type} (p : Program σ ε (Except δ α)) (f : α → Program σ ε (Except δ β)) :
    Program σ ε (Except δ β) := do
  match ← p with
  | .ok a => f a
  | .error error => return .error error

/-! ### What a program does -/

/-- No panic: the program ends with `Q`, or it waits, or is given up, in a state with `E`. -/
inductive Ends (deadline : Option Nat) (Q : α → σ → Prop) (E : σ → Prop) : Progress α × σ × Schedule ε → Prop
  | waiting {s : σ} (schedule : Schedule ε) (hbefore : ∀ d, deadline = some d → Surrounded.now s < d) (hE : E s) :
    Ends deadline Q E (.waiting, s, schedule)
  | elapsed {s : σ} (schedule : Schedule ε) (hdeadline : deadline.isSome = true) (hE : E s) :
    Ends deadline Q E (.elapsed, s, schedule)
  | done {a : α} {s : σ} (schedule : Schedule ε) (hQ : Q a s) : Ends deadline Q E (.done a, s, schedule)

namespace Ends

variable {Q : α → σ → Prop} {E I : σ → Prop} {result : Progress α × σ × Schedule ε}

theorem ne_panicked {deadline : Option Nat} (h : Ends deadline Q E result) (message : String) :
    result.1 ≠ .panicked message := by
  cases h <;> nofun

theorem of_done {deadline : Option Nat} {a : α} (h : Ends deadline Q E result) (hdone : result.1 = .done a) :
    Q a result.2.1 := by
  cases h with
  | waiting | elapsed => cases hdone
  | done schedule hQ =>
    cases hdone
    exact hQ

theorem of_waiting {deadline : Option Nat} (h : Ends deadline Q E result) (hwaiting : result.1 = .waiting) :
    E result.2.1 := by
  cases h with
  | waiting schedule hbefore hE => exact hE
  | elapsed | done => cases hwaiting

theorem elim {deadline : Option Nat} (h : Ends deadline Q E result) (hQ : ∀ a s, Q a s → I s) (hE : ∀ s, E s → I s) :
    I result.2.1 := by
  cases h with
  | waiting schedule hbefore h | elapsed schedule hdeadline h => exact hE _ h
  | done schedule h => exact hQ _ _ h

end Ends

/-- What holds by the result. -/
def IfOk {δ : Type} (P : α → σ → Prop) (P' : σ → Prop) : Except δ α → σ → Prop
  | .ok a => P a
  | .error _ => P'

/-- From every state with `P`. -/
def Meets (deadline : Option Nat) (P : σ → Prop) (p : Program σ ε α) (Q : α → σ → Prop) (E : σ → Prop) : Prop :=
  ∀ s schedule, P s → Ends deadline Q E (p deadline s schedule)

namespace Meets

variable {deadline : Option Nat} {P P' E E' : σ → Prop} {Q Q' : α → σ → Prop} {p : Program σ ε α}

theorem imp (h : Meets deadline P p Q E) (hP : ∀ s, P' s → P s) (hQ : ∀ a s, Q a s → Q' a s) (hE : ∀ s, E s → E' s) :
    Meets deadline P' p Q' E' := by
  intro s schedule hs
  have h := h s schedule (hP s hs)
  generalize p deadline s schedule = result at h
  cases h with
  | waiting schedule hbefore h => exact .waiting schedule hbefore (hE _ h)
  | elapsed schedule hdeadline h => exact .elapsed schedule hdeadline (hE _ h)
  | done schedule h => exact .done schedule (hQ _ _ h)

theorem pre (h : Meets deadline P p Q E) (hP : ∀ s, P' s → P s) : Meets deadline P' p Q E :=
  h.imp hP (fun _ _ hQ => hQ) (fun _ hE => hE)

theorem post (h : Meets deadline P p Q E) (hQ : ∀ a s, Q a s → Q' a s) : Meets deadline P p Q' E :=
  h.imp (fun _ hP => hP) hQ (fun _ hE => hE)

theorem pure {a : α} (h : ∀ s, P s → Q a s) : Meets deadline P (Pure.pure a : Program σ ε α) Q E :=
  fun s schedule hs => .done schedule (h s hs)

theorem bind {R : β → σ → Prop} {f : α → Program σ ε β} (hp : Meets deadline P p Q E)
    (hf : ∀ a, Meets deadline (Q a) (f a) R E) : Meets deadline P (p >>= f) R E := by
  intro s schedule hs
  have h := hp s schedule hs
  simp only [Bind.bind]
  generalize p deadline s schedule = result at h
  cases h with
  | waiting schedule hbefore h => exact .waiting schedule hbefore h
  | elapsed schedule hdeadline h => exact .elapsed schedule hdeadline h
  | done schedule h => exact hf _ _ schedule h

theorem read {f : σ → α} (h : ∀ s, P s → Q (f s) s) : Meets deadline P (Program.read f : Program σ ε α) Q E :=
  fun s schedule hs => .done schedule (h s hs)

theorem read_any {f : σ → α} {g : α → Program σ ε β} {R : β → σ → Prop} (h : ∀ a, Meets deadline P (g a) R E) :
    Meets deadline P (Program.read f >>= g) R E :=
  fun s schedule hs => h (f s) s schedule hs

theorem read_eq {f : σ → α} {a : α} {g : α → Program σ ε β} {R : β → σ → Prop} (hf : ∀ s, P s → f s = a)
    (h : Meets deadline P (g a) R E) : Meets deadline P (Program.read f >>= g) R E := by
  intro s schedule hs
  have h := h s schedule hs
  rw [← hf s hs] at h
  exact h

theorem update {f : σ → σ} {Q : Unit → σ → Prop} (h : ∀ s, P s → Q () (f s)) :
    Meets deadline P (Program.update f : Program σ ε Unit) Q E :=
  fun s schedule hs => .done schedule (h s hs)

theorem update_to (P' : σ → Prop) {f : σ → σ} {g : Unit → Program σ ε β} {R : β → σ → Prop} (hf : ∀ s, P s → P' (f s))
    (h : Meets deadline P' (g ()) R E) : Meets deadline P (Program.update f >>= g) R E :=
  fun s schedule hs => h (f s) schedule (hf s hs)

theorem choose {alternatives : Nat} {Q : Nat → σ → Prop} (h : ∀ s pick, P s → Q pick s) :
    Meets deadline P (Program.choose alternatives : Program σ ε Nat) Q E :=
  fun s schedule hs => .done { schedule with picks := schedule.picks.tail } (h s _ hs)

theorem andThen {δ : Type} {p : Program σ ε (Except δ α)} {f : α → Program σ ε (Except δ β)}
    {Q : Except δ α → σ → Prop} {R : Except δ β → σ → Prop} (hp : Meets deadline P p Q E)
    (hok : ∀ a, Meets deadline (Q (.ok a)) (f a) R E) (herror : ∀ error s, Q (.error error) s → R (.error error) s) :
    Meets deadline P (Program.andThen p f) R E := by
  refine hp.bind fun result => ?_
  cases result with
  | ok a => exact hok a
  | error error => exact .pure (herror error)

theorem of_false (h : ∀ s, ¬P s) : Meets deadline P p Q E := fun s _ hs => absurd hs (h s)

theorem of_exists {ι : Sort*} {P : ι → σ → Prop} (h : ∀ i, Meets deadline (P i) p Q E) :
    Meets deadline (fun s => ∃ i, P i s) p Q E :=
  fun s schedule ⟨i, hs⟩ => h i s schedule hs

theorem of_fact {F : Prop} (h : F → Meets deadline P p Q E) : Meets deadline (fun s => F ∧ P s) p Q E :=
  fun s schedule ⟨hF, hs⟩ => h hF s schedule hs

/-! ### Waiting -/

theorem look_cases (ready : σ → List (α × σ)) (deadline : Option Nat) (schedule : Schedule ε) (s : σ) :
    (∃ taken ∈ ready s,
      look ready deadline schedule s = some (.done taken.1, taken.2, { schedule with picks := schedule.picks.tail })) ∨
    (ready s = [] ∧ deadline.isSome = true ∧ look ready deadline schedule s = some (.elapsed, s, schedule)) ∨
    (ready s = [] ∧ (∀ d, deadline = some d → Surrounded.now s < d) ∧ look ready deadline schedule s = none) := by
  unfold look
  split
  · rename_i first others hready
    have hlt : schedule.picks.headD 0 % (others.length + 1) < (first :: others).length := Nat.mod_lt _ (Nat.succ_pos _)
    refine .inl ⟨(first :: others)[schedule.picks.headD 0 % (others.length + 1)], ?_, ?_⟩
    · rw [hready]
      exact List.getElem_mem hlt
    · dsimp only
      rw [List.getElem?_eq_getElem hlt]
      rfl
  · rename_i hready
    cases deadline with
    | none => exact .inr (.inr ⟨hready, nofun, rfl⟩)
    | some d =>
      by_cases hd : d ≤ Surrounded.now s
      · exact .inr (.inl ⟨hready, rfl, if_pos (decide_eq_true hd)⟩)
      · refine .inr (.inr ⟨hready, ?_, if_neg fun h => hd (of_decide_eq_true h)⟩)
        rintro _ ⟨⟩
        exact Nat.not_le.1 hd

/-- A wait keeps what is stable until it takes an alternative. -/
theorem await {ready : σ → List (α × σ)} (hP : ∀ s event, P s → P (Surrounded.happen s event))
    (hQ : ∀ s a s', P s → (a, s') ∈ ready s → Q a s') (hE : ∀ s, P s → ready s = [] → E s) :
    Meets deadline P (Program.await ready) Q E := by
  -- one look at the alternatives, and how it goes on if the wait is not over
  have hlook : ∀ (schedule : Schedule ε) onward s, P s →
      (ready s = [] → (∀ d, deadline = some d → Surrounded.now s < d) → Ends deadline Q E onward) →
      Ends deadline Q E ((look ready deadline schedule s).getD onward) := by
    intro schedule onward s hs honward
    rcases look_cases ready deadline schedule s with ⟨⟨a, s'⟩, htaken, hlook⟩ | ⟨hready, hdeadline, hlook⟩ |
      ⟨hready, hbefore, hlook⟩
    · rw [hlook]
      exact .done _ (hQ s a s' hs htaken)
    · rw [hlook]
      exact .elapsed _ hdeadline (hE s hs hready)
    · rw [hlook]
      exact honward hready hbefore
  have hround : ∀ picks coming polls s, P s → Ends deadline Q E (awaitFrom ready deadline picks polls coming s) := by
    intro picks coming
    induction coming with
    | nil => exact fun polls s hs => hlook _ _ s hs fun hready hbefore => .waiting _ hbefore (hE s hs hready)
    | cons event coming ih =>
      intro polls s hs
      have honward := ih polls.tail _ (hP s event hs)
      rw [awaitFrom]
      split
      · exact hlook _ _ s hs fun _ _ => honward
      · exact honward
  exact fun s schedule hs => hround schedule.picks schedule.coming schedule.polls s hs

/-- A program in a timeout that ends at `d` waits only before `d`. -/
theorem timeout {limit d : Nat} {g : Option α → Program σ ε β} {R : β → σ → Prop}
    (hd : ∀ s, P s → Surrounded.now s + limit = d) (hp : Meets (some d) P p Q E')
    (hE : ∀ s, E' s → Surrounded.now s < d → E s) (hsome : ∀ a, Meets none (Q a) (g (some a)) R E)
    (hnone : Meets none E' (g none) R E) : Meets none P (Program.timeout limit p >>= g) R E := by
  intro s schedule hs
  have h := hp s schedule hs
  simp only [Bind.bind, Program.timeout, hd s hs]
  generalize p (some d) s schedule = result at h
  cases h with
  | waiting schedule hbefore h => exact .waiting schedule nofun (hE _ h (hbefore d rfl))
  | elapsed schedule hdeadline h => exact hnone _ schedule h
  | done schedule h => exact hsome _ _ schedule h

end Meets

end Program
