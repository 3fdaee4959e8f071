import Mathlib.Logic.Relation
import Mathlib.Tactic.SplitIfs

/-!
# Labelled transition systems

A system is given by its initial states and its labelled steps.  A run is a list of labels leading from one state to
another; a state is reachable if some run from an initial state ends in it.  An invariant is proved once per step
(`Reachable.invariant`), and `restrict` keeps only the steps that meet a condition on the state before the step and
the label.
-/

/-- A labelled transition system with states `σ` and labels `α`. -/
structure Lts (σ α : Type) where
  init : σ → Prop
  step : σ → α → σ → Prop

namespace Lts

variable {σ α : Type} {L : Lts σ α}

/-- The steps labelled `as`, in this order, lead from the first state to the second. -/
inductive Run (L : Lts σ α) : σ → List α → σ → Prop
  | refl (s : σ) : Run L s [] s
  | cons {s t u : σ} {a : α} {as : List α} (h : L.step s a t) (hs : Run L t as u) : Run L s (a :: as) u

/-- Some run from an initial state ends in `s`. -/
def Reachable (L : Lts σ α) (s : σ) : Prop :=
  ∃ s₀ as, L.init s₀ ∧ L.Run s₀ as s

theorem Run.append {s t u : σ} {as bs : List α} (h : L.Run s as t) (h' : L.Run t bs u) : L.Run s (as ++ bs) u := by
  induction h with
  | refl s => exact h'
  | cons hstep _ ih => exact .cons hstep (ih h')

theorem Run.snoc {s t u : σ} {as : List α} {a : α} (h : L.Run s as t) (h' : L.step t a u) :
    L.Run s (as ++ [a]) u :=
  h.append (.cons h' (.refl u))

/-- What every step keeps, every run keeps. -/
theorem Run.invariant {P : σ → Prop} (hstep : ∀ {s a t}, P s → L.step s a t → P t) {s t : σ} {as : List α}
    (h : L.Run s as t) (hs : P s) : P t := by
  induction h with
  | refl s => exact hs
  | cons hst _ ih => exact ih (hstep hs hst)

/-- An invariant whose step only has to be kept for labels with `Q`, along runs all of whose labels have `Q`. -/
theorem Run.invariant_of_forall {P : σ → Prop} {Q : α → Prop} (hstep : ∀ {s a t}, P s → Q a → L.step s a t → P t)
    {s t : σ} {as : List α} (h : L.Run s as t) (hQ : ∀ a ∈ as, Q a) (hs : P s) : P t := by
  induction h with
  | refl s => exact hs
  | cons hst _ ih =>
    exact ih (fun a ha => hQ a (List.mem_cons_of_mem _ ha)) (hstep hs (hQ _ List.mem_cons_self) hst)

/-- An invariant of the state and of the labels taken so far. -/
theorem Run.invariant_trace {P : List α → σ → Prop} (hstep : ∀ {as s a t}, P as s → L.step s a t → P (as ++ [a]) t)
    {s t : σ} {as : List α} (h : L.Run s as t) (hs : P [] s) : P as t := by
  suffices key : ∀ before, P before s → P (before ++ as) t by simpa using key [] hs
  clear hs
  induction h with
  | refl s => intro before hs; simpa using hs
  | cons hst _ ih =>
    intro before hs
    have := ih _ (hstep hs hst)
    rwa [List.append_assoc] at this

/-- A reflexive and transitive relation that contains every step contains every run. -/
theorem Run.rel {r : σ → σ → Prop} (hrefl : ∀ s, r s s) (htrans : ∀ {s t u}, r s t → r t u → r s u)
    (hstep : ∀ {s a t}, L.step s a t → r s t) {s t : σ} {as : List α} (h : L.Run s as t) : r s t := by
  induction h with
  | refl s => exact hrefl s
  | cons hst _ ih => exact htrans (hstep hst) ih

theorem Reachable.of_init {s : σ} (h : L.init s) : L.Reachable s := ⟨s, [], h, .refl s⟩

theorem Reachable.run {s t : σ} {as : List α} (hs : L.Reachable s) (h : L.Run s as t) : L.Reachable t := by
  obtain ⟨s₀, bs, hi, hr⟩ := hs
  exact ⟨s₀, bs ++ as, hi, hr.append h⟩

theorem Reachable.step {s t : σ} {a : α} (hs : L.Reachable s) (h : L.step s a t) : L.Reachable t :=
  hs.run (.cons h (.refl t))

/-- The invariant rule: what holds initially and is kept by every step from a reachable state holds in every
reachable state. -/
theorem Reachable.invariant {P : σ → Prop} (hinit : ∀ {s}, L.init s → P s)
    (hstep : ∀ {s a t}, L.Reachable s → P s → L.step s a t → P t) {s : σ} (h : L.Reachable s) : P s := by
  obtain ⟨s₀, as, hi, hr⟩ := h
  have key : L.Reachable s ∧ P s :=
    hr.invariant (P := fun s => L.Reachable s ∧ P s)
      (fun hs hst => ⟨hs.1.step hst, hstep hs.1 hs.2 hst⟩) ⟨.of_init hi, hinit hi⟩
  exact key.2

/-- Every reachable state has a reachable counterpart in `M` when each step is matched by one step of `M`,
or by none. -/
theorem Reachable.simulates {τ β : Type} {M : Lts τ β} {R : σ → τ → Prop}
    (hinit : ∀ {s}, L.init s → ∃ u, M.init u ∧ R s u)
    (hstep : ∀ {s a t u}, R s u → L.step s a t → R t u ∨ ∃ b v, M.step u b v ∧ R t v) {s : σ} (h : L.Reachable s) :
    ∃ u, M.Reachable u ∧ R s u := by
  refine h.invariant (P := fun s => ∃ u, M.Reachable u ∧ R s u) ?_ ?_
  · intro s hs
    obtain ⟨u, hu, hR⟩ := hinit hs
    exact ⟨u, .of_init hu, hR⟩
  · rintro s a t - ⟨u, hu, hR⟩ hst
    rcases hstep hR hst with hR | ⟨b, v, huv, hR⟩
    · exact ⟨u, hu, hR⟩
    · exact ⟨v, hu.step huv, hR⟩

/-! ### One part of a system -/

/-- The system takes a step with this label, or stays where it is if there is none. -/
def Follows (L : Lts σ α) (s : σ) (label : Option α) (t : σ) : Prop :=
  match label with
  | none => t = s
  | some a => L.step s a t

/-- A part of a system of which every step of the system is a step or none makes a run of its own, with labels it has
from the labels of the run. -/
theorem Run.project {τ β : Type} {M : Lts τ β} {f : σ → τ} {l : σ → α → Option β}
    (hstep : ∀ {s a t}, L.step s a t → M.Follows (f s) (l s a) (f t)) {s t : σ} {as : List α} (h : L.Run s as t) :
    ∃ bs, M.Run (f s) bs (f t) ∧ ∀ b ∈ bs, ∃ u, ∃ a ∈ as, l u a = some b := by
  induction h with
  | refl s => exact ⟨[], .refl _, fun b hb => absurd hb List.not_mem_nil⟩
  | @cons s u t a as hst _ ih =>
    obtain ⟨bs, hrun, hlabels⟩ := ih
    have hlabels' : ∀ b ∈ bs, ∃ u, ∃ a' ∈ a :: as, l u a' = some b := by
      intro b hb
      obtain ⟨u, a', ha', hlabel⟩ := hlabels b hb
      exact ⟨u, a', List.mem_cons_of_mem _ ha', hlabel⟩
    have hfollows := hstep hst
    cases hlabel : l s a with
    | none =>
      rw [hlabel] at hfollows
      have hsame : f u = f s := hfollows
      exact ⟨bs, hsame ▸ hrun, hlabels'⟩
    | some b =>
      rw [hlabel] at hfollows
      refine ⟨b :: bs, .cons hfollows hrun, fun b' hb' => ?_⟩
      rcases List.mem_cons.1 hb' with rfl | hb'
      · exact ⟨s, a, List.mem_cons_self, hlabel⟩
      · exact hlabels' b' hb'

/-! ### Runs whose steps meet a condition -/

/-- The same system with only the steps whose label meets `C` in the state before the step. -/
def restrict (L : Lts σ α) (C : σ → α → Prop) : Lts σ α where
  init := L.init
  step s a t := L.step s a t ∧ C s a

theorem Run.of_restrict {C : σ → α → Prop} {s t : σ} {as : List α} (h : (L.restrict C).Run s as t) :
    L.Run s as t := by
  induction h with
  | refl s => exact .refl s
  | cons hst _ ih => exact .cons hst.1 ih

theorem Reachable.of_restrict {C : σ → α → Prop} {s : σ} (h : (L.restrict C).Reachable s) : L.Reachable s := by
  obtain ⟨s₀, as, hi, hr⟩ := h
  exact ⟨s₀, as, hi, hr.of_restrict⟩

/-- A run whose labels all have `Q` may be restricted to them. -/
theorem Run.restrict {Q : α → Prop} {s t : σ} {as : List α} (h : L.Run s as t) (hQ : ∀ a ∈ as, Q a) :
    (L.restrict fun _ a => Q a).Run s as t := by
  induction h with
  | refl s => exact .refl s
  | cons hst _ ih => exact .cons ⟨hst, hQ _ List.mem_cons_self⟩ (ih fun a ha => hQ a (List.mem_cons_of_mem _ ha))

theorem Run.restrict_and {C : σ → α → Prop} {Q : α → Prop} {s t : σ} {as : List α} (h : (L.restrict C).Run s as t)
    (hQ : ∀ a ∈ as, Q a) : (L.restrict fun s a => C s a ∧ Q a).Run s as t := by
  induction h with
  | refl s => exact .refl s
  | cons hst _ ih =>
    exact .cons ⟨hst.1, hst.2, hQ _ List.mem_cons_self⟩ (ih fun a ha => hQ a (List.mem_cons_of_mem _ ha))

/-! ### Executable steps -/

/-- The system of a partial step function. -/
def ofNext (init : σ → Prop) (next : σ → α → Option σ) : Lts σ α where
  init := init
  step s a t := next s a = some t

/-- The state after a step with this label, or the same state if there is none. -/
def follow (next : σ → α → Option σ) (s : σ) : Option α → Option σ
  | none => some s
  | some a => next s a

theorem follow_eq_some {init : σ → Prop} {next : σ → α → Option σ} {s t : σ} {label : Option α}
    (h : follow next s label = some t) : (ofNext init next).Follows s label t := by
  cases label with
  | none => exact (Option.some.inj h).symm
  | some a => exact h

/-- The state after the labels `as`, if all of them can be taken. -/
def exec (next : σ → α → Option σ) : σ → List α → Option σ
  | s, [] => some s
  | s, a :: as => (next s a).bind fun t => exec next t as

theorem run_of_exec {init : σ → Prop} {next : σ → α → Option σ} {s t : σ} {as : List α}
    (h : exec next s as = some t) : (ofNext init next).Run s as t := by
  induction as generalizing s with
  | nil =>
    cases h
    exact .refl _
  | cons a as ih =>
    obtain ⟨u, hu, hrest⟩ := Option.bind_eq_some_iff.1 h
    exact .cons hu (ih hrest)

/-- The steps of `next` whose label meets `C` in the state before the step. -/
def guarded (next : σ → α → Option σ) (C : σ → α → Prop) [∀ s a, Decidable (C s a)] (s : σ) (a : α) : Option σ :=
  if C s a then next s a else none

theorem run_restrict_of_exec {init : σ → Prop} {next : σ → α → Option σ} {C : σ → α → Prop}
    [∀ s a, Decidable (C s a)] {s t : σ} {as : List α} (h : exec (guarded next C) s as = some t) :
    ((ofNext init next).restrict C).Run s as t := by
  induction as generalizing s with
  | nil =>
    cases h
    exact .refl _
  | cons a as ih =>
    obtain ⟨u, hu, hrest⟩ := Option.bind_eq_some_iff.1 h
    unfold guarded at hu
    split_ifs at hu with hC
    exact .cons ⟨hu, hC⟩ (ih hrest)

/-! ### Steps with a record of what they show -/

/-- The steps of `next`; what a step shows is appended to the record beside the state. -/
def recorded {ω : Type} (next : σ → α → Option σ) (shown : σ → α → σ → List ω) (s : σ × List ω) (a : α) :
    Option (σ × List ω) :=
  (next s.1 a).map fun t => (t, s.2 ++ shown s.1 a t)

theorem recorded_eq_some {ω : Type} {next : σ → α → Option σ} {shown : σ → α → σ → List ω} {s t : σ × List ω} {a : α} :
    recorded next shown s a = some t ↔ next s.1 a = some t.1 ∧ t.2 = s.2 ++ shown s.1 a t.1 := by
  unfold recorded
  rw [Option.map_eq_some_iff]
  constructor
  · rintro ⟨t, hnext, rfl⟩
    exact ⟨hnext, rfl⟩
  · rintro ⟨hnext, hrecord⟩
    exact ⟨t.1, hnext, by rw [← hrecord]⟩

/-- A record does not change what can be reached. -/
theorem Reachable.of_recorded {ω : Type} {init : σ → Prop} {next : σ → α → Option σ} {shown : σ → α → σ → List ω}
    {C : σ → α → Prop} {s : σ × List ω}
    (h : ((ofNext (fun s => init s.1 ∧ s.2 = []) (recorded next shown)).restrict fun s a => C s.1 a).Reachable s) :
    ((ofNext init next).restrict C).Reachable s.1 := by
  refine h.invariant (P := fun s => ((ofNext init next).restrict C).Reachable s.1) ?_ ?_
  · intro s hs
    exact .of_init hs.1
  · intro s a t _ hs hst
    exact hs.step ⟨(recorded_eq_some.1 hst.1).1, hst.2⟩

end Lts
