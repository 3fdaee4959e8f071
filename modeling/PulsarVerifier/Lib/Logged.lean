import Mathlib.Data.List.Basic

/-!
# Computations that act and may fail

A computation of `Logged` has acted on its surroundings, one entry of its log for each action, and ends with a result
or with an error.  The actions before a failure stay done.
-/

structure Logged (ω ε α : Type) where
  log : List ω
  result : Except ε α

namespace Logged

variable {ω ε α β : Type}

def lift (result : Except ε α) : Logged ω ε α := ⟨[], result⟩

def act (entry : ω) (result : Except ε α) : Logged ω ε α := ⟨[entry], result⟩

def andThen (x : Logged ω ε α) (f : α → Logged ω ε β) : Logged ω ε β :=
  match x.result with
  | .ok a => ⟨x.log ++ (f a).log, (f a).result⟩
  | .error e => ⟨x.log, .error e⟩

instance : Monad (Logged ω ε) where
  pure a := lift (.ok a)
  bind := andThen

variable {x : Logged ω ε α} {f : α → Logged ω ε β}

@[simp] theorem pure_log (a : α) : (pure a : Logged ω ε α).log = [] := rfl

@[simp] theorem pure_result (a : α) : (pure a : Logged ω ε α).result = .ok a := rfl

@[simp] theorem lift_log (result : Except ε α) : (lift result : Logged ω ε α).log = [] := rfl

@[simp] theorem lift_result (result : Except ε α) : (lift result : Logged ω ε α).result = result := rfl

@[simp] theorem act_log (entry : ω) (result : Except ε α) : (act entry result).log = [entry] := rfl

@[simp] theorem act_result (entry : ω) (result : Except ε α) : (act entry result).result = result := rfl

theorem bind_of_ok {a : α} (h : x.result = .ok a) :
    (x >>= f).log = x.log ++ (f a).log ∧ (x >>= f).result = (f a).result := by
  change (andThen x f).log = _ ∧ (andThen x f).result = _
  unfold andThen
  rw [h]
  exact ⟨rfl, rfl⟩

theorem bind_of_error {e : ε} (h : x.result = .error e) :
    (x >>= f).log = x.log ∧ (x >>= f).result = .error e := by
  change (andThen x f).log = _ ∧ (andThen x f).result = _
  unfold andThen
  rw [h]
  exact ⟨rfl, rfl⟩

/-- A sequence succeeds if both parts do, and then it has done what both have done. -/
theorem bind_ok {b : β} (h : (x >>= f).result = .ok b) :
    ∃ a, x.result = .ok a ∧ (f a).result = .ok b ∧ (x >>= f).log = x.log ++ (f a).log := by
  cases hx : x.result with
  | ok a =>
    obtain ⟨hlog, hresult⟩ := bind_of_ok (f := f) hx
    exact ⟨a, rfl, hresult ▸ h, hlog⟩
  | error e => cases (bind_of_error (f := f) hx).2.symm.trans h

theorem mem_log_bind {entry : ω} (h : entry ∈ (x >>= f).log) :
    entry ∈ x.log ∨ ∃ a, x.result = .ok a ∧ entry ∈ (f a).log := by
  cases hx : x.result with
  | ok a =>
    rw [(bind_of_ok hx).1, List.mem_append] at h
    exact h.imp_right fun h => ⟨a, rfl, h⟩
  | error e =>
    rw [(bind_of_error hx).1] at h
    exact .inl h

/-- A loop that succeeds has succeeded for every element, and has done what it did for each. -/
theorem forM_ok {g : α → Logged ω ε PUnit} {as : List α} (h : (as.forM g).result = .ok ()) {a : α} (ha : a ∈ as) :
    (g a).result = .ok () ∧ ∀ entry ∈ (g a).log, entry ∈ (as.forM g).log := by
  induction as with
  | nil => cases ha
  | cons first rest ih =>
    obtain ⟨⟨⟩, hfirst, hrest, hlog⟩ := bind_ok (x := g first) (f := fun _ => rest.forM g) h
    change _ ∧ ∀ entry ∈ (g a).log, entry ∈ (g first >>= fun _ => rest.forM g).log
    rw [hlog]
    rcases List.mem_cons.1 ha with rfl | ha
    · exact ⟨hfirst, fun entry hentry => List.mem_append_left _ hentry⟩
    · obtain ⟨hresult, hmem⟩ := ih hrest ha
      exact ⟨hresult, fun entry hentry => List.mem_append_right _ (hmem entry hentry)⟩

theorem mem_log_forM {g : α → Logged ω ε PUnit} {as : List α} {entry : ω} (h : entry ∈ (as.forM g).log) :
    ∃ a ∈ as, entry ∈ (g a).log := by
  induction as with
  | nil => cases h
  | cons first rest ih =>
    rcases mem_log_bind (x := g first) (f := fun _ => rest.forM g) h with hfirst | ⟨-, -, hrest⟩
    · exact ⟨first, List.mem_cons_self, hfirst⟩
    · obtain ⟨a, ha, hentry⟩ := ih hrest
      exact ⟨a, List.mem_cons_of_mem _ ha, hentry⟩

end Logged
