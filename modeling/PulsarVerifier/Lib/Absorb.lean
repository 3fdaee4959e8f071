import Mathlib.Data.Set.Basic

/-!
# Folds that forget order and repetition

An operation absorbs a set of elements if their order does not matter and a second occurrence changes nothing.  A fold
of such an operation over a list then depends only on which elements are in the list (`FoldAbsorbs.foldl_eq`).
-/

variable {α β : Type}

/-- The elements of `S` commute under `f`, and each is taken in at most once. -/
structure FoldAbsorbs (f : β → α → β) (S : Set α) : Prop where
  comm : ∀ b, ∀ x ∈ S, ∀ y ∈ S, f (f b x) y = f (f b y) x
  idem : ∀ b, ∀ x ∈ S, f (f b x) x = f b x

namespace FoldAbsorbs

variable {f : β → α → β} {S : Set α}

theorem foldl_apply (h : FoldAbsorbs f S) {x : α} (hx : x ∈ S) {l : List α} (hl : ∀ y ∈ l, y ∈ S) (b : β) :
    l.foldl f (f b x) = f (l.foldl f b) x := by
  induction l generalizing b with
  | nil => rfl
  | cons y l ih =>
    have hy : y ∈ S := hl y List.mem_cons_self
    rw [List.foldl_cons, List.foldl_cons, h.comm b x hx y hy]
    exact ih (fun z hz => hl z (List.mem_cons_of_mem _ hz)) (f b y)

theorem foldl_foldl (h : FoldAbsorbs f S) {l l' : List α} (hl : ∀ x ∈ l, x ∈ S) (hl' : ∀ x ∈ l', x ∈ S) (b : β) :
    l'.foldl f (l.foldl f b) = l.foldl f (l'.foldl f b) := by
  induction l generalizing b with
  | nil => rfl
  | cons x l ih =>
    have hx : x ∈ S := hl x List.mem_cons_self
    rw [List.foldl_cons, List.foldl_cons, ih (fun y hy => hl y (List.mem_cons_of_mem _ hy)), h.foldl_apply hx hl']

theorem apply_foldl_of_mem (h : FoldAbsorbs f S) {x : α} {l : List α} (hl : ∀ y ∈ l, y ∈ S) (hmem : x ∈ l) (b : β) :
    f (l.foldl f b) x = l.foldl f b := by
  induction l generalizing b with
  | nil => cases hmem
  | cons y l ih =>
    have hrest : ∀ z ∈ l, z ∈ S := fun z hz => hl z (List.mem_cons_of_mem _ hz)
    rw [List.foldl_cons]
    rcases List.mem_cons.1 hmem with rfl | hmem
    · have hx : x ∈ S := hl x List.mem_cons_self
      rw [← h.foldl_apply hx hrest, h.idem b x hx]
    · exact ih hrest hmem (f b y)

theorem foldl_foldl_of_subset (h : FoldAbsorbs f S) {l l' : List α} (hl : ∀ x ∈ l, x ∈ S) (hsub : ∀ x ∈ l', x ∈ l)
    (b : β) :
    l'.foldl f (l.foldl f b) = l.foldl f b := by
  induction l' with
  | nil => rfl
  | cons x l' ih =>
    rw [List.foldl_cons, h.apply_foldl_of_mem hl (hsub x List.mem_cons_self)]
    exact ih fun y hy => hsub y (List.mem_cons_of_mem _ hy)

/-- Two lists with the same elements, in any order and number, give the same result. -/
theorem foldl_eq (h : FoldAbsorbs f S) {l l' : List α} (hl : ∀ x ∈ l, x ∈ S) (hmem : ∀ x, x ∈ l ↔ x ∈ l') (b : β) :
    l.foldl f b = l'.foldl f b := by
  have hl' : ∀ x ∈ l', x ∈ S := fun x hx => hl x ((hmem x).2 hx)
  calc
    l.foldl f b = l'.foldl f (l.foldl f b) := (h.foldl_foldl_of_subset hl (fun x hx => (hmem x).2 hx) b).symm
    _ = l.foldl f (l'.foldl f b) := h.foldl_foldl hl hl' b
    _ = l'.foldl f b := h.foldl_foldl_of_subset hl' (fun x hx => (hmem x).1 hx) b

end FoldAbsorbs
