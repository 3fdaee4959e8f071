import Mathlib.Data.List.Basic

/-!
# One receiver of a bounded broadcast channel

The channel keeps the last `capacity` values for a receiver.  A send to a full buffer drops the oldest value; the
receiver then learns that it lagged before it gets the values that are still there.

`Renewed` says that every revocation in the queue is followed by a renewal; values that are sent later or dropped
earlier keep it.

A value may show a stamp or revoke a key.  While every key has at most one stamp, the present one, a revocation never
meets a stamp that was shown before it (`InOrder`): a key gets its next stamp only after the revocation was sent.
-/

/-- The values a receiver has not taken yet, and whether it has missed any since it last asked. -/
structure Receiver (ε : Type) where
  queue : List ε
  lagged : Bool

inductive Recv (ε : Type)
  | event (value : ε)
  | lagged
  | closed

namespace Receiver

variable {ε : Type}

def empty : Receiver ε := ⟨[], false⟩

def send (capacity : Nat) (r : Receiver ε) (value : ε) : Receiver ε :=
  if r.queue.length < capacity then { r with queue := r.queue ++ [value] }
  else { queue := (r.queue ++ [value]).tail, lagged := true }

theorem lagged_of_send {capacity : Nat} {r : Receiver ε} {value : ε} (h : (r.send capacity value).lagged = false) :
    r.lagged = false := by
  unfold send at h
  split at h
  · exact h
  · cases h

/-- What is sent comes last, and what is dropped was first. -/
theorem queue_send_suffix (capacity : Nat) (r : Receiver ε) (value : ε) :
    (r.send capacity value).queue <:+ r.queue ++ [value] := by
  unfold send
  split
  · exact List.suffix_refl _
  · exact List.tail_suffix _

/-- A value that is not taken is still there after a send, or the receiver learns that it lagged. -/
theorem mem_send_or_lagged {capacity : Nat} {r : Receiver ε} {value value' : ε} (h : value' ∈ r.queue ++ [value]) :
    value' ∈ (r.send capacity value).queue ∨ (r.send capacity value).lagged = true := by
  unfold send
  split
  · exact .inl h
  · exact .inr rfl

theorem lagged_send {capacity : Nat} {r : Receiver ε} {value : ε} (h : r.lagged = true) :
    (r.send capacity value).lagged = true := by
  unfold send
  split
  · exact h
  · rfl

/-- The next result, if there is one; a lag is reported first. -/
def recv (r : Receiver ε) : Option (Recv ε × Receiver ε) :=
  if r.lagged then some (.lagged, { r with lagged := false })
  else
    match r.queue with
    | [] => none
    | value :: rest => some (.event value, { r with queue := rest })

theorem recv_ne_closed (r : Receiver ε) {r' : Receiver ε} : r.recv ≠ some (.closed, r') := by
  unfold recv
  split
  · simp
  · split <;> simp

theorem recv_event {r r' : Receiver ε} {value : ε} (h : r.recv = some (.event value, r')) :
    r.lagged = false ∧ r.queue = value :: r'.queue ∧ r'.lagged = false := by
  obtain ⟨queue, lagged⟩ := r
  unfold recv at h
  cases lagged with
  | true => cases h
  | false =>
    cases queue with
    | nil => cases h
    | cons first rest =>
      cases h
      exact ⟨rfl, rfl, rfl⟩

theorem recv_lagged {r r' : Receiver ε} (h : r.recv = some (.lagged, r')) :
    r.lagged = true ∧ r' = { r with lagged := false } := by
  obtain ⟨queue, lagged⟩ := r
  unfold recv at h
  cases lagged with
  | true =>
    cases h
    exact ⟨rfl, rfl⟩
  | false => cases queue <;> cases h

theorem recv_suffix {r r' : Receiver ε} {result : Recv ε} (h : r.recv = some (result, r')) : r'.queue <:+ r.queue := by
  obtain ⟨queue, lagged⟩ := r
  unfold recv at h
  cases lagged with
  | true =>
    cases h
    exact List.suffix_refl _
  | false =>
    cases queue with
    | nil => cases h
    | cons first rest =>
      cases h
      exact List.suffix_cons _ _

def sendAll (capacity : Nat) (r : Receiver ε) (values : List ε) : Receiver ε := values.foldl (send capacity) r

end Receiver

/-! ### Revocations that are followed by renewals -/

section

variable {ε : Type} {revokes renews : ε → Prop} {queue queue' : List ε}

/-- Behind every value that revokes there is one that renews. -/
def Renewed (revokes renews : ε → Prop) (queue : List ε) : Prop :=
  ∀ earlier value later, queue = earlier ++ value :: later → revokes value → ∃ other ∈ later, renews other

namespace Renewed

theorem suffix (h : Renewed revokes renews queue) (hsuffix : queue' <:+ queue) : Renewed revokes renews queue' := by
  obtain ⟨dropped, rfl⟩ := hsuffix
  intro earlier value later hqueue
  exact h (dropped ++ earlier) value later (by rw [hqueue, List.append_assoc])

/-- A value that does not revoke is sent; one that renews covers all revocations before it. -/
theorem snoc {value : ε} (hvalue : ¬ revokes value) (h : Renewed revokes renews queue ∨ renews value) :
    Renewed revokes renews (queue ++ [value]) := by
  intro earlier value' later hqueue hrevokes
  rcases List.eq_nil_or_concat later with rfl | ⟨later', last, rfl⟩
  · obtain ⟨-, hlast⟩ := List.append_inj' hqueue rfl
    obtain rfl : value = value' := List.singleton_inj.1 hlast
    exact absurd hrevokes hvalue
  · rw [List.concat_eq_append] at hqueue ⊢
    rw [← List.cons_append, ← List.append_assoc] at hqueue
    obtain ⟨hinit, hlast⟩ := List.append_inj' hqueue rfl
    obtain rfl : value = last := List.singleton_inj.1 hlast
    rcases h with hbefore | hrenews
    · obtain ⟨other, hother, hrenews⟩ := hbefore earlier value' later' hinit hrevokes
      exact ⟨other, List.mem_append_left _ hother, hrenews⟩
    · exact ⟨value, List.mem_append_right _ List.mem_cons_self, hrenews⟩

/-- When a revocation is taken, a renewal is still in the queue. -/
theorem exists_of_cons {value : ε} (h : Renewed revokes renews (value :: queue)) (hvalue : revokes value) :
    ∃ other ∈ queue, renews other :=
  h [] value queue rfl hvalue

end Renewed

end

/-! ### Stamps and revocations in a queue -/

section

variable {ε κ τ : Type} {shows : ε → Option τ} {revokes : ε → Option κ} {present present' : κ → Option τ}
  {seen seen' : List τ} {queue queue' : List ε}

/-- No value of the queue revokes a key whose present stamp was seen before, or is shown by an earlier value. -/
def InOrder (shows : ε → Option τ) (revokes : ε → Option κ) (present : κ → Option τ) (seen : List τ)
    (queue : List ε) : Prop :=
  ∀ earlier value later k stamp, queue = earlier ++ value :: later → revokes value = some k → present k = some stamp →
    stamp ∉ seen ∧ ∀ other ∈ earlier, shows other ≠ some stamp

namespace InOrder

theorem nil : InOrder shows revokes present seen [] := by
  intro earlier value later k stamp hqueue
  simp at hqueue

theorem suffix (h : InOrder shows revokes present seen queue) (hsuffix : queue' <:+ queue) :
    InOrder shows revokes present seen queue' := by
  obtain ⟨dropped, rfl⟩ := hsuffix
  intro earlier value later k stamp hqueue hrevokes hpresent
  obtain ⟨hseen, hshown⟩ := h (dropped ++ earlier) value later k stamp
    (by rw [hqueue, List.append_assoc]) hrevokes hpresent
  exact ⟨hseen, fun other hother => hshown other (List.mem_append_right _ hother)⟩

/-- A value is sent that revokes no key with a stamp. -/
theorem snoc (h : InOrder shows revokes present seen queue) {value : ε}
    (hvalue : ∀ k, revokes value = some k → present k = none) :
    InOrder shows revokes present seen (queue ++ [value]) := by
  intro earlier value' later k stamp hqueue hrevokes hpresent
  rcases List.eq_nil_or_concat later with rfl | ⟨later', last, rfl⟩
  · obtain ⟨-, hlast⟩ := List.append_inj' hqueue rfl
    obtain rfl : value = value' := List.singleton_inj.1 hlast
    rw [hvalue k hrevokes] at hpresent
    cases hpresent
  · rw [List.concat_eq_append, ← List.cons_append, ← List.append_assoc] at hqueue
    obtain ⟨hinit, -⟩ := List.append_inj' hqueue rfl
    exact h earlier value' later' k stamp hinit hrevokes hpresent

theorem tail {value : ε} (h : InOrder shows revokes present seen (value :: queue))
    (hseen : ∀ stamp ∈ seen', stamp ∈ seen ∨ shows value = some stamp) :
    InOrder shows revokes present seen' queue := by
  intro earlier value' later k stamp hqueue hrevokes hpresent
  obtain ⟨hnot, hshown⟩ := h (value :: earlier) value' later k stamp (by rw [hqueue]; rfl) hrevokes hpresent
  refine ⟨fun hmem => ?_, fun other hother => hshown other (List.mem_cons_of_mem _ hother)⟩
  rcases hseen stamp hmem with hold | hnew
  · exact hnot hold
  · exact hshown value List.mem_cons_self hnew

/-- A key that the first value revokes has no stamp that was seen. -/
theorem notMem_seen {value : ε} (h : InOrder shows revokes present seen (value :: queue)) {k : κ} {stamp : τ}
    (hrevokes : revokes value = some k) (hpresent : present k = some stamp) : stamp ∉ seen :=
  (h [] value queue k stamp rfl hrevokes hpresent).1

/-- Keys lose their stamps, or get stamps that nobody has seen or shown. -/
theorem renew (h : InOrder shows revokes present seen queue)
    (hpresent : ∀ k stamp, present' k = some stamp →
      present k = some stamp ∨ (stamp ∉ seen ∧ ∀ value ∈ queue, shows value ≠ some stamp)) :
    InOrder shows revokes present' seen queue := by
  intro earlier value later k stamp hqueue hrevokes hstamp
  rcases hpresent k stamp hstamp with hold | ⟨hseen, hshown⟩
  · exact h earlier value later k stamp hqueue hrevokes hold
  · exact ⟨hseen, fun other hother => hshown other (by rw [hqueue]; exact List.mem_append_left _ hother)⟩

end InOrder

end
