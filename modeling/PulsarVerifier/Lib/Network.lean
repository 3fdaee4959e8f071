import Mathlib.Logic.Function.Basic
import PulsarVerifier.Lib.Lts

/-!
# Networks of nodes with authenticated messages

A network runs one node for each name.  In a step one node acts; it hands messages to the network, and an action takes
in messages only if the node they are attributed to has handed them to the network before.  Messages may be lost,
repeated and reordered.

What a node believes about others is *grounded* if each new belief of a step comes from a message it takes in or from
what the node itself has, and a node says only what it believes.  Then every belief of a reachable network was once
true: the node it is about has had what it is believed to have (`Network.Grounded.once_had`).
-/

variable {ι σ α μ κ : Type}

/-- The behaviour of a node: its steps, the messages it hands to the network in a step, and the messages that an action
takes in, each with the node it is attributed to. -/
structure Behaviour (ι σ α μ : Type) where
  next : σ → α → Option σ
  hands : σ → α → List μ
  takes : α → List (ι × μ)

structure Network (ι σ μ : Type) where
  node : ι → σ
  /-- what each node has handed to the network -/
  sent : ι → List μ
  /-- history variable: the states each node has been in -/
  past : ι → List σ

namespace Network

def initial (start : ι → σ) : Network ι σ μ := { node := start, sent := fun _ => [], past := fun i => [start i] }

section

variable [DecidableEq ι]

/-- The network after node `i` has gone to `t` and handed over `messages`. -/
def advance (net : Network ι σ μ) (i : ι) (t : σ) (messages : List μ) : Network ι σ μ where
  node := Function.update net.node i t
  sent := Function.update net.sent i (net.sent i ++ messages)
  past := Function.update net.past i (net.past i ++ [t])

def next [DecidableEq μ] (behaviour : Behaviour ι σ α μ) (net : Network ι σ μ) (label : ι × α) :
    Option (Network ι σ μ) :=
  if ∀ m ∈ behaviour.takes label.2, m.2 ∈ net.sent m.1 then
    (behaviour.next (net.node label.1) label.2).map fun t =>
      net.advance label.1 t (behaviour.hands (net.node label.1) label.2)
  else none

/-- All interleavings of the nodes, from their initial states. -/
def lts [DecidableEq μ] (behaviour : Behaviour ι σ α μ) (start : ι → σ) : Lts (Network ι σ μ) (ι × α) :=
  .ofNext (· = initial start) (next behaviour)

variable {net : Network ι σ μ} {i j : ι} {t : σ} {messages : List μ}

theorem next_eq_some [DecidableEq μ] {behaviour : Behaviour ι σ α μ} {a : α} {net' : Network ι σ μ}
    (h : net.next behaviour (i, a) = some net') :
    (∀ m ∈ behaviour.takes a, m.2 ∈ net.sent m.1) ∧ ∃ t, behaviour.next (net.node i) a = some t ∧
      net' = net.advance i t (behaviour.hands (net.node i) a) := by
  unfold next at h
  split at h
  · rename_i htakes
    obtain ⟨t, ht, rfl⟩ := Option.map_eq_some_iff.1 h
    exact ⟨htakes, t, ht, rfl⟩
  · cases h

@[simp] theorem node_advance : (net.advance i t messages).node = Function.update net.node i t := rfl

@[simp] theorem sent_advance :
    (net.advance i t messages).sent = Function.update net.sent i (net.sent i ++ messages) := rfl

@[simp] theorem past_advance : (net.advance i t messages).past = Function.update net.past i (net.past i ++ [t]) := rfl

theorem node_advance_cases (net : Network ι σ μ) (i : ι) (t : σ) (messages : List μ) (j : ι) :
    (j = i ∧ (net.advance i t messages).node j = t) ∨ (net.advance i t messages).node j = net.node j := by
  by_cases hj : j = i
  · subst hj
    exact .inl ⟨rfl, Function.update_self ..⟩
  · exact .inr (Function.update_of_ne hj ..)

theorem mem_sent_advance {m : μ} (h : m ∈ (net.advance i t messages).sent j) :
    m ∈ net.sent j ∨ (j = i ∧ m ∈ messages) := by
  by_cases hj : j = i
  · subst hj
    rw [sent_advance, Function.update_self, List.mem_append] at h
    exact h.imp_right fun hm => ⟨rfl, hm⟩
  · rw [sent_advance, Function.update_of_ne hj] at h
    exact .inl h

theorem mem_past_advance {s : σ} (h : s ∈ net.past j) : s ∈ (net.advance i t messages).past j := by
  by_cases hj : j = i
  · subst hj
    rw [past_advance, Function.update_self]
    exact List.mem_append_left _ h
  · rw [past_advance, Function.update_of_ne hj]
    exact h

theorem mem_past_advance_self : t ∈ (net.advance i t messages).past i := by
  rw [past_advance, Function.update_self]
  exact List.mem_append_right _ List.mem_cons_self

end

/-- `has s k` says that a node in state `s` has `k`, `believes i s j k` that node `i` in state `s` takes it that `j` has
had `k`, and `tells i m j k` that the message `m` of `i` says so.  `Inv i` is an invariant of node `i`. -/
structure Grounded (behaviour : Behaviour ι σ α μ) (start : ι → σ) (Inv : ι → σ → Prop) (has : σ → κ → Prop)
    (believes : ι → σ → ι → κ → Prop) (tells : ι → μ → ι → κ → Prop) : Prop where
  start_inv : ∀ i, Inv i (start i)
  start_believes : ∀ i j k, ¬ believes i (start i) j k
  step_inv : ∀ i s a t, Inv i s → behaviour.next s a = some t → Inv i t
  step_believes : ∀ i s a t j k, Inv i s → behaviour.next s a = some t → believes i t j k →
    believes i s j k ∨ (∃ m ∈ behaviour.takes a, tells m.1 m.2 j k) ∨ (j = i ∧ (has s k ∨ has t k))
  hands_tells : ∀ i s a m j k, Inv i s → m ∈ behaviour.hands s a → tells i m j k → believes i s j k

def Had (has : σ → κ → Prop) (net : Network ι σ μ) (j : ι) (k : κ) : Prop := ∃ s ∈ net.past j, has s k

theorem Had.advance [DecidableEq ι] {has : σ → κ → Prop} {net : Network ι σ μ} {i j : ι} {k : κ}
    (h : net.Had has j k) (t : σ) (messages : List μ) : (net.advance i t messages).Had has j k := by
  obtain ⟨s, hs, hhas⟩ := h
  exact ⟨s, mem_past_advance hs, hhas⟩

/-- The invariant of a network with grounded beliefs. -/
private structure Honest (Inv : ι → σ → Prop) (has : σ → κ → Prop) (believes : ι → σ → ι → κ → Prop)
    (tells : ι → μ → ι → κ → Prop) (net : Network ι σ μ) : Prop where
  inv : ∀ i, Inv i (net.node i)
  now : ∀ i, net.node i ∈ net.past i
  believed : ∀ i j k, believes i (net.node i) j k → net.Had has j k
  said : ∀ i m j k, m ∈ net.sent i → tells i m j k → net.Had has j k

/-- Whatever a node believes of another one, that one has had. -/
theorem Grounded.once_had [DecidableEq ι] [DecidableEq μ] {behaviour : Behaviour ι σ α μ} {start : ι → σ}
    {Inv : ι → σ → Prop} {has : σ → κ → Prop} {believes : ι → σ → ι → κ → Prop} {tells : ι → μ → ι → κ → Prop}
    (h : Grounded behaviour start Inv has believes tells) {net : Network ι σ μ}
    (hnet : (lts behaviour start).Reachable net) {i j : ι} {k : κ} (hbelieves : believes i (net.node i) j k) :
    net.Had has j k := by
  suffices hhonest : Honest Inv has believes tells net from hhonest.believed i j k hbelieves
  refine hnet.invariant (P := Honest Inv has believes tells) ?_ ?_
  · rintro net rfl
    exact
      { inv := h.start_inv, now := fun i => List.mem_cons_self
        believed := fun i j k hk => absurd hk (h.start_believes i j k)
        said := fun i m j k hm => absurd hm List.not_mem_nil }
  · rintro net ⟨i, a⟩ net' - hhonest hnext
    obtain ⟨htakes, t, ht, rfl⟩ := next_eq_some hnext
    constructor
    · intro j
      rcases node_advance_cases net i t (behaviour.hands (net.node i) a) j with ⟨rfl, heq⟩ | heq
      · rw [heq]
        exact h.step_inv j _ a t (hhonest.inv j) ht
      · rw [heq]
        exact hhonest.inv j
    · intro j
      rcases node_advance_cases net i t (behaviour.hands (net.node i) a) j with ⟨rfl, heq⟩ | heq
      · rw [heq]
        exact mem_past_advance_self
      · rw [heq]
        exact mem_past_advance (hhonest.now j)
    · intro j j' k hk
      rcases node_advance_cases net i t (behaviour.hands (net.node i) a) j with ⟨rfl, heq⟩ | heq
      · rw [heq] at hk
        rcases h.step_believes j _ a t j' k (hhonest.inv j) ht hk with hold | ⟨m, hm, htells⟩ | ⟨rfl, hhas | hhas⟩
        · exact (hhonest.believed j j' k hold).advance t _
        · exact (hhonest.said m.1 m.2 j' k (htakes m hm) htells).advance t _
        · exact ⟨_, mem_past_advance (hhonest.now j'), hhas⟩
        · exact ⟨t, mem_past_advance_self, hhas⟩
      · rw [heq] at hk
        exact (hhonest.believed j j' k hk).advance t _
    · intro j m j' k hm htells
      rcases mem_sent_advance hm with hold | ⟨rfl, hnew⟩
      · exact (hhonest.said j m j' k hold htells).advance t _
      · exact (hhonest.believed j j' k (h.hands_tells j _ a m j' k (hhonest.inv j) hnew htells)).advance t _

end Network
