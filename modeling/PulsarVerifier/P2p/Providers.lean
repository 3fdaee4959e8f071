import Mathlib.Data.Set.Basic
import PulsarVerifier.P2p.Messages

/-!
# The availability index as a relation

The index is a map from identifiers to sets of peers.  What it stands for is a set of pairs, and its calls are plain
operations on this set (`IndexCall.onPairs`).  No cleanup of the map is missed: an identifier without a provider has no
entry.
-/

namespace PulsarVerifier

inductive IndexCall
  | add (id : VerificationId) (peer : PeerId)
  | removeProvider (id : VerificationId) (peer : PeerId)
  | removePeer (peer : PeerId)
  | replaceProviderProofs (peer : PeerId) (ids : List VerificationId)

namespace IndexCall

def apply (index : AvailabilityIndex) : IndexCall → AvailabilityIndex
  | .add id peer => index.add id peer
  | .removeProvider id peer => index.removeProvider id peer
  | .removePeer peer => index.removePeer peer
  | .replaceProviderProofs peer ids => index.replaceProviderProofs peer ids

/-- What a call means for the set of pairs. -/
def onPairs (pairs : Set (VerificationId × PeerId)) : IndexCall → Set (VerificationId × PeerId)
  | .add id peer => insert (id, peer) pairs
  | .removeProvider id peer => pairs \ {(id, peer)}
  | .removePeer peer => {pair ∈ pairs | pair.2 ≠ peer}
  | .replaceProviderProofs peer ids => {pair ∈ pairs | pair.2 ≠ peer} ∪ {pair | pair.2 = peer ∧ pair.1 ∈ ids}

end IndexCall

namespace AvailabilityIndex

variable {index : AvailabilityIndex}

/-- The pairs of an identifier and one of the peers in its entry. -/
def pairs (index : AvailabilityIndex) : Set (VerificationId × PeerId) :=
  {pair | ∃ peers, index.entries.lookup pair.1 = some peers ∧ pair.2 ∈ peers}

/-- Every entry has a provider. -/
def Occupied (index : AvailabilityIndex) : Prop := ∀ id peers, index.entries.lookup id = some peers → peers ≠ ∅

theorem mem_pairs {pair : VerificationId × PeerId} : pair ∈ index.pairs ↔ pair.2 ∈ index.providerSet pair.1 := by
  unfold pairs providerSet
  cases hentry : index.entries.lookup pair.1 with
  | none | some peers => simp [hentry]

/-! ### One call -/

theorem pairs_apply (index : AvailabilityIndex) (call : IndexCall) :
    (call.apply index).pairs = call.onPairs index.pairs := by
  ext ⟨id, peer⟩
  cases call with
  | add id' peer' =>
    simp only [IndexCall.apply, IndexCall.onPairs, mem_pairs, mem_providerSet_add, Set.mem_insert_iff, Prod.mk.injEq]
  | removeProvider id' peer' =>
    simp only [IndexCall.apply, IndexCall.onPairs, mem_pairs, mem_providerSet_removeProvider, Set.mem_sdiff,
      Set.mem_singleton_iff, Prod.mk.injEq]
  | removePeer peer' =>
    simp only [IndexCall.apply, IndexCall.onPairs, mem_pairs, mem_providerSet_removePeer, Set.mem_ofPred_eq]
  | replaceProviderProofs peer' ids =>
    simp only [IndexCall.apply, IndexCall.onPairs, mem_pairs, mem_providerSet_replaceProviderProofs, Set.mem_union,
      Set.mem_ofPred_eq]
    tauto

theorem Occupied.add (h : index.Occupied) (id : VerificationId) (peer : PeerId) : (index.add id peer).Occupied := by
  intro id' peers hpeers
  unfold AvailabilityIndex.add at hpeers
  by_cases hid : id' = id
  · subst hid
    rw [AList.lookup_insert] at hpeers
    cases hpeers
    exact Finset.insert_ne_empty _ _
  · rw [AList.lookup_insert_ne hid] at hpeers
    exact h id' peers hpeers

theorem Occupied.removeProvider (h : index.Occupied) (id : VerificationId) (peer : PeerId) :
    (index.removeProvider id peer).Occupied := by
  intro id' peers' hpeers
  unfold AvailabilityIndex.removeProvider at hpeers
  split at hpeers
  · exact h id' peers' hpeers
  · rename_i peers hentry
    by_cases hid : id' = id
    · subst hid
      split at hpeers
      · rw [AList.lookup_erase] at hpeers
        cases hpeers
      · rename_i hleft
        rw [AList.lookup_insert] at hpeers
        cases hpeers
        exact hleft
    · split at hpeers
      · rw [AList.lookup_erase_ne hid] at hpeers
        exact h id' peers' hpeers
      · rw [AList.lookup_insert_ne hid] at hpeers
        exact h id' peers' hpeers

theorem occupied_removePeer (index : AvailabilityIndex) (peer : PeerId) : (index.removePeer peer).Occupied := by
  intro id peers hpeers
  unfold removePeer at hpeers
  rw [AList.lookup_retain, Option.bind_eq_some_iff] at hpeers
  obtain ⟨before, -, hpeers⟩ := hpeers
  split at hpeers
  · cases hpeers
  · rename_i hleft
    cases hpeers
    exact hleft

theorem occupied_replaceProviderProofs (index : AvailabilityIndex) (peer : PeerId) (ids : List VerificationId) :
    (index.replaceProviderProofs peer ids).Occupied := by
  have hfold : ∀ index : AvailabilityIndex, index.Occupied →
      (ids.foldl (fun index id => index.add id peer) index).Occupied := by
    induction ids with
    | nil => exact fun index h => h
    | cons id ids ih => exact fun index h => ih _ (h.add id peer)
  exact hfold _ (occupied_removePeer index peer)

theorem Occupied.apply (h : index.Occupied) (call : IndexCall) : (call.apply index).Occupied := by
  cases call with
  | add id peer => exact h.add id peer
  | removeProvider id peer => exact h.removeProvider id peer
  | removePeer peer => exact occupied_removePeer index peer
  | replaceProviderProofs peer ids => exact occupied_replaceProviderProofs index peer ids

/-! ### Sequences of calls -/

theorem Occupied.foldl (h : index.Occupied) (calls : List IndexCall) :
    (calls.foldl IndexCall.apply index).Occupied := by
  induction calls generalizing index with
  | nil => exact h
  | cons call calls ih => exact ih (h.apply call)

theorem occupied_empty : empty.Occupied := by
  rintro id peers ⟨⟩

theorem pairs_empty : empty.pairs = ∅ := by
  refine Set.eq_empty_of_forall_notMem ?_
  rintro _ ⟨peers, ⟨⟩, -⟩

theorem pairs_foldl (calls : List IndexCall) (index : AvailabilityIndex) :
    (calls.foldl IndexCall.apply index).pairs = calls.foldl IndexCall.onPairs index.pairs :=
  (List.foldl_hom pairs fun index call => (pairs_apply index call).symm).symm

/-- After any calls the index has no empty entry, stands for the pairs that the plain operations give, and lists the
peers of an identifier in the strict order of their bytes. -/
theorem refines_pairs (calls : List IndexCall) :
    (∀ id, (calls.foldl IndexCall.apply empty).entries.lookup id ≠ some ∅) ∧
    (calls.foldl IndexCall.apply empty).pairs = calls.foldl IndexCall.onPairs ∅ ∧
    ∀ id, ((calls.foldl IndexCall.apply empty).providers id).Pairwise PeerId.BytesLt ∧
      ∀ peer, peer ∈ (calls.foldl IndexCall.apply empty).providers id ↔
        (id, peer) ∈ calls.foldl IndexCall.onPairs ∅ := by
  have hpairs : (calls.foldl IndexCall.apply empty).pairs = calls.foldl IndexCall.onPairs ∅ := by
    rw [pairs_foldl, pairs_empty]
  refine ⟨fun id hempty => occupied_empty.foldl calls id ∅ hempty rfl, hpairs, fun id => ⟨?_, fun peer => ?_⟩⟩
  · exact PeerId.pairwise_lt_sortByBytes _
  · rw [← hpairs, mem_pairs, mem_providers]

end AvailabilityIndex

end PulsarVerifier
