import Mathlib.Data.Nat.Find
import Mathlib.Data.String.Basic

/-!
# Prefixes of a text by bytes

A prefix of a text is a text, so it ends between two characters.  Cutting at the last position up to a limit where a
character may start gives the longest prefix within the limit (`longestPrefix_extract`).
-/

namespace Utf8

/-- The longest prefix of `text` that has at most `limit` bytes. -/
structure LongestPrefix (limit : Nat) (text start : String) : Prop where
  append : ∃ rest, text = start ++ rest
  le : start.utf8ByteSize ≤ limit
  longest : ∀ other rest, text = other ++ rest → other.utf8ByteSize ≤ limit →
    other.utf8ByteSize ≤ start.utf8ByteSize

theorem LongestPrefix.refl {limit : Nat} {text : String} (h : text.utf8ByteSize ≤ limit) :
    LongestPrefix limit text text := by
  refine ⟨⟨"", (String.append_empty).symm⟩, h, fun other rest happend _ => ?_⟩
  rw [happend, String.utf8ByteSize_append]
  exact Nat.le_add_right _ _

theorem isValid_iff {text : String} {index : Nat} :
    String.Pos.Raw.isValid text ⟨index⟩ = true ↔ ∃ start rest, text = start ++ rest ∧ start.utf8ByteSize = index := by
  rw [String.Pos.Raw.isValid_eq_true_iff, String.Pos.Raw.isValid_iff_exists_append]
  constructor
  · rintro ⟨start, rest, happend, hindex⟩
    exact ⟨start, rest, happend, (congrArg String.Pos.Raw.byteIdx hindex).symm⟩
  · rintro ⟨start, rest, happend, rfl⟩
    exact ⟨start, rest, happend, rfl⟩

theorem extract_append (start rest : String) :
    String.Pos.Raw.extract (start ++ rest) 0 ⟨start.utf8ByteSize⟩ = start := by
  rw [String.Pos.Raw.extract]
  split
  · rename_i hempty
    exact (String.utf8ByteSize_eq_zero_iff.1 (Nat.le_zero.1 hempty)).symm
  · have hsize : start.utf8ByteSize = String.utf8Len start.toList + 0 := by
      rw [← String.utf8ByteSize_ofList, String.ofList_toList, Nat.add_zero]
    have hskip := String.Pos.Raw.extract.go₁_append_right [] (start.toList ++ rest.toList) 0 0 ⟨start.utf8ByteSize⟩ rfl
    have htake := String.Pos.Raw.extract.go₂_append_left start.toList rest.toList 0 start.utf8ByteSize hsize
    rw [String.toList_append]
    exact (congrArg String.ofList (hskip.trans htake)).trans String.ofList_toList

/-- Cutting at the last boundary up to the limit. -/
theorem longestPrefix_extract (limit : Nat) (text : String) :
    LongestPrefix limit text (String.Pos.Raw.extract text 0
      ⟨Nat.findGreatest (fun index => String.Pos.Raw.isValid text ⟨index⟩ = true) limit⟩) := by
  -- the start of the text is a boundary
  have hzero : String.Pos.Raw.isValid text ⟨0⟩ = true := isValid_iff.2 ⟨"", text, String.empty_append.symm, rfl⟩
  obtain ⟨start, rest, happend, hsize⟩ := isValid_iff.1
    (Nat.findGreatest_spec (P := fun index => String.Pos.Raw.isValid text ⟨index⟩ = true) (Nat.zero_le limit) hzero)
  rw [← hsize]
  nth_rewrite 2 [happend]
  rw [extract_append]
  refine ⟨⟨rest, happend⟩, hsize ▸ Nat.findGreatest_le limit, fun other rest' happend' hle => ?_⟩
  rw [hsize]
  exact Nat.le_findGreatest hle (isValid_iff.2 ⟨other, rest', happend', rfl⟩)

end Utf8
