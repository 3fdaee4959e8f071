import PulsarVerifier.Lib.Utf8

/-!
# Bounded diagnostic texts

Texts of a node or of a verifier backend are cut to a limit before they are kept.  The cut goes back from the limit to
the next character boundary; the search ends, since the start of a text is one.
-/

namespace PulsarVerifier

def isCharBoundary (value : String) (index : Nat) : Bool := String.Pos.Raw.isValid value ⟨index⟩

/-- The last character boundary up to an index. -/
def charBoundary (value : String) : Nat → Nat
  | 0 => 0
  | index + 1 => if isCharBoundary value (index + 1) then index + 1 else charBoundary value index

def boundedText (value : String) (maxBytes : Nat) : String :=
  if value.utf8ByteSize ≤ maxBytes then value else String.Pos.Raw.extract value 0 ⟨charBoundary value maxBytes⟩

/-- The search for a boundary, `end -= 1` at a time, with the panic of a subtraction that goes below zero. -/
def searchBoundary (value : String) : Nat → Except String Nat
  | 0 => if isCharBoundary value 0 then .ok 0 else .error "attempt to subtract with overflow"
  | index + 1 => if isCharBoundary value (index + 1) then .ok (index + 1) else searchBoundary value index

/-- `String::truncate`, with the panic of its assertion. -/
def truncate (value : String) (newLen : Nat) : Except String String :=
  if newLen ≤ value.utf8ByteSize then
    if isCharBoundary value newLen then .ok (String.Pos.Raw.extract value 0 ⟨newLen⟩)
    else .error "assertion failed: self.is_char_boundary(new_len)"
  else .ok value

/-- `bounded_text` with its panics. -/
def boundedText.run (value : String) (maxBytes : Nat) : Except String String :=
  if value.utf8ByteSize ≤ maxBytes then .ok value
  else do
    let boundary ← searchBoundary value maxBytes
    truncate value boundary

/-! ### The cut -/

variable {value : String}

theorem isCharBoundary_zero (value : String) : isCharBoundary value 0 = true :=
  Utf8.isValid_iff.2 ⟨"", value, String.empty_append.symm, rfl⟩

theorem le_of_isCharBoundary {index : Nat} (h : isCharBoundary value index = true) : index ≤ value.utf8ByteSize := by
  obtain ⟨start, rest, rfl, rfl⟩ := Utf8.isValid_iff.1 h
  rw [String.utf8ByteSize_append]
  exact Nat.le_add_right _ _

theorem charBoundary_eq_findGreatest (value : String) (index : Nat) :
    charBoundary value index = Nat.findGreatest (fun index => isCharBoundary value index = true) index := by
  induction index with
  | zero => rfl
  | succ index ih => rw [charBoundary, Nat.findGreatest_succ, ih]

theorem isCharBoundary_charBoundary (value : String) (index : Nat) :
    isCharBoundary value (charBoundary value index) = true := by
  rw [charBoundary_eq_findGreatest]
  exact Nat.findGreatest_spec (P := fun index => isCharBoundary value index = true) (Nat.zero_le index)
    (isCharBoundary_zero value)

theorem searchBoundary_eq (value : String) (index : Nat) :
    searchBoundary value index = .ok (charBoundary value index) := by
  induction index with
  | zero => rw [searchBoundary, if_pos (isCharBoundary_zero value), charBoundary]
  | succ index ih =>
    rw [searchBoundary, charBoundary, ih]
    split <;> rfl

theorem truncate_of_isCharBoundary {newLen : Nat} (h : isCharBoundary value newLen = true) :
    truncate value newLen = .ok (String.Pos.Raw.extract value 0 ⟨newLen⟩) := by
  rw [truncate, if_pos (le_of_isCharBoundary h), if_pos h]

theorem boundedText.run_eq (value : String) (maxBytes : Nat) :
    run value maxBytes = .ok (boundedText value maxBytes) := by
  unfold run boundedText
  split
  · rfl
  · rw [searchBoundary_eq]
    exact truncate_of_isCharBoundary (isCharBoundary_charBoundary value maxBytes)

theorem boundedText_of_le {maxBytes : Nat} (h : value.utf8ByteSize ≤ maxBytes) : boundedText value maxBytes = value :=
  if_pos h

theorem longestPrefix_boundedText (value : String) (maxBytes : Nat) :
    Utf8.LongestPrefix maxBytes value (boundedText value maxBytes) := by
  unfold boundedText
  split
  · rename_i hfits
    exact .refl hfits
  · rw [charBoundary_eq_findGreatest]
    exact Utf8.longestPrefix_extract maxBytes value

end PulsarVerifier
