import Mathlib.Data.Nat.Basic
import Mathlib.Data.List.Basic

/-!
# Numbers and bytes as text

Decimal integers as the standard library of Rust reads them (`parseUnsigned`, `parseSigned`) and bytes in hexadecimal
(`Hex.digits`, `Hex.decode`), with the errors of the readers.  What is written is read back: `parseUnsigned_toString`,
`parseSigned_toString` and `Hex.decode_digits`.
-/

namespace Text

/-! ### Decimal integers -/

inductive ParseIntError
  | empty
  | invalidDigit
  | posOverflow
  | negOverflow
  deriving DecidableEq

def ParseIntError.text : ParseIntError → String
  | .empty => "cannot parse integer from empty string"
  | .invalidDigit => "invalid digit found in string"
  | .posOverflow => "number too large to fit in target type"
  | .negOverflow => "number too small to fit in target type"

/-- Reads one more digit; the first bad character ends the reading. -/
def nextDigit (limit : Nat) (overflow : ParseIntError) (value : Nat) (c : Char) : Except ParseIntError Nat :=
  if c.isDigit then
    if 10 * value + (c.toNat - '0'.toNat) ≤ limit then .ok (10 * value + (c.toNat - '0'.toNat)) else .error overflow
  else .error .invalidDigit

def parseDigits (limit : Nat) (overflow : ParseIntError) (digits : List Char) : Except ParseIntError Nat :=
  digits.foldlM (nextDigit limit overflow) 0

/-- The integers from `0` to `limit`, with an optional `+`. -/
def parseUnsigned (limit : Nat) (text : String) : Except ParseIntError Nat :=
  match text.toList with
  | [] => .error .empty
  | c :: rest =>
    if rest = [] ∧ (c = '+' ∨ c = '-') then .error .invalidDigit
    else parseDigits limit .posOverflow (if c = '+' then rest else c :: rest)

/-- The integers from `-(limit + 1)` to `limit`, with an optional sign. -/
def parseSigned (limit : Nat) (text : String) : Except ParseIntError Int :=
  match text.toList with
  | [] => .error .empty
  | c :: rest =>
    if rest = [] ∧ (c = '+' ∨ c = '-') then .error .invalidDigit
    else if c = '-' then (parseDigits (limit + 1) .negOverflow rest).map fun value => -(value : Int)
    else (parseDigits limit .posOverflow (if c = '+' then rest else c :: rest)).map fun value => (value : Int)

theorem le_ofDigitChars (digits : List Char) (value : Nat) : value ≤ Nat.ofDigitChars 10 digits value := by
  induction digits generalizing value with
  | nil => exact Nat.le_refl value
  | cons c digits ih =>
    rw [Nat.ofDigitChars_cons]
    have := ih (10 * value + (c.toNat - '0'.toNat))
    omega

/-- Digits whose value is within the limit are read to the end. -/
theorem foldlM_nextDigit {limit : Nat} {overflow : ParseIntError} {digits : List Char} {value : Nat}
    (hdigits : ∀ c ∈ digits, c.isDigit = true) (hlimit : Nat.ofDigitChars 10 digits value ≤ limit) :
    digits.foldlM (nextDigit limit overflow) value = .ok (Nat.ofDigitChars 10 digits value) := by
  induction digits generalizing value with
  | nil => rfl
  | cons c digits ih =>
    rw [Nat.ofDigitChars_cons] at hlimit ⊢
    have hnext : nextDigit limit overflow value c = .ok (10 * value + (c.toNat - '0'.toNat)) := by
      unfold nextDigit
      rw [if_pos (hdigits c List.mem_cons_self), if_pos (Nat.le_trans (le_ofDigitChars digits _) hlimit)]
    rw [List.foldlM_cons, hnext]
    exact ih (fun c hc => hdigits c (List.mem_cons_of_mem _ hc)) hlimit

theorem parseDigits_toDigits {n limit : Nat} (overflow : ParseIntError) (hn : n ≤ limit) :
    parseDigits limit overflow (Nat.toDigits 10 n) = .ok n := by
  have hvalue : Nat.ofDigitChars 10 (Nat.toDigits 10 n) 0 = n := Nat.ofDigitChars_toDigits (by omega) (by omega)
  unfold parseDigits
  rw [foldlM_nextDigit (fun c hc => Nat.isDigit_of_mem_toDigits (by omega) (by omega) hc) (by rwa [hvalue]), hvalue]

theorem toList_toString (n : Nat) :
    ∃ c rest, (toString n).toList = c :: rest ∧ Nat.toDigits 10 n = c :: rest ∧ c ≠ '+' ∧ c ≠ '-' := by
  have htext : (toString n).toList = Nat.toDigits 10 n := by
    change n.repr.toList = _
    rw [Nat.repr_eq_ofList_toDigits, String.toList_ofList]
  cases hdigits : Nat.toDigits 10 n with
  | nil =>
    rw [Nat.toDigits_eq_if (by omega)] at hdigits
    split at hdigits
    · cases hdigits
    · exact absurd hdigits (List.append_ne_nil_of_right_ne_nil _ (List.cons_ne_nil _ _))
  | cons c rest =>
    have hdigit : c.isDigit = true := Nat.isDigit_of_mem_toDigits (b := 10) (n := n) (by omega) (by omega)
      (by simp [hdigits])
    refine ⟨c, rest, by rw [htext, hdigits], rfl, ?_, ?_⟩
    · rintro rfl
      cases hdigit
    · rintro rfl
      cases hdigit

theorem parseUnsigned_toString {n limit : Nat} (hn : n ≤ limit) : parseUnsigned limit (toString n) = .ok n := by
  obtain ⟨c, rest, htext, hdigits, hplus, hminus⟩ := toList_toString n
  unfold parseUnsigned
  rw [htext]
  simp only [hplus, hminus, or_self, and_false, if_false]
  rw [← hdigits]
  exact parseDigits_toDigits _ hn

theorem parseSigned_toString {n limit : Nat} (hn : n ≤ limit) : parseSigned limit (toString n) = .ok (n : Int) := by
  obtain ⟨c, rest, htext, hdigits, hplus, hminus⟩ := toList_toString n
  unfold parseSigned
  rw [htext]
  simp only [hplus, hminus, or_self, and_false, if_false]
  rw [← hdigits, parseDigits_toDigits _ hn]
  rfl

theorem parseSigned_toString_int {n : Int} {limit : Nat} (hmin : -(limit + 1 : Int) ≤ n) (hmax : n ≤ limit) :
    parseSigned limit (toString n) = .ok n := by
  cases n with
  | ofNat n => exact parseSigned_toString (Int.ofNat_le.1 hmax)
  | negSucc n =>
    obtain ⟨c, rest, htext, hdigits, -, -⟩ := toList_toString (n + 1)
    have hlist : (toString (Int.negSucc n)).toList = '-' :: c :: rest := by
      change ("-" ++ toString (n + 1)).toList = _
      rw [String.toList_append, htext]
      rfl
    unfold parseSigned
    rw [hlist]
    simp only [reduceCtorEq, false_and, if_false, if_true]
    rw [← hdigits, parseDigits_toDigits _ (by omega)]
    rfl

/-! ### Bytes in hexadecimal -/

namespace Hex

inductive FromHexError
  | oddLength
  | invalidHexCharacter (byte : UInt8) (index : Nat)
  deriving DecidableEq

/-- How `Debug` prints the character with the code of a byte. -/
def debugChar (byte : UInt8) : String :=
  let code := byte.toNat
  let escaped :=
    if code = 0 then "\\0"
    else if code = 9 then "\\t"
    else if code = 10 then "\\n"
    else if code = 13 then "\\r"
    else if code = 39 then "\\'"
    else if code = 92 then "\\\\"
    else if code < 32 ∨ (127 ≤ code ∧ code ≤ 160) ∨ code = 173 then
      "\\u\x7b" ++ String.ofList (Nat.toDigits 16 code) ++ "\x7d"
    else String.singleton (Char.ofNat code)
  "'" ++ escaped ++ "'"

def FromHexError.text : FromHexError → String
  | .oddLength => "Odd number of digits"
  | .invalidHexCharacter byte index => s!"Invalid character {debugChar byte} at position {index}"

/-- The two digits of every byte. -/
def digits (bytes : List UInt8) : List Char :=
  bytes.flatMap fun byte => [Nat.digitChar (byte.toNat / 16), Nat.digitChar (byte.toNat % 16)]

def val (byte : UInt8) (index : Nat) : Except FromHexError Nat :=
  let code := byte.toNat
  if 48 ≤ code ∧ code ≤ 57 then .ok (code - 48)
  else if 97 ≤ code ∧ code ≤ 102 then .ok (code - 87)
  else if 65 ≤ code ∧ code ≤ 70 then .ok (code - 55)
  else .error (.invalidHexCharacter byte index)

/-- The bytes of the pairs of digits from number `index` on. -/
def decodePairs (index : Nat) : List UInt8 → Except FromHexError (List UInt8)
  | high :: low :: rest => do
    let high ← val high index
    let low ← val low (index + 1)
    let rest ← decodePairs (index + 2) rest
    pure (UInt8.ofNat (16 * high + low) :: rest)
  | _ => .ok []

def decode (text : String) : Except FromHexError (List UInt8) :=
  let bytes := text.toUTF8.data.toList
  if bytes.length % 2 ≠ 0 then .error .oddLength else decodePairs 0 bytes

/-- A digit is one byte, and it is read back. -/
theorem digitChar_spec : ∀ n < 16, ∃ byte, String.utf8EncodeChar (Nat.digitChar n) = [byte] ∧
    ∀ index, val byte index = .ok n := by
  intro n hn
  refine ⟨UInt8.ofNat (Nat.digitChar n).toNat, ?_, fun index => ?_⟩
  · revert n
    decide
  · have hval : ∀ n < 16, val (UInt8.ofNat (Nat.digitChar n).toNat) 0 = .ok n := by decide
    have hn := hval n hn
    simp only [val] at hn ⊢
    split_ifs at hn ⊢ <;> exact hn

theorem toUTF8_digits (bytes : List UInt8) :
    (String.ofList (digits bytes)).toUTF8.data.toList = (digits bytes).flatMap String.utf8EncodeChar := by
  change (String.ofList (digits bytes)).toByteArray.data.toList = _
  rw [String.toByteArray_ofList, List.utf8Encode, List.data_toByteArray]

theorem digits_cons (byte : UInt8) (bytes : List UInt8) :
    ∃ high low, (digits (byte :: bytes)).flatMap String.utf8EncodeChar =
        high :: low :: (digits bytes).flatMap String.utf8EncodeChar ∧
      (∀ index, val high index = .ok (byte.toNat / 16)) ∧ ∀ index, val low index = .ok (byte.toNat % 16) := by
  have hlt : byte.toNat < 256 := byte.toNat_lt
  obtain ⟨high, hhigh, hhigh'⟩ := digitChar_spec (byte.toNat / 16) (by omega)
  obtain ⟨low, hlow, hlow'⟩ := digitChar_spec (byte.toNat % 16) (by omega)
  exact ⟨high, low, by simp [digits, hhigh, hlow], hhigh', hlow'⟩

theorem decodePairs_digits (bytes : List UInt8) (index : Nat) :
    decodePairs index ((digits bytes).flatMap String.utf8EncodeChar) = .ok bytes := by
  induction bytes generalizing index with
  | nil => rfl
  | cons byte bytes ih =>
    obtain ⟨high, low, hdigits, hhigh, hlow⟩ := digits_cons byte bytes
    have hbyte : UInt8.ofNat (16 * (byte.toNat / 16) + byte.toNat % 16) = byte := by
      rw [Nat.div_add_mod]
      exact UInt8.ofNat_toNat
    rw [hdigits]
    simp only [decodePairs, hhigh, hlow, ih, bind, Except.bind, pure, Except.pure, hbyte]

theorem length_digits (bytes : List UInt8) : ((digits bytes).flatMap String.utf8EncodeChar).length % 2 = 0 := by
  induction bytes with
  | nil => rfl
  | cons byte bytes ih =>
    obtain ⟨high, low, hdigits, -, -⟩ := digits_cons byte bytes
    rw [hdigits, List.length_cons, List.length_cons]
    omega

/-- Bytes that are written in hexadecimal are read back. -/
theorem decode_digits (bytes : List UInt8) : decode (String.ofList (digits bytes)) = .ok bytes := by
  unfold decode
  simp only [toUTF8_digits]
  rw [if_neg (by rw [length_digits]; simp), decodePairs_digits]

end Hex

end Text
