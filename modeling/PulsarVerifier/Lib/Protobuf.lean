import Mathlib.Algebra.Group.Nat.Defs
import Mathlib.Data.List.Basic
import Mathlib.Data.Nat.Log

/-!
# Varints

Numbers in base 128, the lowest digit first, as protobuf and multiformats write them.
-/

namespace Protobuf

/-- The varint of `n`, of at most `fuel + 1` bytes. -/
def varintFrom : Nat → Nat → List UInt8
  | 0, n => [n.toUInt8]
  | fuel + 1, n => if n < 128 then [n.toUInt8] else (n % 128 + 128).toUInt8 :: varintFrom fuel (n / 128)

def varint (n : Nat) : List UInt8 := varintFrom n n

/-- The number at the start of some bytes, and what follows it. -/
def readVarint : List UInt8 → Option (Nat × List UInt8)
  | [] => none
  | byte :: rest =>
    if byte.toNat < 128 then some (byte.toNat, rest)
    else (readVarint rest).map fun (n, rest) => (byte.toNat - 128 + 128 * n, rest)

/-! ### Round trips -/

theorem toNat_toUInt8_of_lt {n : Nat} (h : n < 256) : n.toUInt8.toNat = n := by
  change n % 256 = n
  exact Nat.mod_eq_of_lt h

theorem readVarint_varintFrom {fuel n : Nat} (h : n ≤ fuel) (rest : List UInt8) :
    readVarint (varintFrom fuel n ++ rest) = some (n, rest) := by
  induction fuel generalizing n with
  | zero =>
    obtain rfl : n = 0 := by omega
    rfl
  | succ fuel ih =>
    rw [varintFrom]
    by_cases hn : n < 128
    · rw [if_pos hn, List.cons_append, List.nil_append, readVarint, toNat_toUInt8_of_lt (by omega), if_pos hn]
    · have hbyte : (n % 128 + 128).toUInt8.toNat = n % 128 + 128 := toNat_toUInt8_of_lt (by omega)
      rw [if_neg hn, List.cons_append, readVarint, hbyte, if_neg (by omega), ih (by omega)]
      simp only [Option.map_some, Option.some.injEq, Prod.mk.injEq, and_true]
      omega

theorem readVarint_varint (n : Nat) (rest : List UInt8) : readVarint (varint n ++ rest) = some (n, rest) :=
  readVarint_varintFrom (Nat.le_refl n) rest

theorem readVarint_append {bytes rest : List UInt8} {n : Nat} (h : readVarint bytes = some (n, rest))
    (more : List UInt8) : readVarint (bytes ++ more) = some (n, rest ++ more) := by
  induction bytes generalizing n with
  | nil => cases h
  | cons byte bytes ih =>
    rw [readVarint] at h
    rw [List.cons_append, readVarint]
    split
    · rw [if_pos ‹_›] at h
      cases h
      rfl
    · rw [if_neg ‹_›] at h
      obtain ⟨⟨m, rest'⟩, hm, heq⟩ := Option.map_eq_some_iff.1 h
      cases heq
      rw [ih hm]
      rfl

theorem varint_ne_nil (n : Nat) : varint n ≠ [] := by
  unfold varint
  cases n with
  | zero => exact List.cons_ne_nil _ _
  | succ n =>
    rw [varintFrom]
    split_ifs <;> exact List.cons_ne_nil _ _

theorem length_varintFrom {fuel n : Nat} (h : n ≤ fuel) : (varintFrom fuel n).length = Nat.log 128 n + 1 := by
  induction fuel generalizing n with
  | zero =>
    obtain rfl : n = 0 := by omega
    rfl
  | succ fuel ih =>
    rw [varintFrom]
    by_cases hn : n < 128
    · rw [if_pos hn, Nat.log_of_lt hn]
      rfl
    · rw [if_neg hn, List.length_cons, ih (by omega), Nat.log_div_base]
      have hpos : 0 < Nat.log 128 n := Nat.log_pos (by omega) (by omega)
      omega

/-- One byte for each digit to the base 128. -/
theorem length_varint (n : Nat) : (varint n).length = Nat.log 128 n + 1 := length_varintFrom (Nat.le_refl n)

theorem length_varint_le {n k : Nat} (hk : k ≠ 0) (h : n < 128 ^ k) : (varint n).length ≤ k := by
  have hlog : Nat.log 128 n < k := Nat.log_lt_of_lt_pow' hk h
  rw [length_varint]
  omega

theorem fromUTF8_toUTF8 (text : String) : String.fromUTF8? ⟨⟨text.toUTF8.data.toList⟩⟩ = some text := by
  change (if h : text.toUTF8.IsValidUTF8 then some (String.fromUTF8 text.toUTF8 h) else none) = some text
  have hutf8 : text.toUTF8.IsValidUTF8 := text.isValidUTF8
  rw [dif_pos hutf8]
  rfl

end Protobuf
