import Mathlib.Algebra.Group.Nat.Defs
import Mathlib.Data.List.Basic

/-!
# SHA-256

The hash function of FIPS 180-4 on lists of bytes.  Words are natural numbers below `2 ^ 32`, so that the kernel
evaluates a digest with its own arithmetic.
-/

namespace Sha2

def rotr (x n : Nat) : Nat := (x >>> n ||| x <<< (32 - n)) % 2 ^ 32

def roundConstants : List Nat :=
  [0x428a2f98, 0x71374491, 0xb5c0fbcf, 0xe9b5dba5, 0x3956c25b, 0x59f111f1, 0x923f82a4, 0xab1c5ed5,
   0xd807aa98, 0x12835b01, 0x243185be, 0x550c7dc3, 0x72be5d74, 0x80deb1fe, 0x9bdc06a7, 0xc19bf174,
   0xe49b69c1, 0xefbe4786, 0x0fc19dc6, 0x240ca1cc, 0x2de92c6f, 0x4a7484aa, 0x5cb0a9dc, 0x76f988da,
   0x983e5152, 0xa831c66d, 0xb00327c8, 0xbf597fc7, 0xc6e00bf3, 0xd5a79147, 0x06ca6351, 0x14292967,
   0x27b70a85, 0x2e1b2138, 0x4d2c6dfc, 0x53380d13, 0x650a7354, 0x766a0abb, 0x81c2c92e, 0x92722c85,
   0xa2bfe8a1, 0xa81a664b, 0xc24b8b70, 0xc76c51a3, 0xd192e819, 0xd6990624, 0xf40e3585, 0x106aa070,
   0x19a4c116, 0x1e376c08, 0x2748774c, 0x34b0bcb5, 0x391c0cb3, 0x4ed8aa4a, 0x5b9cca4f, 0x682e6ff3,
   0x748f82ee, 0x78a5636f, 0x84c87814, 0x8cc70208, 0x90befffa, 0xa4506ceb, 0xbef9a3f7, 0xc67178f2]

/-- The eight working variables, also used for the chaining value. -/
structure HashState where
  (a b c d e f g h : Nat)

namespace HashState

def initial : HashState :=
  ⟨0x6a09e667, 0xbb67ae85, 0x3c6ef372, 0xa54ff53a, 0x510e527f, 0x9b05688c, 0x1f83d9ab, 0x5be0cd19⟩

/-- One round with a round constant and a schedule word. -/
def round (s : HashState) (kw : Nat × Nat) : HashState :=
  let s1 := rotr s.e 6 ^^^ rotr s.e 11 ^^^ rotr s.e 25
  let ch := (s.e &&& s.f) ^^^ ((2 ^ 32 - 1 - s.e) &&& s.g)
  let t1 := s.h + s1 + ch + kw.1 + kw.2
  let s0 := rotr s.a 2 ^^^ rotr s.a 13 ^^^ rotr s.a 22
  let maj := (s.a &&& s.b) ^^^ (s.a &&& s.c) ^^^ (s.b &&& s.c)
  ⟨(t1 + s0 + maj) % 2 ^ 32, s.a, s.b, s.c, (s.d + t1) % 2 ^ 32, s.e, s.f, s.g⟩

end HashState

/-- The message schedule, latest word first, extended by `n` words. -/
def extend : Nat → List Nat → List Nat
  | 0, w => w
  | n + 1, w =>
    let w15 := w.getD 14 0
    let w2 := w.getD 1 0
    let s0 := rotr w15 7 ^^^ rotr w15 18 ^^^ w15 >>> 3
    let s1 := rotr w2 17 ^^^ rotr w2 19 ^^^ w2 >>> 10
    extend n ((w.getD 15 0 + s0 + w.getD 6 0 + s1) % 2 ^ 32 :: w)

namespace HashState

/-- The compression function on a block of sixteen words. -/
def compress (s : HashState) (block : List Nat) : HashState :=
  let t := (roundConstants.zip (extend 48 block.reverse).reverse).foldl round s
  ⟨(s.a + t.a) % 2 ^ 32, (s.b + t.b) % 2 ^ 32, (s.c + t.c) % 2 ^ 32, (s.d + t.d) % 2 ^ 32,
   (s.e + t.e) % 2 ^ 32, (s.f + t.f) % 2 ^ 32, (s.g + t.g) % 2 ^ 32, (s.h + t.h) % 2 ^ 32⟩

/-- The chaining value after `n` blocks of `words`. -/
def absorb : Nat → List Nat → HashState → HashState
  | 0, _, s => s
  | n + 1, words, s => absorb n (words.drop 16) (s.compress (words.take 16))

end HashState

/-- The message with a one bit, zeros and its length in bits, a multiple of 64 bytes. -/
def pad (message : List UInt8) : List UInt8 :=
  message ++ ((0x80 : UInt8) :: List.replicate ((119 - message.length % 64) % 64) 0) ++
    (List.range 8).map fun i => UInt8.ofNat ((message.length * 8) >>> (8 * (7 - i)))

def words : List UInt8 → List Nat
  | a :: b :: c :: d :: rest => (((a.toNat * 256 + b.toNat) * 256 + c.toNat) * 256 + d.toNat) :: words rest
  | _ => []

def wordBytes (word : Nat) : List UInt8 :=
  [UInt8.ofNat (word >>> 24), UInt8.ofNat (word >>> 16), UInt8.ofNat (word >>> 8), UInt8.ofNat word]

def digest (message : List UInt8) : List UInt8 :=
  let input := words (pad message)
  let s := HashState.absorb (input.length / 16) input .initial
  wordBytes s.a ++ wordBytes s.b ++ wordBytes s.c ++ wordBytes s.d ++ wordBytes s.e ++ wordBytes s.f ++
    wordBytes s.g ++ wordBytes s.h

theorem length_digest (message : List UInt8) : (digest message).length = 32 := rfl

end Sha2
