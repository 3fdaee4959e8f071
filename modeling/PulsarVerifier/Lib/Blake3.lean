import Mathlib.Algebra.Group.Nat.Defs
import Mathlib.Data.List.Basic

/-!
# BLAKE3

The hash function BLAKE3 in its default mode with 32 bytes of output.  The input is cut into chunks of 1024 bytes, each
chunk into blocks of 64 bytes; the chunks are the leaves of a binary tree.  As in `Sha2`, words are natural numbers
below `2 ^ 32`.
-/

namespace Blake3

def rotr (x n : Nat) : Nat := (x >>> n ||| x <<< (32 - n)) % 2 ^ 32

/-! ### The compression function -/

/-- One column, or one diagonal, of the state. -/
structure Column where
  (a b c d : Nat)

/-- The quarter round with two words of the message. -/
def Column.mix (s : Column) (x y : Nat) : Column :=
  let a := (s.a + s.b + x) % 2 ^ 32
  let d := rotr (s.d ^^^ a) 16
  let c := (s.c + d) % 2 ^ 32
  let b := rotr (s.b ^^^ c) 12
  let a := (a + b + y) % 2 ^ 32
  let d := rotr (d ^^^ a) 8
  let c := (c + d) % 2 ^ 32
  ⟨a, rotr (b ^^^ c) 7, c, d⟩

structure State where
  (s₀ s₁ s₂ s₃ : Column)

namespace State

def mix (s : State) (m : List Nat) : State :=
  ⟨s.s₀.mix (m.getD 0 0) (m.getD 1 0), s.s₁.mix (m.getD 2 0) (m.getD 3 0), s.s₂.mix (m.getD 4 0) (m.getD 5 0),
    s.s₃.mix (m.getD 6 0) (m.getD 7 0)⟩

def diagonals (s : State) : State :=
  ⟨⟨s.s₀.a, s.s₁.b, s.s₂.c, s.s₃.d⟩, ⟨s.s₁.a, s.s₂.b, s.s₃.c, s.s₀.d⟩, ⟨s.s₂.a, s.s₃.b, s.s₀.c, s.s₁.d⟩,
    ⟨s.s₃.a, s.s₀.b, s.s₁.c, s.s₂.d⟩⟩

def columns (s : State) : State :=
  ⟨⟨s.s₀.a, s.s₃.b, s.s₂.c, s.s₁.d⟩, ⟨s.s₁.a, s.s₀.b, s.s₃.c, s.s₂.d⟩, ⟨s.s₂.a, s.s₁.b, s.s₀.c, s.s₃.d⟩,
    ⟨s.s₃.a, s.s₂.b, s.s₁.c, s.s₀.d⟩⟩

def round (s : State) (m : List Nat) : State := ((s.mix m).diagonals.mix (m.drop 8)).columns

end State

def permutation : List Nat := [2, 6, 3, 10, 7, 0, 4, 13, 1, 11, 12, 5, 9, 14, 15, 8]

/-- Rounds with the permuted words of the message. -/
def rounds : Nat → State → List Nat → State
  | 0, s, _ => s
  | n + 1, s, m => rounds n (s.round m) (permutation.map (m.getD · 0))

/-- The initial chaining value, which is that of SHA-256. -/
def iv : List Nat :=
  [0x6a09e667, 0xbb67ae85, 0x3c6ef372, 0xa54ff53a, 0x510e527f, 0x9b05688c, 0x1f83d9ab, 0x5be0cd19]

def chunkStart : Nat := 1

def chunkEnd : Nat := 2

def parent : Nat := 4

def root : Nat := 8

/-- One call of the compression function that has still to be made. -/
structure Node where
  chain : List Nat
  block : List Nat
  counter : Nat
  blockLen : Nat
  flags : Nat

def Node.compress (n : Node) (flag : Nat) : List Nat :=
  let h := (n.chain.getD · 0)
  let s := rounds 7
    ⟨⟨h 0, h 4, iv.getD 0 0, n.counter % 2 ^ 32⟩, ⟨h 1, h 5, iv.getD 1 0, n.counter >>> 32⟩,
      ⟨h 2, h 6, iv.getD 2 0, n.blockLen⟩, ⟨h 3, h 7, iv.getD 3 0, n.flags ||| flag⟩⟩ n.block
  [s.s₀.a ^^^ s.s₀.c, s.s₁.a ^^^ s.s₁.c, s.s₂.a ^^^ s.s₂.c, s.s₃.a ^^^ s.s₃.c,
    s.s₀.b ^^^ s.s₀.d, s.s₁.b ^^^ s.s₁.d, s.s₂.b ^^^ s.s₂.d, s.s₃.b ^^^ s.s₃.d]

/-! ### Chunks and the tree -/

/-- The little-endian words of a list of bytes; a last word is filled with zeros. -/
def words : List UInt8 → List Nat
  | a :: b :: c :: d :: rest => (a.toNat + 256 * (b.toNat + 256 * (c.toNat + 256 * d.toNat))) :: words rest
  | [a, b, c] => [a.toNat + 256 * (b.toNat + 256 * c.toNat)]
  | [a, b] => [a.toNat + 256 * b.toNat]
  | [a] => [a.toNat]
  | [] => []

/-- The last block of a chunk, after `n` other blocks. -/
def chunk (counter : Nat) : Nat → List Nat → Nat → List UInt8 → Node
  | 0, chain, flags, bytes => ⟨chain, words bytes, counter, bytes.length, flags ||| chunkEnd⟩
  | n + 1, chain, flags, bytes =>
    chunk counter n (Node.compress ⟨chain, words (bytes.take 64), counter, 64, flags⟩ 0) 0 (bytes.drop 64)

/-- The tree over the chunks of `bytes`; its left part is full, and the first chunk has the number `counter`. -/
def tree : Nat → Nat → List UInt8 → Node
  | 0, counter, bytes => chunk counter ((bytes.length - 1) / 64) iv chunkStart bytes
  | fuel + 1, counter, bytes =>
    if bytes.length ≤ 1024 then chunk counter ((bytes.length - 1) / 64) iv chunkStart bytes
    else
      let left := 2 ^ Nat.log2 ((bytes.length - 1) / 1024)
      ⟨iv, (tree fuel counter (bytes.take (1024 * left))).compress 0 ++
        (tree fuel (counter + left) (bytes.drop (1024 * left))).compress 0, 0, 64, parent⟩

def wordBytes (w : Nat) : List UInt8 := (List.range 4).map fun i => UInt8.ofNat (w >>> (8 * i))

def hash (bytes : List UInt8) : List UInt8 :=
  ((tree bytes.length 0 bytes).compress root).flatMap wordBytes

theorem length_hash (bytes : List UInt8) : (hash bytes).length = 32 := rfl

-- The published digests of no input and of `abc`.
example : hash [] =
    [0xaf, 0x13, 0x49, 0xb9, 0xf5, 0xf9, 0xa1, 0xa6, 0xa0, 0x40, 0x4d, 0xea, 0x36, 0xdc, 0xc9, 0x49,
     0x9b, 0xcb, 0x25, 0xc9, 0xad, 0xc1, 0x12, 0xb7, 0xcc, 0x9a, 0x93, 0xca, 0xe4, 0x1f, 0x32, 0x62] := by
  decide +kernel

example : hash [97, 98, 99] =
    [0x64, 0x37, 0xb3, 0xac, 0x38, 0x46, 0x51, 0x33, 0xff, 0xb6, 0x3b, 0x75, 0x27, 0x3a, 0x8d, 0xb5,
     0x48, 0xc5, 0x58, 0x46, 0x5d, 0x79, 0xdb, 0x03, 0xfd, 0x35, 0x9c, 0x6c, 0xd5, 0xbd, 0x9d, 0x85] := by
  decide +kernel

end Blake3
