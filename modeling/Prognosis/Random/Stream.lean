import Prognosis.Random.Source
import Prognosis.Random.Ziggurat

/-! The streams that simulations draw from: each is seeded by a digest of the seed, the number
of the run and the name of its quantity, so it depends on no other one.
-/

namespace Prognosis

/-! ### Digests

The unkeyed BLAKE2b function with eight bytes of output.
-/

namespace Digest

/-- Words the chaining values start from. -/
def initial : Array UInt64 := #[
  0x6a09e667f3bcc908, 0xbb67ae8584caa73b, 0x3c6ef372fe94f82b, 0xa54ff53a5f1d36f1,
  0x510e527fade682d1, 0x9b05688c2b3e6c1f, 0x1f83d9abfb41bd6b, 0x5be0cd19137e2179
]

/-- Orders in which the words of a block are mixed in, one row for each round. -/
def schedules : List (List Nat) := [
  [0, 1, 2, 3, 4, 5, 6, 7, 8, 9, 10, 11, 12, 13, 14, 15],
  [14, 10, 4, 8, 9, 15, 13, 6, 1, 12, 0, 2, 11, 7, 5, 3],
  [11, 8, 12, 0, 5, 2, 15, 13, 10, 14, 3, 6, 7, 1, 9, 4],
  [7, 9, 3, 1, 13, 12, 11, 14, 2, 6, 5, 10, 4, 0, 15, 8],
  [9, 0, 5, 7, 2, 4, 10, 15, 14, 1, 11, 12, 6, 8, 3, 13],
  [2, 12, 6, 10, 0, 11, 8, 3, 4, 13, 7, 5, 15, 14, 1, 9],
  [12, 5, 1, 15, 14, 13, 4, 10, 0, 7, 6, 3, 9, 2, 8, 11],
  [13, 11, 7, 14, 12, 1, 3, 9, 5, 0, 15, 4, 8, 6, 2, 10],
  [6, 15, 14, 9, 11, 3, 0, 8, 12, 2, 13, 7, 1, 4, 10, 5],
  [10, 2, 8, 4, 7, 6, 1, 5, 15, 11, 9, 14, 3, 12, 13, 0],
  [0, 1, 2, 3, 4, 5, 6, 7, 8, 9, 10, 11, 12, 13, 14, 15],
  [14, 10, 4, 8, 9, 15, 13, 6, 1, 12, 0, 2, 11, 7, 5, 3]
]

/-- Places of the four words that each of the eight mixing steps of a round works on: first
the columns, then the diagonals.
-/
def quarters : List (Nat × Nat × Nat × Nat) := [
  (0, 4, 8, 12), (1, 5, 9, 13), (2, 6, 10, 14), (3, 7, 11, 15),
  (0, 5, 10, 15), (1, 6, 11, 12), (2, 7, 8, 13), (3, 4, 9, 14)
]

/-- The word turned to the right. -/
def rotate (x : UInt64) (count : UInt64) : UInt64 :=
  (x >>> count) ||| (x <<< (64 - count))

/-- One mixing step with two words of the block. -/
def mix (v : Array UInt64) (places : Nat × Nat × Nat × Nat) (x y : UInt64) : Array UInt64 :=
  let (i, j, k, l) := places
  let a := v.getD i 0
  let b := v.getD j 0
  let c := v.getD k 0
  let d := v.getD l 0
  let a := a + b + x
  let d := rotate (d ^^^ a) 32
  let c := c + d
  let b := rotate (b ^^^ c) 24
  let a := a + b + y
  let d := rotate (d ^^^ a) 16
  let c := c + d
  let b := rotate (b ^^^ c) 63
  (((v.setIfInBounds i a).setIfInBounds j b).setIfInBounds k c).setIfInBounds l d

/-- One round: eight mixing steps, each with the next two words of the schedule. -/
def round (block : Array UInt64) : List (Nat × Nat × Nat × Nat) → List Nat → Array UInt64
    → Array UInt64
  | places :: more, x :: y :: schedule, v =>
      round block more schedule (mix v places (block.getD x 0) (block.getD y 0))
  | _, _, v => v

/-- Chaining values after a block; the count is that of all bytes up to its end. -/
def compress (h block : Array UInt64) (count : Nat) (isLast : Bool) : Array UInt64 :=
  let counted := initial.setIfInBounds 4 (initial.getD 4 0 ^^^ UInt64.ofNat count)
  let marked :=
    if isLast then counted.setIfInBounds 6 (counted.getD 6 0 ^^^ 0xffffffffffffffff)
    else counted
  let v := schedules.foldl (fun v schedule => round block quarters schedule v) (h ++ marked)
  (Array.range 8).map fun i => h.getD i 0 ^^^ v.getD i 0 ^^^ v.getD (i + 8) 0

/-- A word from at most eight bytes, the lowest one first. -/
def word (bytes : List UInt8) : UInt64 :=
  bytes.foldr (fun b w => (w <<< 8) ||| b.toUInt64) 0

/-- Words of a block of 128 bytes, where missing bytes count as zero. -/
def words (bytes : List UInt8) : Array UInt64 :=
  (Array.range 16).map fun i => word ((bytes.drop (8 * i)).take 8)

/-- Chaining values after all blocks. The last block may be short, and there is always one. -/
def absorb (h : Array UInt64) (count : Nat) (bytes : List UInt8) : Array UInt64 :=
  if _h : bytes.length ≤ 128 then compress h (words bytes) (count + bytes.length) true
  else absorb (compress h (words (bytes.take 128)) (count + 128) false) (count + 128) (bytes.drop 128)
termination_by bytes.length
decreasing_by
  simp only [List.length_drop]
  omega

/-- The word with its bytes in the opposite order. -/
def swapBytes (x : UInt64) : UInt64 :=
  (List.range 8).foldl (fun y i => (y <<< 8) ||| ((x >>> UInt64.ofNat (8 * i)) &&& 0xff)) 0

/-- Digest of a text as a number whose highest byte comes first. -/
def ofText (text : String) : UInt64 :=
  -- eight bytes of output, no key, and no tree of digests
  let start := initial.setIfInBounds 0 (initial.getD 0 0 ^^^ 0x01010008)
  swapBytes ((absorb start 0 text.toUTF8.toList).getD 0 0)

end Digest

/-! ### Streams -/

open Decimal

/-- The text that stands for a stream. -/
def streamText (seed run : Int) (name : String) : String :=
  signedText seed ++ ":" ++ signedText run ++ ":" ++ name

/-- Seed of a stream. -/
def streamSeed (seed run : Int) (name : String) : UInt64 :=
  Digest.ofText (streamText seed run name)

/-- The streams of random doubles. -/
def RandomSource.standard : RandomSource Generator Float := {
  stream := fun seed run name => Generator.ofSeed (streamSeed seed run name)
  unit := Generator.unit
  gauss := Ziggurat.gauss
  beta := Ziggurat.beta
}

end Prognosis
