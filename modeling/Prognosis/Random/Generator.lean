import Prognosis.Scalar.Double

/-! A permuted congruential generator with 128 bits of state, and how its state is spread from
a seed.
-/

namespace Prognosis

/-- State of a generator: where it stands and the step of its sequence. -/
structure Generator where
  state : BitVec 128
  increment : BitVec 128
  deriving DecidableEq, Repr

namespace Generator

/-- A word with its upper half folded into the lower one. -/
def folded (x : UInt32) : UInt32 :=
  x ^^^ (x >>> 16)

/-- A word hashed with a running constant, and the constant after it. -/
def hashed (value constant : UInt32) : UInt32 × UInt32 :=
  let next := constant * 0x931e8875
  (folded ((value ^^^ constant) * next), next)

/-- Two words mixed. -/
def mixed (x y : UInt32) : UInt32 :=
  folded (0xca01f9dd * x - 0x4973f715 * y)

/-- Hashes words one after the other. -/
def hashAll (constant : UInt32) : List UInt32 → List UInt32 × UInt32
  | [] => ([], constant)
  | value :: rest =>
      let (first, constant) := hashed value constant
      let (others, constant) := hashAll constant rest
      (first :: others, constant)

/-- Pairs of different places in the pool, by source and then by target. -/
def places : List (Nat × Nat) :=
  (List.range 4).flatMap fun source =>
    (List.range 4).filterMap fun target =>
      if source == target then none else some (source, target)

/-- The pool of four words spread from a seed: each word is hashed, and then mixed into every
other one.
-/
def pool (seed : UInt64) : List UInt32 :=
  let (start, constant) := hashAll 0x43b0d7e5 [seed.toUInt32, (seed >>> 32).toUInt32, 0, 0]
  let step := fun (state : List UInt32 × UInt32) (place : Nat × Nat) =>
    let (pool, constant) := state
    let (value, constant) := hashed (pool.getD place.1 0) constant
    (pool.set place.2 (mixed (pool.getD place.2 0) value), constant)
  (places.foldl step (start, constant)).1

/-- Words drawn from the pool, which is gone through in turn. -/
def drawn (pool : List UInt32) (constant : UInt32) : (count place : Nat) → List UInt32
  | 0, _ => []
  | count + 1, place =>
      let next := constant * 0x58f38ded
      folded ((pool.getD (place % 4) 0 ^^^ constant) * next)
        :: drawn pool next count (place + 1)

/-- Two words as the halves of a longer one, the lower half first. -/
def joined (low high : UInt32) : Nat :=
  low.toNat + high.toNat <<< 32

/-- One step of the generator. -/
def step (g : Generator) : Generator :=
  { g with state := g.state * 0x2360ed051fc65da44385df649fccf645 + g.increment }

/-- The generator for a seed. -/
def ofSeed (seed : UInt64) : Generator :=
  match drawn (pool seed) 0x8b51f9dd 8 0 with
  | [a, b, c, d, e, f, g, h] =>
      let start := BitVec.ofNat 128 (joined a b <<< 64 + joined c d)
      let sequence := BitVec.ofNat 128 (joined e f <<< 64 + joined g h)
      let origin := step ⟨0, sequence * 2 + 1⟩
      step { origin with state := origin.state + start }
  | _ => ⟨0, 1⟩

/-- The next 64 bits: both halves of the state joined and turned by its highest bits. -/
def next (g : Generator) : UInt64 × Generator :=
  let g := g.step
  let high := UInt64.ofNat (g.state.toNat >>> 64)
  let low := UInt64.ofNat g.state.toNat
  let x := high ^^^ low
  let turn := high >>> 58
  ((x >>> turn) ||| (x <<< ((64 - turn) &&& 63)), g)

/-- A number from zero, included, to one, excluded, on a grid of 53 bits. -/
def unit (g : Generator) : Float × Generator :=
  let (x, g) := g.next
  ((x >>> 11).toFloat / 9007199254740992.0, g)

end Generator

end Prognosis
