import Prognosis.Fault
import Prognosis.Scalar

/-! The natural cubic spline through anchors: its first two derivatives are continuous, and the
second one is zero at both ends. Its slopes solve a system of linear equations in which each unknown
meets only its neighbours.
-/

namespace Prognosis.Tridiagonal

variable {α : Type} [Scalar α]

/-- An equation, by the coefficients of the unknown before its own, of its own, and of the one
after it, with its right side.
-/
structure Row (α : Type) where
  below : α
  diagonal : α
  above : α
  right : α

/-- An equation that is free of the unknowns before its own. It may meet the next two. -/
structure FreedRow (α : Type) where
  diagonal : α
  above : α
  beyond : α
  right : α

/-- A first equation and a second one with the unknown of the first eliminated from one of them.
The one with the larger coefficient of that unknown becomes the first.
-/
def eliminate (current : Row α) (next : Row α) : FreedRow α × Row α :=
  if Scalar.le (Scalar.abs next.below) (Scalar.abs current.diagonal) then
    let factor := next.below / current.diagonal
    (⟨current.diagonal, current.above, Scalar.zero, current.right⟩,
      { next with
        diagonal := next.diagonal - factor * current.above
        right := next.right - factor * current.right })
  else
    let factor := current.diagonal / next.below
    (⟨next.below, next.diagonal, next.above, next.right⟩,
      { next with
        diagonal := current.above - factor * next.diagonal
        above := -factor * next.above
        right := current.right - factor * next.right })

/-- Equations with all unknowns before their own eliminated. -/
def freed (current : Row α) : List (Row α) → List (FreedRow α)
  | [] => [⟨current.diagonal, current.above, Scalar.zero, current.right⟩]
  | next :: rest =>
      let (row, others) := eliminate current next
      row :: freed others rest

/-- The unknowns, from the last one back. -/
def substitute : List (FreedRow α) → List α
  | [] => []
  | row :: rest =>
      match substitute rest with
      | [] => [row.right / row.diagonal]
      | [x] => [(row.right - row.above * x) / row.diagonal, x]
      | x :: y :: others =>
          (row.right - row.above * x - row.beyond * y) / row.diagonal :: x :: y :: others

/-- The unknowns of a system. -/
def solve : List (Row α) → List α
  | [] => []
  | row :: rest => substitute (freed row rest)

/-- There are as many freed equations as equations. -/
theorem length_freed (current : Row α) (rows : List (Row α))
    : (freed current rows).length = rows.length + 1 := by
  induction rows generalizing current with
  | nil => rfl
  | cons next rest ih => simp only [freed, List.length_cons, ih]

/-- There are as many unknowns as equations. -/
theorem length_substitute (rows : List (FreedRow α))
    : (substitute rows).length = rows.length := by
  induction rows with
  | nil => rfl
  | cons row rest ih =>
      simp only [substitute, List.length_cons, ← ih]
      split <;> rename_i found <;> simp [found]

end Prognosis.Tridiagonal

namespace Prognosis

/-- A time with the value at it. -/
structure Point (α : Type) where
  time : α
  value : α
  deriving Repr

/-- One piece of a cubic spline: it starts at a point in time, and the coefficients are those of
the powers of the time since then, constant first.
-/
structure CubicPiece (α : Type) where
  start : α
  constant : α
  first : α
  second : α
  third : α
  deriving Repr

variable {α : Type} [Scalar α]

/-- Value of a piece of a spline at a time. -/
def CubicPiece.value (piece : CubicPiece α) (time : α) : α :=
  let x := time - piece.start
  Scalar.sum
    [piece.constant, piece.first * x, piece.second * (x * x), piece.third * (x * x * x)]

namespace Spline

open Tridiagonal (Row)

/-- The chord between neighbouring anchors. -/
structure Chord (α : Type) where
  start : Point α
  length : α
  rise : α
  slope : α

/-- The chords between neighbouring anchors. -/
def chords : List (Point α) → List (Chord α)
  | p :: q :: rest =>
      let length := q.time - p.time
      let rise := q.value - p.value
      ⟨p, length, rise, rise / length⟩ :: chords (q :: rest)
  | _ => []

/-- Conditions on the slopes at inner anchors: the second derivative is continuous. -/
def innerRows : List (Chord α) → List (Row α)
  | c :: d :: rest => {
      below := d.length
      diagonal := Scalar.ofNat 2 * (c.length + d.length)
      above := c.length
      right := Scalar.ofNat 3 * (d.length * c.slope + c.length * d.slope)
    } :: innerRows (d :: rest)
  | _ => []

/-- Half the second derivative at an end times the square of the length of its chord. -/
def endBend (c : Chord α) : α :=
  Scalar.zero * (c.length * c.length)

/-- Conditions on the slopes at all anchors: at both ends the second derivative is zero. -/
def slopeRows (cs : List (Chord α)) : List (Row α) :=
  match cs, cs.getLast? with
  | first :: _, some last =>
      let start : Row α := {
        below := Scalar.zero
        diagonal := Scalar.ofNat 2 * first.length
        above := first.length
        right := Scalar.ofNat 3 * first.rise - endBend first
      }
      let finish : Row α := {
        below := last.length
        diagonal := Scalar.ofNat 2 * last.length
        above := Scalar.zero
        right := endBend last + Scalar.ofNat 3 * last.rise
      }
      start :: innerRows cs ++ [finish]
  | _, _ => []

/-- The cubic piece over a chord with given slopes at its ends. -/
def pieceOver (c : Chord α) (startSlope finishSlope : α) : CubicPiece α :=
  let bend := (startSlope + finishSlope - Scalar.ofNat 2 * c.slope) / c.length
  {
    start := c.start.time
    constant := c.start.value
    first := startSlope
    second := (c.slope - startSlope) / c.length - bend
    third := bend / c.length
  }

/-- The pieces over chords with the slopes at all anchors. -/
def piecesOver : List (Chord α) → List α → List (CubicPiece α)
  | c :: cs, s :: t :: slopes => pieceOver c s t :: piecesOver cs (t :: slopes)
  | _, _ => []

/-- Times grow from each anchor to the next. -/
def increasing : List (Point α) → Bool
  | p :: q :: rest => Scalar.lt p.time q.time && increasing (q :: rest)
  | _ => true

/-- The pieces of the spline through anchors, which must be finite and in order, as must be the
slopes at them.
-/
def pieces (anchors : List (Point α)) : Except Fault (List (CubicPiece α)) :=
  let cs := chords anchors
  let slopes := Tridiagonal.solve (slopeRows cs)
  let isFinite (p : Point α) : Bool := Scalar.isFinite p.time && Scalar.isFinite p.value
  if anchors.all isFinite && increasing anchors && slopes.all Scalar.isFinite then
    .ok (piecesOver cs slopes)
  else .error .domain

end Spline

end Prognosis
