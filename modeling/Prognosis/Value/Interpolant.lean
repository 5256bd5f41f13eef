import Prognosis.Scalar
import Prognosis.Syntax.Declaration
import Prognosis.Value.Spline

/-! Values between anchors, held flat outside them. Where a time falls among the anchors is found by
halving: on times in order every way of looking finds the same place; on others the places looked
at decide.
-/

namespace Prognosis.Bisection

variable {α : Type} [Scalar α]

/-- The place between two bounds up to which a condition holds, if it holds up to some place and
not from there on.
-/
def halve (holds : Nat → Bool) (low high : Nat) : Nat :=
  if low < high then
    let middle := low + (high - low) / 2
    if holds middle then halve holds (middle + 1) high else halve holds low middle
  else low
termination_by high - low

/-- The place found lies between the bounds. -/
theorem halve_bounds (holds : Nat → Bool) (low high : Nat) (ordered : low ≤ high)
    : low ≤ halve holds low high ∧ halve holds low high ≤ high := by
  fun_induction halve holds low high with
  | case1 low high less middle met ih =>
      have found := ih (by omega)
      omega
  | case2 low high less middle unmet ih =>
      have found := ih (by omega)
      omega
  | case3 low high done => omega

/-- A time comes before another one; undefined times come last. -/
def precedes (x y : α) : Bool :=
  Scalar.lt x y || (Scalar.isUndefined y && !Scalar.isUndefined x)

/-- Count of the times that are not after a time. -/
def countUpTo (times : Array α) (time : α) : Nat :=
  halve (fun i => !precedes time (times.getD i Scalar.undefined)) 0 times.size

/-- Largest count of times that are looked through one by one. -/
def fewTimes : Nat := 4

/-- Place up to which times are looked at before the last one is, where they are many. -/
def nearBound : Nat := 9

/-- Place of the last time that is not after a time, which lies between the first and the last
one. The places near the start are tried before the others.
-/
def placeBefore (times : Array α) (time : α) : Nat :=
  let entry (i : Nat) : α := times.getD i Scalar.undefined
  let reached (i : Nat) : Bool := Scalar.le (entry i) time
  let passed (i : Nat) : Bool := Scalar.lt time (entry i)
  let start := (List.range times.size).drop 1
  if times.size ≤ fewTimes then (start.takeWhile reached).length
  else
    match (start.take 3).findIdx? passed with
    | some place => place
    | none =>
        let isNear := nearBound + 1 < times.size && passed nearBound
        halve reached 3 (if isNear then nearBound else times.size) - 1

end Prognosis.Bisection

namespace Prognosis

/-- A function of time through anchors. -/
inductive Interpolant (α : Type) where
  | constant (value : α)
  | step (anchors : Array (Point α))
  | linear (anchors : Array (Point α))
  | spline (first last : Point α) (pieces : List (CubicPiece α))
  deriving Repr

namespace Interpolant

variable {α : Type} [Scalar α]

/-- The function through anchors. A spline needs three of them. -/
def ofAnchors (method : Interpolation) (anchors : List (Point α))
    : Except Fault (Interpolant α) :=
  match anchors with
  | [] => .error .domain
  | [only] => .ok (constant only.value)
  | [first, last] =>
      match method with
      | .step => .ok (step #[first, last])
      | .linear | .spline => .ok (linear #[first, last])
  | first :: _ :: third :: rest =>
      match method with
      | .step => .ok (step anchors.toArray)
      | .linear => .ok (linear anchors.toArray)
      | .spline =>
          (Spline.pieces anchors).map (spline first (rest.getLast?.getD third))

/-- Value at the last anchor that is not after a time; before all of them, that at the first. -/
def stepValue (anchors : Array (Point α)) (time : α) : α :=
  let place := Bisection.countUpTo (anchors.map (·.time)) time - 1
  (anchors[place]?.map (·.value)).getD Scalar.undefined

/-- Value on the line through two anchors. Where infinite values leave it undefined, it is
counted from the other anchor, and between equal values it is that value.
-/
def onLine (p q : Point α) (time : α) : α :=
  let slope := (q.value - p.value) / (q.time - p.time)
  let forward := slope * (time - p.time) + p.value
  if !Scalar.isUndefined forward then forward
  else
    let backward := slope * (time - q.time) + q.value
    if Scalar.isUndefined backward && Scalar.eq p.value q.value then p.value else backward

/-- Value on the lines between anchors. At an anchor it is the value there. -/
def linearValue (anchors : Array (Point α)) (time : α) : α :=
  let place := Bisection.placeBefore (anchors.map (·.time)) time
  match anchors[place]?, anchors[place + 1]? with
  | none, _ => Scalar.undefined
  | some p, none => p.value
  | some p, some q => if Scalar.eq p.time time then p.value else onLine p q time

/-- The last piece that starts at a time or before it; the first one counts in any case. -/
def pieceAt (time : α) : CubicPiece α → List (CubicPiece α) → CubicPiece α
  | piece, [] => piece
  | piece, next :: rest => if Scalar.lt time next.start then piece else pieceAt time next rest

/-- Value at a time. -/
def value (f : Interpolant α) (time : α) : α :=
  match f with
  | constant x => x
  | step anchors => stepValue anchors time
  | linear anchors =>
      match anchors[0]?, anchors.back? with
      | some first, some last =>
          if Scalar.isUndefined time then time
          else if Scalar.lt last.time time then last.value
          else if Scalar.lt time first.time then first.value
          else linearValue anchors time
      | _, _ => Scalar.undefined
  | spline first last pieces =>
      if Scalar.le time first.time then first.value
      else if Scalar.le last.time time then last.value
      else
        match pieces with
        | [] => Scalar.undefined
        | piece :: rest => (pieceAt time piece rest).value time

end Interpolant

end Prognosis
