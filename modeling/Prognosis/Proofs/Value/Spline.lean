import Prognosis.Proofs.Scalar.Exact
import Prognosis.Value.Interpolant

/-! Natural cubic splines over real numbers. Elimination keeps the solutions of the equations for
the slopes, and in these equations the coefficient of its own unknown outweighs the two others, so
that no pivot is zero. The pieces with the slopes found join up to the second derivative.
-/

namespace Prognosis.Tridiagonal

-----------------------------------------------------------------------------------------
-- Solutions of systems in which each unknown meets its neighbours
-----------------------------------------------------------------------------------------

/-- Numbers solve equations, the first of which meets the unknown `before` them. -/
def Solves (before : ℝ) : List (Row ℝ) → List ℝ → Prop
  | row :: rows, x :: xs =>
      row.below * before + row.diagonal * x + row.above * xs.headD 0 = row.right ∧ Solves x rows xs
  | [], [] => True
  | _, _ => False

/-- Numbers solve equations that are free of the unknowns before their own. -/
def SolvesFreed : List (FreedRow ℝ) → List ℝ → Prop
  | row :: rows, x :: xs =>
      row.diagonal * x + row.above * xs.headD 0 + row.beyond * xs.tail.headD 0 = row.right
        ∧ SolvesFreed rows xs
  | [], [] => True
  | _, _ => False

theorem Solves.length {before : ℝ} {rows : List (Row ℝ)} {xs : List ℝ}
    (solved : Solves before rows xs)
    : rows.length = xs.length := by
  induction rows generalizing before xs with
  | nil =>
      match xs, solved with
      | [], _ => rfl
  | cons row rows ih =>
      match xs, solved with
      | x :: xs, ⟨_, rest⟩ => exact congrArg (· + 1) (ih rest)

/-- The unknowns from the last one back solve the equations if no pivot is zero. -/
theorem substitute_solves (rows : List (FreedRow ℝ)) (pivots : ∀ row ∈ rows, row.diagonal ≠ 0)
    : SolvesFreed rows (substitute rows) := by
  induction rows with
  | nil => trivial
  | cons row rest ih =>
      have pivot := pivots row List.mem_cons_self
      have solved := ih fun other listed => pivots other (List.mem_cons_of_mem _ listed)
      simp only [substitute]
      split
      case h_1 found =>
        refine ⟨?_, found ▸ solved⟩
        simp only [List.headD_nil, List.tail_nil]
        field_simp
        ring
      case h_2 x found =>
        refine ⟨?_, found ▸ solved⟩
        simp only [List.headD_cons, List.tail_cons, List.headD_nil]
        field_simp
        ring
      case h_3 x y others found =>
        refine ⟨?_, found ▸ solved⟩
        simp only [List.headD_cons, List.tail_cons]
        field_simp
        ring

-----------------------------------------------------------------------------------------
-- Elimination
-----------------------------------------------------------------------------------------

/-- The coefficient of its own unknown outweighs those of the neighbours. -/
def Row.Outweighs (row : Row ℝ) : Prop :=
  |row.below| + |row.above| < |row.diagonal|

/-- The coefficient of its own unknown outweighs that of the unknown after it. -/
def Row.Leads (row : Row ℝ) : Prop :=
  |row.above| < |row.diagonal|

theorem Row.Outweighs.leads {row : Row ℝ} (outweighs : row.Outweighs)
    : row.Leads :=
  lt_of_le_of_lt (le_add_of_nonneg_left (abs_nonneg _)) outweighs

/-- Elimination leaves an equation that leads again, behind a pivot that is not zero. -/
theorem eliminate_leads {current next : Row ℝ} (leads : current.Leads)
    (outweighs : next.Outweighs)
    : (eliminate current next).1.diagonal ≠ 0 ∧ (eliminate current next).2.Leads := by
  have size : 0 < |current.diagonal| := lt_of_le_of_lt (abs_nonneg _) leads
  have leads' : |current.above| < |current.diagonal| := leads
  have outweighs' : |next.below| + |next.above| < |next.diagonal| := outweighs
  simp only [eliminate, Scalar.le_real, Scalar.abs_real, decide_eq_true_eq]
  split
  case isTrue keeps =>
    refine ⟨abs_pos.mp size, ?_⟩
    have small : |next.below / current.diagonal * current.above| ≤ |next.below| := by
      rw [abs_mul, abs_div, div_mul_eq_mul_div, div_le_iff₀ size]
      exact mul_le_mul_of_nonneg_left leads'.le (abs_nonneg _)
    have apart := abs_sub_abs_le_abs_sub next.diagonal
      (next.below / current.diagonal * current.above)
    simp only [Row.Leads]
    linarith
  case isFalse swaps =>
    have larger : |current.diagonal| < |next.below| := not_le.mp swaps
    have pivot : 0 < |next.below| := size.trans larger
    refine ⟨abs_pos.mp pivot, ?_⟩
    have share : 0 < |current.diagonal / next.below| := by
      rw [abs_div]
      exact div_pos size pivot
    have whole : |current.diagonal / next.below| * |next.below| = |current.diagonal| := by
      rw [abs_div, div_mul_cancel₀ _ pivot.ne']
    have scaled := mul_lt_mul_of_pos_left outweighs' share
    have apart := abs_sub_abs_le_abs_sub (current.diagonal / next.below * next.diagonal)
      current.above
    rw [mul_add, whole] at scaled
    rw [abs_sub_comm, abs_mul] at apart
    simp only [Row.Leads, abs_mul, abs_neg]
    linarith

/-- Unknowns that solve the equations after elimination solve them as they were before. -/
theorem eliminate_solves {current next : Row ℝ} {x y z : ℝ}
    (pivot : (eliminate current next).1.diagonal ≠ 0)
    (first
      : (eliminate current next).1.diagonal * x + (eliminate current next).1.above * y
          + (eliminate current next).1.beyond * z
        = (eliminate current next).1.right)
    (second
      : (eliminate current next).2.diagonal * y + (eliminate current next).2.above * z
        = (eliminate current next).2.right)
    : current.diagonal * x + current.above * y = current.right
        ∧ next.below * x + next.diagonal * y + next.above * z = next.right := by
  simp only [eliminate, Scalar.le_real, Scalar.abs_real, decide_eq_true_eq] at pivot first second
  split at pivot
  case isTrue keeps =>
    simp only [keeps, if_true, Scalar.zero_real, zero_mul, add_zero] at first second
    have share := div_mul_cancel₀ next.below pivot
    refine ⟨first, ?_⟩
    linear_combination second + next.below / current.diagonal * first - x * share
  case isFalse swaps =>
    simp only [swaps, if_false] at first second
    have share := div_mul_cancel₀ current.diagonal pivot
    refine ⟨?_, first⟩
    linear_combination second + current.diagonal / next.below * first - x * share

/-- Unknowns that solve the freed equations solve the given ones. -/
theorem freed_solves {current : Row ℝ} {rows : List (Row ℝ)} {xs : List ℝ}
    (leads : current.Leads) (outweigh : ∀ row ∈ rows, row.Outweighs)
    (solved : SolvesFreed (freed current rows) xs)
    : Solves 0 (current :: rows) xs := by
  induction rows generalizing current xs with
  | nil =>
      match xs, solved with
      | [x], ⟨first, _⟩ => exact ⟨by simpa using first, trivial⟩
  | cons next rest ih =>
      have after := eliminate_leads leads (outweigh next List.mem_cons_self)
      match xs, solved with
      | x :: xs, ⟨first, others⟩ =>
          have behind := ih after.2
            (fun row listed => outweigh row (List.mem_cons_of_mem _ listed)) others
          match xs, behind with
          | y :: ys, ⟨second, rest⟩ =>
              rw [mul_zero, zero_add] at second
              have both := eliminate_solves after.1 first second
              exact ⟨by simpa using both.1, both.2, rest⟩

/-- Pivots of a system in which each unknown outweighs its neighbours are not zero. -/
theorem freed_pivots {current : Row ℝ} {rows : List (Row ℝ)} (leads : current.Leads)
    (outweigh : ∀ row ∈ rows, row.Outweighs)
    : ∀ row ∈ freed current rows, row.diagonal ≠ 0 := by
  induction rows generalizing current with
  | nil =>
      intro row listed
      rw [freed, List.mem_singleton] at listed
      rw [listed]
      exact abs_pos.mp (lt_of_le_of_lt (abs_nonneg _) leads)
  | cons next rest ih =>
      have after := eliminate_leads leads (outweigh next List.mem_cons_self)
      intro row listed
      rw [freed, List.mem_cons] at listed
      rcases listed with rfl | later
      · exact after.1
      · have others := fun other among => outweigh other (List.mem_cons_of_mem _ among)
        exact ih after.2 others row later

/-- The unknowns found solve a system in which each unknown outweighs its neighbours. -/
theorem solve_solves {rows : List (Row ℝ)} (outweigh : ∀ row ∈ rows, row.Outweighs)
    : Solves 0 rows (solve rows) := by
  cases rows with
  | nil => trivial
  | cons current rest =>
      have leads := (outweigh current List.mem_cons_self).leads
      have others : ∀ row ∈ rest, row.Outweighs :=
        fun row listed => outweigh row (List.mem_cons_of_mem _ listed)
      exact freed_solves leads others (substitute_solves _ (freed_pivots leads others))

end Prognosis.Tridiagonal

namespace Prognosis

-----------------------------------------------------------------------------------------
-- Cubic pieces
-----------------------------------------------------------------------------------------

open Polynomial (X C C_mul)

/-- A piece of a spline as a polynomial. -/
noncomputable def CubicPiece.polynomial (piece : CubicPiece ℝ) : Polynomial ℝ :=
  C piece.constant + C piece.first * (X - C piece.start)
    + C piece.second * (X - C piece.start) ^ 2 + C piece.third * (X - C piece.start) ^ 3

namespace CubicPiece

variable (piece : CubicPiece ℝ) (time : ℝ)

theorem natDegree_polynomial
    : piece.polynomial.natDegree ≤ 3 := by
  unfold polynomial
  compute_degree

@[simp]
theorem value_eq
    : piece.value time = piece.polynomial.eval time := by
  simp only [value, Scalar.sum, List.foldl_cons, List.foldl_nil, Scalar.zero_real, polynomial,
    Polynomial.eval_add, Polynomial.eval_mul, Polynomial.eval_pow, Polynomial.eval_sub,
    Polynomial.eval_C, Polynomial.eval_X]
  ring

@[simp]
theorem eval_polynomial
    : piece.polynomial.eval time
      = piece.constant + piece.first * (time - piece.start)
        + piece.second * (time - piece.start) ^ 2 + piece.third * (time - piece.start) ^ 3 := by
  simp [polynomial]

theorem derivative_polynomial
    : piece.polynomial.derivative
      = C piece.first + C (2 * piece.second) * (X - C piece.start)
        + C (3 * piece.third) * (X - C piece.start) ^ 2 := by
  simp only [polynomial, Polynomial.derivative_add, Polynomial.derivative_C_mul,
    Polynomial.derivative_X_sub_C_pow, Polynomial.derivative_sub, Polynomial.derivative_X,
    Polynomial.derivative_C, C_mul]
  norm_num
  ring

@[simp]
theorem eval_slope
    : piece.polynomial.derivative.eval time
      = piece.first + 2 * piece.second * (time - piece.start)
        + 3 * piece.third * (time - piece.start) ^ 2 := by
  simp [derivative_polynomial]

@[simp]
theorem eval_bend
    : piece.polynomial.derivative.derivative.eval time
      = 2 * piece.second + 6 * piece.third * (time - piece.start) := by
  simp only [derivative_polynomial, Polynomial.derivative_add, Polynomial.derivative_C_mul,
    Polynomial.derivative_X_sub_C_pow, Polynomial.derivative_sub, Polynomial.derivative_X,
    Polynomial.derivative_C]
  simp
  ring

end CubicPiece

/-- Times grow from each anchor to all later ones. -/
def Rising (anchors : List (Point ℝ)) : Prop :=
  anchors.Pairwise (·.time < ·.time)

-----------------------------------------------------------------------------------------
-- Natural splines
-----------------------------------------------------------------------------------------

namespace Spline

open Tridiagonal

/-- A function runs through points, the first of which it leaves with a slope and a bend, which are
its first two derivatives there. Between neighbours it is a polynomial of degree at most three. At
the point where one of them ends the next one goes on with the same slope and the same bend, and at
the last point the bend is zero.
-/
inductive RunsThrough (value : ℝ → ℝ) : ℝ → ℝ → List (Point ℝ) → Prop
  | finish {slope : ℝ} {p : Point ℝ} (anchored : value p.time = p.value)
    : RunsThrough value slope 0 [p]
  | piece {p q : Point ℝ} {rest : List (Point ℝ)} (piece : Polynomial ℝ)
    (cubic : piece.natDegree ≤ 3) (anchored : value p.time = p.value)
    (agrees : ∀ time ∈ Set.Icc p.time q.time, value time = piece.eval time)
    (behind
      : RunsThrough value (piece.derivative.eval q.time)
          (piece.derivative.derivative.eval q.time) (q :: rest))
    : RunsThrough value (piece.derivative.eval p.time)
        (piece.derivative.derivative.eval p.time) (p :: q :: rest)

/-- A function is the natural cubic spline through anchors. -/
def IsNatural (anchors : List (Point ℝ)) (value : ℝ → ℝ) : Prop :=
  ∃ slope, RunsThrough value slope 0 anchors

theorem RunsThrough.head {value : ℝ → ℝ} {slope bend : ℝ} {p : Point ℝ} {rest : List (Point ℝ)}
    (runs : RunsThrough value slope bend (p :: rest))
    : value p.time = p.value := by
  cases runs with
  | finish anchored => exact anchored
  | piece _ _ anchored _ _ => exact anchored

/-- The function has the value of every point. -/
theorem RunsThrough.anchored {value : ℝ → ℝ} {slope bend : ℝ} {points : List (Point ℝ)}
    (runs : RunsThrough value slope bend points)
    : ∀ p ∈ points, value p.time = p.value := by
  induction runs with
  | finish anchored => simpa using anchored
  | piece _ _ anchored _ _ ih =>
      intro p listed
      rcases List.mem_cons.mp listed with rfl | later
      · exact anchored
      · exact ih p later

/-- A piece put in front of others, which go on with the slope that it ends with. -/
theorem RunsThrough.cons {value : ℝ → ℝ} {slope next : ℝ} {p q : Point ℝ} {rest : List (Point ℝ)}
    {piece : Polynomial ℝ} (cubic : piece.natDegree ≤ 3) (anchored : value p.time = p.value)
    (agrees : ∀ time ∈ Set.Icc p.time q.time, value time = piece.eval time)
    (starts : piece.derivative.eval p.time = slope) (ends : piece.derivative.eval q.time = next)
    (behind : RunsThrough value next (piece.derivative.derivative.eval q.time) (q :: rest))
    : RunsThrough value slope (piece.derivative.derivative.eval p.time) (p :: q :: rest) := by
  subst starts ends
  exact .piece piece cubic anchored agrees behind

/-- The chord between two anchors. -/
noncomputable def chord (p q : Point ℝ) : Chord ℝ :=
  ⟨p, q.time - p.time, q.value - p.value, (q.value - p.value) / (q.time - p.time)⟩

theorem chords_cons (p q : Point ℝ) (rest : List (Point ℝ))
    : chords (p :: q :: rest) = chord p q :: chords (q :: rest) := rfl

section Piece

variable {p q : Point ℝ} (less : p.time < q.time) (s t : ℝ)

/-- A piece starts at its anchor with the slope given there. -/
theorem pieceOver_start
    : (pieceOver (chord p q) s t).polynomial.eval p.time = p.value
        ∧ (pieceOver (chord p q) s t).polynomial.derivative.eval p.time = s := by
  simp [pieceOver, chord]

include less in
/-- A piece ends at the next anchor with the slope given there. -/
theorem pieceOver_finish
    : (pieceOver (chord p q) s t).polynomial.eval q.time = q.value
        ∧ (pieceOver (chord p q) s t).polynomial.derivative.eval q.time = t := by
  have length : q.time - p.time ≠ 0 := sub_ne_zero.mpr less.ne'
  constructor
  · simp only [pieceOver, chord, CubicPiece.eval_polynomial, Scalar.ofNat_real]
    field_simp
    ring
  · simp only [pieceOver, chord, CubicPiece.eval_slope, Scalar.ofNat_real]
    field_simp
    ring

include less in
/-- The bends of a piece at both ends. -/
theorem pieceOver_bends
    : (q.time - p.time) * (pieceOver (chord p q) s t).polynomial.derivative.derivative.eval p.time
          = 2 * (3 * (chord p q).slope - 2 * s - t)
        ∧ (q.time - p.time)
            * (pieceOver (chord p q) s t).polynomial.derivative.derivative.eval q.time
          = 2 * (s + 2 * t - 3 * (chord p q).slope) := by
  have length : q.time - p.time ≠ 0 := sub_ne_zero.mpr less.ne'
  constructor <;>
    (simp only [pieceOver, CubicPiece.eval_bend, Scalar.ofNat_real]
     simp only [chord]
     field_simp
     ring)

end Piece

-----------------------------------------------------------------------------------------
-- The slopes
-----------------------------------------------------------------------------------------

/-- The condition on the slope at the first anchor: the bend there is zero. -/
noncomputable def startRow (c : Chord ℝ) : Row ℝ where
  below := Scalar.zero
  diagonal := Scalar.ofNat 2 * c.length
  above := c.length
  right := Scalar.ofNat 3 * c.rise - endBend c

/-- The condition on the slope at an inner anchor: the bend does not change there. -/
noncomputable def innerRow (c d : Chord ℝ) : Row ℝ where
  below := d.length
  diagonal := Scalar.ofNat 2 * (c.length + d.length)
  above := c.length
  right := Scalar.ofNat 3 * (d.length * c.slope + c.length * d.slope)

/-- The condition on the slope at the last anchor: the bend there is zero. -/
noncomputable def finishRow (c : Chord ℝ) : Row ℝ where
  below := c.length
  diagonal := Scalar.ofNat 2 * c.length
  above := Scalar.zero
  right := endBend c + Scalar.ofNat 3 * c.rise

/-- The conditions on the slopes at all anchors but the first one. -/
noncomputable def laterRows (cs : List (Chord ℝ)) : List (Row ℝ) :=
  innerRows cs ++ cs.getLast?.toList.map finishRow

theorem slopeRows_eq (c : Chord ℝ) (cs : List (Chord ℝ))
    : slopeRows (c :: cs) = startRow c :: laterRows (c :: cs) := by
  obtain ⟨last, found⟩ : ∃ last, (c :: cs).getLast? = some last :=
    ⟨_, List.getLast?_eq_some_getLast (List.cons_ne_nil c cs)⟩
  simp only [slopeRows, laterRows, found]
  rfl

theorem laterRows_cons (c d : Chord ℝ) (cs : List (Chord ℝ))
    : laterRows (c :: d :: cs) = innerRow c d :: laterRows (d :: cs) := by
  simp only [laterRows, innerRows, List.getLast?_cons_cons, List.cons_append]
  rfl

@[simp]
theorem length_laterRows (c : Chord ℝ) (cs : List (Chord ℝ))
    : (laterRows (c :: cs)).length = cs.length + 1 := by
  induction cs generalizing c with
  | nil => rfl
  | cons d cs ih => rw [laterRows_cons, List.length_cons, ih, List.length_cons]

theorem startRow_outweighs {c : Chord ℝ} (pos : 0 < c.length)
    : (startRow c).Outweighs := by
  simp only [Row.Outweighs, startRow, Scalar.zero_real, Scalar.ofNat_real, abs_zero, abs_mul,
    abs_of_pos pos]
  norm_num
  linarith

theorem finishRow_outweighs {c : Chord ℝ} (pos : 0 < c.length)
    : (finishRow c).Outweighs := by
  simp only [Row.Outweighs, finishRow, Scalar.zero_real, Scalar.ofNat_real, abs_zero, abs_mul,
    abs_of_pos pos]
  norm_num
  linarith

theorem innerRow_outweighs {c d : Chord ℝ} (pos : 0 < c.length) (next : 0 < d.length)
    : (innerRow c d).Outweighs := by
  simp only [Row.Outweighs, innerRow, Scalar.ofNat_real, abs_mul, abs_of_pos pos, abs_of_pos next,
    abs_of_pos (add_pos pos next)]
  norm_num
  linarith

/-- In every condition the slope at its own anchor outweighs the others, as the chords have
positive lengths.
-/
theorem laterRows_outweigh (c : Chord ℝ) (cs : List (Chord ℝ))
    (lengths : ∀ d ∈ c :: cs, 0 < d.length)
    : ∀ row ∈ laterRows (c :: cs), row.Outweighs := by
  induction cs generalizing c with
  | nil =>
      have pos := lengths c List.mem_cons_self
      simpa [laterRows, innerRows] using finishRow_outweighs pos
  | cons d cs ih =>
      have pos := lengths c List.mem_cons_self
      have next := lengths d (by simp)
      rw [laterRows_cons]
      exact List.forall_mem_cons.mpr ⟨innerRow_outweighs pos next,
        ih d fun e among => lengths e (List.mem_cons_of_mem _ among)⟩

/-- The slopes found solve the conditions. -/
theorem slopes_solve (c : Chord ℝ) (cs : List (Chord ℝ)) (lengths : ∀ d ∈ c :: cs, 0 < d.length)
    : Solves 0 (startRow c :: laterRows (c :: cs)) (solve (slopeRows (c :: cs))) := by
  rw [slopeRows_eq]
  exact solve_solves (List.forall_mem_cons.mpr
    ⟨startRow_outweighs (lengths c List.mem_cons_self), laterRows_outweigh c cs lengths⟩)

section Bends

variable {p q r : Point ℝ} {s t u : ℝ}

theorem chord_rise (less : p.time < q.time)
    : (chord p q).rise = (q.time - p.time) * (chord p q).slope :=
  (mul_div_cancel₀ _ (sub_pos.mpr less).ne').symm

/-- The first condition says that the bend is zero where the first piece starts. -/
theorem bend_of_startRow (less : p.time < q.time)
    (row
      : (startRow (chord p q)).diagonal * s + (startRow (chord p q)).above * t
        = (startRow (chord p q)).right)
    : (pieceOver (chord p q) s t).polynomial.derivative.derivative.eval p.time = 0 := by
  have length : q.time - p.time ≠ 0 := (sub_pos.mpr less).ne'
  have bend := (pieceOver_bends less s t).1
  have rise := chord_rise less
  simp only [startRow, endBend, Scalar.zero_real, Scalar.ofNat_real, zero_mul, sub_zero] at row
  simp only [chord] at row bend rise ⊢
  apply mul_left_cancel₀ (mul_ne_zero length length)
  push_cast at row
  linear_combination (q.time - p.time) * bend - 2 * row - 6 * rise

/-- An inner condition says that the bend is the same where one piece ends and the next starts. -/
theorem bend_of_innerRow (less : p.time < q.time) (next : q.time < r.time)
    (row
      : (innerRow (chord p q) (chord q r)).below * s
          + (innerRow (chord p q) (chord q r)).diagonal * t
          + (innerRow (chord p q) (chord q r)).above * u
        = (innerRow (chord p q) (chord q r)).right)
    : (pieceOver (chord p q) s t).polynomial.derivative.derivative.eval q.time
      = (pieceOver (chord q r) t u).polynomial.derivative.derivative.eval q.time := by
  have length : q.time - p.time ≠ 0 := (sub_pos.mpr less).ne'
  have after : r.time - q.time ≠ 0 := (sub_pos.mpr next).ne'
  have ends := (pieceOver_bends less s t).2
  have starts := (pieceOver_bends next t u).1
  simp only [innerRow, Scalar.ofNat_real] at row
  simp only [chord] at row ends starts ⊢
  apply mul_left_cancel₀ (mul_ne_zero length after)
  push_cast at row
  linear_combination (r.time - q.time) * ends - (q.time - p.time) * starts + 2 * row

/-- The last condition says that the bend is zero where the last piece ends. -/
theorem bend_of_finishRow (less : p.time < q.time)
    (row
      : (finishRow (chord p q)).below * s + (finishRow (chord p q)).diagonal * t
        = (finishRow (chord p q)).right)
    : (pieceOver (chord p q) s t).polynomial.derivative.derivative.eval q.time = 0 := by
  have length : q.time - p.time ≠ 0 := (sub_pos.mpr less).ne'
  have bend := (pieceOver_bends less s t).2
  have rise := chord_rise less
  simp only [finishRow, endBend, Scalar.zero_real, Scalar.ofNat_real, zero_mul, zero_add] at row
  simp only [chord] at row bend rise ⊢
  apply mul_left_cancel₀ (mul_ne_zero length length)
  push_cast at row
  linear_combination (q.time - p.time) * bend + 2 * row + 6 * rise

end Bends

-----------------------------------------------------------------------------------------
-- The pieces
-----------------------------------------------------------------------------------------

/-- The first piece counts until the second one starts. -/
theorem pieceAt_first {piece : CubicPiece ℝ} {cs : List (Chord ℝ)} {slopes : List ℝ} {time : ℝ}
    (early : ∀ c ∈ cs, time < c.start.time)
    : Interpolant.pieceAt time piece (piecesOver cs slopes) = piece := by
  match cs, slopes with
  | [], _ => rfl
  | c :: cs, [] => rfl
  | c :: cs, [_] => rfl
  | c :: cs, s :: t :: slopes =>
      have less := early c List.mem_cons_self
      simp [piecesOver, Interpolant.pieceAt, pieceOver, less]

theorem chords_start {p : Point ℝ} {rest : List (Point ℝ)} {c : Chord ℝ}
    (listed : c ∈ chords (p :: rest))
    : c.start ∈ p :: rest := by
  induction rest generalizing p with
  | nil => cases listed
  | cons q rest ih =>
      rw [chords_cons, List.mem_cons] at listed
      rcases listed with rfl | later
      · exact List.mem_cons_self
      · exact List.mem_cons_of_mem p (ih later)

theorem chords_length {anchors : List (Point ℝ)} (rising : Rising anchors)
    : ∀ c ∈ chords anchors, 0 < c.length := by
  match anchors, rising with
  | [], _ => simp [chords]
  | [p], _ => simp [chords]
  | p :: q :: rest, rising =>
      have others := List.pairwise_cons.mp rising
      rw [chords_cons]
      exact List.forall_mem_cons.mpr
        ⟨sub_pos.mpr (others.1 q List.mem_cons_self), chords_length others.2⟩

section Run

variable {value : ℝ → ℝ} {p q last : Point ℝ} {rest : List (Point ℝ)} {s t : ℝ}
  {slopes : List ℝ}

/-- One piece runs to the next anchor, and on from there as given. -/
theorem piece_runs (rising : Rising (p :: q :: rest)) (listed : last ∈ q :: rest)
    (inside
      : ∀ time, p.time ≤ time → time < last.time
        → value time
          = (Interpolant.pieceAt time (pieceOver (chord p q) s t)
              (piecesOver (chords (q :: rest)) (t :: slopes))).value time)
    (behind
      : RunsThrough value t
          ((pieceOver (chord p q) s t).polynomial.derivative.derivative.eval q.time) (q :: rest))
    : RunsThrough value s
        ((pieceOver (chord p q) s t).polynomial.derivative.derivative.eval p.time)
        (p :: q :: rest) := by
  have others := List.pairwise_cons.mp rising
  have less : p.time < q.time := others.1 q List.mem_cons_self
  have started := pieceOver_start (p := p) (q := q) s t
  have finished := pieceOver_finish less s t
  have reaches : q.time ≤ last.time := by
    rcases List.mem_cons.mp listed with rfl | later
    · exact le_rfl
    · exact (List.rel_of_pairwise_cons others.2 later).le
  have early (time : ℝ) (from_ : p.time ≤ time) (until_ : time < q.time)
      : value time = (pieceOver (chord p q) s t).polynomial.eval time := by
    rw [inside time from_ (until_.trans_le reaches), pieceAt_first, CubicPiece.value_eq]
    intro c among
    rcases List.mem_cons.mp (chords_start among) with same | later
    · rwa [same]
    · exact until_.trans (List.rel_of_pairwise_cons others.2 later)
  refine RunsThrough.cons (CubicPiece.natDegree_polynomial _)
    ((early p.time le_rfl less).trans started.1) ?_ started.2 finished.2 behind
  intro time between
  rcases between.2.lt_or_eq with before | rfl
  · exact early time between.1 before
  · rw [behind.head, finished.1]

/-- The pieces with slopes that solve the conditions run through the anchors. The induction is on
the anchors; each step hands the bend at the end of a piece on to the next one.
-/
theorem pieces_run (rising : Rising (p :: q :: rest)) (ends : (q :: rest).getLast? = some last)
    (finish : value last.time = last.value)
    (inside
      : ∀ time, p.time ≤ time → time < last.time
        → value time
          = (Interpolant.pieceAt time (pieceOver (chord p q) s t)
              (piecesOver (chords (q :: rest)) (t :: slopes))).value time)
    (solved : Solves s (laterRows (chords (p :: q :: rest))) (t :: slopes))
    : RunsThrough value s
        ((pieceOver (chord p q) s t).polynomial.derivative.derivative.eval p.time)
        (p :: q :: rest) := by
  induction rest generalizing p q s t slopes with
  | nil =>
      cases ends
      have less := List.rel_of_pairwise_cons rising List.mem_cons_self
      change Solves s [finishRow (chord p q)] (t :: slopes) at solved
      have flat := bend_of_finishRow less (by simpa [finishRow] using solved.1)
      refine piece_runs rising List.mem_cons_self inside ?_
      rw [flat]
      exact .finish finish
  | cons r rest ih =>
      have others := List.pairwise_cons.mp rising
      have less := others.1 q List.mem_cons_self
      have next := List.rel_of_pairwise_cons others.2 List.mem_cons_self
      rw [chords_cons, chords_cons, laterRows_cons] at solved
      match slopes, solved with
      | [], ⟨_, behind⟩ => simpa using behind.length
      | u :: slopes, ⟨row, behind⟩ =>
          rw [List.headD_cons] at row
          refine piece_runs rising (List.mem_of_getLast? ends) inside ?_
          rw [bend_of_innerRow less next row]
          refine ih others.2 (by simpa using ends) ?_ behind
          intro time reached before
          rw [inside time (less.le.trans reached) before, chords_cons]
          simp only [piecesOver, Interpolant.pieceAt]
          rw [if_neg (by simpa [pieceOver, chord] using reached)]

end Run

-----------------------------------------------------------------------------------------
-- The spline through anchors
-----------------------------------------------------------------------------------------

theorem increasing_of_rising {anchors : List (Point ℝ)} (rising : Rising anchors)
    : increasing anchors = true := by
  match anchors, rising with
  | [], _ => rfl
  | [_], _ => rfl
  | p :: q :: rest, rising =>
      have others := List.pairwise_cons.mp rising
      have less := others.1 q List.mem_cons_self
      simp [increasing, less, increasing_of_rising others.2]

/-- Over real numbers anchors in order have a spline. -/
theorem pieces_eq {anchors : List (Point ℝ)} (rising : Rising anchors)
    : pieces anchors = .ok (piecesOver (chords anchors) (solve (slopeRows (chords anchors)))) := by
  simp [pieces, increasing_of_rising rising]

/-- The spline through anchors in order is the natural one. -/
theorem value_natural {p q last : Point ℝ} {rest : List (Point ℝ)}
    (rising : Rising (p :: q :: rest)) (ends : (q :: rest).getLast? = some last)
    : IsNatural (p :: q :: rest)
        (Interpolant.spline p last
          (piecesOver (chords (p :: q :: rest))
            (solve (slopeRows (chords (p :: q :: rest)))))).value := by
  have less := List.rel_of_pairwise_cons rising List.mem_cons_self
  have span := List.rel_of_pairwise_cons rising (List.mem_of_getLast? ends)
  have solved := slopes_solve (chord p q) (chords (q :: rest)) (chords_length rising)
  rw [← chords_cons] at solved
  match solve (slopeRows (chords (p :: q :: rest))), solved with
  | [s], ⟨_, behind⟩ => simpa [chords_cons] using behind.length
  | s :: t :: slopes, ⟨row, behind⟩ =>
      have flat := bend_of_startRow less (s := s) (t := t) (by simpa [startRow] using row)
      refine ⟨s, flat ▸ pieces_run rising ends ?_ ?_ behind⟩
      · simp [Interpolant.value, span]
      · intro time reached before
        rcases reached.eq_or_lt with rfl | after
        · rw [pieceAt_first, CubicPiece.value_eq, (pieceOver_start s t).1]
          · simp [Interpolant.value]
          · intro c among
            exact List.rel_of_pairwise_cons rising (chords_start among)
        · simp [Interpolant.value, chords_cons, piecesOver, after.not_ge, before.not_ge]

end Spline

end Prognosis
