import Prognosis.Proofs.Value.Spline

/-! Interpolation over real numbers. On times in order every way of looking finds the place of a
time among them, so that steps and lines are those between its two neighbours; whatever the method,
the function has the value of each anchor at its time, and those of the first and the last one
outside.
-/

namespace Prognosis.Bisection

-----------------------------------------------------------------------------------------
-- Places of times
-----------------------------------------------------------------------------------------

/-- Halving finds the place up to which a condition holds. -/
theorem halve_eq {holds : Nat → Bool} {low high place : Nat} (bounds : low ≤ place ∧ place ≤ high)
    (turns : ∀ i, low ≤ i → i < high → (holds i = true ↔ i < place))
    : halve holds low high = place := by
  fun_induction halve holds low high with
  | case1 low high less middle met ih =>
      have below : middle < place := (turns middle (by omega) (by omega)).mp met
      exact ih ⟨by omega, bounds.2⟩ fun i from_ => turns i (by omega)
  | case2 low high less middle unmet ih =>
      have above : ¬ middle < place := fun below =>
        unmet ((turns middle (by omega) (by omega)).mpr below)
      exact ih ⟨bounds.1, by omega⟩ fun i from_ until_ => turns i from_ (by omega)
  | case3 low high done => omega

variable {times : Array ℝ} {time : ℝ} {count : Nat}

/-- The times that are not after a time are the first ones, so many of them. -/
structure Reaches (times : Array ℝ) (time : ℝ) (count : Nat) : Prop where
  bound : count ≤ times.size
  turns : ∀ i < times.size, times.getD i Scalar.undefined ≤ time ↔ i < count

/-- Halving counts the times that are not after a time. -/
theorem countUpTo_eq (reaches : Reaches times time count)
    : countUpTo times time = count := by
  refine halve_eq ⟨Nat.zero_le _, reaches.bound⟩ fun i _ inside => ?_
  have turn := reaches.turns i inside
  simpa [precedes, Scalar.isUndefined] using turn

/-- Looking one by one, from the second place on, stops at the place where a condition turns. -/
theorem takeWhile_range {count size : Nat} {holds : Nat → Bool} (some : 0 < count)
    (bound : count ≤ size) (turns : ∀ i < size, holds i = true ↔ i < count)
    : ((List.range size).drop 1).takeWhile holds = List.range' 1 (count - 1) := by
  have split : (List.range size).drop 1
      = List.range' 1 (count - 1) ++ List.range' count (size - count) := by
    have join := List.range'_append_1 (s := 1) (m := count - 1) (n := size - count)
    rw [show 1 + (count - 1) = count by omega] at join
    rw [join, List.range_eq_range', List.drop_range']
    congr 1
    omega
  rw [split, List.takeWhile_append_of_pos]
  · cases more : size - count with
    | zero => simp
    | succ n =>
        have past : holds count = false := by
          rw [← Bool.not_eq_true, turns count (by omega)]
          omega
        simp [List.range'_succ, past]
  · intro i inside
    have range := List.mem_range'_1.mp inside
    exact (turns i (by omega)).mpr (by omega)

theorem take_range {size : Nat} (many : 3 < size)
    : ((List.range size).drop 1).take 3 = [1, 2, 3] := by
  obtain ⟨more, rfl⟩ : ∃ more, size = more + 4 := ⟨size - 4, by omega⟩
  simp [List.range_eq_range', List.range'_succ]

/-- Where some time is not after a time, the place of the last such time is found, whatever way is
taken to it.
-/
theorem placeBefore_eq (reaches : Reaches times time count) (some : 0 < count)
    : placeBefore times time = count - 1 := by
  have bound := reaches.bound
  have passed (i : Nat) (inside : i < times.size)
      : Scalar.lt time (times.getD i Scalar.undefined) = Decidable.decide (count ≤ i) := by
    have turn := not_congr (reaches.turns i inside)
    rw [not_le, not_lt] at turn
    exact decide_eq_decide.mpr turn
  have reached (i : Nat) (inside : i < times.size)
      : Scalar.le (times.getD i Scalar.undefined) time = true ↔ i < count := by
    simpa using reaches.turns i inside
  unfold placeBefore
  by_cases few : times.size ≤ fewTimes
  · simp only [few, if_true]
    rw [takeWhile_range some bound reached, List.length_range']
  · have many : 4 < times.size := not_le.mp few
    simp only [few, if_false]
    rw [take_range (by omega)]
    simp only [List.findIdx?_cons, List.findIdx?_nil, passed 1 (by omega), passed 2 (by omega),
      passed 3 (by omega)]
    by_cases near : count ≤ 3
    · interval_cases count <;> rfl
    · have far : ¬ count ≤ 1 ∧ ¬ count ≤ 2 := by omega
      simp only [near, far, decide_false, Bool.false_eq_true, if_false, Option.map_none]
      congr 1
      split
      case isTrue isNear =>
        rw [Bool.and_eq_true, decide_eq_true_eq] at isNear
        have inside : nearBound < times.size := by omega
        rw [passed nearBound inside, decide_eq_true_eq] at isNear
        exact halve_eq ⟨by omega, isNear.2⟩ fun i _ before => reached i (by omega)
      case isFalse =>
        exact halve_eq ⟨by omega, bound⟩ fun i _ before => reached i before

end Prognosis.Bisection

namespace Prognosis

-----------------------------------------------------------------------------------------
-- Neighbours
-----------------------------------------------------------------------------------------

section Neighbours

variable {anchors front late : List (Point ℝ)} {p q : Point ℝ} {time : ℝ}

/-- Anchors that are not after a time, with all others behind them, are counted. -/
theorem reaches_of_split (front late : List (Point ℝ)) (early : ∀ a ∈ front, a.time ≤ time)
    (past : ∀ a ∈ late, time < a.time)
    : Bisection.Reaches ((front ++ late).toArray.map (·.time)) time front.length := by
  refine ⟨by simp, fun i inside => ?_⟩
  have inside : i < (front ++ late).length := by simpa using inside
  have entry : ((front ++ late).toArray.map (·.time)).getD i Scalar.undefined
      = (front ++ late)[i].time := by
    simp [-List.map_append, List.getElem?_eq_getElem inside]
  rw [entry]
  by_cases first : i < front.length
  · rw [List.getElem_append_left first]
    exact iff_of_true (early _ (List.getElem_mem first)) first
  · rw [List.getElem_append_right (not_lt.mp first)]
    exact iff_of_false (not_le.mpr (past _ (List.getElem_mem _))) first

/-- A time between neighbours is after all anchors up to the first of them, and before the others.
-/
theorem Rising.split (rising : Rising (front ++ p :: late)) (reached : p.time ≤ time)
    (past : ∀ a ∈ late.head?, time < a.time)
    : (∀ a ∈ front ++ [p], a.time ≤ time) ∧ ∀ a ∈ late, time < a.time := by
  have parts := List.pairwise_append.mp rising
  constructor
  · intro a listed
    rcases List.mem_append.mp listed with before | same
    · exact ((parts.2.2 a before p List.mem_cons_self).trans_le reached).le
    · rwa [List.mem_singleton.mp same]
  · cases late with
    | nil => simp
    | cons q rest =>
        have next : time < q.time := past q rfl
        intro a listed
        rcases List.mem_cons.mp listed with rfl | later
        · exact next
        · exact next.trans (List.rel_of_pairwise_cons (List.pairwise_cons.mp parts.2.1).2 later)

/-- The value of steps is that of the last anchor that is not after a time. -/
theorem stepValue_eq (rising : Rising (front ++ p :: late)) (reached : p.time ≤ time)
    (past : ∀ a ∈ late.head?, time < a.time)
    : Interpolant.stepValue (front ++ p :: late).toArray time = p.value := by
  have split := rising.split reached past
  have reaches := reaches_of_split (front ++ [p]) late split.1 split.2
  rw [List.append_assoc, List.singleton_append] at reaches
  simp only [Interpolant.stepValue, Bisection.countUpTo_eq reaches]
  simp

/-- A line through two anchors. -/
theorem onLine_eq (p q : Point ℝ) (time : ℝ)
    : Interpolant.onLine p q time
      = AffineMap.lineMap p.value q.value ((time - p.time) / (q.time - p.time)) := by
  simp only [Interpolant.onLine, Scalar.isUndefined, Bool.not_false, if_true,
    AffineMap.lineMap_apply_module']
  ring

/-- The value on lines is that on the line from the last anchor that is not after a time, or that
of this anchor if it is the last one of all.
-/
theorem linearValue_eq (rising : Rising (front ++ p :: late)) (reached : p.time ≤ time)
    (past : ∀ a ∈ late.head?, time < a.time)
    : Interpolant.linearValue (front ++ p :: late).toArray time
      = (late.head?.map fun q => Interpolant.onLine p q time).getD p.value := by
  have split := rising.split reached past
  have reaches := reaches_of_split (front ++ [p]) late split.1 split.2
  rw [List.append_assoc, List.singleton_append] at reaches
  simp only [Interpolant.linearValue, Bisection.placeBefore_eq reaches (by simp)]
  cases late with
  | nil => simp
  | cons q rest =>
      by_cases same : p.time = time
      · simp [same, onLine_eq]
      · simp [same]

end Neighbours

-----------------------------------------------------------------------------------------
-- What a function through anchors is held to
-----------------------------------------------------------------------------------------

/-- A function respects anchors, read in the way that a word names: it has their values and is flat
outside them. Steps are constant from each anchor to the next one. Lines join neighbours, and stay
between their values; so does a spline through fewer than three anchors, and every way that the
word does not name. A spline through more anchors is the natural one.
-/
structure Respects (word : String) (anchors : List (Point ℝ)) (value : ℝ → ℝ) : Prop where
  anchored : ∀ p ∈ anchors, value p.time = p.value
  before : ∀ p ∈ anchors.head?, ∀ time ≤ p.time, value time = p.value
  after : ∀ p ∈ anchors.getLast?, ∀ time ≥ p.time, value time = p.value
  steps
    : word = "step"
      → ∀ p q, [p, q] <:+: anchors → ∀ time ∈ Set.Ico p.time q.time, value time = p.value
  lines
    : word ≠ "step" → (word = "spline" → anchors.length < 3)
      → ∀ p q, [p, q] <:+: anchors
      → ∀ time ∈ Set.Icc p.time q.time,
          value time = AffineMap.lineMap p.value q.value ((time - p.time) / (q.time - p.time))
            ∧ value time ∈ Set.uIcc p.value q.value
  curves : word = "spline" → 3 ≤ anchors.length → Spline.IsNatural anchors value

section Ways

variable {anchors : List (Point ℝ)} {p q : Point ℝ} {time : ℝ}

/-- Each anchor is the last one or has a neighbour after it. -/
theorem last_or_next (listed : p ∈ anchors)
    : anchors.getLast? = some p ∨ ∃ q, [p, q] <:+: anchors := by
  obtain ⟨front, late, rfl⟩ := List.append_of_mem listed
  cases late with
  | nil => exact Or.inl (by simp)
  | cons q rest => exact Or.inr ⟨q, front, rest, by simp⟩

theorem Rising.next (rising : Rising anchors) (next : [p, q] <:+: anchors)
    : p.time < q.time := by
  have both := rising.sublist next.sublist
  exact List.rel_of_pairwise_cons both List.mem_cons_self

/-- What lies on a line between two anchors lies between their values. -/
theorem line_between (less : p.time < q.time) (between : time ∈ Set.Icc p.time q.time)
    : AffineMap.lineMap p.value q.value ((time - p.time) / (q.time - p.time))
      ∈ Set.uIcc p.value q.value := by
  rw [← segment_eq_uIcc, segment_eq_image_lineMap]
  have length := sub_pos.mpr less
  refine ⟨_, ⟨div_nonneg (sub_nonneg.mpr between.1) length.le, ?_⟩, rfl⟩
  exact (div_le_one length).mpr (sub_le_sub_right between.2 _)

/-- Where the start of each stretch has the value of its anchor, all anchors have their values. -/
theorem anchored_of_starts {value : ℝ → ℝ}
    (starts : ∀ p q, [p, q] <:+: anchors → value p.time = p.value)
    (after : ∀ p ∈ anchors.getLast?, ∀ time ≥ p.time, value time = p.value)
    : ∀ p ∈ anchors, value p.time = p.value := by
  intro p listed
  rcases last_or_next listed with last | ⟨q, next⟩
  · exact after p last p.time le_rfl
  · exact starts p q next

/-- The neighbour of an anchor in a list that is split there. -/
theorem split_of_next (next : [p, q] <:+: anchors)
    : ∃ front rest, anchors = front ++ p :: q :: rest := by
  obtain ⟨front, rest, rfl⟩ := next
  exact ⟨front, rest, by simp⟩

theorem Rising.head_reached {front late : List (Point ℝ)} {first : Point ℝ}
    (rising : Rising (front ++ p :: late)) (head : (front ++ p :: late).head? = some first)
    : first.time ≤ p.time := by
  cases front with
  | nil => cases head; exact le_rfl
  | cons a front =>
      cases head
      exact (List.rel_of_pairwise_cons rising (by simp)).le

/-- Steps have the value of an anchor from its time on until the next one. -/
theorem step_respects {word : String} (isStep : word = "step") (rising : Rising anchors)
    : Respects word anchors (Interpolant.step anchors.toArray).value := by
  have after : ∀ p ∈ anchors.getLast?, ∀ time ≥ p.time,
      (Interpolant.step anchors.toArray).value time = p.value := by
    intro p last time reached
    obtain ⟨front, rfl⟩ := List.getLast?_eq_some_iff.mp last
    exact stepValue_eq rising reached (by simp)
  have steps : ∀ p q, [p, q] <:+: anchors → ∀ time ∈ Set.Ico p.time q.time,
      (Interpolant.step anchors.toArray).value time = p.value := by
    intro p q next time between
    obtain ⟨front, rest, rfl⟩ := split_of_next next
    exact stepValue_eq rising between.1 (by simpa using between.2)
  have anchored := anchored_of_starts
    (fun p q next => steps p q next p.time ⟨le_rfl, rising.next next⟩) after
  refine ⟨anchored, ?_, after, fun _ => steps, fun other => absurd isStep other, ?_⟩
  · intro p head time early
    rcases early.lt_or_eq with less | rfl
    · obtain ⟨rest, rfl⟩ := List.head?_eq_some_iff.mp head
      have none : Bisection.Reaches _ time 0 := reaches_of_split [] (p :: rest) (by simp)
        (List.forall_mem_cons.mpr
          ⟨less, fun a later => less.trans (List.rel_of_pairwise_cons rising later)⟩)
      rw [List.nil_append] at none
      simp only [Interpolant.value, Interpolant.stepValue, Bisection.countUpTo_eq none]
      simp
    · exact anchored p (List.mem_of_head? head)
  · intro isSpline
    simp [isStep] at isSpline

theorem Rising.reaches_last (front : List (Point ℝ)) {late : List (Point ℝ)} {last : Point ℝ}
    (rising : Rising (front ++ p :: late)) (ends : (front ++ p :: late).getLast? = some last)
    : p.time ≤ last.time := by
  have tail : (p :: late).getLast? = some last := by simpa using ends
  rcases List.mem_cons.mp (List.mem_of_getLast? tail) with rfl | later
  · exact le_rfl
  · exact (List.rel_of_pairwise_cons (List.pairwise_append.mp rising).2.1 later).le

theorem value_linear {first last : Point ℝ} (head : anchors.head? = some first)
    (ends : anchors.getLast? = some last)
    : (Interpolant.linear anchors.toArray).value time
      = if last.time < time then last.value else if time < first.time then first.value
        else Interpolant.linearValue anchors.toArray time := by
  have start : anchors[0]? = some first := by rw [← head, List.head?_eq_getElem?]
  simp [Interpolant.value, start, ends, Scalar.isUndefined]

/-- The value on lines as that on the line from the last anchor that is not after a time. -/
theorem value_linear_from {front late : List (Point ℝ)} (rising : Rising (front ++ p :: late))
    (reached : p.time ≤ time) (past : ∀ a ∈ late.head?, time < a.time)
    : (Interpolant.linear (front ++ p :: late).toArray).value time
      = (late.head?.map fun q => Interpolant.onLine p q time).getD p.value := by
  obtain ⟨first, head⟩ : ∃ first, (front ++ p :: late).head? = some first :=
    ⟨_, List.head?_eq_some_head (by simp)⟩
  obtain ⟨last, ends⟩ : ∃ last, (front ++ p :: late).getLast? = some last :=
    ⟨_, List.getLast?_eq_some_getLast (by simp)⟩
  have started := (rising.head_reached head).trans reached
  rw [value_linear head ends, linearValue_eq rising reached past, if_neg started.not_gt]
  cases late with
  | nil =>
      have same : p = last := by simpa using ends
      simp [same]
  | cons q rest =>
      have next : time < q.time := past q rfl
      have within : q.time ≤ last.time :=
        Rising.reaches_last (front ++ [p]) (by simpa using rising) (by simpa using ends)
      rw [if_neg (next.le.trans within).not_gt]

/-- Lines join the values of neighbours. -/
theorem linear_respects {word : String} (notStep : word ≠ "step")
    (few : word = "spline" → anchors.length < 3) (rising : Rising anchors)
    : Respects word anchors (Interpolant.linear anchors.toArray).value := by
  have after : ∀ p ∈ anchors.getLast?, ∀ time ≥ p.time,
      (Interpolant.linear anchors.toArray).value time = p.value := by
    intro p last time reached
    obtain ⟨front, rfl⟩ := List.getLast?_eq_some_iff.mp last
    exact value_linear_from rising reached (by simp)
  have lines : ∀ p q, [p, q] <:+: anchors → ∀ time ∈ Set.Ico p.time q.time,
      (Interpolant.linear anchors.toArray).value time = Interpolant.onLine p q time := by
    intro p q next time between
    obtain ⟨front, rest, rfl⟩ := split_of_next next
    exact value_linear_from rising between.1 (by simpa using between.2)
  have anchored := anchored_of_starts
    (fun p q next => by
      rw [lines p q next p.time ⟨le_rfl, rising.next next⟩, onLine_eq]
      simp) after
  refine ⟨anchored, ?_, after, fun isStep => absurd isStep notStep, fun _ _ => ?_,
    fun isSpline many => absurd (few isSpline) (not_lt.mpr many)⟩
  · intro p head time early
    rcases early.lt_or_eq with less | rfl
    · obtain ⟨rest, rfl⟩ := List.head?_eq_some_iff.mp head
      obtain ⟨last, ends⟩ : ∃ last, (p :: rest).getLast? = some last :=
        ⟨_, List.getLast?_eq_some_getLast (by simp)⟩
      have within : p.time ≤ last.time := Rising.reaches_last [] rising ends
      rw [value_linear head ends, if_neg (less.le.trans within).not_gt, if_pos less]
    · exact anchored p (List.mem_of_head? head)
  · intro p q next time between
    have less := rising.next next
    have onLine : (Interpolant.linear anchors.toArray).value time
        = AffineMap.lineMap p.value q.value ((time - p.time) / (q.time - p.time)) := by
      rcases between.2.lt_or_eq with before | rfl
      · rw [lines p q next time ⟨between.1, before⟩, onLine_eq]
      · rw [anchored q (next.subset (by simp)), div_self (sub_pos.mpr less).ne',
          AffineMap.lineMap_apply_one]
    exact ⟨onLine, onLine ▸ line_between less between⟩

/-- The spline through three or more anchors is the natural one. -/
theorem spline_respects {word : String} (isSpline : word = "spline") {last : Point ℝ}
    (rising : Rising (p :: q :: anchors)) (ends : (q :: anchors).getLast? = some last)
    {pieces : List (CubicPiece ℝ)} (found : Spline.pieces (p :: q :: anchors) = .ok pieces)
    (many : anchors ≠ [])
    : Respects word (p :: q :: anchors) (Interpolant.spline p last pieces).value := by
  rw [Spline.pieces_eq rising] at found
  cases found
  have natural := Spline.value_natural rising ends
  have less := List.rel_of_pairwise_cons rising (List.mem_of_getLast? ends)
  obtain ⟨slope, runs⟩ := natural
  refine ⟨runs.anchored, ?_, ?_, ?_, ?_, fun _ _ => ⟨slope, runs⟩⟩
  · intro a head time early
    cases head
    simp [Interpolant.value, early]
  · intro a final time late
    have same : last = a := by simpa [ends] using final
    subst same
    have past := (less.trans_le late).not_ge
    simp [Interpolant.value, late, past]
  · intro isStep
    simp [isSpline] at isStep
  · intro _ few
    have short := few isSpline
    have pos := List.length_pos_iff.mpr many
    simp only [List.length_cons] at short
    omega

/-- A single anchor gives its value at all times. -/
theorem constant_respects (word : String) (p : Point ℝ)
    : Respects word [p] (Interpolant.constant p.value).value := by
  have alone {a b : Point ℝ} (next : [a, b] <:+: [p]) : False := by
    simpa using next.length_le
  refine ⟨?_, ?_, ?_, fun _ _ _ next => (alone next).elim, fun _ _ _ _ next => (alone next).elim,
    fun _ many => absurd many (by simp)⟩
  · simp [Interpolant.value]
  · simp [Interpolant.value]
  · simp [Interpolant.value]

end Ways

-----------------------------------------------------------------------------------------
-- All ways
-----------------------------------------------------------------------------------------

theorem Interpolation.ofWord_eq (word : String)
    : ofWord word
      = if word = "step" then step else if word = "spline" then spline else linear := by
  by_cases isStep : word = "step"
  · subst isStep
    rfl
  · by_cases isSpline : word = "spline"
    · subst isSpline
      rfl
    · have apart : ("step" == word) = false ∧ ("spline" == word) = false := by
        simp [Ne.symm isStep, Ne.symm isSpline]
      simp only [ofWord, all, List.find?_cons, Interpolation.word, apart, isStep, isSpline,
        if_false]
      split <;> rfl

/-- The function through anchors in order exists, whatever word names the way, and respects the
anchors. Witness: `spline_respects_three`.
-/
theorem interpolation_respects_anchors (word : String) (anchors : List (Point ℝ))
    (given : anchors ≠ []) (rising : Rising anchors)
    : ∃ f,
        Interpolant.ofAnchors (.ofWord word) anchors = .ok f
          ∧ Respects word anchors f.value := by
  rw [Interpolation.ofWord_eq]
  match anchors, rising with
  | [p], _ => exact ⟨_, rfl, constant_respects word p⟩
  | [p, q], rising =>
      by_cases isStep : word = "step"
      · rw [if_pos isStep]
        exact ⟨_, rfl, step_respects isStep rising⟩
      · have lines := linear_respects isStep (fun _ => by simp) rising
        rw [if_neg isStep]
        by_cases isSpline : word = "spline"
        · rw [if_pos isSpline]
          exact ⟨_, rfl, lines⟩
        · rw [if_neg isSpline]
          exact ⟨_, rfl, lines⟩
  | p :: q :: r :: rest, rising =>
      by_cases isStep : word = "step"
      · rw [if_pos isStep]
        exact ⟨_, rfl, step_respects isStep rising⟩
      · rw [if_neg isStep]
        by_cases isSpline : word = "spline"
        · have ends : (q :: r :: rest).getLast? = some (rest.getLast?.getD r) := by
            simp [List.getLast?_cons]
          have found := Spline.pieces_eq rising
          rw [if_pos isSpline]
          refine ⟨_, ?_, spline_respects isSpline rising ends found (by simp)⟩
          simp only [Interpolant.ofAnchors, found]
          rfl
        · rw [if_neg isSpline]
          exact ⟨_, rfl, linear_respects isStep (absurd · isSpline) rising⟩

/-- A spline through three anchors has the value of the middle one and is flat outside. -/
theorem spline_respects_three
    : ([⟨0, 0⟩, ⟨1, 1⟩, ⟨3, 2⟩] : List (Point ℝ)) ≠ []
        ∧ Rising [⟨0, 0⟩, ⟨1, 1⟩, ⟨3, 2⟩]
        ∧ ∃ f,
            Interpolant.ofAnchors (.ofWord "spline") [⟨0, 0⟩, ⟨1, 1⟩, ⟨3, 2⟩] = .ok f
              ∧ f.value (-1 : ℝ) = 0 ∧ f.value 1 = 1 ∧ f.value 4 = 2 := by
  have rising : Rising [⟨0, 0⟩, ⟨1, 1⟩, ⟨3, 2⟩] := by simp [Rising]
  obtain ⟨f, made, respects⟩ :=
    interpolation_respects_anchors "spline" [⟨0, 0⟩, ⟨1, 1⟩, ⟨3, 2⟩] (by simp) rising
  exact ⟨by simp, rising, f, made, respects.before ⟨0, 0⟩ rfl (-1) (by norm_num),
    respects.anchored ⟨1, 1⟩ (by simp), respects.after ⟨3, 2⟩ rfl 4 (by norm_num)⟩

end Prognosis
