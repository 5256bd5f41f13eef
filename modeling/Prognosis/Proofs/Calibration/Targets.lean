import Prognosis.Proofs.Calibration.Repetition
import Prognosis.Proofs.Entries

/-! Calibration target by target. What a calibration comes to for one target is a course of that
target alone: only the blocks on it move it, and only its own observations count. A calibration ends
when all targets get through their courses.
-/

namespace Prognosis

variable {α : Type}

/-- The observations of one target. -/
def Observations.only (observed : Observations α) (target : String) : Observations α :=
  observed.filter fun (key, _) => key == target

theorem Observations.lookup_only (observed : Observations α) (target other : String)
    : (observed.only target).lookup other
      = if other = target then observed.lookup other else none := by
  simpa [only] using Entries.lookup_filter (· == target) other observed

namespace Calibration

variable [Scalar α] {declared : List (Declaration α)} {observed : Observations α} {window : α}
  {progress next ended : Progress α} {place : Nat} {c : Calibrate α} {q : Quantity α}
  {target : String}

-----------------------------------------------------------------------------------------
-- Blocks that fail
-----------------------------------------------------------------------------------------

/-- With a distribution and values, a block fails only where its report does. -/
theorem reportWith_of_error {targetPlace : Nat} {d : Distribution α} {values : List α}
    {fault : Fault}
    (failed : calibrateWith progress place targetPlace c q d values = .error fault)
    : reportWith c q d values = .error fault := by
  unfold calibrateWith at failed
  unfold reportWith
  cases based : baseValue q values with
  | error _ =>
      rw [based] at failed
      cases failed
      rfl
  | ok base =>
      simp only [based, bind, Except.bind, pure, Except.pure] at failed ⊢
      cases read : Prior.ofDistribution? d base with
      | error halt =>
          simp only [read] at failed ⊢
          cases halt with
          | fault _ =>
              cases failed
              rfl
          | error e => cases failed
      | ok result =>
          simp only [read] at failed ⊢
          cases result with
          | none => cases failed
          | some prior =>
              dsimp only at failed ⊢
              split at failed
              case isTrue => cases failed
              case isFalse positive =>
                rw [if_neg positive]
                cases updated : update (c.method.getD .bayesianUpdate) prior.moments
                    (valuesFor prior.form values) with
                | error _ =>
                    rw [updated] at failed
                    cases failed
                    rfl
                | ok moments =>
                    rw [updated] at failed
                    cases failed

/-- A block fails only where its report does, on the value that its target is at that time. -/
theorem report_of_error {fault : Fault}
    (failed : calibrateAt declared observed window progress place c = .error fault)
    : ∃ targetPlace q, placeOf? declared c.target.text = some targetPlace
        ∧ progress.value? targetPlace = some q
        ∧ report observed window c q = .error fault := by
  simp only [calibrateAt] at failed
  split at failed
  case h_1 | h_2 => cases failed
  case h_3 points observes =>
    split at failed
    case h_1 => cases failed
    case h_2 targetPlace found =>
      split at failed
      case h_1 => cases failed
      case h_2 q holds =>
        refine ⟨targetPlace, q, found, holds, ?_⟩
        simp only [report, observes]
        cases starts : c.prior.or q.uncertainty? with
        | none =>
            rw [starts] at failed
            cases failed
        | some d =>
            rw [starts] at failed
            dsimp only at failed ⊢
            split at failed
            case isTrue => cases failed
            case isFalse inside =>
              rw [if_neg inside]
              exact reportWith_of_error failed

-----------------------------------------------------------------------------------------
-- The course of one target
-----------------------------------------------------------------------------------------

/-- What a calibration has come to for one target: the named value as it is by now, and the last
report on it.
-/
structure Standing (α : Type) where
  value : Quantity α
  reported : Option (CalibrationResult α)

namespace Standing

variable {standing moved : Standing α} {d : Declaration α}

omit [Scalar α] in
/-- The standing after a report, if there is one. -/
def after (standing : Standing α) : Option (CalibrationResult α) → Standing α
  | none => standing
  | some r => ⟨standing.value.withUncertainty r.calibrated, some r⟩

/-- The standing of a target after a declaration: blocks on other targets do not move it. -/
def through (observed : Observations α) (window : α) (target : String) (standing : Standing α)
    : Declaration α → Except Fault (Standing α)
  | .calibrate c =>
      if c.target.text = target then
        (report observed window c standing.value).map standing.after
      else .ok standing
  | _ => .ok standing

/-- Only the observations of the target count. -/
theorem through_only_self (observed : Observations α) (window : α) (target : String)
    : through (observed.only target) window target = through observed window target := by
  funext standing d
  cases d with
  | calibrate c =>
      simp only [through]
      split
      case isTrue own =>
        subst own
        simp only [report, observed.lookup_only, if_true]
      case isFalse => rfl
  | quantity _ | branch _ | simulate _ | watch _ | imported _ => rfl

/-- Without observations a target stays as it is. -/
theorem through_only_of_ne {other : String} (different : other ≠ target)
    : standing.through (observed.only target) window other d = .ok standing := by
  cases d with
  | calibrate c =>
      simp only [through]
      split
      case isTrue own =>
        subst own
        simp only [report, observed.lookup_only, if_neg different]
        rfl
      case isFalse => rfl
  | quantity _ | branch _ | simulate _ | watch _ | imported _ => rfl

theorem course_only_of_ne {other : String} (different : other ≠ target)
    (rest : List (Declaration α))
    : rest.foldlM (through (observed.only target) window other) standing = .ok standing := by
  induction rest with
  | nil => rfl
  | cons d rest ih =>
      rw [List.foldlM_cons, through_only_of_ne different]
      exact ih

/-- A target is what was declared, with the uncertainty of the last report on it. -/
def IsOf (standing : Standing α) (q : Quantity α) : Prop :=
  standing.value = match standing.reported with
    | none => q
    | some r => q.withUncertainty r.calibrated

theorem IsOf.through (own : standing.IsOf q)
    (done : standing.through observed window target d = .ok moved)
    : moved.IsOf q := by
  cases d with
  | calibrate c =>
      simp only [Standing.through] at done
      split at done
      case isTrue =>
        obtain ⟨reported, -, rfl⟩ := exists_of_map_eq_ok done
        cases reported with
        | none => exact own
        | some r =>
            change standing.value.withUncertainty r.calibrated = q.withUncertainty r.calibrated
            rw [own]
            cases standing.reported with
            | none => rfl
            | some _ => exact Quantity.withUncertainty_twice _
      case isFalse =>
        cases done
        exact own
  | quantity _ | branch _ | simulate _ | watch _ | imported _ =>
      cases done
      exact own

/-- Along a course it stays so, by induction along the declarations. -/
theorem IsOf.course {rest : List (Declaration α)} (own : standing.IsOf q)
    (done : rest.foldlM (Standing.through observed window target) standing = .ok moved)
    : moved.IsOf q := by
  induction rest generalizing standing with
  | nil =>
      cases done
      exact own
  | cons d rest ih =>
      rw [List.foldlM_cons] at done
      obtain ⟨middle, first, more⟩ := exists_of_bind_eq_ok done
      exact ih (own.through first) more

end Standing

-----------------------------------------------------------------------------------------
-- Courses of all targets
-----------------------------------------------------------------------------------------

omit [Scalar α] in
/-- The standing of a target, if one is declared. -/
def Progress.standing? (progress : Progress α) (declared : List (Declaration α)) (target : String)
    : Option (Standing α) :=
  (placeOf? declared target).bind fun place =>
    (progress.value? place).map fun q => ⟨q, progress.results.lookup target⟩

omit [Scalar α] in
theorem Progress.standing?_eq_some {standing : Standing α}
    : progress.standing? declared target = some standing
      ↔ ∃ place, placeOf? declared target = some place
          ∧ progress.value? place = some standing.value
          ∧ progress.results.lookup target = standing.reported := by
  obtain ⟨value, reported⟩ := standing
  simp [standing?, Option.bind_eq_some_iff]

omit [Scalar α] in
/-- Every target has its standing all along. -/
theorem Ahead.exists_standing (ahead : Ahead declared place progress) {targetPlace : Nat}
    (found : placeOf? declared target = some targetPlace)
    : ∃ standing, progress.standing? declared target = some standing := by
  have there := found
  rw [← placeOf?_eq_of_uncalibrated ahead.outline] at there
  obtain ⟨q, holds, -⟩ := placeOf?_some there
  refine ⟨⟨q, progress.results.lookup target⟩, Progress.standing?_eq_some.mpr
    ⟨targetPlace, found, ?_, rfl⟩⟩
  rw [Progress.value?, holds]
  rfl

/-- A block moves the standing of its target and no other one. -/
theorem Ahead.through (ahead : Ahead declared place progress)
    (held : declared[place]? = some (.calibrate c))
    (done : calibrateAt declared observed window progress place c = .ok next)
    {standing : Standing α} (stands : progress.standing? declared target = some standing)
    : ∃ moved, standing.through observed window target (.calibrate c) = .ok moved
        ∧ next.standing? declared target = some moved := by
  obtain ⟨targetPlace, found, value, reported⟩ := Progress.standing?_eq_some.mp stands
  obtain ⟨made, block⟩ := ahead.block held done
  cases block with
  | missing missing declarations results =>
      have other : c.target.text ≠ target := by
        rintro rfl
        cases missing.symm.trans found
      refine ⟨standing, if_neg other, ?_⟩
      rw [← stands, Progress.standing?, Progress.standing?, results]
      simp only [Progress.value?, declarations]
  | @reports ownPlace q _ own holds is records =>
      have heldNow := ahead.blocks place c le_rfl held
      by_cases same : c.target.text = target
      · subst same
        obtain rfl : ownPlace = targetPlace := Option.some.inj (own.symm.trans found)
        obtain rfl : q = standing.value := by
          simpa [Progress.value?, holds, Declaration.quantity?] using value
        refine ⟨standing.after made, ?_, Progress.standing?_eq_some.mpr ⟨ownPlace, found, ?_⟩⟩
        · simp only [Standing.through, if_true, is]
          rfl
        · cases made with
          | none =>
              rw [Progress.value?, records.1, records.2]
              exact ⟨value, reported⟩
          | some r => exact records.corrected holds heldNow
      · refine ⟨standing, if_neg same, Progress.standing?_eq_some.mpr ⟨targetPlace, found, ?_, ?_⟩⟩
        · have apart : targetPlace ≠ ownPlace := by
            rintro rfl
            exact same (placeOf?_inj own found)
          rw [records.value_of_ne heldNow apart, value]
        · rw [records.lookup_of_ne (Ne.symm same), reported]

/-- A calibration that ends takes every target through its own course. By induction along the
declarations that are left.
-/
theorem calibrateFrom_course {rest : List (Declaration α)} (left : declared.drop place = rest)
    (ahead : Ahead declared place progress)
    (done : calibrateFrom declared observed window progress place rest = .ok ended)
    {standing : Standing α} (stands : progress.standing? declared target = some standing)
    : ∃ moved, rest.foldlM (Standing.through observed window target) standing = .ok moved
        ∧ ended.standing? declared target = some moved := by
  induction rest generalizing place progress standing with
  | nil =>
      cases done
      exact ⟨standing, rfl, stands⟩
  | cons d rest ih =>
      have here : declared[place]? = some d := by rw [← List.head?_drop, left]; rfl
      have later : declared.drop (place + 1) = rest := by rw [← List.drop_drop, left]; rfl
      rw [List.foldlM_cons]
      cases d with
      | calibrate c =>
          simp only [calibrateFrom] at done
          cases first : calibrateAt declared observed window progress place c with
          | error fault => simp [first] at done
          | ok middle =>
              simp only [first] at done
              obtain ⟨_, block⟩ := ahead.block here first
              obtain ⟨moved, step, stands⟩ := ahead.through here first stands
              rw [step]
              exact ih later (ahead.advance here block) done stands
      | quantity _ | branch _ | simulate _ | watch _ | imported _ =>
          exact ih later ahead.pass done stands

/-- A calibration ends when every target gets through its own course. By induction along the
declarations that are left.
-/
theorem calibrateFrom_returns {rest : List (Declaration α)} (left : declared.drop place = rest)
    (ahead : Ahead declared place progress)
    (each
      : ∀ target standing, progress.standing? declared target = some standing
          → ∃ moved, rest.foldlM (Standing.through observed window target) standing = .ok moved)
    : ∃ ended, calibrateFrom declared observed window progress place rest = .ok ended := by
  induction rest generalizing place progress with
  | nil => exact ⟨progress, rfl⟩
  | cons d rest ih =>
      have here : declared[place]? = some d := by rw [← List.head?_drop, left]; rfl
      have later : declared.drop (place + 1) = rest := by rw [← List.drop_drop, left]; rfl
      cases d with
      | calibrate c =>
          simp only [calibrateFrom]
          cases first : calibrateAt declared observed window progress place c with
          | error fault =>
              obtain ⟨targetPlace, q, found, value, failed⟩ := report_of_error first
              obtain ⟨moved, course⟩ := each c.target.text ⟨q, _⟩
                (Progress.standing?_eq_some.mpr ⟨targetPlace, found, value, rfl⟩)
              rw [List.foldlM_cons] at course
              obtain ⟨_, step, -⟩ := exists_of_bind_eq_ok course
              simp only [Standing.through, if_true, failed] at step
              cases step
          | ok middle =>
              obtain ⟨_, block⟩ := ahead.block here first
              refine ih later (ahead.advance here block) fun target standing stands => ?_
              obtain ⟨targetPlace, found, -⟩ := Progress.standing?_eq_some.mp stands
              obtain ⟨earlier, stood⟩ := ahead.exists_standing found
              obtain ⟨moved, step, standsNow⟩ := ahead.through here first stood
              cases standsNow.symm.trans stands
              obtain ⟨last, course⟩ := each target earlier stood
              rw [List.foldlM_cons, step] at course
              exact ⟨last, course⟩
      | quantity _ | branch _ | simulate _ | watch _ | imported _ =>
          refine ih later ahead.pass fun target standing stands => ?_
          obtain ⟨moved, course⟩ := each target standing stands
          rw [List.foldlM_cons] at course
          exact ⟨moved, course⟩

omit [Scalar α] in
/-- Where a target is declared, its standing at the end tells its value and its report. -/
theorem standing_start {targetPlace : Nat} (found : placeOf? declared target = some targetPlace)
    (holds : declared[targetPlace]? = some (.quantity q))
    : Progress.standing? ⟨declared, [], []⟩ declared target = some ⟨q, none⟩ :=
  Progress.standing?_eq_some.mpr
    ⟨targetPlace, found, by rw [Progress.value?, holds]; rfl, rfl⟩

end Calibration

end Prognosis
