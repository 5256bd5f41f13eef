import Prognosis.Proofs.Calibration.Recalibration

/-! What a block of a calibration reports and what it touches. Its report depends on the
distribution that it starts from and on what is declared beside the uncertainty; a block that
reports keeps that distribution, gives its target the posterior, and leaves all else as it is.
-/

namespace Prognosis

variable {α : Type}

-----------------------------------------------------------------------------------------
-- What calibrations leave as it is
-----------------------------------------------------------------------------------------

/-- The named value without its uncertainty. -/
def Quantity.withoutUncertainty : Quantity α → Quantity α
  | .assumption a => .assumption { a with uncertainty := none }
  | .varying v => .varying { v with uncertainty := none }
  | .parameter p => .parameter { p with uncertainty := none }
  | .impact i => .impact i

namespace Declaration

/-- The declaration without the prior that a calibration may keep. -/
def withoutPrior : Declaration α → Declaration α
  | calibrate c => calibrate { c with prior := none }
  | d => d

/-- The declaration without all that a calibration may change. -/
def uncalibrated : Declaration α → Declaration α
  | quantity q => quantity q.withoutUncertainty
  | d => d.withoutPrior

/-- The prior of a calibration is all that can differ where the named values are the same. -/
theorem withoutPrior_eq_of_quantity? {d d' : Declaration α} (same : d.quantity? = d'.quantity?)
    (alike : d.uncalibrated = d'.uncalibrated)
    : d.withoutPrior = d'.withoutPrior := by
  cases d with
  | quantity q =>
      cases d' with
      | quantity q' =>
          cases same
          rfl
      | branch _ | simulate _ | watch _ | calibrate _ | imported _ => cases same
  | branch _ | simulate _ | watch _ | calibrate _ | imported _ =>
      cases d' with
      | quantity _ => cases same
      | branch _ | simulate _ | watch _ | calibrate _ | imported _ => exact alike

theorem quantity?_withoutPrior : (quantity? ∘ withoutPrior : Declaration α → _) = quantity? := by
  funext d
  cases d <;> rfl

end Declaration

theorem map_withoutPrior_eq {declarations declarations' : List (Declaration α)}
    (outline : declarations'.map Declaration.uncalibrated
      = declarations.map Declaration.uncalibrated)
    (values : ∀ place : Nat, (declarations'[place]?).bind Declaration.quantity?
      = (declarations[place]?).bind Declaration.quantity?)
    : declarations'.map Declaration.withoutPrior = declarations.map Declaration.withoutPrior := by
  apply List.ext_getElem?
  intro place
  have alike := congrArg (·[place]?) outline
  have value := values place
  simp only [List.getElem?_map] at alike ⊢
  cases there : declarations[place]? with
  | none => simpa [there] using alike
  | some d =>
      obtain ⟨d', there', alike⟩ : ∃ d', declarations'[place]? = some d'
          ∧ d'.uncalibrated = d.uncalibrated := by simpa [there] using alike
      rw [there, there'] at value
      rw [there', Option.map_some, Option.map_some,
        Declaration.withoutPrior_eq_of_quantity? value alike]

namespace Quantity

variable {q q' : Quantity α} {d : Distribution α}

@[simp]
theorem withoutUncertainty_withUncertainty
    : (q.withUncertainty d).withoutUncertainty = q.withoutUncertainty := by
  cases q <;> rfl

theorem withUncertainty_eq_of_withoutUncertainty
    (alike : q.withoutUncertainty = q'.withoutUncertainty)
    : q.withUncertainty d = q'.withUncertainty d := by
  cases q <;> cases q' <;> simp_all [withoutUncertainty, withUncertainty]

theorem baseExpression?_eq_of_withoutUncertainty
    (alike : q.withoutUncertainty = q'.withoutUncertainty)
    : Calibration.baseExpression? q = Calibration.baseExpression? q' := by
  cases q <;> cases q' <;> simp_all [withoutUncertainty, Calibration.baseExpression?]

end Quantity

namespace Calibration

variable {progress next : Progress α} {place : Nat} {c : Calibrate α} {q : Quantity α}

-----------------------------------------------------------------------------------------
-- What a block touches
-----------------------------------------------------------------------------------------

/-- Targets are found by what calibrations leave as it is. -/
theorem placeOf?_uncalibrated (declarations : List (Declaration α)) (name : String)
    : placeOf? (declarations.map Declaration.uncalibrated) name = placeOf? declarations name := by
  unfold placeOf?
  rw [List.findIdx?_map]
  congr 1
  funext d
  cases d with
  | quantity q => cases q <;> rfl
  | branch _ | simulate _ | watch _ | calibrate _ | imported _ => rfl

theorem placeOf?_eq_of_uncalibrated {declarations declarations' : List (Declaration α)}
    (outline : declarations'.map Declaration.uncalibrated
      = declarations.map Declaration.uncalibrated)
    : placeOf? declarations' = placeOf? declarations := by
  funext name
  rw [← placeOf?_uncalibrated declarations', outline, placeOf?_uncalibrated]

/-- At one place is one target. -/
theorem placeOf?_inj {declarations : List (Declaration α)} {name other : String}
    (found : placeOf? declarations name = some place)
    (foundOther : placeOf? declarations other = some place)
    : name = other := by
  obtain ⟨q, holds, named, -⟩ := placeOf?_some found
  obtain ⟨q', holds', named', -⟩ := placeOf?_some foundOther
  cases holds.symm.trans holds'
  exact named.symm.trans named'

/-- The named value at a place. -/
def Progress.value? (p : Progress α) (place : Nat) : Option (Quantity α) :=
  (p.declarations[place]?).bind Declaration.quantity?

/-- What a block does, by what it reports: it leaves all as it is, or it puts the posterior in place
and keeps what it started from, also where that was its own prior.
-/
def Records (progress next : Progress α) (place targetPlace : Nat) (c : Calibrate α)
    (q : Quantity α) : Option (CalibrationResult α) → Prop
  | none => next.declarations = progress.declarations ∧ next.results = progress.results
  | some r =>
      next.declarations
          = (progress.declarations.set targetPlace
              (.quantity (q.withUncertainty r.calibrated))).set place
              (.calibrate { c with prior := some r.before })
        ∧ next.results = progress.results.put c.target.text r

section Touched

variable {targetPlace : Nat} {reported : Option (CalibrationResult α)}

theorem map_set_uncalibrated {declarations : List (Declaration α)} {d d' : Declaration α}
    (held : declarations[place]? = some d) (alike : d'.uncalibrated = d.uncalibrated)
    : (declarations.set place d').map Declaration.uncalibrated
      = declarations.map Declaration.uncalibrated := by
  obtain ⟨bound, rfl⟩ := List.getElem?_eq_some_iff.mp held
  have bound' : place < (declarations.map Declaration.uncalibrated).length := by simpa using bound
  have same : declarations[place].uncalibrated
      = (declarations.map Declaration.uncalibrated)[place] := by simp
  rw [List.map_set, alike, same, List.set_getElem_self bound']

/-- Places of named values and of blocks differ. -/
theorem apart_of_held (holds : progress.declarations[targetPlace]? = some (.quantity q))
    (held : progress.declarations[place]? = some (.calibrate c))
    : targetPlace ≠ place := by
  rintro rfl
  rw [holds] at held
  cases held

namespace Records

variable (records : Records progress next place targetPlace c q reported)

include records

/-- Reports on other targets stay. -/
theorem lookup_of_ne {target : String} (different : target ≠ c.target.text)
    : next.results.lookup target = progress.results.lookup target := by
  cases reported with
  | none => rw [records.2]
  | some r => rw [records.2, Entries.lookup_put_of_ne _ _ different]

/-- The block keeps what it reports to have started from. -/
theorem block (held : progress.declarations[place]? = some (.calibrate c))
    : next.declarations[place]?
      = some (.calibrate { c with prior := (reported.map (·.before)).or c.prior }) := by
  cases reported with
  | none => rwa [records.1]
  | some r =>
      rw [records.1, List.getElem?_set_self]
      · rfl
      · simpa using (List.getElem?_eq_some_iff.mp held).1

/-- Other named values stay. -/
theorem value_of_ne (held : progress.declarations[place]? = some (.calibrate c)) {other : Nat}
    (different : other ≠ targetPlace)
    : next.value? other = progress.value? other := by
  cases reported with
  | none => rw [Progress.value?, records.1, Progress.value?]
  | some r =>
      unfold Progress.value?
      rw [records.1]
      by_cases block : other = place
      · subst block
        rw [held, List.getElem?_set_self (by simpa using (List.getElem?_eq_some_iff.mp held).1)]
        rfl
      · rw [List.getElem?_set_ne (Ne.symm block), List.getElem?_set_ne different.symm]

/-- Blocks at other places stay. -/
theorem block_of_ne (holds : progress.declarations[targetPlace]? = some (.quantity q))
    {other : Nat} {c' : Calibrate α} (different : other ≠ place)
    (there : progress.declarations[other]? = some (.calibrate c'))
    : next.declarations[other]? = some (.calibrate c') := by
  cases reported with
  | none => rwa [records.1]
  | some r =>
      rwa [records.1, List.getElem?_set_ne different.symm,
        List.getElem?_set_ne (apart_of_held holds there)]

theorem outline (holds : progress.declarations[targetPlace]? = some (.quantity q))
    (held : progress.declarations[place]? = some (.calibrate c))
    : next.declarations.map Declaration.uncalibrated
      = progress.declarations.map Declaration.uncalibrated := by
  cases reported with
  | none => rw [records.1]
  | some r =>
      have still : (progress.declarations.set targetPlace
          (.quantity (q.withUncertainty r.calibrated)))[place]? = some (.calibrate c) := by
        rwa [List.getElem?_set_ne (apart_of_held holds held)]
      have kept : (Declaration.calibrate { c with prior := some r.before }).uncalibrated
          = (Declaration.calibrate c).uncalibrated := rfl
      rw [records.1, map_set_uncalibrated still kept, map_set_uncalibrated holds]
      simp [Declaration.uncalibrated]

end Records

/-- The target has the posterior that is reported on it. -/
theorem Records.corrected {r : CalibrationResult α}
    (records : Records progress next place targetPlace c q (some r))
    (holds : progress.declarations[targetPlace]? = some (.quantity q))
    (held : progress.declarations[place]? = some (.calibrate c))
    : next.value? targetPlace = some (q.withUncertainty r.calibrated)
        ∧ next.results.lookup c.target.text = some r := by
  constructor
  · unfold Progress.value?
    rw [records.1, List.getElem?_set_ne (apart_of_held holds held).symm,
      List.getElem?_set_self (List.getElem?_eq_some_iff.mp holds).1]
    rfl
  · rw [records.2, Entries.lookup_put_self]

end Touched

variable [Scalar α]

-----------------------------------------------------------------------------------------
-- The report of a block
-----------------------------------------------------------------------------------------

/-- What a block reports on its target, with the distribution that it starts from and the values in
its window; none where it passes the target over.
-/
def reportWith (c : Calibrate α) (q : Quantity α) (d : Distribution α) (values : List α)
    : Except Fault (Option (CalibrationResult α)) := do
  let base ← baseValue q values
  match Prior.ofDistribution? d base with
  | .error (.fault fault) => .error fault
  | .error (.error _) => return none
  | .ok none => return none
  | .ok (some prior) =>
      let values := valuesFor prior.form values
      if values.isEmpty then return none
      let method := c.method.getD .bayesianUpdate
      let moments ← update method prior.moments values
      return some
        ⟨c.target.text, method, d, posterior d prior.form moments, values.length, moments⟩

/-- What a block reports on the value that its target is at that time. -/
def report (observed : Observations α) (window : α) (c : Calibrate α) (q : Quantity α)
    : Except Fault (Option (CalibrationResult α)) :=
  match (observed.lookup c.target.text).map (·.points) with
  | none => .ok none
  | some [] => .ok none
  | some points =>
      match c.prior.or q.uncertainty? with
      | none => .ok none
      | some d =>
          let values := windowValues points ((c.window.map Duration.years).getD window)
          if values.isEmpty then .ok none else reportWith c q d values

variable {declared : List (Declaration α)} {observed : Observations α} {window : α}
  {q' : Quantity α} {r : CalibrationResult α}

/-- The report tells which distribution the block started from. -/
theorem before_of_report (reported : report observed window c q = .ok (some r))
    : c.prior.or q.uncertainty? = some r.before := by
  unfold report at reported
  split at reported
  case h_1 | h_2 => cases reported
  case h_3 =>
    split at reported
    case h_1 => cases reported
    case h_2 d starts =>
      dsimp only at reported
      split at reported
      case isTrue => cases reported
      case isFalse =>
        obtain ⟨base, -, more⟩ := exists_of_bind_eq_ok reported
        split at more
        case h_1 | h_2 | h_3 => cases more
        case h_4 prior _ =>
          dsimp only at more
          split at more
          case isTrue => cases more
          case isFalse =>
            obtain ⟨moments, -, same⟩ := exists_of_bind_eq_ok more
            cases same
            exact starts

/-- Nothing else about priors and uncertainties matters to the report. -/
theorem report_congr {prior : Option (Distribution α)}
    (starts : prior.or q'.uncertainty? = c.prior.or q.uncertainty?)
    (alike : q'.withoutUncertainty = q.withoutUncertainty)
    : report observed window { c with prior := prior } q' = report observed window c q := by
  have base (values : List α) : baseValue q' values = baseValue q values := by
    simp only [baseValue, Quantity.baseExpression?_eq_of_withoutUncertainty alike]
  simp only [report, reportWith, starts, base]

-----------------------------------------------------------------------------------------
-- One block
-----------------------------------------------------------------------------------------

omit [Scalar α] in
/-- A block that holds its own prior holds it still when it keeps what it started from. -/
theorem set_prior {declarations : List (Declaration α)} {d : Distribution α}
    (starts : c.prior.or q.uncertainty? = some d)
    (held : declarations[place]? = some (.calibrate c))
    : (if c.prior.isNone then declarations.set place (.calibrate { c with prior := some d })
        else declarations)
      = declarations.set place (.calibrate { c with prior := some d }) := by
  split
  case isTrue => rfl
  case isFalse given =>
    obtain ⟨d', own⟩ := Option.ne_none_iff_exists'.mp (Option.isNone_iff_eq_none.not.mp given)
    rw [own, Option.some_or] at starts
    have same : { c with prior := some d } = c := by rw [← starts, ← own]
    obtain ⟨bound, is⟩ := List.getElem?_eq_some_iff.mp held
    rw [same, ← is, List.set_getElem_self bound]

theorem records_of_calibrateWith {targetPlace : Nat} {d : Distribution α} {values : List α}
    (holds : progress.declarations[targetPlace]? = some (.quantity q))
    (held : progress.declarations[place]? = some (.calibrate c))
    (starts : c.prior.or q.uncertainty? = some d)
    (done : calibrateWith progress place targetPlace c q d values = .ok next)
    : ∃ reported, reportWith c q d values = .ok reported
        ∧ Records progress next place targetPlace c q reported := by
  obtain ⟨base, based, more⟩ := exists_of_bind_eq_ok done
  simp only [reportWith, based, bind, Except.bind, pure, Except.pure]
  cases read : Prior.ofDistribution? d base with
  | error halt =>
      simp only [read] at more
      cases halt with
      | fault fault => cases more
      | error e =>
          cases more
          exact ⟨none, rfl, rfl, rfl⟩
  | ok result =>
      simp only [read] at more
      cases result with
      | none =>
          cases more
          exact ⟨none, rfl, rfl, rfl⟩
      | some prior =>
          dsimp only at more ⊢
          split at more
          case isTrue missing =>
            cases more
            exact ⟨none, if_pos missing, rfl, rfl⟩
          case isFalse positive =>
            obtain ⟨moments, updated, same⟩ := exists_of_bind_eq_ok more
            cases same
            have apart : targetPlace ≠ place := by
              rintro rfl
              rw [holds] at held
              cases held
            refine ⟨some _, by rw [if_neg positive, updated], ?_, rfl⟩
            exact set_prior starts (by rwa [List.getElem?_set_ne apart])

theorem records_of_calibrateAt {targetPlace : Nat}
    (found : placeOf? declared c.target.text = some targetPlace)
    (holds : progress.declarations[targetPlace]? = some (.quantity q))
    (held : progress.declarations[place]? = some (.calibrate c))
    (done : calibrateAt declared observed window progress place c = .ok next)
    : ∃ reported, report observed window c q = .ok reported
        ∧ Records progress next place targetPlace c q reported := by
  unfold report
  simp only [calibrateAt] at done
  cases given : (observed.lookup c.target.text).map (·.points) with
  | none =>
      simp only [given] at done
      cases done
      exact ⟨none, rfl, rfl, rfl⟩
  | some points =>
      cases points with
      | nil =>
          simp only [given] at done
          cases done
          exact ⟨none, rfl, rfl, rfl⟩
      | cons first rest =>
          simp only [given, found, holds, Option.bind_some, Declaration.quantity?] at done
          simp only
          cases starts : c.prior.or q.uncertainty? with
          | none =>
              simp only [starts] at done
              cases done
              exact ⟨none, rfl, rfl, rfl⟩
          | some d =>
              simp only [starts] at done
              dsimp only
              split at done
              case isTrue outside =>
                cases done
                exact ⟨none, if_pos outside, rfl, rfl⟩
              case isFalse inside =>
                rw [if_neg inside]
                exact records_of_calibrateWith holds held starts done

/-- Without a target nothing changes. -/
theorem unchanged_of_calibrateAt (missing : placeOf? declared c.target.text = none)
    (done : calibrateAt declared observed window progress place c = .ok next)
    : next.declarations = progress.declarations ∧ next.results = progress.results := by
  rcases passes_of_calibrateAt done with unchanged | ⟨_, _, _, _, _, _, corrects⟩
  · exact unchanged
  · rw [corrects.found] at missing
    cases missing

end Calibration

end Prognosis
