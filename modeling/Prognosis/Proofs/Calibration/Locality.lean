import Prognosis.Proofs.Calibration.Encoding
import Prognosis.Proofs.Calibration.Targets

/-! Calibrations of different targets do not touch each other. Each target is given the report that
it would have without the others, and of the scenario a calibration changes what the reports tell
and nothing else.
-/

namespace Prognosis

variable {α : Type}

/-- Calibrations leave all that is neither a named value nor a block. -/
theorem Declaration.eq_of_uncalibrated {d d' : Declaration α} (other : d.quantity? = none)
    (apart : ∀ c, d ≠ .calibrate c) (alike : d'.uncalibrated = d.uncalibrated)
    : d' = d := by
  cases d with
  | quantity _ => cases other
  | calibrate c => exact absurd rfl (apart c)
  | branch _ | simulate _ | watch _ | imported _ =>
      cases d' <;> simp_all [uncalibrated, withoutPrior]

namespace Calibration

variable [Scalar α] {declared : List (Declaration α)} {observed : Observations α} {window : α}
  {progress next ended : Progress α} {place : Nat} {c : Calibrate α} {q : Quantity α}
  {target : String}

-----------------------------------------------------------------------------------------
-- Reports that are kept
-----------------------------------------------------------------------------------------

/-- The second distribution has the form of the first one: shares stay shares, lognormal stays
lognormal, and any other is written as a normal distribution with both its parameters.
-/
structure KeepsForm (before after : Distribution α) : Prop where
  relative : before.isRelative = true → after.isRelative = true
  logarithmic : before.kind = .lognormal → after.kind = .lognormal
  absolute
    : before.isRelative = false → before.kind ≠ .lognormal
        → after.kind = .normal ∧ after.isRelative = false ∧ after.named = []
          ∧ after.positional.length = 2

theorem keepsForm_posterior {d : Distribution α} {base : α} {prior : Prior α}
    (read : Prior.ofDistribution? d base = .ok (some prior)) (moments : Moments α)
    : KeepsForm d (posterior d prior.form moments) := by
  rw [form_of_prior read]
  constructor
  case relative =>
    intro relative
    have plain : d.kind ≠ .lognormal := by
      intro logarithmic
      simp [Distribution.isRelative, logarithmic] at relative
    rw [if_neg plain, if_pos relative]
    rfl
  case logarithmic =>
    intro logarithmic
    rw [if_pos logarithmic]
    rfl
  case absolute =>
    intro absolute plain
    rw [if_neg plain, absolute, if_neg Bool.false_ne_true]
    exact ⟨rfl, rfl, rfl, rfl⟩

/-- Reports are on targets that are declared, and they tell of posteriors in the form of the prior.
-/
theorem declared_of_reported {s : Scenario α} {calibrated : Calibrated α}
    (done : s.calibrate observed window = .ok calibrated)
    : ∀ target r, calibrated.results.lookup target = some r
        → (∃ targetPlace, placeOf? s.declarations target = some targetPlace)
          ∧ KeepsForm r.before r.calibrated := by
  obtain ⟨_, holds, -⟩ := calibrate_induction
    (P := fun progress => ∀ target r, progress.results.lookup target = some r
      → (∃ targetPlace, placeOf? s.declarations target = some targetPlace)
        ∧ KeepsForm r.before r.calibrated)
    (fun progress next place c before _ passes target r reported => by
      rcases passes with ⟨-, results⟩ | ⟨targetPlace, q, d, prior, values, moments, corrects⟩
      · exact before target r (results ▸ reported)
      · rw [corrects.results] at reported
        by_cases own : target = c.target.text
        · subst own
          rw [Entries.lookup_put_self] at reported
          cases reported
          obtain ⟨base, read⟩ := corrects.read
          exact ⟨⟨targetPlace, corrects.found⟩, keepsForm_posterior read moments⟩
        · rw [Entries.lookup_put_of_ne _ _ own] at reported
          exact before target r reported)
    (fun _ _ reported => by cases reported) done
  exact holds

/-- What is reported once stays reported. -/
theorem reported_of_calibrateFrom {rest : List (Declaration α)}
    (left : declared.drop place = rest) (reported : progress.results.lookup target ≠ none)
    (done : calibrateFrom declared observed window progress place rest = .ok ended)
    : ended.results.lookup target ≠ none := by
  refine calibrateFrom_induction (P := fun progress => progress.results.lookup target ≠ none)
    (fun progress next place c before _ passes => ?_) left reported done
  rcases passes with ⟨-, results⟩ | ⟨_, _, _, _, _, _, corrects⟩
  · rwa [results]
  · rw [corrects.results]
    by_cases own : target = c.target.text
    · rw [own, Entries.lookup_put_self]
      exact Option.some_ne_none _
    · rwa [Entries.lookup_put_of_ne _ _ own]

-----------------------------------------------------------------------------------------
-- Blocks on the way
-----------------------------------------------------------------------------------------

/-- A calibration stops on its way before any declaration, and goes on from there. By induction
along the declarations in front.
-/
theorem calibrateFrom_split {front rest : List (Declaration α)}
    (left : declared.drop place = front ++ rest) (ahead : Ahead declared place progress)
    (done : calibrateFrom declared observed window progress place (front ++ rest) = .ok ended)
    : ∃ middle, calibrateFrom declared observed window progress place front = .ok middle
        ∧ Ahead declared (place + front.length) middle
        ∧ calibrateFrom declared observed window middle (place + front.length) rest
          = .ok ended := by
  induction front generalizing place progress with
  | nil => exact ⟨progress, rfl, ahead, done⟩
  | cons d front ih =>
      have here : declared[place]? = some d := by rw [← List.head?_drop, left]; rfl
      have later : declared.drop (place + 1) = front ++ rest := by
        rw [← List.drop_drop, left]
        rfl
      rw [List.length_cons, Nat.add_comm front.length, ← Nat.add_assoc]
      cases d with
      | calibrate c =>
          rw [List.cons_append] at done
          simp only [calibrateFrom] at done ⊢
          cases first : calibrateAt declared observed window progress place c with
          | error fault => simp [first] at done
          | ok middle =>
              simp only [first] at done
              obtain ⟨_, block⟩ := ahead.block here first
              exact ih later (ahead.advance here block) done
      | quantity _ | branch _ | simulate _ | watch _ | imported _ => exact ih later ahead.pass done

variable {s : Scenario α} {calibrated : Calibrated α}

/-- The distribution that a target has when the calibration of a scenario comes to a place. -/
def InForce (s : Scenario α) (observed : Observations α) (window : α) (place : Nat)
    (target : String) (d : Distribution α) : Prop :=
  ∃ progress targetPlace q,
    calibrateFrom s.declarations observed window ⟨s.declarations, [], []⟩ 0
        (s.declarations.take place) = .ok progress
      ∧ placeOf? s.declarations target = some targetPlace
      ∧ progress.value? targetPlace = some q ∧ q.uncertainty? = some d

/-- A calibration comes to each block, and goes on behind it. -/
theorem calibrate_reaches (held : s.declarations[place]? = some (.calibrate c))
    (done : calibrateFrom s.declarations observed window ⟨s.declarations, [], []⟩ 0
      s.declarations = .ok ended)
    : ∃ middle next,
        calibrateFrom s.declarations observed window ⟨s.declarations, [], []⟩ 0
            (s.declarations.take place) = .ok middle
          ∧ Ahead s.declarations place middle
          ∧ calibrateAt s.declarations observed window middle place c = .ok next
          ∧ calibrateFrom s.declarations observed window next (place + 1)
            (s.declarations.drop (place + 1)) = .ok ended := by
  obtain ⟨bound, is⟩ := List.getElem?_eq_some_iff.mp held
  have whole : s.declarations = s.declarations.take place
      ++ (.calibrate c :: s.declarations.drop (place + 1)) := by
    rw [← is, ← List.drop_eq_getElem_cons bound, List.take_append_drop]
  have long : 0 + (s.declarations.take place).length = place := by
    rw [Nat.zero_add, List.length_take, Nat.min_eq_left (Nat.le_of_lt bound)]
  have left : s.declarations.drop 0 = s.declarations.take place
      ++ (.calibrate c :: s.declarations.drop (place + 1)) := whole
  have ran : calibrateFrom s.declarations observed window ⟨s.declarations, [], []⟩ 0
      (s.declarations.take place ++ (.calibrate c :: s.declarations.drop (place + 1)))
        = .ok ended := by
    rwa [← whole]
  obtain ⟨middle, before, ahead, after⟩ :=
    calibrateFrom_split left (ahead_start s.declarations) ran
  rw [long] at ahead after
  simp only [calibrateFrom] at after
  cases first : calibrateAt s.declarations observed window middle place c with
  | error fault => simp [first] at after
  | ok next =>
      simp only [first] at after
      exact ⟨middle, next, before, ahead, first, after⟩

/-- A block is left as it was, or it had no prior and keeps the distribution that was in force. -/
theorem block_of_calibrate (held : s.declarations[place]? = some (.calibrate c))
    (done : calibrateFrom s.declarations observed window ⟨s.declarations, [], []⟩ 0
      s.declarations = .ok ended)
    : ended.declarations[place]? = some (.calibrate c)
      ∨ c.prior = none ∧ ended.results.lookup c.target.text ≠ none
        ∧ ∃ d, InForce s observed window place c.target.text d
          ∧ ended.declarations[place]? = some (.calibrate { c with prior := some d }) := by
  obtain ⟨middle, next, before, ahead, first, after⟩ := calibrate_reaches held done
  obtain ⟨reported, block⟩ := ahead.block held first
  have stays : ended.declarations[place]? = some (.calibrate (keeping c reported)) :=
    (calibrateFrom_ahead rfl (ahead.advance held block) after).2 place _
      (Nat.lt_succ_self place) (block.kept (ahead.blocks place c le_rfl held))
  cases block with
  | missing => exact .inl stays
  | @reports targetPlace q _ found holds is records =>
      cases reported with
      | none => exact .inl stays
      | some r =>
          have starts := before_of_report is
          cases own : c.prior with
          | some d =>
              rw [own, Option.some_or] at starts
              cases starts
              have same : keeping c (some r) = c := by
                rw [keeping, Option.map_some, Option.some_or, ← own]
              exact .inl (same ▸ stays)
          | none =>
              rw [own, Option.none_or] at starts
              have reported := records.corrected holds (ahead.blocks place c le_rfl held)
              refine .inr ⟨rfl, reported_of_calibrateFrom rfl ?_ after, r.before, ?_, stays⟩
              · rw [reported.2]
                exact Option.some_ne_none r
              · exact ⟨middle, targetPlace, q, before, found,
                  by rw [Progress.value?, holds]; rfl, starts⟩

omit [Scalar α] in
theorem getElem?_of_value? (value : progress.value? place = some q)
    : progress.declarations[place]? = some (.quantity q) := by
  obtain ⟨d, there, is⟩ := Option.bind_eq_some_iff.mp value
  cases d with
  | quantity _ =>
      cases is
      exact there
  | branch _ | simulate _ | watch _ | calibrate _ | imported _ => cases is

/-- A target has the uncertainty of the last report on it. -/
theorem value_of_reported (held : s.declarations[place]? = some (.quantity q))
    (done : calibrateFrom s.declarations observed window ⟨s.declarations, [], []⟩ 0
      s.declarations = .ok ended)
    (found : placeOf? s.declarations target = some place) {r : CalibrationResult α}
    (reported : ended.results.lookup target = some r)
    : ended.declarations[place]? = some (.quantity (q.withUncertainty r.calibrated)) := by
  obtain ⟨moved, course, stands⟩ := calibrateFrom_course rfl (ahead_start s.declarations) done
    (standing_start found held)
  obtain ⟨_, found', value, last⟩ := Progress.standing?_eq_some.mp stands
  cases found.symm.trans found'
  have start : Standing.IsOf ⟨q, none⟩ q := rfl
  have own := start.course course
  rw [Standing.IsOf, ← last, reported] at own
  exact getElem?_of_value? (value.trans (congrArg some own))

/-- A named value without a report is as declared. -/
theorem value_of_silent (held : s.declarations[place]? = some (.quantity q))
    (done : calibrateFrom s.declarations observed window ⟨s.declarations, [], []⟩ 0
      s.declarations = .ok ended)
    (silent
      : ∀ target, placeOf? s.declarations target = some place
          → ended.results.lookup target = none)
    : ended.declarations[place]? = some (.quantity q) := by
  obtain ⟨⟨_, ahead⟩, -⟩ := calibrateFrom_ahead rfl (ahead_start s.declarations) done
  refine getElem?_of_value? ((ahead.values place silent).trans ?_)
  rw [held]
  rfl

-----------------------------------------------------------------------------------------
-- What a calibration changes
-----------------------------------------------------------------------------------------

/-- What a calibration makes of the declaration at a place: it stays; or it is the target of a
report and has the posterior as its uncertainty; or it is a block without a prior on such a target
and keeps the distribution that was in force when it came to it.
-/
inductive Touches (s : Scenario α) (observed : Observations α) (window : α)
    (calibrated : Calibrated α) (place : Nat) : Declaration α → Declaration α → Prop
  | same (d) : Touches s observed window calibrated place d d
  | corrected {target q r} (found : placeOf? s.declarations target = some place)
    (reported : calibrated.results.lookup target = some r)
    : Touches s observed window calibrated place (.quantity q)
        (.quantity (q.withUncertainty r.calibrated))
  | remembered {c d} (fresh : c.prior = none)
    (reported : calibrated.results.lookup c.target.text ≠ none)
    (inForce : InForce s observed window place c.target.text d)
    : Touches s observed window calibrated place (.calibrate c)
        (.calibrate { c with prior := some d })

/-- Every declaration is touched at its own place only. -/
theorem touches_of_calibrate (done : s.calibrate observed window = .ok calibrated)
    {d : Declaration α} (declared : s.declarations[place]? = some d)
    : ∃ d', calibrated.scenario.declarations[place]? = some d'
        ∧ Touches s observed window calibrated place d d' := by
  obtain ⟨ended, ran, same⟩ := exists_of_bind_eq_ok done
  cases same
  cases d with
  | quantity q =>
      by_cases reports : ∃ target r, placeOf? s.declarations target = some place
          ∧ ended.results.lookup target = some r
      · obtain ⟨target, r, found, reported⟩ := reports
        exact ⟨_, value_of_reported declared ran found reported, .corrected found reported⟩
      · refine ⟨_, value_of_silent declared ran fun target found => ?_, .same _⟩
        by_contra reported
        obtain ⟨r, reported⟩ := Option.ne_none_iff_exists'.mp reported
        exact reports ⟨target, r, found, reported⟩
  | calibrate c =>
      rcases block_of_calibrate declared ran with stays | ⟨fresh, reported, d, inForce, keeps⟩
      · exact ⟨_, stays, .same _⟩
      · exact ⟨_, keeps, .remembered fresh reported inForce⟩
  | branch _ | simulate _ | watch _ | imported _ =>
      obtain ⟨⟨_, ahead⟩, -⟩ := calibrateFrom_ahead rfl (ahead_start s.declarations) ran
      have looks := congrArg (·[place]?) ahead.outline
      simp only [List.getElem?_map, declared, Option.map_some, Option.map_eq_some_iff] at looks
      obtain ⟨d', there, alike⟩ := looks
      have same := Declaration.eq_of_uncalibrated rfl (by simp) alike
      exact ⟨d', there, same ▸ .same _⟩

/-- What a calibration does, told target by target. -/
structure IsLocal (s : Scenario α) (observed : Observations α) (window : α)
    (calibrated : Calibrated α) : Prop where
  frame : calibrated.scenario = { s with declarations := calibrated.scenario.declarations }
  count : calibrated.scenario.declarations.length = s.declarations.length
  touches
    : ∀ (place : Nat) d, s.declarations[place]? = some d
        → ∃ d', calibrated.scenario.declarations[place]? = some d'
            ∧ Touches s observed window calibrated place d d'
  corrected
    : ∀ target r, calibrated.results.lookup target = some r
        → ∃ place q, placeOf? s.declarations target = some place
            ∧ s.declarations[place]? = some (.quantity q)
            ∧ calibrated.scenario.declarations[place]?
              = some (.quantity (q.withUncertainty r.calibrated))
  untouched : calibrated.results = [] → calibrated.scenario = s
  forms : ∀ target r, calibrated.results.lookup target = some r → KeepsForm r.before r.calibrated
  alone
    : ∀ target, ∃ alone, s.calibrate (observed.only target) window = .ok alone
        ∧ alone.results.lookup target = calibrated.results.lookup target
        ∧ ∀ other, other ≠ target → alone.results.lookup other = none

-----------------------------------------------------------------------------------------
-- Targets on their own
-----------------------------------------------------------------------------------------

/-- If it is declared, the target gets through all declarations of the scenario. -/
def GetsThrough (s : Scenario α) (observed : Observations α) (window : α) (target : String)
    : Prop :=
  ∀ standing,
    Progress.standing? ⟨s.declarations, [], []⟩ s.declarations target = some standing
      → ∃ moved,
          s.declarations.foldlM (Standing.through observed window target) standing = .ok moved

/-- A calibration ends when all targets get through, and only then. -/
theorem calibrate_returns_iff
    : (∃ calibrated, s.calibrate observed window = .ok calibrated)
      ↔ ∀ target, GetsThrough s observed window target := by
  constructor
  · rintro ⟨calibrated, done⟩ target standing stands
    obtain ⟨ended, ran, -⟩ := exists_of_bind_eq_ok done
    obtain ⟨moved, course, -⟩ :=
      calibrateFrom_course rfl (ahead_start s.declarations) ran stands
    exact ⟨moved, course⟩
  · intro each
    have left : s.declarations.drop 0 = s.declarations := rfl
    obtain ⟨ended, ran⟩ := calibrateFrom_returns left (ahead_start s.declarations) each
    exact ⟨_, by rw [Scenario.calibrate, ran]; rfl⟩

/-- Whether a target gets through rests on its own observations, and without any it does. -/
theorem getsThrough_only_self {target : String}
    : GetsThrough s (observed.only target) window target
      ↔ GetsThrough s observed window target := by
  rw [GetsThrough, Standing.through_only_self, GetsThrough]

theorem getsThrough_only_of_ne {target other : String} (different : other ≠ target)
    : GetsThrough s (observed.only target) window other :=
  fun standing _ => ⟨standing, Standing.course_only_of_ne different s.declarations⟩

/-- With the observations of one target alone a calibration ends when that target gets through. -/
theorem calibrate_only_returns_iff {target : String}
    : (∃ alone, s.calibrate (observed.only target) window = .ok alone)
      ↔ GetsThrough s observed window target := by
  rw [calibrate_returns_iff, ← getsThrough_only_self]
  refine ⟨fun each => each target, fun own other => ?_⟩
  by_cases same : other = target
  · exact same ▸ own
  · exact getsThrough_only_of_ne same

/-- The report on a target is what its course comes to. -/
theorem lookup_of_course (done : s.calibrate observed window = .ok calibrated)
    {standing moved : Standing α}
    (stands : Progress.standing? ⟨s.declarations, [], []⟩ s.declarations target = some standing)
    (course : s.declarations.foldlM (Standing.through observed window target) standing = .ok moved)
    : calibrated.results.lookup target = moved.reported := by
  obtain ⟨ended, ran, same⟩ := exists_of_bind_eq_ok done
  cases same
  obtain ⟨_, own, ends⟩ := calibrateFrom_course rfl (ahead_start s.declarations) ran stands
  cases own.symm.trans course
  obtain ⟨-, -, -, reported⟩ := Progress.standing?_eq_some.mp ends
  exact reported

/-- The report on a target is the one that its own observations lead to, and these lead to no other
report.
-/
theorem lookup_alone (done : s.calibrate observed window = .ok calibrated) {alone : Calibrated α}
    (doneAlone : s.calibrate (observed.only target) window = .ok alone)
    : alone.results.lookup target = calibrated.results.lookup target
      ∧ ∀ other, other ≠ target → alone.results.lookup other = none := by
  -- Of targets that are not declared there is no report at all.
  have silent {observed : Observations α} {calibrated : Calibrated α}
      (done : s.calibrate observed window = .ok calibrated) {target : String}
      (missing : placeOf? s.declarations target = none)
      : calibrated.results.lookup target = none := by
    by_contra reported
    obtain ⟨r, reported⟩ := Option.ne_none_iff_exists'.mp reported
    obtain ⟨⟨targetPlace, found⟩, -⟩ := declared_of_reported done target r reported
    cases missing.symm.trans found
  have start {target : String} {targetPlace : Nat}
      (found : placeOf? s.declarations target = some targetPlace) :=
    (ahead_start s.declarations).exists_standing found
  constructor
  · cases found : placeOf? s.declarations target with
    | none => rw [silent done found, silent doneAlone found]
    | some targetPlace =>
        obtain ⟨standing, stands⟩ := start found
        obtain ⟨moved, course⟩ := calibrate_returns_iff.mp ⟨_, done⟩ target standing stands
        rw [lookup_of_course done stands course]
        rw [← Standing.through_only_self] at course
        exact lookup_of_course doneAlone stands course
  · intro other different
    cases found : placeOf? s.declarations other with
    | none => exact silent doneAlone found
    | some targetPlace =>
        obtain ⟨standing, stands⟩ := start found
        have still
            : s.declarations.foldlM (Standing.through (observed.only target) window other) standing
              = .ok standing := Standing.course_only_of_ne different s.declarations
        rw [lookup_of_course doneAlone stands still]
        obtain ⟨-, -, -, reported⟩ := Progress.standing?_eq_some.mp stands
        exact reported.symm

end Calibration

open Calibration

variable [Scalar α]

/-- Calibration is local. Apart from the uncertainties of the targets that it reports on, and from
what the blocks on these remember, it leaves the scenario as it is; and each target is calibrated as
it would be without the observations of the others. It ends when each target alone comes to an end.
-/
theorem Scenario.calibrate_isLocal (s : Scenario α) (observed : Observations α) (window : α)
    : (∀ calibrated, s.calibrate observed window = .ok calibrated
        → IsLocal s observed window calibrated)
      ∧ ((∃ calibrated, s.calibrate observed window = .ok calibrated)
        ↔ ∀ target, ∃ alone, s.calibrate (observed.only target) window = .ok alone) := by
  refine ⟨fun calibrated done => ?_, by simp only [calibrate_only_returns_iff,
    calibrate_returns_iff]⟩
  obtain ⟨ended, ran, same⟩ := exists_of_bind_eq_ok done
  have count : calibrated.scenario.declarations.length = s.declarations.length := by
    cases same
    obtain ⟨⟨_, ahead⟩, -⟩ := calibrateFrom_ahead rfl (ahead_start s.declarations) ran
    simpa using congrArg List.length ahead.outline
  have frame : calibrated.scenario
      = { s with declarations := calibrated.scenario.declarations } := by
    cases same
    rfl
  constructor
  case frame => exact frame
  case count => exact count
  case touches => exact fun place d declared => touches_of_calibrate done declared
  case corrected =>
    intro target r reported
    obtain ⟨⟨place, found⟩, -⟩ := declared_of_reported done target r reported
    obtain ⟨q, held, -⟩ := placeOf?_some found
    cases same
    exact ⟨place, q, found, held, value_of_reported held ran found reported⟩
  case untouched =>
    intro nothing
    rw [frame]
    congr 1
    refine List.ext_getElem? fun place => ?_
    cases declared : s.declarations[place]? with
    | none => simpa [count] using declared
    | some d =>
        obtain ⟨d', there, touches⟩ := touches_of_calibrate done declared
        rw [there]
        cases touches with
        | same => rfl
        | corrected _ reported => simp [nothing] at reported
        | remembered _ reported _ => simp [nothing] at reported
  case forms =>
    exact fun target r reported => (declared_of_reported done target r reported).2
  case alone =>
    intro target
    obtain ⟨alone, doneAlone⟩ :=
      calibrate_only_returns_iff.mpr (calibrate_returns_iff.mp ⟨calibrated, done⟩ target)
    exact ⟨alone, doneAlone, lookup_alone done doneAlone⟩

/-- Witness: a price of 100 that is seen once at 110. The report on it is all that comes of the
calibration.
-/
theorem Market.shares_calibrated_locally
    : ∃ calibrated,
        (market 100 (shares 20) none).calibrate (observed [110]) 2 = .ok calibrated
          ∧ calibrated.results.lookup "price" = some report
          ∧ IsLocal (market 100 (shares 20) none) (observed [110]) 2 calibrated :=
  ⟨_, shares_report, rfl, (Scenario.calibrate_isLocal _ _ _).1 _ shares_report⟩

end Prognosis
