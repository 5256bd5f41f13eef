import Mathlib.Data.List.Forall2
import Prognosis.Calibration
import Prognosis.Proofs.Calibration.Posteriors
import Prognosis.Proofs.Check.Outline
import Prognosis.Proofs.Simulation.Moments

/-! What a calibration makes of a scenario, step by step. Each block of it leaves all declarations
as they are, or it gives one of them another uncertainty and remembers the distribution that this
came from. In the end a declaration has stayed, its uncertainty has become a posterior, or it
remembers a prior. Each report is about the declaration that carries its posterior.
-/

namespace Prognosis

variable {α : Type}

namespace Calibration

variable [Scalar α]

-----------------------------------------------------------------------------------------
-- One block
-----------------------------------------------------------------------------------------

/-- A block corrects its target: prior and observed values are joined, and the posterior takes the
place of the uncertainty.
-/
structure Corrects (declared : List (Declaration α)) (progress next : Progress α) (place : Nat)
    (c : Calibrate α) (targetPlace : Nat) (q : Quantity α) (d : Distribution α)
    (prior : Prior α) (values : List α) (moments : Moments α)
    : Prop where
  found : placeOf? declared c.target.text = some targetPlace
  holds : progress.declarations[targetPlace]? = some (.quantity q)
  starts : c.prior.or q.uncertainty? = some d
  read : ∃ base, Prior.ofDistribution? d base = .ok (some prior)
  updated : update (c.method.getD .bayesianUpdate) prior.moments values = .ok moments
  declarations
    : next.declarations
        = let replaced := progress.declarations.set targetPlace
              (.quantity (q.withUncertainty (posterior d prior.form moments)))
          if c.prior.isNone then replaced.set place (.calibrate { c with prior := some d })
          else replaced
  results
    : next.results
        = progress.results.put c.target.text
            ⟨c.target.text, c.method.getD .bayesianUpdate, d, posterior d prior.form moments,
              values.length, moments⟩

/-- What a block did: nothing to declarations and reports, or a correction. -/
def Passes (declared : List (Declaration α)) (progress next : Progress α) (place : Nat)
    (c : Calibrate α) : Prop :=
  next.declarations = progress.declarations ∧ next.results = progress.results
    ∨ ∃ targetPlace q d prior values moments,
        Corrects declared progress next place c targetPlace q d prior values moments

variable {declared : List (Declaration α)} {observed : Observations α} {window : α}
  {progress next : Progress α} {place : Nat} {c : Calibrate α}

/-- Of the named values a correction changes its target only. It remembers the prior elsewhere, at
the place of the block.
-/
theorem Corrects.getElem?_quantity {targetPlace : Nat} {q : Quantity α} {d : Distribution α}
    {prior : Prior α} {values : List α} {moments : Moments α}
    (corrects : Corrects declared progress next place c targetPlace q d prior values moments)
    (block : declared[place]? = some (.calibrate c)) {other : Nat} {q' : Quantity α}
    (quantity : declared[other]? = some (.quantity q'))
    : next.declarations[other]?
      = (progress.declarations.set targetPlace
          (.quantity (q.withUncertainty (posterior d prior.form moments))))[other]? := by
  have elsewhere : place ≠ other := by
    rintro rfl
    rw [quantity] at block
    cases block
  rw [corrects.declarations]
  split
  · rw [List.getElem?_set_ne elsewhere]
  · rfl

/-- With a distribution and values, a block corrects its target or passes it over. -/
theorem passes_of_calibrateWith {targetPlace : Nat} {q : Quantity α} {d : Distribution α}
    {values : List α} (found : placeOf? declared c.target.text = some targetPlace)
    (holds : progress.declarations[targetPlace]? = some (.quantity q))
    (starts : c.prior.or q.uncertainty? = some d)
    (done : calibrateWith progress place targetPlace c q d values = .ok next)
    : Passes declared progress next place c := by
  obtain ⟨base, -, done⟩ := exists_of_bind_eq_ok done
  cases read : Prior.ofDistribution? d base with
  | error halt =>
      simp only [read] at done
      cases halt with
      | fault fault => cases done
      | error e =>
          cases done
          exact Or.inl ⟨rfl, rfl⟩
  | ok result =>
      simp only [read] at done
      cases result with
      | none =>
          cases done
          exact Or.inl ⟨rfl, rfl⟩
      | some prior =>
          simp only at done
          split at done
          case isTrue =>
            cases done
            exact Or.inl ⟨rfl, rfl⟩
          case isFalse =>
            obtain ⟨moments, updated, same⟩ := exists_of_bind_eq_ok done
            cases same
            exact Or.inr ⟨targetPlace, q, d, prior, valuesFor prior.form values, moments, found,
              holds, starts, ⟨base, read⟩, updated, rfl, rfl⟩

/-- A block that ends corrects its target or passes it over. -/
theorem passes_of_calibrateAt
    (done : calibrateAt declared observed window progress place c = .ok next)
    : Passes declared progress next place c := by
  have still (other : Progress α) (declarations : other.declarations = progress.declarations)
      (results : other.results = progress.results)
      (same : (.ok other : Except Fault (Progress α)) = .ok next)
      : Passes declared progress next place c := by
    cases same
    exact Or.inl ⟨declarations, results⟩
  simp only [calibrateAt] at done
  cases given : (observed.lookup c.target.text).map (·.points) with
  | none => exact still _ rfl rfl (by simpa [given] using done)
  | some points =>
      cases points with
      | nil => exact still _ rfl rfl (by simpa [given] using done)
      | cons first more =>
          simp only [given] at done
          cases found : placeOf? declared c.target.text with
          | none => exact still (progress.note _) rfl rfl (by simpa [found] using done)
          | some targetPlace =>
              simp only [found] at done
              cases held : (progress.declarations[targetPlace]?).bind (·.quantity?) with
              | none => exact still _ rfl rfl (by simpa [held] using done)
              | some q =>
                  simp only [held] at done
                  cases starts : c.prior.or q.uncertainty? with
                  | none =>
                      exact still (progress.note _) rfl rfl (by simpa [starts] using done)
                  | some d =>
                      simp only [starts] at done
                      split at done
                      case isTrue => exact still _ rfl rfl done
                      case isFalse =>
                        obtain ⟨d', placed, is⟩ := Option.bind_eq_some_iff.mp held
                        cases d' with
                        | quantity q' =>
                            cases is
                            exact passes_of_calibrateWith found placed starts done
                        | branch _ | simulate _ | watch _ | calibrate _ | imported _ => cases is

-----------------------------------------------------------------------------------------
-- All blocks
-----------------------------------------------------------------------------------------

/-- What no block of the declared ones breaks holds in the end, by induction along the declarations
that are left.
-/
theorem calibrateFrom_induction {P : Progress α → Prop}
    (keeps
      : ∀ progress next place c, P progress → declared[place]? = some (.calibrate c)
          → Passes declared progress next place c → P next)
    {rest : List (Declaration α)} (left : declared.drop place = rest) (holds : P progress)
    (done : calibrateFrom declared observed window progress place rest = .ok next)
    : P next := by
  induction rest generalizing place progress with
  | nil =>
      cases done
      exact holds
  | cons d rest ih =>
      have here : declared[place]? = some d := by
        rw [← List.head?_drop, left]
        rfl
      have later : declared.drop (place + 1) = rest := by
        rw [← List.drop_drop, left]
        rfl
      cases d with
      | calibrate c =>
          simp only [calibrateFrom] at done
          cases first : calibrateAt declared observed window progress place c with
          | error fault => simp [first] at done
          | ok middle =>
              simp only [first] at done
              have passes := passes_of_calibrateAt first
              exact ih later (keeps progress middle place c holds here passes) done
      | quantity _ | branch _ | simulate _ | watch _ | imported _ => exact ih later holds done

/-- So it holds of what a calibration of a scenario comes to. -/
theorem calibrate_induction {s : Scenario α} {calibrated : Calibrated α} {P : Progress α → Prop}
    (keeps
      : ∀ progress next place c, P progress → s.declarations[place]? = some (.calibrate c)
          → Passes s.declarations progress next place c → P next)
    (holds : P ⟨s.declarations, [], []⟩)
    (done : s.calibrate observed window = .ok calibrated)
    : ∃ notices, P ⟨calibrated.scenario.declarations, calibrated.results, notices⟩
        ∧ calibrated.scenario = { s with declarations := calibrated.scenario.declarations } := by
  obtain ⟨progress, ran, same⟩ := exists_of_bind_eq_ok done
  cases same
  exact ⟨progress.notices, calibrateFrom_induction keeps rfl holds ran, rfl⟩

end Calibration

-----------------------------------------------------------------------------------------
-- Scenarios with posteriors
-----------------------------------------------------------------------------------------

namespace Quantity

variable {q : Quantity α} {d : Distribution α}

@[simp]
theorem withUncertainty_name : (q.withUncertainty d).name = q.name := by
  cases q <;> rfl

@[simp]
theorem withUncertainty_kind : (q.withUncertainty d).kind = q.kind := by
  cases q <;> rfl

@[simp]
theorem withUncertainty_twice (d' : Distribution α)
    : (q.withUncertainty d').withUncertainty d = q.withUncertainty d := by
  cases q <;> rfl

theorem withUncertainty_uncertainty? (carries : q.kind ≠ .impact)
    : (q.withUncertainty d).uncertainty? = some d := by
  cases q with
  | impact i => exact absurd rfl carries
  | assumption _ | varying _ | parameter _ => rfl

end Quantity

theorem related_of_getElem? {β γ : Type} {R : β → γ → Prop} {xs : List β} {ys : List γ}
    {place : Nat} {x : β} {y : γ} (related : List.Forall₂ R xs ys) (left : xs[place]? = some x)
    (right : ys[place]? = some y)
    : R x y := by
  obtain ⟨bound, rfl⟩ := List.getElem?_eq_some_iff.mp left
  obtain ⟨bound', rfl⟩ := List.getElem?_eq_some_iff.mp right
  exact related.get bound bound'

/-- Lists stay related when a place of one of them is given an item that is related to the item at
the same place of the other. By induction along the lists.
-/
theorem forall₂_set {β γ : Type} {R : β → γ → Prop} {xs : List β} {ys : List γ} {place : Nat}
    {x : β} {y : γ} (related : List.Forall₂ R xs ys) (placed : xs[place]? = some x) (here : R x y)
    : List.Forall₂ R xs (ys.set place y) := by
  induction related generalizing place with
  | nil => exact .nil
  | cons first rest ih =>
      cases place with
      | zero =>
          cases placed
          exact .cons here rest
      | succ place => exact .cons first (ih placed)

namespace Calibration

variable [Scalar α] {s : Scenario α}

omit [Scalar α] in
/-- A target is at the place of a declaration that has its name and can have an uncertainty. -/
theorem placeOf?_some {declarations : List (Declaration α)} {name : String} {place : Nat}
    (found : placeOf? declarations name = some place)
    : ∃ q, declarations[place]? = some (.quantity q) ∧ q.name = name ∧ q.kind ≠ .impact := by
  obtain ⟨bound, fits, -⟩ := List.findIdx?_eq_some_iff_getElem.mp found
  cases placed : declarations[place] with
  | quantity q =>
      rw [placed] at fits
      simp only [Bool.and_eq_true, beq_iff_eq, bne_iff_ne] at fits
      exact ⟨q, by rw [List.getElem?_eq_getElem bound, placed], fits⟩
  | branch _ | simulate _ | watch _ | calibrate _ | imported _ =>
      rw [placed] at fits
      cases fits

-----------------------------------------------------------------------------------------
-- Distributions
-----------------------------------------------------------------------------------------

/-- The scenario declares the distribution, as an uncertainty or as a prior. -/
inductive HasDistribution (s : Scenario α) : Distribution α → Prop
  | uncertainty {q d} (declared : .quantity q ∈ s.declarations) (has : q.uncertainty? = some d)
    : HasDistribution s d
  | prior {c d} (declared : .calibrate c ∈ s.declarations) (has : c.prior = some d)
    : HasDistribution s d

/-- Where the distributions of a calibration come from: they are declared, or they are posteriors of
such ones.
-/
inductive Arises (s : Scenario α) : Distribution α → Prop
  | declared {d} (has : HasDistribution s d) : Arises s d
  | posterior {d base} {prior : Prior α} {moments : Moments α} (before : Arises s d)
    (read : Prior.ofDistribution? d base = .ok (some prior))
    (deviation : NotNegative moments.deviation)
    : Arises s (posterior d prior.form moments)

/-- What a calibration may make of a declaration. -/
inductive Recalibrated (s : Scenario α) : Declaration α → Declaration α → Prop
  | same (d) : Recalibrated s d d
  | corrected {d base} {prior : Prior α} {moments : Moments α} (q : Quantity α)
    (before : Arises s d) (read : Prior.ofDistribution? d base = .ok (some prior))
    (deviation : NotNegative moments.deviation)
    : Recalibrated s (.quantity q) (.quantity (q.withUncertainty (posterior d prior.form moments)))
  | remembered {d} (c : Calibrate α) (from_ : Arises s d)
    : Recalibrated s (.calibrate c) (.calibrate { c with prior := some d })

/-- From outside nothing of it is seen. -/
theorem Recalibrated.alike {d d' : Declaration α} (recalibrated : Recalibrated s d d')
    : d.Alike d' := by
  cases recalibrated with
  | same => exact .refl d
  | corrected q =>
      exact .quantity Quantity.withUncertainty_name Quantity.withUncertainty_kind
  | remembered c => exact ⟨rfl, rfl, rfl, rfl⟩

/-- An uncertainty after corrections is one that arises, and another correction corrects the
declared value.
-/
theorem Recalibrated.quantity {q q' : Quantity α}
    (recalibrated : Recalibrated s (.quantity q) (.quantity q'))
    (declared : .quantity q ∈ s.declarations)
    : q'.kind = q.kind ∧ (∀ d, q'.uncertainty? = some d → Arises s d)
      ∧ ∀ d, q'.withUncertainty d = q.withUncertainty d := by
  cases recalibrated with
  | same => exact ⟨rfl, fun _ has => .declared (.uncertainty declared has), fun _ => rfl⟩
  | corrected _ before read deviation =>
      refine ⟨Quantity.withUncertainty_kind, fun d has => ?_,
        fun _ => Quantity.withUncertainty_twice _⟩
      by_cases carries : q.kind = .impact
      · cases q with
        | impact i => cases has
        | assumption _ | varying _ | parameter _ => cases carries
      · rw [Quantity.withUncertainty_uncertainty? carries] at has
        cases has
        exact .posterior before read deviation

-----------------------------------------------------------------------------------------
-- Reports
-----------------------------------------------------------------------------------------

/-- A report tells of a declaration which has the posterior as its uncertainty now. -/
structure Carries (s : Scenario α) (declarations : List (Declaration α)) (target : String)
    (r : CalibrationResult α) (place : Nat) (q : Quantity α) (prior : Prior α)
    : Prop where
  found : placeOf? s.declarations target = some place
  placed : declarations[place]? = some (.quantity q)
  uncertainty : q.uncertainty? = some r.calibrated
  read : ∃ base, Prior.ofDistribution? r.before base = .ok (some prior)
  written : r.calibrated = posterior r.before prior.form r.posterior
  deviation : NotNegative r.posterior.deviation

/-- What is true of a calibration at any time. -/
structure Recalibrates (s : Scenario α) (p : Progress α) : Prop where
  declarations : List.Forall₂ (Recalibrated s) s.declarations p.declarations
  results
    : ∀ target r, p.results.lookup target = some r
        → ∃ place q prior, Carries s p.declarations target r place q prior

variable [Scalar.SignRules α] {progress next : Progress α} {place : Nat} {c : Calibrate α}

/-- Each block keeps it. A correction touches the declaration of its target, of which the report on
the same target tells, and the block itself, of which no report tells.
-/
theorem Recalibrates.passes (before : Recalibrates s progress)
    (declared : s.declarations[place]? = some (.calibrate c))
    (passes : Passes s.declarations progress next place c)
    : Recalibrates s next := by
  rcases passes with ⟨declarations, results⟩ |
    ⟨targetPlace, q, d, prior, values, moments, corrects⟩
  · exact ⟨declarations ▸ before.declarations, by rw [declarations, results]; exact before.results⟩
  have kept {other : Nat} {q' : Quantity α}
      (quantity : s.declarations[other]? = some (.quantity q')) :=
    corrects.getElem?_quantity declared quantity
  obtain ⟨found, holds, starts, ⟨base, read⟩, updated, declarations, results⟩ := corrects
  obtain ⟨declaredQuantity, target, named, carries⟩ := placeOf?_some found
  obtain ⟨kind, uncertainties, again⟩ :=
    (related_of_getElem? before.declarations target holds).quantity (List.mem_of_getElem? target)
  have arises : Arises s d := by
    cases given : c.prior with
    | none => exact uncertainties d (by simpa [given] using starts)
    | some d' =>
        rw [given, Option.some_or] at starts
        cases starts
        exact .declared (.prior (List.mem_of_getElem? declared) given)
  have deviation : NotNegative moments.deviation :=
    notNegative_of_update (notNegative_of_prior read) updated
  have corrected := forall₂_set before.declarations target
    (again _ ▸ Recalibrated.corrected declaredQuantity arises read deviation)
  constructor
  case declarations =>
    rw [declarations]
    by_cases fresh : c.prior.isNone = true
    · simp only [if_pos fresh]
      exact forall₂_set corrected declared (.remembered c arises)
    · simp only [if_neg fresh]
      exact corrected
  case results =>
    intro name r reported
    rw [results] at reported
    by_cases same : name = c.target.text
    · subst same
      rw [Entries.lookup_put_self] at reported
      cases reported
      refine ⟨targetPlace, q.withUncertainty (posterior d prior.form moments), prior, found, ?_, ?_,
        ⟨base, read⟩, rfl, deviation⟩
      · rw [kept target, List.getElem?_set_self (List.getElem?_eq_some_iff.mp holds).1]
      · exact Quantity.withUncertainty_uncertainty? (kind ▸ carries)
    · rw [Entries.lookup_put_of_ne _ _ same] at reported
      obtain ⟨other, q', prior', earlier⟩ := before.results name r reported
      obtain ⟨declaredOther, there, named', -⟩ := placeOf?_some earlier.found
      have apart : targetPlace ≠ other := by
        rintro rfl
        rw [target] at there
        cases there
        exact same (named'.symm.trans named)
      refine ⟨other, q', prior', { earlier with placed := ?_ }⟩
      rw [kept there, List.getElem?_set_ne apart]
      exact earlier.placed

/-- So it is true in the end. -/
theorem recalibrates_of_calibrate {observed : Observations α} {window : α}
    {calibrated : Calibrated α} (done : s.calibrate observed window = .ok calibrated)
    : calibrated.scenario = s.withDeclarations calibrated.scenario.declarations
      ∧ List.Forall₂ (Recalibrated s) s.declarations calibrated.scenario.declarations
      ∧ ∀ target r, calibrated.results.lookup target = some r
          → ∃ place q prior,
              Carries s calibrated.scenario.declarations target r place q prior := by
  have start : Recalibrates s ⟨s.declarations, [], []⟩ :=
    ⟨List.forall₂_same.mpr fun d _ => .same d, fun _ _ reported => by cases reported⟩
  obtain ⟨_, holds, same⟩ :=
    calibrate_induction (fun _ _ _ _ before => before.passes) start done
  exact ⟨same, holds.declarations, holds.results⟩

end Calibration

end Prognosis
