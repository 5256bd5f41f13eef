import Mathlib.Analysis.SpecialFunctions.Pow.Real
import Prognosis.Proofs.Calibration.Reports
import Prognosis.Proofs.Calibration.Soundness

/-! Calibrating once more. Two calibrations are followed side by side: from the first report on a
target on they agree about it, because the blocks that reported hold what they started from. So a
second calibration with the same observations repeats the reports of the first one and leaves every
uncertainty as it is.
-/

namespace Prognosis

variable {α : Type}

namespace Calibration

variable [Scalar α] {declared : List (Declaration α)} {observed : Observations α} {window : α}
  {progress next : Progress α} {place : Nat} {c : Calibrate α}

-----------------------------------------------------------------------------------------
-- Two calibrations side by side
-----------------------------------------------------------------------------------------

/-- A calibration on its way: what it may not change looks as it is declared, the blocks that are
still to come are as declared, and so is every named value that no report is on.
-/
structure Ahead (declared : List (Declaration α)) (place : Nat) (progress : Progress α) : Prop where
  outline
    : progress.declarations.map Declaration.uncalibrated
      = declared.map Declaration.uncalibrated
  blocks
    : ∀ other c, place ≤ other → declared[other]? = some (.calibrate c)
        → progress.declarations[other]? = some (.calibrate c)
  values
    : ∀ other,
        (∀ target, placeOf? declared target = some other → progress.results.lookup target = none)
        → progress.value? other = (declared[other]?).bind Declaration.quantity?

/-- The first calibration, which has come to `progress` and ends in `ended`, is still to report on
the target for the first time.
-/
def Awaits (ended progress : Progress α) (target : String) : Prop :=
  progress.results.lookup target = none ∧ ended.results.lookup target ≠ none

/-- A second calibration agrees with the first one at the same place about all targets but those
that await their first report.
-/
structure Repeats (declared : List (Declaration α)) (ended progress again : Progress α) : Prop where
  results
    : ∀ target, ¬Awaits ended progress target
        → again.results.lookup target = progress.results.lookup target
  values
    : ∀ place,
        (∀ target, placeOf? declared target = some place → ¬Awaits ended progress target)
        → again.value? place = progress.value? place

section Steps

variable {ended again after : Progress α}
  {reported reported' : Option (CalibrationResult α)}

/-- The block with what it started from, if it reported. -/
def keeping (c : Calibrate α)
    (reported : Option (CalibrationResult α)) : Calibrate α :=
  { c with prior := (reported.map (·.before)).or c.prior }

/-- What became of a block: it has no target, or it reported on the value that its target was. -/
inductive BlockDone (declared : List (Declaration α)) (observed : Observations α) (window : α)
    (progress next : Progress α) (place : Nat) (c : Calibrate α)
    : Option (CalibrationResult α) → Prop
  | missing (missing : placeOf? declared c.target.text = none)
    (declarations : next.declarations = progress.declarations)
    (results : next.results = progress.results)
    : BlockDone declared observed window progress next place c none
  | reports {targetPlace q reported} (found : placeOf? declared c.target.text = some targetPlace)
    (holds : progress.declarations[targetPlace]? = some (.quantity q))
    (is : report observed window c q = .ok reported)
    (records : Records progress next place targetPlace c q reported)
    : BlockDone declared observed window progress next place c reported

theorem Ahead.block (ahead : Ahead declared place progress)
    (held : declared[place]? = some (.calibrate c))
    (done : calibrateAt declared observed window progress place c = .ok next)
    : ∃ reported, BlockDone declared observed window progress next place c reported := by
  cases found : placeOf? declared c.target.text with
  | none =>
      obtain ⟨declarations, results⟩ := unchanged_of_calibrateAt found done
      exact ⟨none, .missing found declarations results⟩
  | some targetPlace =>
      have there := found
      rw [← placeOf?_eq_of_uncalibrated ahead.outline] at there
      obtain ⟨q, holds, -⟩ := placeOf?_some there
      obtain ⟨reported, is, records⟩ :=
        records_of_calibrateAt found holds (ahead.blocks place c le_rfl held) done
      exact ⟨reported, .reports found holds is records⟩

namespace BlockDone

variable (done : BlockDone declared observed window progress next place c reported)

include done

/-- Blocks at other places stay. -/
theorem block_of_ne {other : Nat} {c' : Calibrate α} (different : other ≠ place)
    (there : progress.declarations[other]? = some (.calibrate c'))
    : next.declarations[other]? = some (.calibrate c') := by
  cases done with
  | missing _ declarations _ => rwa [declarations]
  | reports _ holds _ records => exact records.block_of_ne holds different there

/-- The block itself keeps what it started from. -/
theorem kept (held : progress.declarations[place]? = some (.calibrate c))
    : next.declarations[place]? = some (.calibrate (keeping c reported)) := by
  cases done with
  | missing _ declarations _ => rwa [declarations]
  | reports _ _ _ records => exact records.block held

end BlockDone

/-- One more block. -/
theorem Ahead.advance (ahead : Ahead declared place progress)
    (held : declared[place]? = some (.calibrate c))
    (done : BlockDone declared observed window progress next place c reported)
    : Ahead declared (place + 1) next := by
  constructor
  case outline =>
    cases done with
    | missing _ declarations _ => rw [declarations, ahead.outline]
    | reports _ holds _ records =>
        exact (records.outline holds (ahead.blocks place c le_rfl held)).trans ahead.outline
  case blocks =>
    intro other c' later there
    exact done.block_of_ne (by omega) (ahead.blocks other c' (by omega) there)
  case values =>
    intro other silent
    cases done with
    | missing _ declarations results =>
        rw [results] at silent
        rw [Progress.value?, declarations]
        exact ahead.values other silent
    | @reports targetPlace _ reported found holds is records =>
        have block := ahead.blocks place c le_rfl held
        cases reported with
        | none =>
            rw [records.2] at silent
            rw [Progress.value?, records.1]
            exact ahead.values other silent
        | some r =>
            have apart : other ≠ targetPlace := by
              rintro rfl
              have reported := (records.corrected holds block).2
              rw [silent _ found] at reported
              cases reported
            rw [records.value_of_ne block apart]
            refine ahead.values other fun target placed => ?_
            rw [← records.lookup_of_ne, silent target placed]
            rintro rfl
            exact apart (Option.some.inj (placed.symm.trans found))

omit [Scalar α] in
/-- Other declarations are passed over. -/
theorem Ahead.pass (ahead : Ahead declared place progress) : Ahead declared (place + 1) progress :=
  { ahead with blocks := fun other c later => ahead.blocks other c (by omega) }

omit [Scalar α] in
/-- At the start all is as declared. -/
theorem ahead_start (declared : List (Declaration α))
    : Ahead declared 0 ⟨declared, [], []⟩ :=
  ⟨rfl, fun _ _ _ there => there, fun _ _ => rfl⟩

/-- A calibration comes to its end on the same terms, and blocks that lie behind stay. By induction
along the declarations that are left.
-/
theorem calibrateFrom_ahead {rest : List (Declaration α)} (left : declared.drop place = rest)
    (ahead : Ahead declared place progress)
    (done : calibrateFrom declared observed window progress place rest = .ok ended)
    : (∃ last, Ahead declared last ended)
        ∧ ∀ other c, other < place → progress.declarations[other]? = some (.calibrate c)
          → ended.declarations[other]? = some (.calibrate c) := by
  induction rest generalizing place progress with
  | nil =>
      cases done
      exact ⟨⟨place, ahead⟩, fun _ _ _ there => there⟩
  | cons d rest ih =>
      have here : declared[place]? = some d := by rw [← List.head?_drop, left]; rfl
      have later : declared.drop (place + 1) = rest := by rw [← List.drop_drop, left]; rfl
      cases d with
      | calibrate c' =>
          simp only [calibrateFrom] at done
          cases first : calibrateAt declared observed window progress place c' with
          | error fault => simp [first] at done
          | ok middle =>
              simp only [first] at done
              obtain ⟨_, block⟩ := ahead.block here first
              obtain ⟨last, kept⟩ := ih later (ahead.advance here block) done
              refine ⟨last, fun other c behind there => kept other c (by omega) ?_⟩
              exact block.block_of_ne (by omega) there
      | quantity _ | branch _ | simulate _ | watch _ | imported _ =>
          obtain ⟨last, kept⟩ := ih later ahead.pass done
          exact ⟨last, fun other c behind there => kept other c (by omega) there⟩

/-- Side by side, each block keeps the agreement. A block that reported holds what it started from,
so it reports the same again, whatever its target is by now. A block that reported nothing is as it
was: it does so again if the calibrations agree about its target, and otherwise touches only what
awaits its first report.
-/
theorem Repeats.advance (repeats : Repeats declared ended progress again)
    (ahead : Ahead declared place progress) (aheadAgain : Ahead ended.declarations place again)
    (outline : ended.declarations.map Declaration.uncalibrated
      = declared.map Declaration.uncalibrated)
    (held : declared[place]? = some (.calibrate c))
    (heldAgain : ended.declarations[place]? = some (.calibrate (keeping c reported)))
    (done : BlockDone declared observed window progress next place c reported)
    (doneAgain : BlockDone ended.declarations observed window again after place
      (keeping c reported) reported')
    : Repeats declared ended next after := by
  have places := placeOf?_eq_of_uncalibrated outline
  cases done with
  | missing missing declarations results =>
      cases doneAgain with
      | missing _ declarationsAgain resultsAgain =>
          constructor
          case results => simpa [Awaits, results, resultsAgain] using repeats.results
          case values =>
            simpa [Awaits, results, Progress.value?, declarations, declarationsAgain]
              using repeats.values
      | reports found _ _ _ =>
          rw [places] at found
          cases missing.symm.trans found
  | @reports targetPlace q _ found holds is records =>
      cases doneAgain with
      | missing missing _ _ =>
          rw [places] at missing
          cases found.symm.trans missing
      | @reports targetPlace' q' _ foundAgain holdsAgain isAgain recordsAgain =>
          obtain rfl : targetPlace' = targetPlace := by
            rw [places] at foundAgain
            exact Option.some.inj (foundAgain.symm.trans found)
          have alike : q'.withoutUncertainty = q.withoutUncertainty := by
            have looks : again.declarations.map Declaration.uncalibrated
                = progress.declarations.map Declaration.uncalibrated :=
              (aheadAgain.outline.trans outline).trans ahead.outline.symm
            have here := congrArg (·[targetPlace']?) looks
            simpa [holds, holdsAgain, Declaration.uncalibrated] using here
          have block := ahead.blocks place c le_rfl held
          have blockAgain := aheadAgain.blocks place _ le_rfl heldAgain
          -- all but the target of the block stays on both sides
          suffices target : ¬Awaits ended next c.target.text
              → after.results.lookup c.target.text = next.results.lookup c.target.text
                ∧ after.value? targetPlace' = next.value? targetPlace' by
            constructor
            case results =>
              intro t settled
              by_cases same : t = c.target.text
              · subst same
                exact (target settled).1
              · rw [recordsAgain.lookup_of_ne same, records.lookup_of_ne same]
                refine repeats.results t fun awaits => settled ⟨?_, awaits.2⟩
                rw [records.lookup_of_ne same, awaits.1]
            case values =>
              intro other settled
              by_cases same : other = targetPlace'
              · subst same
                exact (target (settled _ found)).2
              · rw [recordsAgain.value_of_ne blockAgain same, records.value_of_ne block same]
                refine repeats.values other fun t placed awaits =>
                  settled t placed ⟨?_, awaits.2⟩
                rw [records.lookup_of_ne, awaits.1]
                rintro rfl
                exact same (Option.some.inj (placed.symm.trans found))
          intro settled
          cases reported with
          | some r =>
              have starts := before_of_report is
              have repeated : report observed window (keeping c (some r)) q' = .ok (some r) :=
                (report_congr (by simp [starts]) alike).trans is
              cases isAgain.symm.trans repeated
              obtain ⟨value, found⟩ := records.corrected holds block
              obtain ⟨valueAgain, foundAgain⟩ := recordsAgain.corrected holdsAgain blockAgain
              refine ⟨foundAgain.trans found.symm, ?_⟩
              rw [value, valueAgain,
                Quantity.withUncertainty_eq_of_withoutUncertainty alike]
          | none =>
              have unsettled : ¬Awaits ended progress c.target.text := by
                simpa [Awaits, records.2] using settled
              have value : again.value? targetPlace' = progress.value? targetPlace' := by
                refine repeats.values targetPlace' fun t placed => ?_
                rwa [placeOf?_inj placed found]
              obtain rfl : q' = q := by
                simpa [Progress.value?, holds, holdsAgain, Declaration.quantity?] using value
              cases isAgain.symm.trans is
              refine ⟨?_, ?_⟩
              · rw [recordsAgain.2, records.2]
                exact repeats.results _ unsettled
              · rw [Progress.value?, recordsAgain.1, Progress.value?, records.1]
                exact value

/-- So it is to the end, by induction along the declarations that are left to the first
calibration; those that are left to the second one look the same.
-/
theorem calibrateFrom_repeats {endedAgain : Progress α} {rest : List (Declaration α)}
    (left : declared.drop place = rest) (repeats : Repeats declared ended progress again)
    (ahead : Ahead declared place progress) (aheadAgain : Ahead ended.declarations place again)
    (outline : ended.declarations.map Declaration.uncalibrated
      = declared.map Declaration.uncalibrated)
    (done : calibrateFrom declared observed window progress place rest = .ok ended)
    (doneAgain : calibrateFrom ended.declarations observed window again place
      (ended.declarations.drop place) = .ok endedAgain)
    : Repeats declared ended ended endedAgain := by
  induction rest generalizing place progress again with
  | nil =>
      have nothing : ended.declarations.drop place = [] := by
        have length := congrArg List.length outline
        simp only [List.length_map] at length
        rw [List.drop_eq_nil_iff] at left ⊢
        omega
      rw [nothing] at doneAgain
      cases done
      cases doneAgain
      exact repeats
  | cons d rest ih =>
      have here : declared[place]? = some d := by rw [← List.head?_drop, left]; rfl
      have later : declared.drop (place + 1) = rest := by rw [← List.drop_drop, left]; rfl
      obtain ⟨d', there, alike⟩ : ∃ d', ended.declarations[place]? = some d'
          ∧ d'.uncalibrated = d.uncalibrated := by
        have looks := congrArg (·[place]?) outline
        simpa [here] using looks
      rw [List.drop_eq_getElem_cons (List.getElem?_eq_some_iff.mp there).1,
        (List.getElem?_eq_some_iff.mp there).2] at doneAgain
      cases d with
      | calibrate c =>
          simp only [calibrateFrom] at done
          cases first : calibrateAt declared observed window progress place c with
          | error fault => simp [first] at done
          | ok middle =>
              simp only [first] at done
              obtain ⟨reported, block⟩ := ahead.block here first
              have advanced := ahead.advance here block
              -- what the block keeps is what the second calibration finds in its place
              have held := (calibrateFrom_ahead later advanced done).2 place _
                (Nat.lt_succ_self place) (block.kept (ahead.blocks place c le_rfl here))
              cases there.symm.trans held
              simp only [calibrateFrom] at doneAgain
              cases second : calibrateAt ended.declarations observed window again place
                  (keeping c reported) with
              | error fault => simp [second] at doneAgain
              | ok middleAgain =>
                  simp only [second] at doneAgain
                  obtain ⟨_, blockAgain⟩ := aheadAgain.block held second
                  exact ih later
                    (repeats.advance ahead aheadAgain outline here held block blockAgain) advanced
                    (aheadAgain.advance held blockAgain) done doneAgain
      | quantity _ | branch _ | simulate _ | watch _ | imported _ =>
          cases d' with
          | calibrate _ => cases alike
          | quantity _ | branch _ | simulate _ | watch _ | imported _ =>
              exact ih later repeats ahead.pass aheadAgain.pass done doneAgain

end Steps

-----------------------------------------------------------------------------------------
-- Whole calibrations
-----------------------------------------------------------------------------------------

end Calibration

open Calibration

variable [Scalar α]

/-- A scenario that was calibrated is calibrated already: calibrating it once more with the same
observations gives the same reports, and what comes out differs from it at most in the priors that
blocks have kept meanwhile. So every uncertainty stays.
Witness: side by side the calibrations agree about each target from its first report on, and in the
end no target awaits one.
-/
theorem Scenario.calibrate_again {s : Scenario α} {observed : Observations α} {window : α}
    {calibrated again : Calibrated α} (once : s.calibrate observed window = .ok calibrated)
    (twice : calibrated.scenario.calibrate observed window = .ok again)
    : (∀ target, again.results.lookup target = calibrated.results.lookup target)
      ∧ again.scenario.declarations.map Declaration.withoutPrior
        = calibrated.scenario.declarations.map Declaration.withoutPrior
      ∧ again.scenario.quantities = calibrated.scenario.quantities := by
  obtain ⟨ended, ran, same⟩ := exists_of_bind_eq_ok once
  cases same
  obtain ⟨endedAgain, ranAgain, same⟩ := exists_of_bind_eq_ok twice
  cases same
  obtain ⟨⟨last, ahead⟩, -⟩ := calibrateFrom_ahead rfl (ahead_start s.declarations) ran
  obtain ⟨⟨_, aheadAgain⟩, -⟩ :=
    calibrateFrom_ahead rfl (ahead_start ended.declarations) ranAgain
  have start
      : Repeats s.declarations ended ⟨s.declarations, [], []⟩ ⟨ended.declarations, [], []⟩ := by
    refine ⟨fun _ _ => rfl, fun place settled => ahead.values place fun target placed => ?_⟩
    by_contra reported
    exact settled target placed ⟨rfl, reported⟩
  have repeats : Repeats s.declarations ended ended endedAgain :=
    calibrateFrom_repeats rfl start (ahead_start _) (ahead_start _) ahead.outline ran ranAgain
  have settled (target : String) : ¬Awaits ended ended target := fun awaits => awaits.2 awaits.1
  have declarations : endedAgain.declarations.map Declaration.withoutPrior
      = ended.declarations.map Declaration.withoutPrior := by
    refine map_withoutPrior_eq aheadAgain.outline fun place => ?_
    exact repeats.values place fun target _ => settled target
  refine ⟨fun target => repeats.results target (settled target), declarations, ?_⟩
  have quantities := congrArg (List.filterMap Declaration.quantity?) declarations
  rwa [List.filterMap_map, List.filterMap_map, Declaration.quantity?_withoutPrior] at quantities

namespace Market

/-- A price of 100 that two blocks correct. -/
def twofold (uncertainty first second : Option (Distribution ℝ)) : Scenario ℝ := {
  name := "market"
  metadata := Metadata.empty
  declarations := [
    .quantity (.assumption { price (100 : ℕ) (shares (20 : ℕ)) with uncertainty := uncertainty }),
    .calibrate (correction first),
    .calibrate (correction second)
  ]
  span := place
}

/-- What a block makes of a price of 100 once it starts from a share of it: one observation moves
the mean and leaves the deviation.
-/
noncomputable def reportOn (m : Moments ℝ) : CalibrationResult ℝ :=
  let before := shares m.deviation
  ⟨"price", .maximumLikelihood, before, posterior before .relative m, 1, m⟩

/-- A block with the spread at hand does so when it sees the price at 110. -/
theorem calibrateAt_price (declared : List (Declaration ℝ)) (progress : Progress ℝ) (place : Nat)
    (remembered uncertainty : Option (Distribution ℝ)) {spread : ℝ} (positive : 0 ≤ spread)
    (found : placeOf? declared "price" = some 0)
    (holds : progress.declarations[0]?
      = some (.quantity (.assumption { price 100 (shares 20) with uncertainty := uncertainty })))
    (starts : remembered.or uncertainty = some (shares spread))
    : calibrateAt declared (observed [110]) 2 progress place (correction remembered)
      = .ok { progress with
          declarations :=
            let replaced := progress.declarations.set 0
              (.quantity (.assumption
                { price 100 (shares 20) with uncertainty := some (shares (spread / 110 * 100)) }))
            if remembered.isNone then
              replaced.set place (.calibrate (correction (some (shares spread))))
            else replaced
          results := progress.results.put "price" (reportOn ⟨110, spread⟩) } := by
  have text : (Path.ofRoot "price").text = "price" := by cbv
  have base
      : baseValue (.assumption { price 100 (shares 20) with uncertainty := uncertainty }) [110]
        = .ok 100 := by
    simp [baseValue, baseExpression?, price, Expr.magnitude, Expr.value]
  have inside := windowValues_observed [110] (by norm_num : (0 : ℝ) ≤ 2)
  have size : |(100 : ℝ)| * |spread| / 100 = spread := by
    rw [abs_of_pos (by norm_num), abs_of_nonneg positive]
    ring
  have read := read_shares 100 spread
  rw [size] at read
  have calibrated : posterior (shares spread) .relative ⟨110, spread⟩
      = shares (spread / 110 * 100) := by
    simp [posterior, shares]
  simp only [List.map_cons, List.map_nil] at inside
  simp only [calibrateAt, correction, text, observed, List.map_cons, List.map_nil, List.lookup_cons,
    beq_self_eq_true, Option.map_some, found, holds, Option.bind_some, Declaration.quantity?,
    Quantity.uncertainty?, starts, Option.map_none, Option.getD_none, inside, List.isEmpty_cons,
    calibrateWith, base, bind, Except.bind, read, valuesFor, update, maximumLikelihood_one,
    calibrated, pure, Except.pure, Option.getD_some, reportOn]
  rfl

variable {uncertainty first second : Option (Distribution ℝ)} {middle ended : Progress ℝ}

/-- The blocks come one after the other. -/
theorem twofold_calibrate
    (corrected : let declared := (twofold uncertainty first second).declarations
      calibrateAt declared (observed [110]) 2 ⟨declared, [], []⟩ 1 (correction first) = .ok middle)
    (correctedAgain : calibrateAt (twofold uncertainty first second).declarations (observed [110]) 2
      middle 2 (correction second) = .ok ended)
    : (twofold uncertainty first second).calibrate (observed [110]) 2
      = .ok ⟨{ twofold uncertainty first second with declarations := ended.declarations },
          ended.results, ended.notices⟩ := by
  simp only [twofold] at corrected correctedAgain
  simp only [Scenario.calibrate, twofold, calibrateFrom, corrected, correctedAgain, Nat.zero_add,
    Nat.reduceAdd]
  rfl

variable (uncertainty first second) in
theorem twofold_found
    : placeOf? (twofold uncertainty first second).declarations "price" = some 0 := by
  cbv

/-- Where the price has no uncertainty and the first block no prior, only the second block corrects
the price.
-/
theorem twofold_once
    : (twofold none none (some (shares 20))).calibrate (observed [110]) 2
      = .ok ⟨twofold (some (shares (20 / 110 * 100))) none (some (shares 20)),
          [("price", reportOn ⟨110, 20⟩)], [.noPrior "price"]⟩ := by
  have text : (Path.ofRoot "price").text = "price" := by cbv
  let declared := (twofold none none (some (shares 20))).declarations
  have passed : calibrateAt declared (observed [110]) 2 ⟨declared, [], []⟩ 1 (correction none)
      = .ok ⟨declared, [], [.noPrior "price"]⟩ := by
    simp only [calibrateAt, correction, text, observed, List.map_cons, List.map_nil,
      List.lookup_cons, beq_self_eq_true, Option.map_some, twofold_found, declared]
    rfl
  exact twofold_calibrate passed
    (calibrateAt_price declared ⟨declared, [], [.noPrior "price"]⟩ 2 (some (shares 20)) none
      (by norm_num) (twofold_found none none (some (shares 20))) rfl rfl)

/-- Once more, the first block has a posterior to start from. The second one corrects it after that.
-/
theorem twofold_twice
    : let posterior := shares (20 / 110 * 100)
      (twofold (some posterior) none (some (shares 20))).calibrate (observed [110]) 2
      = .ok ⟨twofold (some posterior) (some posterior) (some (shares 20)),
          [("price", reportOn ⟨110, 20⟩)], []⟩ := by
  intro posterior
  let declared := (twofold (some posterior) none (some (shares 20))).declarations
  let corrected := (twofold (some (shares (20 / 110 * 100 / 110 * 100))) (some posterior)
    (some (shares 20))).declarations
  have found := twofold_found (some posterior) none (some (shares 20))
  exact twofold_calibrate
    (calibrateAt_price declared ⟨declared, [], []⟩ 1 none (some posterior) (by norm_num) found rfl
      rfl)
    (calibrateAt_price declared ⟨corrected, [("price", reportOn ⟨110, 20 / 110 * 100⟩)], []⟩ 2
      (some (shares 20)) _ (by norm_num) found rfl rfl)

/-- The second calibration does more than the first one and reports the same: only the block that
was passed over has a prior now.
-/
theorem twofold_again
    : ∃ calibrated again,
        (twofold none none (some (shares 20))).calibrate (observed [110]) 2 = .ok calibrated
          ∧ calibrated.scenario.calibrate (observed [110]) 2 = .ok again
          ∧ again.scenario.declarations ≠ calibrated.scenario.declarations
          ∧ (∀ target, again.results.lookup target = calibrated.results.lookup target)
          ∧ again.scenario.declarations.map Declaration.withoutPrior
            = calibrated.scenario.declarations.map Declaration.withoutPrior
          ∧ again.scenario.quantities = calibrated.scenario.quantities :=
  ⟨_, _, twofold_once, twofold_twice, by simp [twofold, correction],
    Scenario.calibrate_again twofold_once twofold_twice⟩

end Market

end Prognosis
