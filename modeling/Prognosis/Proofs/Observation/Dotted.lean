import Prognosis.Proofs.Calibration.Locality
import Prognosis.Proofs.Grammar.Scenario
import Prognosis.Proofs.Observation.Alerts

/-! Dotted targets. A check and the declared value of a target go by what stands before the first
dot, whereas observations and the declarations to calibrate are looked up by the whole text, which
no declaration has for its name. So a block on a dotted target is accepted and does nothing.
-/

namespace Prognosis

variable {α : Type}

-----------------------------------------------------------------------------------------
-- Names of declarations have no dots
-----------------------------------------------------------------------------------------

/-- The text of a dotted path is the name of nothing. -/
theorem Path.not_isWord_text {p : Path} (dotted : p.rest ≠ []) : ¬ IsWord p.text := by
  intro word
  obtain ⟨segment, rest, is⟩ := List.exists_cons_of_ne_nil dotted
  refine word.not_mem (c := '.') (by decide) ?_
  rw [Path.text, is, String.intercalate_cons_cons]
  simp

namespace Scenario

variable {s : Scenario α} {p : Path}

/-- No named value is called by the text of a dotted path. -/
theorem WordNames.name_ne_text (names : s.WordNames) (dotted : p.rest ≠ []) {q : Quantity α}
    (member : q ∈ s.quantities)
    : q.name ≠ p.text :=
  fun same => p.not_isWord_text dotted (same ▸ names q member)

theorem WordNames.placeOf?_text (names : s.WordNames) (dotted : p.rest ≠ [])
    : Calibration.placeOf? s.declarations p.text = none := by
  cases found : Calibration.placeOf? s.declarations p.text with
  | none => rfl
  | some place =>
      obtain ⟨q, holds, named, -⟩ := Calibration.placeOf?_some found
      have member : q ∈ s.quantities :=
        List.mem_filterMap.mpr ⟨.quantity q, List.mem_of_getElem? holds, rfl⟩
      exact absurd named (names.name_ne_text dotted member)

end Scenario

-----------------------------------------------------------------------------------------
-- A declaration among others
-----------------------------------------------------------------------------------------

namespace Scenario

/-- A scenario with a declaration between those before it and those behind it. -/
def holding (s : Scenario α) (front : List (Declaration α)) (d : Declaration α)
    (rest : List (Declaration α)) : Scenario α :=
  { s with declarations := front ++ d :: rest }

/-- The scenario without that declaration. -/
def lacking (s : Scenario α) (front rest : List (Declaration α)) : Scenario α :=
  { s with declarations := front ++ rest }

end Scenario

-----------------------------------------------------------------------------------------
-- Calibration
-----------------------------------------------------------------------------------------

namespace Calibration

variable [Scalar α] {observed : Observations α} {window : α} {target : String}
  {front rest : List (Declaration α)} {c : Calibrate α}

omit [Scalar α] in
/-- A target starts as it is declared, without a report. -/
theorem standing?_start (declared : List (Declaration α)) (target : String)
    : Progress.standing? ⟨declared, [], []⟩ declared target
      = ((declared.find? fun d =>
          match d with
          | .quantity q => q.name == target && q.kind != .impact
          | _ => false).bind (·.quantity?)).map (⟨·, none⟩) := by
  rw [List.find?_eq_bind_findIdx?_getElem?]
  unfold Progress.standing? placeOf? Progress.value?
  cases declared.findIdx? _ <;> rfl

omit [Scalar α] in
/-- A block that is no target itself does not change how targets start. -/
theorem standing?_start_skip
    : Progress.standing? ⟨front ++ .calibrate c :: rest, [], []⟩ (front ++ .calibrate c :: rest)
        target
      = Progress.standing? ⟨front ++ rest, [], []⟩ (front ++ rest) target := by
  simp only [standing?_start, List.find?_append, List.find?_cons]

/-- A block on another target does not move a target. -/
theorem course_skip (other : c.target.text ≠ target) (standing : Standing α)
    : (front ++ .calibrate c :: rest).foldlM (Standing.through observed window target) standing
      = (front ++ rest).foldlM (Standing.through observed window target) standing := by
  simp only [List.foldlM_append, List.foldlM_cons, Standing.through, if_neg other]
  rfl

variable {s t : Scenario α} {made others : Calibrated α}

/-- There is no report on a target that is not declared. -/
theorem lookup_eq_none_of_missing (done : s.calibrate observed window = .ok made)
    (missing : placeOf? s.declarations target = none)
    : made.results.lookup target = none := by
  by_contra reported
  obtain ⟨r, reported⟩ := Option.ne_none_iff_exists'.mp reported
  obtain ⟨⟨place, found⟩, -⟩ := declared_of_reported done target r reported
  cases missing.symm.trans found

/-- Calibrations in which all targets start alike and go through the same course end alike. -/
theorem calibrate_congr
    (start
      : ∀ target, Progress.standing? ⟨s.declarations, [], []⟩ s.declarations target
          = Progress.standing? ⟨t.declarations, [], []⟩ t.declarations target)
    (course
      : ∀ target standing,
          Progress.standing? ⟨s.declarations, [], []⟩ s.declarations target = some standing
            → s.declarations.foldlM (Standing.through observed window target) standing
              = t.declarations.foldlM (Standing.through observed window target) standing)
    : ((∃ made, s.calibrate observed window = .ok made)
        ↔ ∃ others, t.calibrate observed window = .ok others)
      ∧ ∀ made others, s.calibrate observed window = .ok made
        → t.calibrate observed window = .ok others
        → ∀ target, made.results.lookup target = others.results.lookup target := by
  constructor
  · rw [calibrate_returns_iff, calibrate_returns_iff]
    refine forall_congr' fun target => forall_congr' fun standing => ?_
    rw [← start]
    exact forall_congr' fun stands => by rw [course target standing stands]
  · intro made others done doneToo target
    cases found : placeOf? s.declarations target with
    | none =>
        have missing : placeOf? t.declarations target = none := by
          cases foundToo : placeOf? t.declarations target with
          | none => rfl
          | some place =>
              obtain ⟨standing, stands⟩ := (ahead_start t.declarations).exists_standing foundToo
              rw [← start] at stands
              obtain ⟨_, foundHere, -⟩ := Progress.standing?_eq_some.mp stands
              cases found.symm.trans foundHere
        rw [lookup_eq_none_of_missing done found, lookup_eq_none_of_missing doneToo missing]
    | some place =>
        obtain ⟨standing, stands⟩ := (ahead_start s.declarations).exists_standing found
        obtain ⟨moved, goes⟩ := calibrate_returns_iff.mp ⟨_, done⟩ target standing stands
        rw [lookup_of_course done stands goes]
        rw [course target standing stands] at goes
        rw [start] at stands
        exact (lookup_of_course doneToo stands goes).symm

/-- A block on a target that is not declared makes no difference: a calibration ends when it ends
without the block, and with the same reports.
-/
theorem calibrate_skip
    (missing : placeOf? (s.holding front (.calibrate c) rest).declarations c.target.text = none)
    : ((∃ made, (s.holding front (.calibrate c) rest).calibrate observed window = .ok made)
        ↔ ∃ others, (s.lacking front rest).calibrate observed window = .ok others)
      ∧ ∀ made others, (s.holding front (.calibrate c) rest).calibrate observed window = .ok made
        → (s.lacking front rest).calibrate observed window = .ok others
        → ∀ target, made.results.lookup target = others.results.lookup target := by
  refine calibrate_congr (fun target => standing?_start_skip) fun target standing stands => ?_
  refine course_skip ?_ standing
  rintro rfl
  obtain ⟨_, found, -⟩ := Progress.standing?_eq_some.mp stands
  cases missing.symm.trans found

end Calibration

-----------------------------------------------------------------------------------------
-- Observation
-----------------------------------------------------------------------------------------

namespace Scenario

variable [Scalar α] {s : Scenario α} {p : Path} {today : Date} {adapters : List (Adapter α)}
  {timeout : α} {c : Collection α}

/-- Whatever is observed is a target of the scenario. -/
theorem name_mem_of_observed (observes : s.observe today adapters timeout = .ok c) {name : String}
    {series : ObservedSeries α} (found : c.observed.lookup name = some series)
    : name ∈ (DataTarget.ofScenario s).map (·.name) := by
  obtain ⟨pool, notices, -, is⟩ := s.observe_reaches today adapters timeout
  rw [is] at observes
  obtain ⟨made, outcomes, rfl⟩ := exists_of_map_eq_ok observes
  have reports := Collection.reports_of_ofOutcomes outcomes
  exact reports.observed_sublist.subset (List.mem_map_of_mem (Entries.mem_of_lookup found))

omit [Scalar α] in
/-- What is bound is called by the name of a named value. -/
theorem exists_quantity_of_bound {t : DataTarget α} (bound : t ∈ DataTarget.bound s)
    : ∃ q ∈ s.quantities, q.name = t.name := by
  obtain ⟨q, member, is⟩ := List.mem_filterMap.mp bound
  refine ⟨q, member, ?_⟩
  cases q with
  | assumption a =>
      obtain ⟨b, -, is⟩ := Option.bind_eq_some_iff.mp is
      obtain ⟨source, -, rfl⟩ := Option.map_eq_some_iff.mp is
      rfl
  | varying _ | parameter _ | impact _ => cases is

/-- Under the text of a dotted path there are no observations, unless a calibration asks for them.
-/
theorem WordNames.lookup_text (names : s.WordNames) (dotted : p.rest ≠ [])
    (apart : ∀ t ∈ DataTarget.calibrated s, t.name ≠ p.text)
    (observes : s.observe today adapters timeout = .ok c)
    : c.observed.lookup p.text = none := by
  cases found : c.observed.lookup p.text with
  | none => rfl
  | some series =>
      obtain ⟨t, member, named⟩ := List.mem_map.mp (name_mem_of_observed observes found)
      rcases List.mem_append.mp ((DataTarget.ofScenario_sublist s).subset member) with bound | other
      · obtain ⟨q, declared, same⟩ := exists_quantity_of_bound bound
        exact absurd (same.trans named) (names.name_ne_text dotted declared)
      · exact absurd named (apart t other)

end Scenario

-----------------------------------------------------------------------------------------
-- Alerts
-----------------------------------------------------------------------------------------

/-- An alert without the text of its target. -/
def Alert.untargeted (a : Alert α) : Alert α :=
  { a with target := "" }

namespace Watch

variable [Scalar α] {s t : Scenario α} {observed : Observations α} {env : Env α}
  {block other : Path × Watch α} {front rest : List (Path × Watch α)}

/-- A block that raises nothing and says nothing may as well be left out. By induction along the
blocks before it.
-/
theorem alertsOfBlocks_skip (silent : alertsOfBlock s observed env block = .ok ([], []))
    : alertsOfBlocks s observed env (front ++ block :: rest)
      = alertsOfBlocks s observed env (front ++ rest) := by
  induction front with
  | nil =>
      rw [List.nil_append, List.nil_append, alertsOfBlocks_cons, silent]
      cases alertsOfBlocks s observed env rest <;> rfl
  | cons first front ih => rw [List.cons_append, List.cons_append, alertsOfBlocks_cons, ih,
      ← alertsOfBlocks_cons]

/-- Scenarios that differ in their rules alone agree on what blocks come to. -/
theorem alertsOfBlocks_congr (same : t.unwatched = s.unwatched) (blocks : List (Path × Watch α))
    : alertsOfBlocks t observed env blocks = alertsOfBlocks s observed env blocks := by
  induction blocks with
  | nil => rfl
  | cons block rest ih =>
      rw [alertsOfBlocks_cons, alertsOfBlocks_cons, ih]
      unfold alertsOfBlock
      simp only [← assumedValue_unwatched t, ← assumedValue_unwatched s, same]

/-- The alerts that a computation ends with, without the texts of their targets. -/
def untargeted (result : Except Fault (List (Alert α) × List (Notice α)))
    : Except Fault (List (Alert α)) :=
  result.map fun ended => ended.1.map (·.untargeted)

omit [Scalar α] in
theorem untargeted_both (first second : Except Fault (List (Alert α) × List (Notice α)))
    : untargeted (do
        let (found, notices) ← first
        let (others, more) ← second
        return (found ++ others, notices ++ more))
      = (do
        let found ← untargeted first
        let others ← untargeted second
        return found ++ others) := by
  rcases first with _ | ⟨found, notices⟩
  case error => rfl
  case ok =>
    rcases second with _ | ⟨others, more⟩
    case error => rfl
    case ok => exact congrArg Except.ok List.map_append

/-- Rules raise the same alerts under every text. By induction along the rules. -/
theorem untargeted_alertsOfRules (text other : String) (latest : ObservedPoint α) (assumed : α)
    (rules : List (WatchRule α))
    : untargeted (alertsOfRules text latest assumed rules)
      = untargeted (alertsOfRules other latest assumed rules) := by
  have one (rule : WatchRule α)
      : untargeted (alertsOfRule text latest assumed rule)
        = untargeted (alertsOfRule other latest assumed rule) := by
    unfold alertsOfRule
    rcases rule.condition.value (ruleEnv latest.value assumed) with (_ | _) | x
    case error.error | error.fault => rfl
    case ok =>
      dsimp only
      split <;> rfl
  induction rules with
  | nil => rfl
  | cons rule rest ih =>
      rw [alertsOfRules_cons, alertsOfRules_cons, untargeted_both, untargeted_both, one, ih]

/-- A block on the root of a target raises what the block on the target raises, where both have the
same latest observation.
-/
theorem untargeted_alertsOfBlock {p : Path} (w : Watch α)
    (same : latestOf? observed (.ofRoot p.root) = latestOf? observed p)
    : untargeted (alertsOfBlock s observed env (.ofRoot p.root, w))
      = untargeted (alertsOfBlock s observed env (p, w)) := by
  unfold alertsOfBlock
  dsimp only
  rw [same]
  cases latestOf? observed p with
  | none => rfl
  | some latest =>
      change untargeted (assumedValue s env p latest.date.yearFraction >>= _)
        = untargeted (assumedValue s env p latest.date.yearFraction >>= _)
      rcases assumedValue s env p latest.date.yearFraction with _ | _ | assumed
      case error | ok.none => rfl
      case ok.some => exact untargeted_alertsOfRules _ _ latest assumed w.rules

/-- One block may stand for another that raises the same. By induction along the blocks before it.
-/
theorem untargeted_alertsOfBlocks
    (same : untargeted (alertsOfBlock s observed env block)
      = untargeted (alertsOfBlock s observed env other))
    : untargeted (alertsOfBlocks s observed env (front ++ block :: rest))
      = untargeted (alertsOfBlocks s observed env (front ++ other :: rest)) := by
  induction front with
  | nil =>
      rw [List.nil_append, List.nil_append, alertsOfBlocks_cons, alertsOfBlocks_cons,
        untargeted_both, untargeted_both, same]
  | cons first front ih =>
      rw [List.cons_append, List.cons_append, alertsOfBlocks_cons, alertsOfBlocks_cons,
        untargeted_both, untargeted_both, ih]

end Watch

namespace Scenario

variable {s : Scenario α} {w : Watch α} {p : Path} {front rest : List (Declaration α)}

/-- The blocks of a scenario before and behind one that stands for itself. -/
theorem exists_blocks_eq (s : Scenario α) (front rest : List (Declaration α))
    : ∃ before after, Watch.blocks (s.lacking front rest) = before ++ after
        ∧ ∀ (w : Watch α) (p : Path), w.target = some p
          → Watch.blocks (s.holding front (.watch w) rest) = before ++ (p, w) :: after := by
  refine ⟨(front ++ rest).filterMap (·.nestedBlock?) ++ front.filterMap (·.separateBlock?),
    rest.filterMap (·.separateBlock?), ?_, fun w p target => ?_⟩
  · simp [Watch.blocks_eq, lacking]
  · simp [Watch.blocks_eq, holding, Declaration.nestedBlock?, Declaration.separateBlock?, target]

/-- Nothing is left of a block without its rules. -/
theorem unwatched_holding : (s.holding front (.watch w) rest).unwatched
    = (s.lacking front rest).unwatched := by
  simp [unwatched, holding, lacking, Declaration.unwatched?]

theorem ofScenario_holding : DataTarget.ofScenario (s.holding front (.watch w) rest)
    = DataTarget.ofScenario (s.lacking front rest) := by
  have unnamed : (Declaration.watch w).quantity? = none := rfl
  have unasked : DataTarget.ofCalibration? (.watch w) = none := rfl
  simp [DataTarget.ofScenario, DataTarget.bound, DataTarget.calibrated, quantities, holding,
    lacking, unnamed, unasked]

variable [Scalar α] {observed : Observations α}

theorem constants_holding : Watch.constants (s.holding front (.watch w) rest)
    = Watch.constants (s.lacking front rest) := by
  rw [← Watch.constants_unwatched, unwatched_holding, Watch.constants_unwatched]

/-- A block without observations of its target raises nothing. -/
theorem alerts_holding (target : w.target = some p) (unseen : observed.lookup p.text = none)
    : (s.holding front (.watch w) rest).alerts observed
      = (s.lacking front rest).alerts observed := by
  obtain ⟨before, after, without, withBlock⟩ := exists_blocks_eq s front rest
  unfold alerts
  rw [constants_holding, without, withBlock w p target]
  simp only [Watch.alertsOfBlocks_congr unwatched_holding]
  refine bind_congr fun env => Watch.alertsOfBlocks_skip ?_
  simp [Watch.alertsOfBlock, Watch.latestOf?, unseen]

/-- Apart from the text of its target, a block on the root of a target raises what the block on the
target raises, where both have the same latest observation.
-/
theorem untargeted_alerts (target : w.target = some p)
    (same : Watch.latestOf? observed (.ofRoot p.root) = Watch.latestOf? observed p)
    : Watch.untargeted ((s.holding front (.watch { w with target := some (.ofRoot p.root) })
          rest).alerts observed)
      = Watch.untargeted ((s.holding front (.watch w) rest).alerts observed) := by
  obtain ⟨before, after, -, withBlock⟩ := exists_blocks_eq s front rest
  unfold alerts
  rw [constants_holding, constants_holding, withBlock w p target,
    withBlock _ (.ofRoot p.root) rfl]
  cases Watch.constants (s.lacking front rest) with
  | error fault => rfl
  | ok env =>
      simp only [bind, Except.bind, Watch.alertsOfBlocks_congr unwatched_holding]
      exact Watch.untargeted_alertsOfBlocks (Watch.untargeted_alertsOfBlock w same)

-----------------------------------------------------------------------------------------
-- Blocks on dotted targets
-----------------------------------------------------------------------------------------

/-- A block on a dotted target does nothing, where the names of named values are words. A block of
rules asks for the same data as one on the root of its target, and raises the same alerts wherever
both are looked up with the same latest observation; but unless a calibration asks for the dotted
target by its own text, there is no such observation in the data of the scenario, whatever the
adapters deliver, and the alerts are those without the block. A calibration block changes neither
whether the calibration ends nor any report, and there is none on its target. Witness:
`Shares.dotted_blocks_do_nothing`.
-/
theorem dotted_blocks_idle (s : Scenario α) (front rest : List (Declaration α)) {p : Path}
    (dotted : p.rest ≠ [])
    : (∀ w : Watch α, w.target = some p
        → DataTarget.ofScenario (s.holding front (.watch { w with target := some (.ofRoot p.root) })
              rest)
            = DataTarget.ofScenario (s.holding front (.watch w) rest)
          ∧ (∀ observed,
              Watch.latestOf? observed (.ofRoot p.root) = Watch.latestOf? observed p
              → Watch.untargeted ((s.holding front
                    (.watch { w with target := some (.ofRoot p.root) }) rest).alerts observed)
                = Watch.untargeted ((s.holding front (.watch w) rest).alerts observed))
          ∧ ((s.holding front (.watch w) rest).WordNames
            → (∀ t ∈ DataTarget.calibrated (s.holding front (.watch w) rest), t.name ≠ p.text)
            → ∀ today adapters timeout c,
                (s.holding front (.watch w) rest).observe today adapters timeout = .ok c
                → c.observed.lookup p.text = none
                  ∧ (s.holding front (.watch w) rest).alerts c.observed
                    = (s.lacking front rest).alerts c.observed))
      ∧ (∀ c : Calibrate α, c.target = p → (s.holding front (.calibrate c) rest).WordNames
        → ∀ observed window,
            ((∃ made, (s.holding front (.calibrate c) rest).calibrate observed window = .ok made)
              ↔ ∃ others, (s.lacking front rest).calibrate observed window = .ok others)
            ∧ ∀ made, (s.holding front (.calibrate c) rest).calibrate observed window = .ok made
              → made.results.lookup p.text = none
                ∧ ∀ others, (s.lacking front rest).calibrate observed window = .ok others
                  → ∀ target, made.results.lookup target = others.results.lookup target) := by
  constructor
  · intro w target
    refine ⟨ofScenario_holding.trans ofScenario_holding.symm,
      fun observed same => untargeted_alerts target same, ?_⟩
    intro names apart today adapters timeout c observes
    have unseen := names.lookup_text dotted apart observes
    exact ⟨unseen, alerts_holding target unseen⟩
  · rintro c rfl names observed window
    have missing := names.placeOf?_text dotted
    obtain ⟨returns, reports⟩ := Calibration.calibrate_skip missing
    refine ⟨returns, fun made done => ⟨?_, fun others => reports made others done⟩⟩
    exact Calibration.lookup_eq_none_of_missing done missing

end Scenario

namespace Shares

open Prices (place today)

/-- The share of a price. -/
def share : Path :=
  ⟨"price", ["share"]⟩

/-- A price of 100 that is observed. -/
def price : Declaration Int :=
  .quantity (.assumption {
    name := "price"
    value := some (.number 100 place)
    byDate := none
    source := none
    confidence := none
    uncertainty := none
    binding := some ⟨some "feed", none, none, none, none, place⟩
    watch := none
    span := place
  })

/-- A rule that the observed value is less than the assumed one. -/
def rule : WatchRule Int :=
  ⟨.warn, .binary .lt (.name (.ofRoot "actual") place) (.name (.ofRoot "assumed") place) place⟩

/-- The rule on a target. -/
def watch (target : Path) : Watch Int :=
  ⟨some target, [rule], none, place⟩

/-- A calibration of a target by the observations of the price. -/
def calibration (target : Path) : Calibrate Int :=
  ⟨target, some "feed", none, none, none, none, place⟩

/-- A scenario in 2026. -/
def empty : Scenario Int :=
  ⟨"shares", { Metadata.empty with timeframe := some ⟨⟨2026, none, none⟩, ⟨2027, none, none⟩⟩ },
    [], place⟩

/-- The price and the rule on a target. -/
def watched (target : Path) : Scenario Int :=
  empty.holding [price] (.watch (watch target)) []

/-- The price and the calibration of a target. -/
def calibrated (target : Path) : Scenario Int :=
  empty.holding [price] (.calibrate (calibration target)) []

/-- What the feed delivers for a target. -/
def series (target : String) : ObservedSeries Int :=
  ⟨target, [⟨today, 3, "feed", false⟩], "feed", some "feed"⟩

theorem watched_wordNames (target : Path) : (watched target).WordNames :=
  List.forall_mem_singleton.mpr (by decide : IsWord "price")

theorem calibrated_wordNames (target : Path) : (calibrated target).WordNames :=
  List.forall_mem_singleton.mpr (by decide : IsWord "price")

theorem watched_observe
    : (watched share).observe today [Prices.feed] 10
      = .ok ⟨[("price", series "price")], [], []⟩ := by
  cbv

theorem calibrated_calibrate
    : (calibrated share).calibrate [("price.share", series "price.share")] 5
      = .ok ⟨calibrated share, [], [.nothingToCalibrate "price.share"]⟩ := by
  rfl

theorem dotted_blocks_do_nothing
    : (watched share).alerts [("price", series "price")]
        = (empty.lacking [price] []).alerts [("price", series "price")]
      ∧ ∃ others,
          (empty.lacking [price] []).calibrate [("price.share", series "price.share")] 5
            = .ok others
          ∧ others.results.lookup "price" = none := by
  obtain ⟨watches, calibrates⟩ :=
    Scenario.dotted_blocks_idle (p := share) empty [price] [] (by decide)
  obtain ⟨-, -, idle⟩ := watches (watch share) rfl
  obtain ⟨returns, reports⟩ := calibrates (calibration share) rfl (calibrated_wordNames share)
    [("price.share", series "price.share")] 5
  obtain ⟨others, done⟩ := returns.mp ⟨_, calibrated_calibrate⟩
  refine ⟨(idle (watched_wordNames share) nofun _ _ _ _ watched_observe).2, others, done, ?_⟩
  exact ((reports _ calibrated_calibrate).2 others done "price").symm

/-- The scenario is checked without an error, and its price is observed below what is assumed. On
the price the rule raises an alert, on the share of the price it raises none.
-/
theorem share_raises_nothing
    : (watched share).check.errors = []
      ∧ ∃ c, (watched share).observe today [Prices.feed] 10 = .ok c
        ∧ (watched share).alerts c.observed = .ok ([], [])
        ∧ (watched (.ofRoot "price")).alerts c.observed
          = .ok ([⟨"price", .warn, rule.condition, today, 3, 100⟩], []) :=
  ⟨by cbv, _, watched_observe, by rfl, by rfl⟩

end Shares

end Prognosis
