import Prognosis.Observation.Watch
import Prognosis.Proofs.Observation.Pool
import Prognosis.Proofs.Steps
import Prognosis.Proofs.Scalar.Exact
import Prognosis.Proofs.Scalar.Rules

/-! Alerts of a scenario. Each rule is looked at for itself: it raises its alert when its target has
a latest observation and a declared value and its condition holds for the two, and neither a rule
that cannot be evaluated nor a rule next to it makes a difference.
-/

namespace Prognosis

variable {α : Type}

-----------------------------------------------------------------------------------------
-- The rules of a scenario
-----------------------------------------------------------------------------------------

/-- The block of rules inside an assumption, with its target. -/
def Declaration.nestedBlock? : Declaration α → Option (Path × Watch α)
  | .quantity (.assumption a) => a.watch.map fun w => (.ofRoot a.name, w)
  | _ => none

/-- The block of rules that stands for itself, with its target. -/
def Declaration.separateBlock? : Declaration α → Option (Path × Watch α)
  | .watch w => w.target.map fun target => (target, w)
  | _ => none

/-- The rules of a block, each with its target. -/
def Watch.rulesOf (block : Path × Watch α) : List (Path × WatchRule α) :=
  block.2.rules.map fun rule => (block.1, rule)

/-- All rules of a scenario in order, those inside assumptions first. -/
def Scenario.rules (s : Scenario α) : List (Path × WatchRule α) :=
  (s.declarations.filterMap (·.nestedBlock?)).flatMap Watch.rulesOf
    ++ (s.declarations.filterMap (·.separateBlock?)).flatMap Watch.rulesOf

namespace Watch

/-- The blocks of a scenario are those inside assumptions, and behind them the others. -/
theorem blocks_eq (s : Scenario α)
    : blocks s = s.declarations.filterMap (·.nestedBlock?)
        ++ s.declarations.filterMap (·.separateBlock?) := by
  unfold blocks Scenario.quantities
  dsimp only
  rw [List.filterMap_filterMap]
  congr 1
  · refine List.filterMap_congr fun d _ => ?_
    rcases d with (_ | _ | _ | _) | _ | _ | _ | _ | _ <;> rfl
  · refine List.filterMap_congr fun d _ => ?_
    cases d <;> rfl

theorem flatMap_rulesOf_blocks (s : Scenario α) : (blocks s).flatMap rulesOf = s.rules := by
  rw [blocks_eq, List.flatMap_append, Scenario.rules]

variable [Scalar α] {s : Scenario α} {observed : Observations α} {env : Env α}

-----------------------------------------------------------------------------------------
-- Declared values
-----------------------------------------------------------------------------------------

/-- A scenario declares a value for a target at a time, where the values of its constants are
known: the first declaration of the target is a constant, or has anchors between which it lies.
-/
inductive Declares (s : Scenario α) (env : Env α) (target : Path) (time : α) : α → Prop
  | assumed {a x} (found : s.find? target.root = some (.quantity (.assumption a)))
    (known : env.lookup a.name = some x)
    : Declares s env target time x
  | set {p x} (found : s.find? target.root = some (.quantity (.parameter p)))
    (known : env.lookup p.name = some x)
    : Declares s env target time x
  | between {v values times curve}
    (found : s.find? target.root = some (.quantity (.varying v))) (anchored : v.anchors ≠ [])
    (values_eq : Expr.magnitudes env (v.anchors.map (·.value)) = .ok values)
    (times_eq : v.anchors.mapM (·.date.yearFraction) = .ok times)
    (through : Interpolant.ofAnchors v.method
      ((times.zip values).map fun (t, x) => (⟨t, x⟩ : Point α)) = .ok curve)
    : Declares s env target time (curve.value time)

theorem anchoredValue?_eq_some {v : Variable α} {time x : α}
    : anchoredValue? env v time = .ok (some x)
      ↔ ∃ values times curve,
          Expr.magnitudes env (v.anchors.map (·.value)) = .ok values
            ∧ v.anchors.mapM (·.date.yearFraction) = .ok times
            ∧ Interpolant.ofAnchors v.method
                ((times.zip values).map fun (t, x) => (⟨t, x⟩ : Point α)) = .ok curve
            ∧ curve.value time = x := by
  unfold anchoredValue?
  cases Expr.magnitudes env (v.anchors.map (·.value)) with
  | error halt => cases halt <;> simp
  | ok values => simp [bind_eq_ok, pure, Except.pure]

/-- The value that is found for a target is the one that is declared. -/
theorem assumedValue_eq_some {target : Path} {time x : α}
    : assumedValue s env target time = .ok (some x) ↔ Declares s env target time x := by
  constructor
  · intro is
    unfold assumedValue at is
    rcases found : s.find? target.root with _ | ((a | v | p | i) | _ | _ | _ | _ | _) <;>
      simp only [found, Option.bind_none, Option.bind_some, Declaration.quantity?] at is
    case some.quantity.assumption => exact .assumed found (Except.ok.inj is)
    case some.quantity.parameter => exact .set found (Except.ok.inj is)
    case some.quantity.varying =>
      split at is
      case isTrue => cases is
      case isFalse anchored =>
        obtain ⟨values, times, curve, values_eq, times_eq, through, rfl⟩ :=
          anchoredValue?_eq_some.mp is
        exact .between found (by simpa using anchored) values_eq times_eq through
    all_goals cases is
  · intro declares
    unfold assumedValue
    cases declares with
    | assumed found known | set found known =>
        simp [found, Declaration.quantity?, known]
    | between found anchored values_eq times_eq through =>
        have nonempty := mt List.isEmpty_iff.mp anchored
        simp only [found, Option.bind_some, Declaration.quantity?, if_neg nonempty]
        exact anchoredValue?_eq_some.mpr ⟨_, _, _, values_eq, times_eq, through, rfl⟩

-----------------------------------------------------------------------------------------
-- The alert of one rule
-----------------------------------------------------------------------------------------

/-- A rule raises an alert: its target has a latest observation and a declared value, and its
condition has a value for the two that is undefined or not equal to zero.
-/
inductive Raises (s : Scenario α) (observed : Observations α) (env : Env α)
    : Path × WatchRule α → Alert α → Prop
  | satisfied {target rule series latest assumed x}
    (seen : observed.lookup target.text = some series) (last : series.latest? = some latest)
    (declared : Declares s env target latest.date.yearFraction assumed)
    (value : rule.condition.value [("actual", latest.value), ("assumed", assumed)] = .ok x)
    (holds : Scalar.isUndefined x = true ∨ Scalar.eq x Scalar.zero = false)
    : Raises s observed env (target, rule)
        ⟨target.text, rule.severity, rule.condition, latest.date, latest.value, assumed⟩

theorem isTrue_iff [Scalar.EqualityRules α] {x : α}
    : Scalar.isTrue x = true ↔ Scalar.isUndefined x = true ∨ Scalar.eq x Scalar.zero = false := by
  rw [Scalar.isTrue, Bool.not_eq_true']
  exact ⟨Or.inr, Or.rec (fun undefined => Scalar.EqualityRules.undefined (Or.inl undefined)) id⟩

/-- The alert of a rule on a target with these values, if its condition holds. -/
def alertOn? (target : String) (latest : ObservedPoint α) (assumed : α) (rule : WatchRule α)
    : Option (Alert α) :=
  match rule.condition.value (ruleEnv latest.value assumed) with
  | .ok x =>
      if Scalar.isTrue x then
        some ⟨target, rule.severity, rule.condition, latest.date, latest.value, assumed⟩
      else none
  | .error _ => none

/-- The latest observation of a target. -/
def latestOf? (observed : Observations α) (target : Path) : Option (ObservedPoint α) :=
  (observed.lookup target.text).bind (·.latest?)

/-- The alert of a rule, if it raises one. -/
def alert? (s : Scenario α) (observed : Observations α) (env : Env α) (site : Path × WatchRule α)
    : Option (Alert α) :=
  (latestOf? observed site.1).bind fun latest =>
    match assumedValue s env site.1 latest.date.yearFraction with
    | .ok (some assumed) => alertOn? site.1.text latest assumed site.2
    | _ => none

theorem alertOn?_eq_some {target : String} {latest : ObservedPoint α} {assumed : α}
    {rule : WatchRule α} {alert : Alert α}
    : alertOn? target latest assumed rule = some alert
      ↔ ∃ x, rule.condition.value (ruleEnv latest.value assumed) = .ok x
          ∧ Scalar.isTrue x = true
          ∧ ⟨target, rule.severity, rule.condition, latest.date, latest.value, assumed⟩
            = alert := by
  unfold alertOn?
  cases rule.condition.value (ruleEnv latest.value assumed) <;> simp

theorem alert?_eq_some [Scalar.EqualityRules α] {site : Path × WatchRule α} {alert : Alert α}
    : alert? s observed env site = some alert ↔ Raises s observed env site alert := by
  obtain ⟨target, rule⟩ := site
  constructor
  · intro is
    obtain ⟨latest, found, rest⟩ := Option.bind_eq_some_iff.mp is
    obtain ⟨series, seen, last⟩ := Option.bind_eq_some_iff.mp found
    dsimp only at rest
    split at rest
    case h_1 assumed declared =>
      obtain ⟨x, value, holds, rfl⟩ := alertOn?_eq_some.mp rest
      exact .satisfied seen last (assumedValue_eq_some.mp declared) value (isTrue_iff.mp holds)
    case h_2 => cases rest
  · rintro ⟨seen, last, declared, value, holds⟩
    refine Option.bind_eq_some_iff.mpr
      ⟨_, Option.bind_eq_some_iff.mpr ⟨_, seen, last⟩, ?_⟩
    dsimp only
    rw [assumedValue_eq_some.mpr declared]
    exact alertOn?_eq_some.mpr ⟨_, value, isTrue_iff.mpr holds, rfl⟩

-----------------------------------------------------------------------------------------
-- The alerts of all rules
-----------------------------------------------------------------------------------------

/-- The condition of a rule does not break down with numbers: it has a value, or it is at fault
itself.
-/
def Withstands (latest : ObservedPoint α) (assumed : α) (rule : WatchRule α) : Prop :=
  ∀ fault, rule.condition.value (ruleEnv latest.value assumed) ≠ .error (.fault fault)

/-- No computation that a block asks for breaks down with numbers. -/
def Settles (s : Scenario α) (observed : Observations α) (env : Env α) (block : Path × Watch α)
    : Prop :=
  ∀ latest, latestOf? observed block.1 = some latest
    → ∃ declared?, assumedValue s env block.1 latest.date.yearFraction = .ok declared?
      ∧ ∀ assumed ∈ declared?, ∀ rule ∈ block.2.rules, Withstands latest assumed rule

omit [Scalar α] in
/-- A computation ends with these alerts. -/
def EndsWith (result : Except Fault (List (Alert α) × List (Notice α))) (alerts : List (Alert α))
    : Prop :=
  ∃ notices, result = .ok (alerts, notices)

omit [Scalar α] in
theorem endsWith_ok {alerts found : List (Alert α)} {notices : List (Notice α)}
    : EndsWith (.ok (found, notices)) alerts ↔ alerts = found := by
  simp [EndsWith, eq_comm]

omit [Scalar α] in
theorem not_endsWith_error {fault : Fault} {alerts : List (Alert α)}
    : ¬ EndsWith (.error fault) alerts := by
  simp [EndsWith]

omit [Scalar α] in
/-- Of two computations in a row both have to end, with the alerts of the first and then those of
the second.
-/
theorem endsWith_both {first second : Except Fault (List (Alert α) × List (Notice α))}
    {p q : Prop} {found others alerts : List (Alert α)}
    (one : ∀ alerts, EndsWith first alerts ↔ p ∧ alerts = found)
    (two : ∀ alerts, EndsWith second alerts ↔ q ∧ alerts = others)
    : EndsWith (do
        let (found, notices) ← first
        let (others, more) ← second
        return (found ++ others, notices ++ more)) alerts
      ↔ (p ∧ q) ∧ alerts = found ++ others := by
  constructor
  · rintro ⟨_, ran⟩
    obtain ⟨⟨_, notices⟩, firstly, ran⟩ := bind_eq_ok.mp ran
    obtain ⟨⟨_, more⟩, secondly, ran⟩ := bind_eq_ok.mp ran
    obtain ⟨rfl, -⟩ := Prod.mk.inj (Except.ok.inj ran)
    obtain ⟨holds, rfl⟩ := (one _).mp ⟨notices, firstly⟩
    obtain ⟨holdsToo, rfl⟩ := (two _).mp ⟨more, secondly⟩
    exact ⟨⟨holds, holdsToo⟩, rfl⟩
  · rintro ⟨⟨holds, holdsToo⟩, rfl⟩
    obtain ⟨notices, rfl⟩ := (one _).mpr ⟨holds, rfl⟩
    obtain ⟨more, rfl⟩ := (two _).mpr ⟨holdsToo, rfl⟩
    exact ⟨notices ++ more, rfl⟩

/-- What one rule comes to. -/
def alertsOfRule (target : String) (latest : ObservedPoint α) (assumed : α) (rule : WatchRule α)
    : Except Fault (List (Alert α) × List (Notice α)) :=
  match rule.condition.value (ruleEnv latest.value assumed) with
  | .error (.fault fault) => .error fault
  | .error (.error e) => .ok ([], [.ruleNotEvaluated target e])
  | .ok x =>
      .ok (if Scalar.isTrue x then
        [⟨target, rule.severity, rule.condition, latest.date, latest.value, assumed⟩] else [], [])

theorem alertsOfRules_cons (target : String) (latest : ObservedPoint α) (assumed : α)
    (rule : WatchRule α) (rest : List (WatchRule α))
    : alertsOfRules target latest assumed (rule :: rest) = (do
        let (found, notices) ← alertsOfRule target latest assumed rule
        let (others, more) ← alertsOfRules target latest assumed rest
        return (found ++ others, notices ++ more)) := by
  rw [alertsOfRules, alertsOfRule]
  rcases rule.condition.value (ruleEnv latest.value assumed) with (_ | _) | _ <;> rfl

/-- A rule raises its alert unless a computation with numbers breaks down. -/
theorem alertsOfRule_endsWith {target : String} {latest : ObservedPoint α} {assumed : α}
    {rule : WatchRule α} {alerts : List (Alert α)}
    : EndsWith (alertsOfRule target latest assumed rule) alerts
      ↔ Withstands latest assumed rule
        ∧ alerts = (alertOn? target latest assumed rule).toList := by
  unfold alertsOfRule alertOn? Withstands
  rcases rule.condition.value (ruleEnv latest.value assumed) with (e | fault) | x
  case error.error => simp [endsWith_ok]
  case error.fault => simp [not_endsWith_error]
  case ok => by_cases nonzero : Scalar.isTrue x = true <;> simp [endsWith_ok, nonzero]

/-- The rules of a block raise their alerts one by one. By induction along the rules. -/
theorem alertsOfRules_endsWith {target : String} {latest : ObservedPoint α} {assumed : α}
    {rules : List (WatchRule α)} {alerts : List (Alert α)}
    : EndsWith (alertsOfRules target latest assumed rules) alerts
      ↔ (∀ rule ∈ rules, Withstands latest assumed rule)
        ∧ alerts = rules.filterMap (alertOn? target latest assumed) := by
  induction rules generalizing alerts with
  | nil => simp [alertsOfRules, endsWith_ok]
  | cons rule rest ih =>
      rw [alertsOfRules_cons, List.forall_mem_cons, List.filterMap_eq_flatMap_toList,
        List.flatMap_cons, ← List.filterMap_eq_flatMap_toList]
      exact endsWith_both (fun _ => alertsOfRule_endsWith) fun _ => ih

/-- What one block comes to. -/
def alertsOfBlock (s : Scenario α) (observed : Observations α) (env : Env α)
    (block : Path × Watch α) : Except Fault (List (Alert α) × List (Notice α)) :=
  match latestOf? observed block.1 with
  | none => .ok ([], [])
  | some latest => do
      match ← assumedValue s env block.1 latest.date.yearFraction with
      | none => .ok ([], [])
      | some assumed => alertsOfRules block.1.text latest assumed block.2.rules

theorem alertsOfBlocks_cons (s : Scenario α) (observed : Observations α) (env : Env α)
    (block : Path × Watch α) (rest : List (Path × Watch α))
    : alertsOfBlocks s observed env (block :: rest) = (do
        let (found, notices) ← alertsOfBlock s observed env block
        let (others, more) ← alertsOfBlocks s observed env rest
        return (found ++ others, notices ++ more)) := by
  rw [alertsOfBlocks, alertsOfBlock, latestOf?]
  rcases (observed.lookup block.1.text).bind (·.latest?) with _ | latest
  case none => rfl
  case some =>
    dsimp only
    rcases assumedValue s env block.1 latest.date.yearFraction with _ | _ | _ <;> rfl

/-- A block that settles raises the alerts of its rules. -/
theorem alertsOfBlock_endsWith {block : Path × Watch α} {alerts : List (Alert α)}
    : EndsWith (alertsOfBlock s observed env block) alerts
      ↔ Settles s observed env block
        ∧ alerts = (rulesOf block).filterMap (alert? s observed env) := by
  unfold alertsOfBlock Settles rulesOf alert?
  rw [List.filterMap_map]
  cases seen : latestOf? observed block.1 with
  | none => simp [seen, endsWith_ok]
  | some latest =>
      rcases declared : assumedValue s env block.1 latest.date.yearFraction with fault | _ | assumed
      case error => simp [declared, not_endsWith_error, bind, Except.bind]
      case ok.none => simp [seen, declared, endsWith_ok, bind, Except.bind]
      case ok.some =>
        simp [seen, declared, alertsOfRules_endsWith, bind, Except.bind]

/-- The blocks of a scenario raise the alerts of their rules one by one. By induction along the
blocks.
-/
theorem alertsOfBlocks_endsWith {blocks : List (Path × Watch α)} {alerts : List (Alert α)}
    : EndsWith (alertsOfBlocks s observed env blocks) alerts
      ↔ (∀ block ∈ blocks, Settles s observed env block)
        ∧ alerts = (blocks.flatMap rulesOf).filterMap (alert? s observed env) := by
  induction blocks generalizing alerts with
  | nil => simp [alertsOfBlocks, endsWith_ok]
  | cons block rest ih =>
      rw [alertsOfBlocks_cons, List.forall_mem_cons, List.flatMap_cons, List.filterMap_append]
      exact endsWith_both (fun _ => alertsOfBlock_endsWith) fun _ => ih

-----------------------------------------------------------------------------------------
-- What rules do not change
-----------------------------------------------------------------------------------------

end Watch

/-- A named value without the rules inside it. -/
def Quantity.unwatched : Quantity α → Quantity α
  | .assumption a => .assumption { a with watch := none }
  | q => q

/-- A declaration without rules, if it is more than rules. -/
def Declaration.unwatched? : Declaration α → Option (Declaration α)
  | .quantity q => some (.quantity q.unwatched)
  | .watch _ => none
  | d => some d

/-- A scenario without rules. -/
def Scenario.unwatched (s : Scenario α) : Scenario α :=
  { s with declarations := s.declarations.filterMap (·.unwatched?) }

@[simp]
theorem Quantity.name_unwatched (q : Quantity α) : q.unwatched.name = q.name := by
  cases q <;> rfl

theorem Scenario.quantities_unwatched (s : Scenario α)
    : s.unwatched.quantities = s.quantities.map (·.unwatched) := by
  simp only [quantities, unwatched, List.filterMap_filterMap, List.map_filterMap]
  refine List.filterMap_congr fun d _ => ?_
  cases d <;> rfl

theorem Scenario.find?_unwatched (s : Scenario α) (name : String)
    : s.unwatched.find? name = (s.find? name).bind (·.unwatched?) := by
  simp only [find?, unwatched, List.find?_filterMap]
  congr 2
  funext d
  cases d <;> simp [Declaration.unwatched?, Declaration.name?]

namespace Watch

variable [Scalar α] {s t : Scenario α} {observed : Observations α} {env : Env α}

theorem constantsFrom_unwatched (env : Env α) (quantities : List (Quantity α))
    : constantsFrom env (quantities.map (·.unwatched)) = constantsFrom env quantities := by
  induction quantities generalizing env with
  | nil => rfl
  | cons q rest ih =>
      rw [List.map_cons]
      unfold constantsFrom
      simp only [ih]
      cases q <;> rfl

theorem constants_unwatched (s : Scenario α) : constants s.unwatched = constants s := by
  rw [constants, s.quantities_unwatched, constantsFrom_unwatched, constants]

theorem assumedValue_unwatched (s : Scenario α) (env : Env α) (target : Path) (time : α)
    : assumedValue s.unwatched env target time = assumedValue s env target time := by
  rw [assumedValue, assumedValue, s.find?_unwatched]
  rcases s.find? target.root with _ | ((a | v | p | i) | _ | _ | _ | _ | _) <;> rfl

/-- Scenarios that differ in their rules alone agree on the alert of every rule. -/
theorem alert?_congr (same : t.unwatched = s.unwatched) (site : Path × WatchRule α)
    : alert? t observed env site = alert? s observed env site := by
  unfold alert?
  simp only [← assumedValue_unwatched t, ← assumedValue_unwatched s, same]

end Watch

/-- The alerts of a scenario are those of its rules, and it has them when each of its blocks
settles.
-/
theorem Scenario.alerts_endsWith [Scalar α] {s : Scenario α} {observed : Observations α}
    {alerts : List (Alert α)}
    : Watch.EndsWith (s.alerts observed) alerts
      ↔ ∃ env, Watch.constants s = .ok env
          ∧ (∀ block ∈ Watch.blocks s, Watch.Settles s observed env block)
          ∧ alerts = s.rules.filterMap (Watch.alert? s observed env) := by
  rw [← Watch.flatMap_rulesOf_blocks, Scenario.alerts]
  cases Watch.constants s with
  | error fault => simp [Watch.not_endsWith_error, bind, Except.bind]
  | ok env => simp [Watch.alertsOfBlocks_endsWith, bind, Except.bind]

-----------------------------------------------------------------------------------------
-- Alerts are the rules that hold
-----------------------------------------------------------------------------------------

/-- Where the alerts of a scenario are returned, they are one for each rule that raises one, in the
order of the rules. What a rule raises is found for itself alone: whatever rules are added to the
scenario or removed from it, all others raise the same alerts as before. And the alerts are returned
unless a computation with numbers breaks down, so a rule that is at fault itself takes nothing from
the others. Witness: `Lookout.alerts_raised`.
-/
theorem alerts_eq_filterMap_raised [Scalar α] [Scalar.EqualityRules α] (s : Scenario α)
    (observed : Observations α)
    : (∀ alerts notices, s.alerts observed = .ok (alerts, notices)
        → ∃ env alert?, Watch.constants s = .ok env
          ∧ (∀ site alert, alert? site = some alert ↔ Watch.Raises s observed env site alert)
          ∧ alerts = s.rules.filterMap alert?
          ∧ ∀ t : Scenario α, t.unwatched = s.unwatched
            → ∀ others more, t.alerts observed = .ok (others, more)
              → others = t.rules.filterMap alert?)
      ∧ ((∃ alerts notices, s.alerts observed = .ok (alerts, notices))
        ↔ ∃ env, Watch.constants s = .ok env
          ∧ ∀ block ∈ Watch.blocks s, Watch.Settles s observed env block) := by
  constructor
  · intro alerts notices returned
    obtain ⟨env, constants, -, are⟩ := s.alerts_endsWith.mp ⟨notices, returned⟩
    refine ⟨env, Watch.alert? s observed env, constants, fun _ _ => Watch.alert?_eq_some, are, ?_⟩
    intro t same others more returnedToo
    obtain ⟨_, constantsToo, -, areToo⟩ := t.alerts_endsWith.mp ⟨more, returnedToo⟩
    rw [← Watch.constants_unwatched, same, Watch.constants_unwatched, constants] at constantsToo
    cases constantsToo
    rw [areToo, funext (Watch.alert?_congr same)]
  · constructor
    · rintro ⟨alerts, notices, returned⟩
      obtain ⟨env, constants, settle, -⟩ := s.alerts_endsWith.mp ⟨notices, returned⟩
      exact ⟨env, constants, settle⟩
    · rintro ⟨env, constants, settle⟩
      exact ⟨_, s.alerts_endsWith.mpr ⟨env, constants, settle, rfl⟩⟩

namespace Lookout

open Prices (place today)

instance : Scalar.EqualityRules Extended where
  undefined {x y} either := by
    cases x <;> cases y <;> simp_all [Scalar.isUndefined, Scalar.eq, Extended.same]

/-- A comparison of the observed and the assumed value. -/
def compared (op : BinaryOp) : Expr Extended :=
  .binary op (.name (.ofRoot "actual") place) (.name (.ofRoot "assumed") place) place

/-- A number that is too large. -/
def large : Expr Extended :=
  .number (.infinite false) place

/-- Rules inside the price: the second one reads a name that it does not know. -/
def rules : List (WatchRule Extended) :=
  [⟨.warn, compared .lt⟩, ⟨.error, .name (.ofRoot "lowest") place⟩, ⟨.error, compared .gt⟩]

/-- A rule whose condition is undefined. -/
def undefinedRule : WatchRule Extended :=
  ⟨.error, .binary .sub large large place⟩

/-- A price with rules inside and a block behind it, and a block without observations. -/
def scenario : Scenario Extended :=
  ⟨"harvest", .empty, [
    .watch ⟨some (.ofRoot "price"), [undefinedRule], none, place⟩,
    .watch ⟨some (.ofRoot "share"), rules, none, place⟩,
    .quantity (.assumption {
      name := "price"
      value := some (.number (.whole 100) place)
      byDate := none
      source := none
      confidence := none
      uncertainty := none
      binding := none
      watch := some ⟨none, rules, none, place⟩
      span := place
    })], place⟩

/-- The price is lower than it is assumed. -/
def observed : Observations Extended :=
  [("price", ⟨"price", [⟨today, .whole 80, "feed", false⟩], "feed", none⟩)]

/-- What a rule raises on the price. -/
def alert (rule : WatchRule Extended) : Alert Extended :=
  ⟨"price", rule.severity, rule.condition, today, .whole 80, .whole 100⟩

theorem alerts_eq
    : scenario.alerts observed
      = .ok ([alert ⟨.warn, compared .lt⟩, alert undefinedRule],
        [.ruleNotEvaluated "price" (.unknownName (.ofRoot "lowest"))]) := by
  rfl

theorem alerts_raised
    : ∃ env alert?, Watch.constants scenario = .ok env
        ∧ (∀ site alert, alert? site = some alert ↔ Watch.Raises scenario observed env site alert)
        ∧ [alert ⟨.warn, compared .lt⟩, alert undefinedRule] = scenario.rules.filterMap alert? := by
  obtain ⟨env, alert?, constants, raised, are, -⟩ :=
    (alerts_eq_filterMap_raised scenario observed).1 _ _ alerts_eq
  exact ⟨env, alert?, constants, raised, are⟩

end Lookout

end Prognosis
