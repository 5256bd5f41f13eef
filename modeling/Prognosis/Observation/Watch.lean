import Prognosis.Notice
import Prognosis.Observation.Series
import Prognosis.Simulation.Run
import Prognosis.Syntax.Render

/-! Watch rules: the latest observation of a target is compared with what the scenario assumes
for its day, and each rule that holds raises an alert.
-/

namespace Prognosis

variable {α : Type} [Scalar α]

/-- A rule that holds. -/
structure Alert (α : Type) where
  target : String
  severity : AlertSeverity
  condition : Expr α
  date : Date
  actual : α
  assumed : α

namespace Alert

/-- The rule as it is written. -/
def rule (a : Alert α) : String :=
  a.severity.word ++ " when: " ++ a.condition.toText

/-- The alert in words. -/
def message (a : Alert α) : String :=
  a.target ++ ": observed value " ++ Scalar.hundredths a.actual ++ " (" ++ a.date.text
    ++ ") triggered '" ++ a.rule ++ "' against assumed value " ++ Scalar.hundredths a.assumed

/-- View of an alert. -/
def view (a : Alert α) : Json α :=
  .record [
    ("target", .text a.target),
    ("severity", .text a.severity.word),
    ("message", .text a.message),
    ("actual", .number a.actual),
    ("assumed", .number a.assumed),
    ("rule", .text a.rule),
    ("observed_at", .text a.date.text)
  ]

end Alert

namespace Watch

/-- Declared values of constants, where those that cannot be evaluated are left out. -/
def constantsFrom (env : Env α) : List (Quantity α) → Except Fault (Env α)
  | [] => .ok env
  | q :: rest =>
      let value :=
        match q with
        | .assumption a => a.value
        | .parameter p => p.value
        | _ => none
      match value with
      | none => constantsFrom env rest
      | some e =>
          match e.magnitude env with
          | .ok x => constantsFrom ((q.name, x) :: env) rest
          | .error (.error _) => constantsFrom env rest
          | .error (.fault fault) => .error fault

/-- Declared values of the constants of a scenario. -/
def constants (s : Scenario α) : Except Fault (Env α) :=
  constantsFrom [] s.quantities

/-- Value of a variable with anchors at a time; none where an anchor cannot be evaluated. -/
def anchoredValue? (env : Env α) (v : Variable α) (time : α) : Except Fault (Option α) :=
  match Expr.magnitudes env (v.anchors.map (·.value)) with
  | .error (.error _) => .ok none
  | .error (.fault fault) => .error fault
  | .ok values => do
      let times ← v.anchors.mapM fun a => a.date.yearFraction
      let points := (times.zip values).map fun (t, x) => (⟨t, x⟩ : Point α)
      let f ← Interpolant.ofAnchors v.method points
      return some (f.value time)

/-- Declared value of a target at a time: that of a constant, or the one between the anchors of
a variable. Other targets have none.
-/
def assumedValue (s : Scenario α) (env : Env α) (target : Path) (time : α)
    : Except Fault (Option α) :=
  match (s.find? target.root).bind (·.quantity?) with
  | some (.assumption a) => .ok (env.lookup a.name)
  | some (.parameter p) => .ok (env.lookup p.name)
  | some (.varying v) => if v.anchors.isEmpty then .ok none else anchoredValue? env v time
  | _ => .ok none

/-- The rules of a scenario with their targets: those inside assumptions first. -/
def blocks (s : Scenario α) : List (Path × Watch α) :=
  let nested := s.quantities.filterMap fun q =>
    match q with
    | .assumption a => a.watch.map fun w => (Path.ofRoot a.name, w)
    | _ => none
  let separate := s.declarations.filterMap fun d =>
    d.watch?.bind fun w => w.target.map fun target => (target, w)
  nested ++ separate

/-- Names that a rule reads. -/
def ruleEnv (actual assumed : α) : Env α :=
  [("actual", actual), ("assumed", assumed)]

/-- Alerts of rules on a target, by its latest observation and its assumed value. -/
def alertsOfRules (target : String) (latest : ObservedPoint α) (assumed : α)
    : List (WatchRule α) → Except Fault (List (Alert α) × List (Notice α))
  | [] => .ok ([], [])
  | rule :: rest => do
      let (alerts, notices) ←
        match rule.condition.value (ruleEnv latest.value assumed) with
        | .error (.fault fault) => .error fault
        | .error (.error e) => .ok ([], [Notice.ruleNotEvaluated target e])
        | .ok x =>
            let alert : Alert α :=
              ⟨target, rule.severity, rule.condition, latest.date, latest.value, assumed⟩
            .ok (if Scalar.isTrue x then [alert] else [], [])
      let (others, more) ← alertsOfRules target latest assumed rest
      return (alerts ++ others, notices ++ more)

/-- Alerts of rules on targets; those without observations or an assumed value are passed over.
-/
def alertsOfBlocks (s : Scenario α) (observed : Observations α) (env : Env α)
    : List (Path × Watch α) → Except Fault (List (Alert α) × List (Notice α))
  | [] => .ok ([], [])
  | (target, watch) :: rest => do
      let (alerts, notices) ←
        match (observed.lookup target.text).bind (·.latest?) with
        | none => .ok ([], [])
        | some latest => do
            match ← assumedValue s env target latest.date.yearFraction with
            | none => .ok ([], [])
            | some assumed => alertsOfRules target.text latest assumed watch.rules
      let (others, more) ← alertsOfBlocks s observed env rest
      return (alerts ++ others, notices ++ more)

end Watch

/-- Alerts of a scenario on observations. -/
def Scenario.alerts (s : Scenario α) (observed : Observations α)
    : Except Fault (List (Alert α) × List (Notice α)) := do
  let env ← Watch.constants s
  Watch.alertsOfBlocks s observed env (Watch.blocks s)

end Prognosis
