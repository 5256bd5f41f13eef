import Prognosis.Json
import Prognosis.Syntax.Declaration

/-! Scenarios as structured values: every node is a record that names its type, and fields
without a value are left out.
-/

namespace Prognosis

open Json

variable {α : Type}

/-- A node of the given type with the fields that have a value. -/
def Json.node (type : String) (fields : List (String × Option (Json α))) : Json α :=
  .present (("type", some (.text type)) :: fields)

/-- A list, left out when it is empty. -/
def Json.filled? (values : List (Json α)) : Option (Json α) :=
  if values.isEmpty then none else some (.list values)

/-- View of a place. -/
def Span.view (s : Span) : Json α :=
  .node "Span" [
    ("line", some (.whole s.line)),
    ("column", some (.whole s.column))
  ]

/-- View of a date. -/
def PartialDate.view (d : PartialDate) : Json α :=
  .node "DateValue" [
    ("year", some (.whole d.year)),
    ("month", d.month.map .whole),
    ("day", d.day.map .whole)
  ]

/-- View of a timeframe. -/
def Timeframe.view (t : Timeframe) : Json α :=
  .node "Timeframe" [
    ("start", some t.start.view),
    ("end", some t.finish.view)
  ]

/-- View of a duration. -/
def Duration.view (d : Duration α) : Json α :=
  .node "Duration" [
    ("amount", some (.number d.amount)),
    ("unit", some (.text d.unit.letter.toString))
  ]

mutual

/-- View of an expression. -/
def Expr.view : Expr α → Json α
  | .number value span =>
      .node "NumberLiteral" [("value", some (.number value)), ("span", span.map Span.view)]
  | .percentage value span =>
      .node "PercentageLiteral" [("value", some (.number value)), ("span", span.map Span.view)]
  | .currency value unit magnitude span =>
      .node "CurrencyLiteral" [
        ("value", some (.number value)),
        ("currency", some (.text unit.code)),
        ("magnitude", magnitude.map fun m => .text m.letter.toString),
        ("span", span.map Span.view)
      ]
  | .text value span =>
      .node "StringLiteral" [("value", some (.text value)), ("span", span.map Span.view)]
  | .boolean value span =>
      .node "BooleanLiteral" [("value", some (.flag value)), ("span", span.map Span.view)]
  | .name path span =>
      .node "Identifier" [("name", some (.text path.text)), ("span", span.map Span.view)]
  | .binary op left right span =>
      .node "BinaryExpression" [
        ("operator", some (.text op.text)),
        ("left", some left.view),
        ("right", some right.view),
        ("span", span.map Span.view)
      ]
  | .unary op operand span =>
      .node "UnaryExpression" [
        ("operator", some (.text op.text)),
        ("operand", some operand.view),
        ("span", span.map Span.view)
      ]
  | .call function positional named span =>
      .node "FunctionCall" [
        ("name", some (.text function)),
        ("args", filled? (Expr.viewAll positional)),
        ("named_args", filled? (Expr.viewNamed named)),
        ("span", span.map Span.view)
      ]
termination_by structural e => e

/-- Views of a list of expressions. -/
def Expr.viewAll : List (Expr α) → List (Json α)
  | [] => []
  | e :: rest => e.view :: Expr.viewAll rest
termination_by structural es => es

/-- Views of named expressions, each a pair of name and expression. -/
def Expr.viewNamed : List (String × Expr α) → List (Json α)
  | [] => []
  | entry :: rest => Expr.viewEntry entry :: Expr.viewNamed rest
termination_by structural es => es

/-- View of a named expression. -/
def Expr.viewEntry : String × Expr α → Json α
  | (key, e) => .list [.text key, e.view]
termination_by structural e => e

end

/-- View of a distribution. -/
def Distribution.view (d : Distribution α) : Json α :=
  .node "DistributionExpression" [
    ("kind", some (.text d.kind.name)),
    ("params", filled? (Expr.viewAll d.positional)),
    ("named_params", filled? (Expr.viewNamed d.named)),
    ("span", some d.span.view)
  ]

/-- View of a model. -/
def Model.view (m : Model α) : Json α :=
  .node "ModelExpression" [
    ("kind", some (.text m.kind.name)),
    ("params", filled? (Expr.viewNamed m.parameters)),
    ("span", some m.span.view)
  ]

/-- View of an anchor. -/
def Anchor.view (a : Anchor α) : Json α :=
  .node "TimeseriesEntry" [
    ("date", some a.date.view),
    ("value", some a.value.view)
  ]

/-- View of a binding to a source. -/
def Binding.view (b : Binding α) : Json α :=
  .node "Bind" [
    ("source", b.source.map .text),
    ("refresh", b.refresh.map fun r => .text r.word),
    ("field", b.field.map .text),
    ("transform", b.transform.map Expr.view),
    ("fallback", b.fallback.map Expr.view),
    ("span", some b.span.view)
  ]

/-- View of a rule. -/
def WatchRule.view (r : WatchRule α) : Json α :=
  .node "WatchRule" [
    ("severity", some (.text r.severity.word)),
    ("condition", some r.condition.view)
  ]

/-- View of what a satisfied rule starts. -/
def Trigger.view (t : Trigger) : Json α :=
  .node "OnTrigger" [
    ("recalculate", t.recalculate.map .flag),
    ("notify", filled? (t.notify.map .text)),
    ("suggest", t.suggest.map .text)
  ]

/-- View of watched rules. -/
def Watch.view (w : Watch α) : Json α :=
  .node "Watch" [
    ("target", w.target.map fun path => .text path.text),
    ("rules", filled? (w.rules.map WatchRule.view)),
    ("on_trigger", w.onTrigger.map Trigger.view),
    ("span", some w.span.view)
  ]

/-- View of an assumption. -/
def Assumption.view (a : Assumption α) : Json α :=
  .node "Assumption" [
    ("name", some (.text a.name)),
    ("value", a.value.map Expr.view),
    ("by_date", a.byDate.map PartialDate.view),
    ("source", a.source.map .text),
    ("confidence", a.confidence.map .number),
    ("uncertainty", a.uncertainty.map Distribution.view),
    ("bind", a.binding.map Binding.view),
    ("watch", a.watch.map Watch.view),
    ("span", some a.span.view)
  ]

/-- View of a variable. -/
def Variable.view (v : Variable α) : Json α :=
  .node "Variable" [
    ("name", some (.text v.name)),
    ("timeseries", filled? (v.anchors.map Anchor.view)),
    ("depends_on", filled? (v.dependsOn.map fun path => .text path.text)),
    ("model", v.model.map Model.view),
    ("uncertainty", v.uncertainty.map Distribution.view),
    ("interpolation", v.interpolation.map fun i => .text i.word),
    ("description", v.description.map .text),
    ("unit", v.unit.map .text),
    ("label", v.label.map .text),
    ("icon", v.icon.map .text),
    ("color", v.color.map .text),
    ("span", some v.span.view)
  ]

/-- View of a parameter. -/
def Parameter.view (p : Parameter α) : Json α :=
  .node "Parameter" [
    ("name", some (.text p.name)),
    ("value", p.value.map Expr.view),
    ("range", p.range.map fun (low, high) => .list [low.view, high.view]),
    ("uncertainty", p.uncertainty.map Distribution.view),
    ("description", p.description.map .text),
    ("label", p.label.map .text),
    ("unit", p.unit.map .text),
    ("step", p.step.map Expr.view),
    ("source", p.source.map .text),
    ("format", p.format.map .text),
    ("control", p.control.map fun c => .text c.word),
    ("icon", p.icon.map .text),
    ("color", p.color.map .text),
    ("span", some p.span.view)
  ]

/-- View of an impact. -/
def Impact.view (i : Impact α) : Json α :=
  .node "Impact" [
    ("name", some (.text i.name)),
    ("derives_from", filled? (i.derivesFrom.map fun path => .text path.text)),
    ("formula", i.formula.map Expr.view),
    ("description", i.description.map .text),
    ("unit", i.unit.map .text),
    ("label", i.label.map .text),
    ("icon", i.icon.map .text),
    ("color", i.color.map .text),
    ("span", some i.span.view)
  ]

/-- View of a named value. -/
def Quantity.view : Quantity α → Json α
  | .assumption d => d.view
  | .varying d => d.view
  | .parameter d => d.view
  | .impact d => d.view

/-- View of a branch. -/
def Branch.view (b : Branch α) : Json α :=
  .node "Branch" [
    ("name", some (.text b.name)),
    ("condition", some b.condition.view),
    ("probability", b.probability.map .number),
    ("fork", b.fork.map .text),
    ("declarations", filled? (b.overrides.map Quantity.view)),
    ("span", some b.span.view)
  ]

/-- View of simulation settings. -/
def Simulate.view (s : Simulate α) : Json α :=
  .node "Simulate" [
    ("runs", s.runs.map .whole),
    ("method", s.method.map fun m => .text m.word),
    ("seed", s.seed.map .whole),
    ("output", s.output.map fun o => .text o.word),
    ("percentiles", s.percentiles.bind fun ps => filled? (ps.map .number)),
    ("convergence", s.convergence.map .number),
    ("timeout", s.timeout.map Duration.view),
    ("span", some s.span.view)
  ]

/-- View of a calibration. -/
def Calibrate.view (c : Calibrate α) : Json α :=
  .node "Calibrate" [
    ("target", some (.text c.target.text)),
    ("historical", c.historical.map .text),
    ("method", c.method.map fun m => .text m.word),
    ("window", c.window.map Duration.view),
    ("prior", c.prior.map Distribution.view),
    ("update_frequency", c.updateFrequency.map fun r => .text r.word),
    ("span", some c.span.view)
  ]

/-- View of an import. -/
def Import.view (i : Import) : Json α :=
  .node "Import" [
    ("path", some (.text i.path)),
    ("alias", some (.text i.localName)),
    ("span", some i.span.view)
  ]

/-- View of a declaration. -/
def Declaration.view : Declaration α → Json α
  | .quantity d => d.view
  | .branch d => d.view
  | .simulate d => d.view
  | .watch d => d.view
  | .calibrate d => d.view
  | .imported d => d.view

/-- View of metadata. -/
def Metadata.view (m : Metadata α) : Json α :=
  .node "Metadata" [
    ("timeframe", m.timeframe.map Timeframe.view),
    ("resolution", m.resolution.map fun r => .text r.word),
    ("confidence", m.confidence.map .number),
    ("author", m.author.map .text),
    ("version", m.version.map .text),
    ("description", m.description.map .text),
    ("tags", filled? (m.tags.map .text)),
    ("subtitle", m.subtitle.map .text),
    ("category", m.category.map .text),
    ("icon", m.icon.map .text),
    ("color", m.color.map .text),
    ("difficulty", m.difficulty.map .text)
  ]

/-- View of a scenario. -/
def Scenario.view (s : Scenario α) : Json α :=
  .node "Scenario" [
    ("name", some (.text s.name)),
    ("metadata", some s.metadata.view),
    ("declarations", filled? (s.declarations.map Declaration.view)),
    ("span", some s.span.view)
  ]

/-- View of a finding. -/
def Diagnostic.view (d : Diagnostic) : Json α :=
  .present [
    ("severity", some (.text d.code.severity.word)),
    ("code", some (.text d.code.text)),
    ("message", some (.text d.message)),
    ("span", d.span.map fun s =>
      .record [("line", .whole s.line), ("column", .whole s.column)]),
    ("hint", d.shownHint?.map .text)
  ]

end Prognosis
