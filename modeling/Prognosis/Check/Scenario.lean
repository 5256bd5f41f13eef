import Prognosis.Check.CausalGraph
import Prognosis.Check.Declaration
import Prognosis.Syntax.View

/-! All checks of a scenario, and what they came to as a structured value. It can be simulated when
they find no error and its dependencies have no cycle.
-/

namespace Prognosis

variable {α : Type} [Scalar α]

/-- What the checks of a scenario found, and its causal graph unless there is a cycle. -/
structure Checked (α : Type) where
  findings : List (Located (Finding α))
  graph : Option CausalGraph

namespace Checked

/-- The findings that forbid simulation. -/
def errors (c : Checked α) : List (Located (Finding α)) :=
  c.findings.filter (·.isError)

/-- The scenario can be simulated. -/
def isValid (c : Checked α) : Bool :=
  c.errors.isEmpty && c.graph.isSome

/-- The findings as they are shown. -/
def diagnostics (c : Checked α) : List Diagnostic :=
  c.findings.map (·.ofScenario)

end Checked

/-- A cycle reported at the declaration of its first node. -/
def Check.checkCycle (symbols : Symbols α) (names : List String) : Located (Finding α) :=
  ⟨.cycle names, (names.head?.bind symbols.find?).map (·.declaration.span)⟩

/-- Checks a scenario. -/
def Scenario.check (s : Scenario α) : Checked α :=
  let (symbols, duplicates) := Symbols.collect [] 0 s.declarations
  let findings := Check.checkMetadata s ++ duplicates
    ++ s.declarations.zipIdx.flatMap fun (d, index) => Check.checkDeclaration symbols index d
  match CausalGraph.ofScenario s with
  | .ok graph => ⟨findings, some graph⟩
  | .error cycle => ⟨findings ++ [Check.checkCycle symbols cycle], none⟩

/-- Checks what could be read of a text; nothing at all is an error of its own. -/
def checkOrNothing : Option (Scenario α) → Checked α
  | some s => s.check
  | none => ⟨[⟨.nothingToCheck, none⟩], none⟩

/-! ### Views -/

omit [Scalar α] in
/-- Findings as values. -/
def Diagnostic.viewAll (found : List Diagnostic) : Json α :=
  .list (found.map (·.view))

omit [Scalar α] in
/-- View of a causal graph. -/
def CausalGraph.view (g : CausalGraph) : Json α :=
  .record [
    ("nodes", .list (g.nodes.map .text)),
    ("edges", .list (g.edges.map fun (origin, target) =>
      .record [("from", .text origin), ("to", .text target)])),
    ("topological_order", .list (g.order.map .text))
  ]

/-- View of a checked scenario, with earlier findings before its own. -/
def Checked.viewAfter (c : Checked α) (earlier : List Diagnostic) : Json α :=
  .record [
    ("valid", .flag c.isValid),
    ("diagnostics", Diagnostic.viewAll (earlier ++ c.diagnostics)),
    ("causal_graph", (c.graph.map CausalGraph.view).getD .null)
  ]

end Prognosis
