import Prognosis.Check.Symbols

/-! Which declarations depend on which, and an order in which each comes after all that it
depends on.
-/

namespace Prognosis

variable {α : Type}

/-- The list of names that a named value declares to depend on. -/
def Quantity.listed : Quantity α → List Path
  | .varying v => v.dependsOn
  | .impact i => i.derivesFrom
  | _ => []

/-- The expressions that are read while a point in time is computed. -/
def Quantity.expressions : Quantity α → List (Expr α)
  | .varying v =>
      (v.model.toList.flatMap fun m => m.parameters.map (·.2))
        ++ v.uncertainty.toList.flatMap Distribution.expressions
  | .impact i => i.formula.toList
  | _ => []

/-- What the nodes of the graph depend on: each pair of a node and one that its list names, and
for each node all that must come before it.
-/
structure Dependencies where
  nodes : List String
  edges : List (String × String)
  before : List (String × List String)
  deriving DecidableEq, Repr

namespace Dependencies

/-- The list with each entry only where it stands first. -/
def distinct (names : List String) : List String :=
  names.foldl (fun kept name => if kept.contains name then kept else kept ++ [name]) []

/-- The name belongs to a variable or an impact. -/
def isVarying (symbols : Symbols α) (name : String) : Bool :=
  match symbols.quantity? name with
  | some q => !q.isConstant
  | none => false

/-- Variables and impacts that are read while a point in time is computed by any of several
declarations of one name: those in their lists and those in their expressions.
-/
def reads (symbols : Symbols α) (decls : List (Quantity α)) : List String :=
  let listed := decls.flatMap fun q => q.listed.map (·.root)
  let read := decls.flatMap fun q =>
    q.expressions.flatMap fun e => e.names.map fun (path, _) => path.root
  distinct ((listed ++ read).filter (isVarying symbols))

/-- Declarations inside branches that replace the variable or impact of a name. -/
def overrides (symbols : Symbols α) (s : Scenario α) (name : String) : List (Quantity α) :=
  s.branches.flatMap fun b =>
    b.overrides.filter fun q => q.name == name && !q.isConstant && symbols.isOverride q

/-- All that must come before a node. -/
def predecessors (d : Dependencies) (name : String) : List String :=
  (d.before.lookup name).getD []

/-- Nodes are the named values and imports that own their names. -/
def nodeNames (symbols : Symbols α) : List String :=
  (symbols.filter fun symbol => symbol.declaration.referent?.isSome).map (·.name)

/-- Nodes that the list of a node's declaration names, each as often as it is named. -/
def listedNodes (symbols : Symbols α) (name : String) : List String :=
  match symbols.quantity? name with
  | some q => (q.listed.map (·.root)).filter (nodeNames symbols).contains
  | none => []

/-- Nodes that must come before a node: those in its list, and all that it or one of its
replacements reads.
-/
def requiredNodes (symbols : Symbols α) (s : Scenario α) (name : String) : List String :=
  match symbols.quantity? name with
  | some q =>
      distinct (listedNodes symbols name
        ++ (reads symbols (q :: overrides symbols s name)).filter (nodeNames symbols).contains)
  | none => []

/-- Dependencies of a scenario. -/
def ofSymbols (symbols : Symbols α) (s : Scenario α) : Dependencies :=
  let nodes := nodeNames symbols
  {
    nodes := nodes
    edges := nodes.flatMap fun name => (listedNodes symbols name).map fun root => (root, name)
    before := nodes.map fun name => (name, requiredNodes symbols s name)
  }

/-- Nodes that are not on a path. -/
def offPath (d : Dependencies) (path : List String) : List String :=
  d.nodes.filter fun name => !path.contains name

theorem offPath_shorter (d : Dependencies) {path : List String} {name : String}
    (hnode : d.nodes.contains name = true) (hpath : path.contains name = false)
    : (offPath d (name :: path)).length < (offPath d path).length := by
  have hmem : name ∈ offPath d path := by
    simp only [offPath, List.mem_filter]
    exact ⟨by simpa using hnode, by simpa using hpath⟩
  have hsub : offPath d (name :: path) = (offPath d path).filter fun other => !(other == name) := by
    simp only [offPath, List.filter_filter]
    apply List.filter_congr
    intro other _
    by_cases h : other = name <;> simp [h]
  rw [hsub]
  have hlt := List.length_filter_lt_length_iff_exists
    (p := fun other => !(other == name)) (l := offPath d path)
  exact hlt.mpr ⟨name, hmem, by simp⟩

mutual

/-- Adds a node to an order, after all that must come before it. The path leads to the node,
nearest first; where the node is on it, the way back to the node is a cycle.
-/
def visit (d : Dependencies) (path order : List String) (name : String)
    : Except (List String) (List String) :=
  if order.contains name then .ok order
  else
    match _hpath : path.contains name with
    | true => .error (name :: path.takeWhile (· != name) ++ [name])
    | false =>
        match _hnode : d.nodes.contains name with
        | true =>
            match visitAll d (name :: path) order (d.predecessors name) with
            | .error cycle => .error cycle
            | .ok order => .ok (order ++ [name])
        | false => .ok order
termination_by ((offPath d path).length, 0)
decreasing_by
  exact Prod.Lex.left _ _ (offPath_shorter d _hnode _hpath)

/-- Adds nodes to an order, one after the other. -/
def visitAll (d : Dependencies) (path order names : List String)
    : Except (List String) (List String) :=
  match names with
  | [] => .ok order
  | name :: rest =>
      match visit d path order name with
      | .error cycle => .error cycle
      | .ok order => visitAll d path order rest
termination_by ((offPath d path).length, names.length)
decreasing_by
  · exact Prod.Lex.right _ (by simp)
  · exact Prod.Lex.right _ (by simp)

end

/-- An order of all nodes in which each comes after all that must come before it; an error is
a cycle, from a node back to it.
-/
def order (d : Dependencies) : Except (List String) (List String) :=
  visitAll d [] [] d.nodes

end Dependencies

/-- The causal graph of a scenario: its nodes, the dependencies that are listed, and an order
of computation.
-/
structure CausalGraph where
  nodes : List String
  edges : List (String × String)
  order : List String
  deriving DecidableEq, Repr

/-- Nodes that the list of a node names. -/
def CausalGraph.predecessors (g : CausalGraph) (name : String) : List String :=
  (g.edges.filter (·.2 == name)).map (·.1)

/-- The causal graph of a scenario, or a cycle of its dependencies. -/
def CausalGraph.ofScenario (s : Scenario α) : Except (List String) CausalGraph :=
  let d := Dependencies.ofSymbols (Symbols.ofScenario s) s
  d.order.map fun order => ⟨d.nodes, d.edges, order⟩

end Prognosis
