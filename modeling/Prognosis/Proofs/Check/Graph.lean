import Mathlib.Data.List.Chain
import Prognosis.Proofs.Check.Order
import Prognosis.Proofs.Check.Reports
import Prognosis.Proofs.Run.Whole

/-! The causal graph of a scenario. The search for an order fails with a cycle, and where there is
an order there is none. So a scenario has a causal graph exactly when nothing comes before itself;
else one finding names a cycle, and the cycle is real. The graph has the nodes and edges of the
scenario, and an order in which every node comes after all that precedes it and otherwise keeps its
place among the declarations.
-/

namespace Prognosis

open Relation

-----------------------------------------------------------------------------------------
-- Cycles of a relation
-----------------------------------------------------------------------------------------

/-- The names go round: the first is also the last, and each one is related to the next. -/
def IsCycle (r : String → String → Prop) (names : List String) : Prop :=
  ∃ first middle, names = first :: middle ++ [first] ∧ names.IsChain r

/-- A chain relates its first name to its last, by induction along the names between. -/
theorem transGen_of_isChain {r : String → String → Prop} {first last : String}
    {middle : List String} (chain : (first :: middle ++ [last]).IsChain r)
    : TransGen r first last := by
  induction middle generalizing first with
  | nil => exact .single (List.isChain_cons_cons.mp chain).1
  | cons next rest ih =>
      obtain ⟨step, others⟩ := List.isChain_cons_cons.mp chain
      exact .head step (ih others)

theorem IsCycle.transGen {r : String → String → Prop} {names : List String}
    (cycle : IsCycle r names)
    : ∃ name, TransGen r name name := by
  obtain ⟨first, middle, rfl, chain⟩ := cycle
  exact ⟨first, transGen_of_isChain chain⟩

namespace Dependencies

/-- A name must come before another one. -/
def Before (d : Dependencies) (root name : String) : Prop :=
  root ∈ d.predecessors name

variable {d : Dependencies}

-----------------------------------------------------------------------------------------
-- A failed search has gone round a cycle
-----------------------------------------------------------------------------------------

/-- The way from a name on the path back to it is a cycle. -/
theorem isCycle_of_mem_path {path : List String} {name : String}
    (chain : (name :: path).IsChain d.Before) (found : name ∈ path)
    : IsCycle d.Before (name :: path.takeWhile (· != name) ++ [name]) := by
  refine ⟨name, path.takeWhile (· != name), rfl, chain.prefix ?_⟩
  obtain ⟨front, rest, rfl, absent⟩ := List.eq_append_cons_of_mem found
  have way : (front ++ name :: rest).takeWhile (· != name) = front := by
    rw [List.takeWhile_append_of_pos]
    · simp
    · intro other member
      simp only [bne_iff_ne, ne_eq]
      rintro rfl
      exact absent member
  rw [way]
  exact ⟨rest, by simp⟩

mutual

/-- A visit fails with a cycle when each name on the path must come before the next one. Witness:
by recursion along the search, with the chain of the path as the invariant.
-/
theorem visit_isCycle {path order cycle : List String} {name : String}
    (chain : (name :: path).IsChain d.Before)
    (failed : visit d path order name = .error cycle)
    : IsCycle d.Before cycle := by
  unfold visit at failed
  split at failed
  case isTrue => cases failed
  case isFalse =>
    split at failed
    case h_1 onPath =>
      cases failed
      exact isCycle_of_mem_path chain (by simpa using onPath)
    case h_2 offPath =>
      split at failed
      case h_2 => cases failed
      case h_1 node =>
        cases required : visitAll d (name :: path) order (d.predecessors name) with
        | ok before => simp [required] at failed
        | error found =>
            simp only [required] at failed
            cases failed
            refine visitAll_isCycle (fun root before => ?_) required
            exact List.isChain_cons_cons.mpr ⟨before, chain⟩
termination_by ((offPath d path).length, 0)
decreasing_by
  exact Prod.Lex.left _ _ (offPath_shorter d ‹_› ‹_›)

/-- So do visits one after the other, each of a name that may follow the path. -/
theorem visitAll_isCycle {path order cycle names : List String}
    (chain : ∀ name ∈ names, (name :: path).IsChain d.Before)
    (failed : visitAll d path order names = .error cycle)
    : IsCycle d.Before cycle := by
  match names with
  | [] =>
      unfold visitAll at failed
      cases failed
  | name :: rest =>
      unfold visitAll at failed
      cases first : visit d path order name with
      | error found =>
          simp only [first] at failed
          cases failed
          exact visit_isCycle (chain name List.mem_cons_self) first
      | ok next =>
          simp only [first] at failed
          exact visitAll_isCycle (fun other member => chain other (List.mem_cons_of_mem _ member))
            failed
termination_by ((offPath d path).length, names.length)
decreasing_by
  · exact Prod.Lex.right _ (by simp)
  · exact Prod.Lex.right _ (by simp)

end

/-- Where no order is found, what is found is a cycle. -/
theorem order_isCycle {cycle : List String} (failed : d.order = .error cycle)
    : IsCycle d.Before cycle :=
  visitAll_isCycle (fun name _ => List.isChain_singleton name) failed

-----------------------------------------------------------------------------------------
-- An order excludes cycles
-----------------------------------------------------------------------------------------

/-- What must come before a name has a smaller place in an order. -/
theorem IsOrder.idxOf_lt {order : List String} (ordered : d.IsOrder order) {root name : String}
    (required : d.Before root name) (member : name ∈ order)
    : root ∈ order ∧ order.idxOf root < order.idxOf name := by
  obtain ⟨earlier, later, rfl, fresh⟩ := List.eq_append_cons_of_mem member
  have before := ordered.before earlier name later rfl root required
  refine ⟨List.mem_append_left _ before, ?_⟩
  rw [List.idxOf_append_of_mem before, List.idxOf_append_of_notMem fresh]
  have bound := List.idxOf_lt_length_of_mem before
  omega

/-- Nodes of an order never come before themselves: places grow along the dependencies. -/
theorem IsOrder.acyclic {order : List String} (ordered : d.IsOrder order)
    (nodes : ∀ root name, d.Before root name → name ∈ d.nodes) (name : String)
    : ¬TransGen d.Before name name := by
  have grows {root name : String} (path : TransGen d.Before root name) (member : name ∈ order)
      : root ∈ order ∧ order.idxOf root < order.idxOf name := by
    induction path using TransGen.head_induction_on with
    | single step => exact ordered.idxOf_lt step member
    | head step _ ih =>
        obtain ⟨between, later⟩ := ih
        obtain ⟨there, earlier⟩ := ordered.idxOf_lt step between
        exact ⟨there, Nat.lt_trans earlier later⟩
  intro round
  obtain ⟨root, -, last⟩ := TransGen.tail'_iff.mp round
  have member : name ∈ order := ordered.nodes.mem_iff.mpr (nodes root name last)
  exact Nat.lt_irrefl _ (grows round member).2

end Dependencies

-----------------------------------------------------------------------------------------
-- Scenarios
-----------------------------------------------------------------------------------------

variable {α : Type}

namespace Scenario

variable {s : Scenario α}

theorem before_eq_precedes (s : Scenario α) : s.dependencies.Before = s.Precedes := by
  funext root name
  exact propext Dependencies.mem_predecessors_iff

/-- An order that the search finds holds all nodes after all that precedes them. -/
theorem isOrder_of_order {order : List String} (found : s.dependencies.order = .ok order)
    : s.dependencies.IsOrder order :=
  Dependencies.order_isOrder s.nodes_nodup
    (fun _ _ => Dependencies.mem_nodes_of_predecessor) found

/-- Where nodes have an order, nothing precedes itself. -/
theorem acyclic_of_isOrder {order : List String} (ordered : s.dependencies.IsOrder order)
    (name : String)
    : ¬TransGen s.Precedes name name := by
  rw [← before_eq_precedes]
  refine ordered.acyclic (fun root name required => ?_) name
  exact Dependencies.mem_nodes_iff.mpr (Dependencies.mem_predecessors_iff.mp required).isNode

/-- The search for a causal graph ends with an order of all nodes, or with a real cycle. -/
theorem ofScenario_cases (s : Scenario α)
    : (∃ order, CausalGraph.ofScenario s
            = .ok ⟨s.dependencies.nodes, s.dependencies.edges, order⟩
          ∧ s.dependencies.order = .ok order)
      ∨ ∃ cycle, CausalGraph.ofScenario s = .error cycle ∧ IsCycle s.Precedes cycle := by
  have graph : CausalGraph.ofScenario s
      = s.dependencies.order.map fun order =>
          ⟨s.dependencies.nodes, s.dependencies.edges, order⟩ := rfl
  cases found : s.dependencies.order with
  | ok order =>
      rw [found] at graph
      exact Or.inl ⟨order, graph, rfl⟩
  | error cycle =>
      rw [found] at graph
      have real := Dependencies.order_isCycle found
      rw [before_eq_precedes] at real
      exact Or.inr ⟨cycle, graph, real⟩

/-- Where nothing precedes itself there is an order. -/
theorem exists_order (acyclic : ∀ name, ¬TransGen s.Precedes name name)
    : ∃ order, CausalGraph.ofScenario s
          = .ok ⟨s.dependencies.nodes, s.dependencies.edges, order⟩
        ∧ s.dependencies.order = .ok order := by
  rcases ofScenario_cases s with ordered | ⟨cycle, -, real⟩
  · exact ordered
  · obtain ⟨name, round⟩ := real.transGen
    exact absurd round (acyclic name)

/-- The finding of a cycle, at the first declaration of the name from which it starts. -/
def cycleAt (s : Scenario α) (names : List String) : Located (Finding α) :=
  ⟨.cycle names, (names.head?.bind s.find?).map (·.span)⟩

theorem checkCycle_eq (s : Scenario α) (names : List String)
    : Check.checkCycle (Symbols.ofScenario s) names = s.cycleAt names := by
  simp only [Check.checkCycle, cycleAt]
  congr 1
  cases names with
  | nil => rfl
  | cons first rest =>
      simp only [List.head?_cons, Option.bind_some, ← find?_declaration]
      cases (Symbols.ofScenario s).find? first <;> rfl

variable [Scalar α]

/-- The graph is withheld exactly when something comes before itself, through listed dependencies
and through what declarations and their replacements read. Then one finding of a cycle is shown,
and it names a real one; else there is no such finding.
-/
theorem check_graph_eq_none_iff_cycle (s : Scenario α)
    : (s.check.graph = none ↔ ∃ name, TransGen s.Precedes name name)
      ∧ ((∃ name, TransGen s.Precedes name name)
          → ∃ names, IsCycle s.Precedes names
              ∧ s.check.diagnostics.filter (·.code == .error 4)
                = [(s.cycleAt names).ofScenario])
      ∧ ((¬∃ name, TransGen s.Precedes name name)
          → s.check.diagnostics.filter (·.code == .error 4) = []) := by
  have apart : (s.findings.map (·.ofScenario)).filter (·.code == .error 4) = [] := by
    rw [List.filter_eq_nil_iff]
    intro d shown
    obtain ⟨l, member, rfl⟩ := List.mem_map.mp shown
    simpa [Located.ofScenario] using (ignored_of_findings member).1
  rcases ofScenario_cases s with ⟨order, graph, found⟩ | ⟨cycle, failed, real⟩
  · have acyclic := acyclic_of_isOrder (isOrder_of_order found)
    have none : ¬∃ name, TransGen s.Precedes name name :=
      fun ⟨name, round⟩ => acyclic name round
    rw [check_of_order graph]
    exact ⟨by simpa using none, fun some => absurd some none, fun _ => apart⟩
  · have some := real.transGen
    rw [check_of_cycle failed, checkCycle_eq]
    refine ⟨by simpa using some, fun _ => ⟨cycle, real, ?_⟩, fun none => absurd some none⟩
    rw [Checked.diagnostics, List.map_append, List.filter_append, apart]
    simp [Located.ofScenario, cycleAt, Finding.code]

end Scenario

namespace Harvest

/-- A harvest in which the drought makes the stock depend on the income, which depends on it. -/
def circular : Scenario Int :=
  scenario [
    .quantity (.impact (impact "income" [.ofRoot "stock"] none)),
    .quantity (.varying (stock "price")),
    .quantity (.parameter (parameter "price" (whole 2))),
    .branch { drought with condition := read "stock", overrides := [.varying (stock "income")] }
  ]

theorem circular_order
    : CausalGraph.ofScenario circular = .error ["income", "stock", "income"] := by
  cbv

end Harvest

/-- The cycle of the circular harvest goes through its branch, and it is found. -/
theorem Scenario.circular_check
    : Harvest.circular.check.graph = none
      ∧ (∃ name, TransGen Harvest.circular.Precedes name name)
      ∧ ∃ names, IsCycle Harvest.circular.Precedes names
          ∧ Harvest.circular.check.diagnostics.filter (·.code == .error 4)
            = [(Harvest.circular.cycleAt names).ofScenario] := by
  obtain ⟨withheld, reported, -⟩ := Scenario.check_graph_eq_none_iff_cycle Harvest.circular
  have missing : Harvest.circular.check.graph = none := by
    rw [Scenario.check_of_cycle Harvest.circular_order]
  exact ⟨missing, withheld.mp missing, reported (withheld.mp missing)⟩

-----------------------------------------------------------------------------------------
-- What a search adds to an order
-----------------------------------------------------------------------------------------

namespace Dependencies

variable {d : Dependencies}

/-- The order has grown at its end, by names that are given or come before given ones. -/
structure Lengthened (d : Dependencies) (names order grown : List String) : Prop where
  front : order <+: grown
  reached
    : ∀ name ∈ grown, name ∈ order ∨ ∃ given ∈ names, ReflTransGen d.Before name given

theorem Lengthened.refl (d : Dependencies) (names order : List String)
    : Lengthened d names order order :=
  ⟨List.prefix_rfl, fun _ member => Or.inl member⟩

/-- What comes before a name that is required for another one comes before that one. -/
theorem Lengthened.snoc {order grown : List String} {name : String}
    (longer : Lengthened d (d.predecessors name) order grown)
    : Lengthened d [name] order (grown ++ [name]) := by
  refine ⟨longer.front.trans (List.prefix_append _ _), fun other member => ?_⟩
  rcases List.mem_append.mp member with old | last
  · rcases longer.reached other old with there | ⟨root, required, path⟩
    · exact Or.inl there
    · exact Or.inr ⟨name, List.mem_singleton_self name, path.tail required⟩
  · exact Or.inr ⟨name, List.mem_singleton_self name, List.mem_singleton.mp last ▸ .refl⟩

theorem Lengthened.trans {first rest order middle grown : List String}
    (left : Lengthened d first order middle) (right : Lengthened d rest middle grown)
    : Lengthened d (first ++ rest) order grown := by
  refine ⟨left.front.trans right.front, fun other member => ?_⟩
  rcases right.reached other member with old | ⟨given, inRest, path⟩
  · rcases left.reached other old with there | ⟨given, inFirst, path⟩
    · exact Or.inl there
    · exact Or.inr ⟨given, List.mem_append_left _ inFirst, path⟩
  · exact Or.inr ⟨given, List.mem_append_right _ inRest, path⟩

mutual

/-- A visit adds nothing but the node and what comes before it, by recursion along the search. -/
theorem visit_lengthened {path order grown : List String} {name : String}
    (visited : visit d path order name = .ok grown)
    : Lengthened d [name] order grown := by
  unfold visit at visited
  split at visited
  case isTrue =>
    cases visited
    exact .refl d _ _
  case isFalse =>
    split at visited
    case h_1 => cases visited
    case h_2 offPath =>
      split at visited
      case h_2 =>
        cases visited
        exact .refl d _ _
      case h_1 node =>
        cases required : visitAll d (name :: path) order (d.predecessors name) with
        | error cycle => simp [required] at visited
        | ok before =>
            simp only [required] at visited
            cases visited
            exact (visitAll_lengthened required).snoc
termination_by ((offPath d path).length, 0)
decreasing_by
  exact Prod.Lex.left _ _ (offPath_shorter d ‹_› ‹_›)

/-- Visits one after the other add what comes before any of their nodes. -/
theorem visitAll_lengthened {path order grown names : List String}
    (visited : visitAll d path order names = .ok grown)
    : Lengthened d names order grown := by
  match names with
  | [] =>
      unfold visitAll at visited
      cases visited
      exact .refl d _ _
  | name :: rest =>
      unfold visitAll at visited
      cases first : visit d path order name with
      | error cycle => simp [first] at visited
      | ok next =>
          simp only [first] at visited
          exact (visit_lengthened first).trans (visitAll_lengthened visited)
termination_by ((offPath d path).length, names.length)
decreasing_by
  · exact Prod.Lex.right _ (by simp)
  · exact Prod.Lex.right _ (by simp)

end

/-- Visits of a longer row are visits of its front and then of its rest. -/
theorem visitAll_append_ok {path order grown front rest : List String}
    (visited : visitAll d path order (front ++ rest) = .ok grown)
    : ∃ middle, visitAll d path order front = .ok middle
        ∧ visitAll d path middle rest = .ok grown := by
  induction front generalizing order with
  | nil => exact ⟨order, by rw [visitAll], visited⟩
  | cons name front ih =>
      rw [List.cons_append, visitAll] at visited
      simp only [visitAll]
      cases first : visit d path order name with
      | error cycle => simp [first] at visited
      | ok next =>
          simp only [first] at visited ⊢
          exact ih visited

-----------------------------------------------------------------------------------------
-- Names in front of others
-----------------------------------------------------------------------------------------

/-- One name stands before the other in an order of names. -/
def StandsBefore (order : List String) (name other : String) : Prop :=
  [name, other].Sublist order

theorem standsBefore_append {front rest : List String} {name other : String}
    (first : name ∈ front) (second : other ∈ rest)
    : StandsBefore (front ++ rest) name other :=
  (List.singleton_sublist.mpr first).append (List.singleton_sublist.mpr second)

theorem IsOrder.standsBefore {order : List String} (ordered : d.IsOrder order)
    {root name : String} (required : d.Before root name) (node : name ∈ d.nodes)
    : StandsBefore order root name := by
  obtain ⟨earlier, later, rfl⟩ := List.append_of_mem (ordered.nodes.mem_iff.mpr node)
  exact standsBefore_append (ordered.before earlier name later rfl root required)
    List.mem_cons_self

/-- A node stands before every later one that does not come before it or before nodes in front
of it. Witness: once the search has visited it, the later one is not reached yet.
-/
theorem standsBefore_of_not_reached {order front rest : List String} {name other : String}
    (found : d.order = .ok order) (distinct : d.nodes.Nodup)
    (nodes : ∀ name, ∀ root ∈ d.predecessors name, root ∈ d.nodes)
    (split : d.nodes = front ++ name :: rest) (later : other ∈ rest)
    (apart : ∀ given ∈ front ++ [name], ¬TransGen d.Before other given)
    : StandsBefore order name other := by
  have ordered := order_isOrder distinct nodes found
  have whole : d.nodes = (front ++ [name]) ++ rest := by simp [split]
  rw [Dependencies.order, whole] at found
  obtain ⟨middle, visited, others⟩ := visitAll_append_ok found
  obtain ⟨more, rfl⟩ := (visitAll_lengthened others).front
  obtain ⟨-, reached⟩ := visitAll_grown (Sorted.nil d) (by simp) visited
  have here : name ∈ middle := reached name (by simp) (by simp [split])
  have notYet : other ∉ middle := by
    intro member
    rcases (visitAll_lengthened visited).reached other member with none | ⟨given, among, path⟩
    · cases none
    · rcases (reflTransGen_iff_eq_or_transGen.mp path) with rfl | path
      · rw [whole] at distinct
        exact (List.disjoint_of_nodup_append distinct) among later
      · exact apart given among path
  have there : other ∈ middle ++ more := ordered.nodes.mem_iff.mpr (by simp [split, later])
  exact standsBefore_append here ((List.mem_append.mp there).resolve_left notYet)

end Dependencies

-----------------------------------------------------------------------------------------
-- Causal graphs
-----------------------------------------------------------------------------------------

namespace Scenario

open Dependencies

variable {s : Scenario α}

/-- The graph that a scenario should have. Its nodes are the named values and imports that own
their names, in the order in which they are declared, each of them once. Its edges are the listed
dependencies between nodes. In the order of computation nodes come after all that they list, and
after the variables and impacts that anything reads that may come in force for them; a node that
no earlier one needs, directly or through others, waits until those have come.
-/
structure IsCausalGraph (s : Scenario α) (graph : CausalGraph) : Prop where
  nodes : ∀ name, name ∈ graph.nodes ↔ s.IsNode name
  declared : graph.nodes.Pairwise s.DeclaredBefore
  edges : ∀ root name, (root, name) ∈ graph.edges ↔ s.IsNode root ∧ s.Lists name root
  order : graph.order.Perm graph.nodes
  listed : ∀ root name, (root, name) ∈ graph.edges → StandsBefore graph.order root name
  read : ∀ root name, s.Reads name root → StandsBefore graph.order root name
  ties
    : ∀ name other, s.IsNode name → s.IsNode other → s.DeclaredBefore name other
        → (∀ given, s.IsNode given → given = name ∨ s.DeclaredBefore given name
            → ¬TransGen s.Precedes other given)
        → StandsBefore graph.order name other

/-- Nodes that stand behind a node are those that are declared later. -/
theorem split_nodes {name other : String} (node : s.IsNode name) (nodeOther : s.IsNode other)
    (before : s.DeclaredBefore name other)
    : ∃ front rest, s.dependencies.nodes = front ++ name :: rest ∧ other ∈ rest
        ∧ ∀ given ∈ front ++ [name],
            s.IsNode given ∧ (given = name ∨ s.DeclaredBefore given name) := by
  obtain ⟨front, rest, split⟩ := List.append_of_mem (mem_nodes_iff.mpr node)
  have sorted := s.nodes_declaredBefore
  rw [split, List.pairwise_append] at sorted
  obtain ⟨-, -, across⟩ := sorted
  refine ⟨front, rest, split, ?_, fun given among => ?_⟩
  · have member := mem_nodes_iff.mpr nodeOther
    rw [split, List.mem_append, List.mem_cons] at member
    rcases member with early | same | late
    · exact absurd (across other early name List.mem_cons_self) before.asymm
    · exact absurd (same ▸ before) DeclaredBefore.irrefl
    · exact late
  · rcases List.mem_append.mp among with early | last
    · exact ⟨mem_nodes_iff.mp (by simp [split, early]),
        Or.inr (across given early name List.mem_cons_self)⟩
    · rw [List.mem_singleton.mp last]
      exact ⟨node, Or.inl rfl⟩

variable [Scalar α]

/-- Whenever a scenario has a causal graph, it is the one that it should have. Witness: what
precedes a node is visited before the node enters the order, and the search for each declared
node adds only what precedes it.
-/
theorem isCausalGraph_of_check {graph : CausalGraph} (checked : s.check.graph = some graph)
    : s.IsCausalGraph graph := by
  rcases ofScenario_cases s with ⟨order, found, search⟩ | ⟨cycle, failed, -⟩
  · rw [check_of_order found] at checked
    cases checked
    have ordered := isOrder_of_order search
    have before {root name : String} (precedes : s.Precedes root name)
        : StandsBefore order root name :=
      ordered.standsBefore (mem_predecessors_iff.mpr precedes)
        (mem_nodes_iff.mpr precedes.isNode)
    refine {
      nodes := fun _ => mem_nodes_iff
      declared := s.nodes_declaredBefore
      edges := fun _ _ => mem_edges_iff
      order := ordered.nodes
      listed := fun root name edge => ?_
      read := fun root name reads => ?_
      ties := fun name other node nodeOther earlier apart => ?_
    }
    · obtain ⟨node, listed⟩ := mem_edges_iff.mp edge
      exact before ⟨node, Or.inl listed⟩
    · obtain ⟨r, owns, -⟩ := reads.1
      exact before ⟨isNode_of_owner? owns, Or.inr reads⟩
    · obtain ⟨front, rest, split, later, known⟩ := split_nodes node nodeOther earlier
      refine standsBefore_of_not_reached search s.nodes_nodup
        (fun _ _ => mem_nodes_of_predecessor) split later fun given among => ?_
      obtain ⟨nodeGiven, place⟩ := known given among
      rw [before_eq_precedes]
      exact apart given nodeGiven place
  · rw [check_of_cycle failed] at checked
    cases checked

/-- The graph of the harvest is the one that it should have. -/
theorem harvest_isCausalGraph
    : Harvest.harvest.check.graph = some Harvest.graph
      ∧ Harvest.harvest.IsCausalGraph Harvest.graph :=
  ⟨Harvest.harvest_checked, isCausalGraph_of_check Harvest.harvest_checked⟩

end Scenario

end Prognosis
