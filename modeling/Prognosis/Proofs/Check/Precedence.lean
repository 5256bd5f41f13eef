import Prognosis.Proofs.Check.Soundness
import Prognosis.Proofs.Check.Symbols

/-! Which nodes must come before which, told by the declarations: a node comes after those that
it lists, and after the variables and impacts that anything reads that may come in force for it.
-/

namespace Prognosis

variable {α : Type}

-----------------------------------------------------------------------------------------
-- The relation
-----------------------------------------------------------------------------------------

/-- Names that a declaration lists, and names that it reads while a point in time is computed. -/
def Quantity.mentions (q : Quantity α) : List String :=
  q.listed.map (·.root) ++ q.expressions.flatMap Expr.roots

theorem Quantity.mentions_of_isConstant {q : Quantity α} (constant : q.isConstant = true)
    : q.mentions = [] := by
  cases q with
  | assumption _ | parameter _ => rfl
  | varying _ | impact _ => cases constant

namespace Scenario

/-- What may be in force for a name: its owner, and any declaration of its name and kind inside
a branch.
-/
inductive StandsFor (s : Scenario α) (name : String) : Quantity α → Prop
  | owner {q} (owns : s.owner? name = some q) : s.StandsFor name q
  | override {owner b q} (owns : s.owner? name = some owner) (branch : b ∈ s.branches)
    (member : q ∈ b.overrides) (named : q.name = name) (kind : q.kind = owner.kind)
    : s.StandsFor name q

/-- The owner of a name lists a name. -/
def Lists (s : Scenario α) (name root : String) : Prop :=
  ∃ q, s.owner? name = some q ∧ root ∈ q.listed.map (·.root)

/-- A variable or impact is mentioned by what may be in force for a name. -/
def Reads (s : Scenario α) (name root : String) : Prop :=
  (∃ r, s.owner? root = some r ∧ r.isConstant = false)
    ∧ ∃ q, s.StandsFor name q ∧ root ∈ q.mentions

/-- A node must come before another one, which lists it or reads it. -/
def Precedes (s : Scenario α) (root name : String) : Prop :=
  s.IsNode root ∧ (s.Lists name root ∨ s.Reads name root)

variable {s : Scenario α}

theorem isNode_of_owner? {name : String} {q : Quantity α} (owns : s.owner? name = some q)
    : s.IsNode name := by
  obtain ⟨d, found, is⟩ := Option.bind_eq_some_iff.mp owns
  refine ⟨d, found, ?_⟩
  cases d with
  | quantity _ => rfl
  | branch _ | simulate _ | watch _ | calibrate _ | imported _ => cases is

theorem StandsFor.owned {name : String} {q : Quantity α} (stands : s.StandsFor name q)
    : ∃ owner, s.owner? name = some owner := by
  cases stands with
  | owner owns => exact ⟨_, owns⟩
  | override owns => exact ⟨_, owns⟩

/-- What lists or reads a node is a node. -/
theorem Precedes.isNode {root name : String} (precedes : s.Precedes root name)
    : s.IsNode name := by
  rcases precedes.2 with ⟨q, owns, -⟩ | ⟨-, q, stands, -⟩
  · exact isNode_of_owner? owns
  · obtain ⟨owner, owns⟩ := stands.owned
    exact isNode_of_owner? owns

end Scenario

-----------------------------------------------------------------------------------------
-- Dependencies state the relation
-----------------------------------------------------------------------------------------

namespace Dependencies

variable {s : Scenario α}

theorem mem_nodes_iff {name : String} : name ∈ s.dependencies.nodes ↔ s.IsNode name := by
  have nodes : s.dependencies.nodes = nodeNames (Symbols.ofScenario s) := rfl
  simp only [nodes, nodeNames, List.mem_map, List.mem_filter, Scenario.IsNode,
    ← Scenario.find?_declaration, Option.map_eq_some_iff]
  constructor
  · rintro ⟨symbol, ⟨member, referred⟩, rfl⟩
    have found := (Symbols.find?_eq_some_iff (Symbols.ofScenario_distinct s)).mpr ⟨member, rfl⟩
    exact ⟨_, ⟨symbol, found, rfl⟩, referred⟩
  · rintro ⟨_, ⟨symbol, found, rfl⟩, referred⟩
    obtain ⟨member, named⟩ :=
      (Symbols.find?_eq_some_iff (Symbols.ofScenario_distinct s)).mp found
    exact ⟨symbol, ⟨member, referred⟩, named⟩

theorem isVarying_iff {name : String}
    : isVarying (Symbols.ofScenario s) name = true
      ↔ ∃ r, s.owner? name = some r ∧ r.isConstant = false := by
  rw [isVarying, Scenario.quantity?_eq_owner?]
  cases s.owner? name <;> simp

theorem isOverride_iff {q : Quantity α}
    : (Symbols.ofScenario s).isOverride q = true
      ↔ ∃ owner, s.owner? q.name = some owner ∧ q.kind = owner.kind := by
  rw [Symbols.isOverride, Scenario.quantity?_eq_owner?]
  cases s.owner? q.name <;> simp [eq_comm (a := q.kind)]

theorem mem_overrides_iff {name : String} {q : Quantity α}
    : q ∈ overrides (Symbols.ofScenario s) s name
      ↔ ∃ b ∈ s.branches, q ∈ b.overrides ∧ q.name = name ∧ q.isConstant = false
          ∧ (Symbols.ofScenario s).isOverride q = true := by
  simp [overrides, and_assoc]

/-- What may be in force for a name is its owner, or a declaration that replaces it and mentions
nothing when it is constant.
-/
theorem mentioned_iff {name root : String} {owner : Quantity α}
    (owns : s.owner? name = some owner)
    : (∃ q ∈ owner :: overrides (Symbols.ofScenario s) s name, root ∈ q.mentions)
      ↔ ∃ q, s.StandsFor name q ∧ root ∈ q.mentions := by
  constructor
  · rintro ⟨q, among, mentioned⟩
    refine ⟨q, ?_, mentioned⟩
    rcases List.mem_cons.mp among with rfl | nested
    · exact .owner owns
    · obtain ⟨b, branch, member, rfl, -, replaces⟩ := mem_overrides_iff.mp nested
      obtain ⟨_, owns', kind⟩ := isOverride_iff.mp replaces
      exact .override owns' branch member rfl kind
  · rintro ⟨q, stands, mentioned⟩
    refine ⟨q, ?_, mentioned⟩
    cases stands with
    | owner owns' =>
        rw [owns] at owns'
        cases owns'
        exact List.mem_cons_self
    | @override _ b _ owns' branch member named kind =>
        refine List.mem_cons_of_mem _ (mem_overrides_iff.mpr ⟨b, branch, member, named, ?_, ?_⟩)
        · by_contra constant
          rw [Bool.not_eq_false] at constant
          rw [Quantity.mentions_of_isConstant constant] at mentioned
          cases mentioned
        · exact isOverride_iff.mpr ⟨_, named ▸ owns', kind⟩

theorem mem_listedNodes_iff {name root : String}
    : root ∈ listedNodes (Symbols.ofScenario s) name ↔ s.IsNode root ∧ s.Lists name root := by
  have nodes : (nodeNames (Symbols.ofScenario s)).contains root = true ↔ s.IsNode root := by
    rw [List.contains_iff_mem]
    exact mem_nodes_iff
  rw [listedNodes, Scenario.quantity?_eq_owner?, Scenario.Lists]
  cases s.owner? name with
  | none => simp
  | some q => simp only [List.mem_filter, nodes, Option.some.injEq, exists_eq_left', and_comm]

theorem mem_reads_iff {root : String} {decls : List (Quantity α)}
    : root ∈ reads (Symbols.ofScenario s) decls
      ↔ (∃ r, s.owner? root = some r ∧ r.isConstant = false) ∧ ∃ q ∈ decls, root ∈ q.mentions := by
  simp only [reads, mem_distinct, List.mem_filter, isVarying_iff, List.mem_append,
    List.mem_flatMap, Quantity.mentions, Expr.roots, and_comm, ← exists_or, ← and_or_left]

/-- The dependencies of a scenario are those that its declarations tell. -/
theorem mem_predecessors_iff {root name : String}
    : root ∈ s.dependencies.predecessors name ↔ s.Precedes root name := by
  have nodes : (nodeNames (Symbols.ofScenario s)).contains root = true ↔ s.IsNode root := by
    rw [List.contains_iff_mem]
    exact mem_nodes_iff
  rw [predecessors_eq]
  cases owned : s.owner? name with
  | none =>
      have required : requiredNodes (Symbols.ofScenario s) s name = [] := by
        simp [requiredNodes, Scenario.quantity?_eq_owner?, owned]
      have apart : ¬s.Precedes root name := by
        rintro ⟨-, ⟨q, owns, -⟩ | ⟨-, q, stands, -⟩⟩
        · rw [owned] at owns
          cases owns
        · obtain ⟨owner, owns⟩ := stands.owned
          rw [owned] at owns
          cases owns
      simp [required, apart]
  | some owner =>
      rw [if_pos (mem_nodes_iff.mpr (Scenario.isNode_of_owner? owned))]
      simp only [requiredNodes, Scenario.quantity?_eq_owner?, owned, mem_distinct,
        List.mem_append, mem_listedNodes_iff, List.mem_filter, nodes, mem_reads_iff,
        mentioned_iff owned]
      rw [Scenario.Precedes, Scenario.Reads, and_or_left, and_comm (b := s.IsNode root)]

/-- The edges are the listed dependencies between nodes. -/
theorem mem_edges_iff {root name : String}
    : (root, name) ∈ s.dependencies.edges ↔ s.IsNode root ∧ s.Lists name root := by
  have edges : s.dependencies.edges = s.dependencies.nodes.flatMap fun name =>
      (listedNodes (Symbols.ofScenario s) name).map fun root => (root, name) := rfl
  simp only [edges, List.mem_flatMap, List.mem_map, Prod.mk.injEq, mem_listedNodes_iff,
    mem_nodes_iff]
  constructor
  · rintro ⟨_, -, _, listed, rfl, rfl⟩
    exact listed
  · intro listed
    obtain ⟨q, owns, -⟩ := listed.2
    exact ⟨name, Scenario.isNode_of_owner? owns, root, listed, rfl, rfl⟩

end Dependencies

namespace Scenario

/-- The nodes stand in the order of their declarations. -/
theorem nodes_declaredBefore (s : Scenario α)
    : s.dependencies.nodes.Pairwise s.DeclaredBefore := by
  have nodes : s.dependencies.nodes = Dependencies.nodeNames (Symbols.ofScenario s) := rfl
  rw [nodes, Dependencies.nodeNames, List.pairwise_map]
  have sorted := (Symbols.ofScenario_sorted s).imp_of_mem (S := fun symbol other =>
    s.DeclaredBefore symbol.name other.name) fun member memberOther before => by
      obtain ⟨_, found, -, place⟩ := Symbols.mem_ofScenario.mp member
      obtain ⟨_, found', -, place'⟩ := Symbols.mem_ofScenario.mp memberOther
      exact ⟨_, _, found, found', by omega⟩
  exact sorted.filter _

theorem DeclaredBefore.irrefl {s : Scenario α} {name : String} : ¬s.DeclaredBefore name name := by
  rintro ⟨place, later, found, found', less⟩
  rw [found] at found'
  cases found'
  exact Nat.lt_irrefl _ less

theorem DeclaredBefore.asymm {s : Scenario α} {name other : String}
    (before : s.DeclaredBefore name other)
    : ¬s.DeclaredBefore other name := by
  obtain ⟨place, later, found, found', less⟩ := before
  rintro ⟨place', later', again, again', less'⟩
  rw [found] at again'
  rw [found'] at again
  cases again
  cases again'
  exact Nat.lt_asymm less less'

/-- Each node is there once. -/
theorem nodes_nodup (s : Scenario α) : s.dependencies.nodes.Nodup := by
  refine s.nodes_declaredBefore.imp fun before same => ?_
  exact DeclaredBefore.irrefl (same ▸ before)

end Scenario

end Prognosis
