import Prognosis.Syntax.Declaration
import Prognosis.Syntax.Expr

/-! The nodes of an expression by its structure, with induction on its parts, and what is written
without the places at which it stands. Two declarations are the same up to places when they are
equal without them.
-/

namespace Prognosis

variable {α : Type}

/-! ### Nodes -/

namespace Expr

/-- A part of a list of expressions has no more nodes than the list, by list induction. -/
theorem size_le_sizeOfAll {e : Expr α} {es : List (Expr α)} (member : e ∈ es)
    : e.size ≤ sizeOfAll es := by
  induction es with
  | nil => cases member
  | cons head rest ih =>
      simp only [sizeOfAll]
      rcases List.mem_cons.mp member with rfl | later
      · omega
      · have := ih later
        omega

/-- Parts are smaller than their expression: its own node counts too. -/
theorem size_lt_of_child {e part : Expr α} (child : part ∈ e.children)
    : part.size < e.size := by
  have bound := size_le_sizeOfAll child
  have total := sizeOfAll_children e
  omega

/-- What holds of an expression whenever it holds of its parts holds of all expressions.
Witness: strong induction on the number of nodes.
-/
theorem induction_on_children {P : Expr α → Prop}
    (step : ∀ e : Expr α, (∀ part ∈ e.children, P part) → P e) (e : Expr α)
    : P e :=
  step e (fun part _ => induction_on_children step part)
termination_by e.size
decreasing_by exact size_lt_of_child ‹_›

/-- Stacks are walked one after the other, by induction along the walk. -/
theorem walk_append (first second : List (Expr α))
    : walk (first ++ second) = walk first ++ walk second := by
  induction first using walk.induct with
  | case1 => simp [walk]
  | case2 e stack ih =>
      rw [List.cons_append, walk, walk, ← List.append_assoc, ih, List.cons_append]

/-- The walk over a stack lists the nodes of its expressions in turn. -/
theorem walk_eq_flatMap (stack : List (Expr α))
    : walk stack = stack.flatMap nodes := by
  induction stack with
  | nil => simp [walk]
  | cons e rest ih =>
      rw [← List.singleton_append, walk_append, ih]
      simp [nodes]

/-- An expression comes before the nodes of its parts, which come in order. -/
theorem nodes_eq (e : Expr α)
    : e.nodes = e :: e.children.flatMap nodes := by
  rw [nodes, walk, List.append_nil, walk_eq_flatMap]

theorem self_mem_nodes (e : Expr α) : e ∈ e.nodes := by
  rw [nodes_eq]
  exact List.mem_cons_self

/-- Nodes of parts are nodes of the expression. -/
theorem mem_nodes_of_child {e part node : Expr α} (child : part ∈ e.children)
    (below : node ∈ part.nodes)
    : node ∈ e.nodes := by
  rw [nodes_eq]
  exact List.mem_cons_of_mem _ (List.mem_flatMap.mpr ⟨part, child, below⟩)

/-- Nodes of nodes are nodes of the expression. -/
theorem mem_nodes_trans {e part node : Expr α} (below : part ∈ e.nodes) (inside : node ∈ part.nodes)
    : node ∈ e.nodes := by
  induction e using induction_on_children with
  | step e ih =>
      rw [nodes_eq] at below
      rcases List.mem_cons.mp below with rfl | deeper
      · exact inside
      · obtain ⟨child, member, below⟩ := List.mem_flatMap.mp deeper
        exact mem_nodes_of_child member (ih child member below)

/-- First segments of the names that an expression reads. -/
def roots (e : Expr α) : List String :=
  e.names.map (·.1.root)

theorem mem_roots_iff {e : Expr α} {root : String}
    : root ∈ e.roots ↔ ∃ path span, name path span ∈ e.nodes ∧ path.root = root := by
  simp only [roots, names, List.mem_map, List.mem_filterMap]
  constructor
  · rintro ⟨⟨path, span⟩, ⟨node, member, found⟩, rfl⟩
    cases node with
    | name p s =>
        cases found
        exact ⟨_, _, member, rfl⟩
    | _ => cases found
  · rintro ⟨path, span, member, rfl⟩
    exact ⟨(path, span), ⟨_, member, rfl⟩, rfl⟩

/-- What a part reads is read by the expression. -/
theorem mem_roots_of_child {e part : Expr α} {root : String} (child : part ∈ e.children)
    (below : root ∈ part.roots)
    : root ∈ e.roots := by
  obtain ⟨path, span, member, rfl⟩ := mem_roots_iff.mp below
  exact mem_roots_iff.mpr ⟨path, span, mem_nodes_of_child child member, rfl⟩

theorem root_mem_roots_name (path : Path) (span : Option Span)
    : path.root ∈ (name path span : Expr α).roots :=
  mem_roots_iff.mpr ⟨path, span, self_mem_nodes _, rfl⟩

end Expr

/-! ### Places -/

/-- The place that stands for all places. -/
def Span.nowhere : Span :=
  ⟨0, 0⟩

namespace Expr

mutual

/-- The expression without places. -/
def unplaced : Expr α → Expr α
  | number x _ => number x none
  | percentage x _ => percentage x none
  | currency x unit magnitude _ => currency x unit magnitude none
  | text s _ => text s none
  | boolean b _ => boolean b none
  | name path _ => name path none
  | binary op left right _ => binary op left.unplaced right.unplaced none
  | unary op operand _ => unary op operand.unplaced none
  | call function positional named _ =>
      call function (unplacedAll positional) (unplacedNamed named) none
termination_by structural e => e

/-- Expressions without places. -/
def unplacedAll : List (Expr α) → List (Expr α)
  | [] => []
  | e :: rest => e.unplaced :: unplacedAll rest
termination_by structural es => es

/-- Named expressions without places. -/
def unplacedNamed : List (String × Expr α) → List (String × Expr α)
  | [] => []
  | entry :: rest => unplacedEntry entry :: unplacedNamed rest
termination_by structural es => es

/-- A named expression without places. -/
def unplacedEntry : String × Expr α → String × Expr α
  | (key, e) => (key, e.unplaced)
termination_by structural e => e

end

theorem unplacedEntry_eq (entry : String × Expr α)
    : unplacedEntry entry = (entry.1, entry.2.unplaced) := by
  obtain ⟨key, e⟩ := entry
  rfl

theorem unplacedAll_eq (es : List (Expr α)) : unplacedAll es = es.map unplaced := by
  induction es with
  | nil => rfl
  | cons e es ih => rw [unplacedAll, ih, List.map_cons]

theorem unplacedNamed_eq (named : List (String × Expr α))
    : unplacedNamed named = named.map unplacedEntry := by
  induction named with
  | nil => rfl
  | cons entry named ih => rw [unplacedNamed, ih, List.map_cons]

/-- Signs in front of a percentage do not depend on places, by induction on them. -/
theorem isPercentage_unsigned_unplaced (e : Expr α)
    : e.unplaced.unsigned.isPercentage = e.unsigned.isPercentage := by
  induction e using induction_on_children with
  | step e ih =>
      cases e with
      | unary op operand span =>
          have inner := ih operand (by simp [children])
          cases op with
          | plus | plusMinus => simpa only [unplaced, unsigned] using inner
          | minus | not => rfl
      | number | percentage | currency | text | boolean | name | binary | call => rfl

end Expr

namespace Distribution

/-- The distribution without places. -/
def unplaced (d : Distribution α) : Distribution α := {
  kind := d.kind
  positional := d.positional.map Expr.unplaced
  named := d.named.map Expr.unplacedEntry
  span := .nowhere
}

theorem isRelative_unplaced (d : Distribution α) : d.unplaced.isRelative = d.isRelative := by
  obtain ⟨kind, positional, named, span⟩ := d
  cases kind with
  | normal =>
      match positional, named with
      | [spread], [] =>
          simpa [isRelative, unplaced] using Expr.isPercentage_unsigned_unplaced spread
      | [], _ | [_], _ :: _ | _ :: _ :: _, _ => simp [isRelative, unplaced]
  | uniform | beta | triangular | lognormal => rfl

theorem dropMissing_map {β γ : Type} (f : β → γ) (slots : List (Option β))
    : dropMissing (slots.map (Option.map f)) = (dropMissing slots).map (Option.map f) := by
  simp only [dropMissing, ← List.map_reverse, List.dropWhile_map]
  congr 3
  funext slot
  cases slot <;> rfl

/-- Sets the slot of a name, where there is one. -/
def slotted (names : List String) (slots : List (Option (Expr α)))
    (entry : String × Expr α) : List (Option (Expr α)) :=
  match names.idxOf? entry.1 with
  | some place => slots.set place (some entry.2)
  | none => slots

private theorem slotted_unplaced (names : List String) (slots : List (Option (Expr α)))
    (entry : String × Expr α)
    : slotted names (slots.map (Option.map Expr.unplaced)) (Expr.unplacedEntry entry)
      = (slotted names slots entry).map (Option.map Expr.unplaced) := by
  simp only [slotted, Expr.unplacedEntry_eq]
  cases names.idxOf? entry.1 with
  | none => rfl
  | some place =>
      simp only [List.map_set]
      rfl

/-- Parameters by position lose their places one by one, by induction on the named ones. -/
theorem arguments_unplaced (d : Distribution α)
    : d.unplaced.arguments = d.arguments.map (Option.map Expr.unplaced) := by
  have filled (named : List (String × Expr α)) (slots : List (Option (Expr α)))
      : (named.map Expr.unplacedEntry).foldl (slotted d.kind.parameters)
          (slots.map (Option.map Expr.unplaced))
        = (named.foldl (slotted d.kind.parameters) slots).map (Option.map Expr.unplaced) := by
    induction named generalizing slots with
    | nil => rfl
    | cons entry rest ih =>
        simp only [List.map_cons, List.foldl_cons, slotted_unplaced]
        exact ih _
  have start : d.unplaced.positional.map some
        ++ List.replicate (d.unplaced.kind.parameters.length - d.unplaced.positional.length) none
      = (d.positional.map some
          ++ List.replicate (d.kind.parameters.length - d.positional.length) none).map
            (Option.map Expr.unplaced) := by
    simp [unplaced]
  change dropMissing (d.unplaced.named.foldl (slotted d.kind.parameters) _)
    = (dropMissing (d.named.foldl (slotted d.kind.parameters) _)).map _
  rw [start, ← dropMissing_map, ← filled]
  rfl

end Distribution

namespace Model

/-- The model without places. -/
def unplaced (m : Model α) : Model α := {
  kind := m.kind
  parameters := m.parameters.map Expr.unplacedEntry
  span := .nowhere
}

theorem parameter?_unplaced (m : Model α) (names : List String)
    : m.unplaced.parameter? names = (m.parameter? names).map Expr.unplaced := by
  have keys : (fun entry : String × Expr α => names.contains entry.1) ∘ Expr.unplacedEntry
      = fun entry => names.contains entry.1 := by
    funext entry
    rw [Function.comp_apply, Expr.unplacedEntry_eq]
  have values : (fun entry : String × Expr α => entry.2) ∘ Expr.unplacedEntry
      = Expr.unplaced ∘ fun entry => entry.2 := by
    funext entry
    simp only [Function.comp_apply, Expr.unplacedEntry_eq]
  simp only [parameter?, unplaced, List.find?_map, Option.map_map, keys, values]

end Model

/-! ### Declarations -/

/-- The rule without places. -/
def WatchRule.unplaced (rule : WatchRule α) : WatchRule α :=
  { rule with condition := rule.condition.unplaced }

/-- The watch without places. -/
def Watch.unplaced (w : Watch α) : Watch α :=
  { w with rules := w.rules.map WatchRule.unplaced, span := .nowhere }

/-- The binding without places. -/
def Binding.unplaced (b : Binding α) : Binding α :=
  {
    b with
    transform := b.transform.map Expr.unplaced
    fallback := b.fallback.map Expr.unplaced
    span := .nowhere
  }

/-- The assumption without places. -/
def Assumption.unplaced (a : Assumption α) : Assumption α :=
  {
    a with
    value := a.value.map Expr.unplaced
    uncertainty := a.uncertainty.map Distribution.unplaced
    binding := a.binding.map Binding.unplaced
    watch := a.watch.map Watch.unplaced
    span := .nowhere
  }

/-- The parameter without places. -/
def Parameter.unplaced (p : Parameter α) : Parameter α :=
  {
    p with
    value := p.value.map Expr.unplaced
    range := p.range.map fun (low, high) => (low.unplaced, high.unplaced)
    uncertainty := p.uncertainty.map Distribution.unplaced
    step := p.step.map Expr.unplaced
    span := .nowhere
  }

/-- The anchor without places. -/
def Anchor.unplaced (a : Anchor α) : Anchor α :=
  { a with value := a.value.unplaced }

/-- The variable without places. -/
def Variable.unplaced (v : Variable α) : Variable α :=
  {
    v with
    anchors := v.anchors.map Anchor.unplaced
    model := v.model.map Model.unplaced
    uncertainty := v.uncertainty.map Distribution.unplaced
    span := .nowhere
  }

/-- The impact without places. -/
def Impact.unplaced (i : Impact α) : Impact α :=
  { i with formula := i.formula.map Expr.unplaced, span := .nowhere }

namespace Quantity

/-- The declaration without places. -/
def unplaced : Quantity α → Quantity α
  | assumption a => assumption a.unplaced
  | varying v => varying v.unplaced
  | parameter p => parameter p.unplaced
  | impact i => impact i.unplaced

@[simp]
theorem name_unplaced (q : Quantity α) : q.unplaced.name = q.name := by
  cases q <;> rfl

@[simp]
theorem kind_unplaced (q : Quantity α) : q.unplaced.kind = q.kind := by
  cases q <;> rfl

variable {q other : Quantity α}

theorem name_eq_of_unplaced (same : q.unplaced = other.unplaced) : q.name = other.name := by
  rw [← q.name_unplaced, same, other.name_unplaced]

theorem kind_eq_of_unplaced (same : q.unplaced = other.unplaced) : q.kind = other.kind := by
  rw [← q.kind_unplaced, same, other.kind_unplaced]

theorem isConstant_eq_of_unplaced (same : q.unplaced = other.unplaced)
    : q.isConstant = other.isConstant := by
  simp only [isConstant, kind_eq_of_unplaced same]

end Quantity

/-- The branch without places. -/
def Branch.unplaced (b : Branch α) : Branch α :=
  {
    b with
    condition := b.condition.unplaced
    overrides := b.overrides.map Quantity.unplaced
    span := .nowhere
  }

/-- Branches that are the same up to places are so part by part. -/
theorem Branch.parts_eq_of_unplaced {b other : Branch α} (same : b.unplaced = other.unplaced)
    : b.name = other.name ∧ b.probability = other.probability
      ∧ b.condition.unplaced = other.condition.unplaced
      ∧ b.overrides.map Quantity.unplaced = other.overrides.map Quantity.unplaced := by
  simp only [unplaced, Branch.mk.injEq] at same
  exact ⟨same.1, same.2.2.1, same.2.1, same.2.2.2.2.1⟩

/-- The settings without places. -/
def Simulate.unplaced (s : Simulate α) : Simulate α :=
  { s with span := .nowhere }

/-- The calibration without places. -/
def Calibrate.unplaced (c : Calibrate α) : Calibrate α :=
  { c with prior := c.prior.map Distribution.unplaced, span := .nowhere }

/-- The import without places. -/
def Import.unplaced (i : Import) : Import :=
  { i with span := .nowhere }

/-- The declaration without places. -/
def Declaration.unplaced : Declaration α → Declaration α
  | quantity q => quantity q.unplaced
  | branch b => branch b.unplaced
  | simulate s => simulate s.unplaced
  | watch w => watch w.unplaced
  | calibrate c => calibrate c.unplaced
  | imported i => imported i.unplaced

/-- The scenario without places. -/
def Scenario.unplaced (s : Scenario α) : Scenario α :=
  { s with declarations := s.declarations.map Declaration.unplaced, span := .nowhere }

end Prognosis
