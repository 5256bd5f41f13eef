import Prognosis.Proofs.Check.Outline

/-! A scenario without its branches. Nothing refers to a branch, so that what is left is free of
errors when the scenario is.
-/

namespace Prognosis

open Relation

variable {α : Type}

-----------------------------------------------------------------------------------------
-- Places of what is left
-----------------------------------------------------------------------------------------

/-- The declaration is no branch. -/
def Declaration.isPlain (d : Declaration α) : Bool :=
  d.branch?.isNone

/-- What is left of a list at a place stood somewhere in the list, and that many elements in front
of it are left. By induction along the list.
-/
theorem exists_of_getElem?_filter {β : Type} {p : β → Bool} {items : List β} {place : Nat} {x : β}
    (found : (items.filter p)[place]? = some x)
    : ∃ index, items[index]? = some x ∧ p x = true
        ∧ ((items.take index).filter p).length = place := by
  induction items generalizing place with
  | nil => cases found
  | cons first rest ih =>
      by_cases kept : p first = true
      · rw [List.filter_cons, if_pos kept] at found
        cases place with
        | zero =>
            cases found
            exact ⟨0, rfl, kept, rfl⟩
        | succ place =>
            obtain ⟨index, placed, left, count⟩ := ih found
            exact ⟨index + 1, placed, left, by simp [kept, count]⟩
      · rw [List.filter_cons, if_neg kept] at found
        obtain ⟨index, placed, left, count⟩ := ih found
        exact ⟨index + 1, placed, left, by simp [kept, count]⟩

namespace Scenario

/-- The scenario without its branches. -/
def withoutBranches (s : Scenario α) : Scenario α :=
  { s with declarations := s.declarations.filter (·.isPlain) }

/-- Place of a declaration once the branches in front of it are left out. -/
def placeWithout (s : Scenario α) (index : Nat) : Nat :=
  ((s.declarations.take index).filter (·.isPlain)).length

variable {s : Scenario α} {index later : Nat} {d : Declaration α}

theorem withoutBranches_quantities (s : Scenario α)
    : s.withoutBranches.quantities = s.quantities := by
  simp only [quantities, withoutBranches, List.filterMap_filter]
  refine List.filterMap_congr fun d _ => ?_
  cases d <;> rfl

theorem withoutBranches_branches (s : Scenario α) : s.withoutBranches.branches = [] := by
  refine List.filterMap_eq_nil_iff.mpr fun d member => ?_
  exact Option.isNone_iff_eq_none.mp (List.mem_filter.mp member).2

/-- Declarations that are left stand at their new places. -/
theorem getElem?_placeWithout (placed : s.declarations[index]? = some d)
    (plain : d.isPlain = true)
    : s.withoutBranches.declarations[s.placeWithout index]? = some d := by
  obtain ⟨bound, is⟩ := List.getElem?_eq_some_iff.mp placed
  have split : s.declarations
      = s.declarations.take index ++ d :: s.declarations.drop (index + 1) := by
    rw [← is, List.getElem_cons_drop, List.take_append_drop]
  have left : s.withoutBranches.declarations
      = (s.declarations.take index).filter (·.isPlain)
        ++ d :: (s.declarations.drop (index + 1)).filter (·.isPlain) := by
    rw [withoutBranches]
    conv_lhs => rw [split]
    rw [List.filter_append, List.filter_cons, if_pos plain]
  rw [left, placeWithout, List.getElem?_append_right (Nat.le_refl _), Nat.sub_self]
  rfl

/-- They keep their order. -/
theorem placeWithout_le_iff (placed : s.declarations[later]? = some d)
    (plain : d.isPlain = true)
    : s.placeWithout index ≤ s.placeWithout later ↔ index ≤ later := by
  have mono {first second : Nat} (le : first ≤ second)
      : s.placeWithout first ≤ s.placeWithout second :=
    ((List.take_prefix_take_left le).filter _).length_le
  constructor
  · intro before
    by_contra after
    have next : s.placeWithout (later + 1) = s.placeWithout later + 1 := by
      simp [placeWithout, List.take_add_one, placed, plain]
    have beyond : s.placeWithout (later + 1) ≤ s.placeWithout index := mono (by omega)
    omega
  · exact mono

-----------------------------------------------------------------------------------------
-- Symbols of what is left
-----------------------------------------------------------------------------------------

variable [Scalar α] {graph : CausalGraph}

/-- What is left declares no name twice. -/
theorem Accepted.collect_withoutBranches (accepted : s.Accepted graph)
    : Symbols.collect [] 0 s.withoutBranches.declarations
      = (Symbols.named 0 s.withoutBranches.declarations, []) :=
  Symbols.collect_of_distinct
    (accepted.declarations_distinct.sublist (List.filter_sublist.filterMap _))

/-- Names of what is left are found where they were, at their new places. -/
theorem Accepted.find?_withoutBranches (accepted : s.Accepted graph) (name : String)
    : (Symbols.ofScenario s.withoutBranches).find? name
      = (((Symbols.ofScenario s).find? name).filter (·.declaration.isPlain)).map fun symbol =>
          { symbol with index := s.placeWithout symbol.index } := by
  have symbols : Symbols.ofScenario s.withoutBranches
      = Symbols.named 0 s.withoutBranches.declarations := by
    rw [Symbols.ofScenario, accepted.collect_withoutBranches]
  have found (symbol : Symbol α)
      : (Symbols.ofScenario s.withoutBranches).find? name = some symbol
        ↔ s.withoutBranches.declarations[symbol.index]? = some symbol.declaration
          ∧ symbol.declaration.name? = some symbol.name ∧ symbol.name = name := by
    rw [Symbols.find?_eq_some_iff (Symbols.ofScenario_distinct _), symbols, Symbols.mem_named,
      List.mem_zipIdx_iff_getElem?, and_assoc]
  cases left : (Symbols.ofScenario s.withoutBranches).find? name with
  | some symbol =>
      obtain ⟨place, named, same⟩ := (found symbol).mp left
      obtain ⟨index, placed, plain, count⟩ := exists_of_getElem?_filter place
      have owns : (Symbols.ofScenario s).find? name
          = some { symbol with index := index } :=
        accepted.mem_symbols.mpr ⟨placed, named, same⟩
      have moved : s.placeWithout index = symbol.index := count
      simp [owns, Option.filter, plain, moved]
  | none =>
      cases owns : (Symbols.ofScenario s).find? name with
      | none => rfl
      | some symbol =>
          obtain ⟨placed, named, same⟩ := accepted.mem_symbols.mp owns
          by_cases plain : symbol.declaration.isPlain = true
          · have there := (found { symbol with index := s.placeWithout symbol.index }).mpr
              ⟨getElem?_placeWithout placed plain, named, same⟩
            rw [left] at there
            cases there
          · simp [Option.filter, plain]

/-- A name is missing before and after, or it keeps its declaration at the new place, or it was that
of a branch.
-/
theorem Accepted.find?_cases (accepted : s.Accepted graph) (name : String)
    : ((Symbols.ofScenario s).find? name = none
          ∧ (Symbols.ofScenario s.withoutBranches).find? name = none)
        ∨ (∃ symbol, (Symbols.ofScenario s).find? name = some symbol
            ∧ (Symbols.ofScenario s.withoutBranches).find? name
              = some { symbol with index := s.placeWithout symbol.index }
            ∧ ∀ index, s.placeWithout index ≤ s.placeWithout symbol.index ↔ index ≤ symbol.index)
        ∨ ∃ symbol b, (Symbols.ofScenario s).find? name = some symbol
            ∧ symbol.declaration = .branch b
            ∧ (Symbols.ofScenario s.withoutBranches).find? name = none := by
  rw [accepted.find?_withoutBranches]
  cases owns : (Symbols.ofScenario s).find? name with
  | none => exact Or.inl ⟨rfl, rfl⟩
  | some symbol =>
      obtain ⟨placed, -, -⟩ := accepted.mem_symbols.mp owns
      by_cases plain : symbol.declaration.isPlain = true
      · refine Or.inr (Or.inl ⟨symbol, rfl, ?_, fun index => placeWithout_le_iff placed plain⟩)
        simp [Option.filter, plain]
      · obtain ⟨b, is⟩ := Option.ne_none_iff_exists'.mp (mt Option.isNone_iff_eq_none.mpr plain)
        refine Or.inr (Or.inr ⟨symbol, b, rfl, ?_, by simp [Option.filter, plain]⟩)
        cases declaration : symbol.declaration with
        | branch other =>
            rw [declaration] at is
            cases is
            rfl
        | quantity _ | imported _ | simulate _ | watch _ | calibrate _ =>
            rw [declaration] at is
            cases is

/-- Named values that are left own their names as they did. -/
theorem Accepted.owner?_withoutBranches (accepted : s.Accepted graph) (name : String)
    : s.withoutBranches.owner? name = s.owner? name := by
  rw [← quantity?_eq_owner?, ← quantity?_eq_owner?]
  rcases accepted.find?_cases name with
    ⟨found, left⟩ | ⟨symbol, found, left, -⟩ | ⟨symbol, b, found, is, left⟩
  · simp [Symbols.quantity?, found, left]
  · simp [Symbols.quantity?, found, left]
  · simp [Symbols.quantity?, found, left, is, Declaration.quantity?]

/-- The checks see what is left as they saw it with the branches. -/
theorem Accepted.sameView_withoutBranches (accepted : s.Accepted graph) (index : Nat)
    : Check.SameView (Symbols.ofScenario s) (Symbols.ofScenario s.withoutBranches) index
        (s.placeWithout index) := by
  constructor
  case referents =>
    intro path
    rcases accepted.find?_cases path.root with
      ⟨found, left⟩ | ⟨symbol, found, left, -⟩ | ⟨symbol, b, found, is, left⟩
    · simp [Symbols.referent?, found, left]
    · simp [Symbols.referent?, found, left]
    · simp [Symbols.referent?, found, left, is, Declaration.referent?]
  case quantities =>
    intro name
    rw [quantity?_eq_owner?, quantity?_eq_owner?, accepted.owner?_withoutBranches]
  all_goals
    funext owner path
    rcases accepted.find?_cases path.root with
      ⟨found, left⟩ | ⟨symbol, found, left, places⟩ | ⟨symbol, b, found, is, left⟩
    · simp [Check.checkName, found, left]
    · simp [Check.checkName, found, left, places]
    · simp [Check.checkName, found, left, is, Declaration.referent?]

-----------------------------------------------------------------------------------------
-- Checks of what is left
-----------------------------------------------------------------------------------------

/-- What must come before what without branches must with them. -/
theorem Accepted.precedes_of_withoutBranches (accepted : s.Accepted graph) {root name : String}
    (precedes : s.withoutBranches.Precedes root name)
    : s.Precedes root name := by
  have owner := accepted.owner?_withoutBranches
  have node : s.withoutBranches.IsNode root → s.IsNode root := by
    rintro ⟨d, declared, refers⟩
    rw [← find?_declaration] at declared
    rcases accepted.find?_cases root with
      ⟨-, left⟩ | ⟨symbol, found, left, -⟩ | ⟨-, -, -, -, left⟩
    · rw [left] at declared
      cases declared
    · rw [left] at declared
      exact ⟨d, by rw [← find?_declaration, found]; exact declared, refers⟩
    · rw [left] at declared
      cases declared
  obtain ⟨isNode, either⟩ := precedes
  refine ⟨node isNode, ?_⟩
  rcases either with ⟨q, owns, listed⟩ | ⟨⟨r, owns, varying⟩, q, stands, mentioned⟩
  · exact Or.inl ⟨q, owner name ▸ owns, listed⟩
  · refine Or.inr ⟨⟨r, owner root ▸ owns, varying⟩, q, ?_, mentioned⟩
    cases stands with
    | owner owns => exact .owner (owner name ▸ owns)
    | override _ branch =>
        rw [withoutBranches_branches] at branch
        cases branch

/-- What is left is clean. -/
theorem Accepted.checkDeclaration_withoutBranches (accepted : s.Accepted graph)
    {d : Declaration α} {place : Nat} (member : s.withoutBranches.declarations[place]? = some d)
    : Clean (Check.checkDeclaration (Symbols.ofScenario s.withoutBranches) place d) := by
  obtain ⟨index, placed, plain, count⟩ := exists_of_getElem?_filter member
  have view := accepted.sameView_withoutBranches index
  have moved : s.placeWithout index = place := count
  rw [← moved, view.checkDeclaration (Option.isNone_iff_eq_none.mp plain)]
  exact accepted.clean_of_mem placed

/-- A scenario without errors has none without its branches. -/
theorem withoutBranches_clean (clean : s.check.errors = [])
    : s.withoutBranches.check.errors = [] := by
  obtain ⟨graph, -, accepted⟩ := accepted_of_clean clean
  have all := Clean.of_errors_nil clean
  rw [check_of_order accepted.graph] at all
  obtain ⟨metadata, -⟩ := Clean.append_iff.mp (Clean.append_iff.mp all).1
  have acyclic (name : String) : ¬TransGen s.withoutBranches.Precedes name name := by
    intro round
    have within : s.withoutBranches.Precedes ≤ s.Precedes :=
      fun _ _ => accepted.precedes_of_withoutBranches
    exact acyclic_of_isOrder accepted.isOrder name (TransGen.mono within _ _ round)
  obtain ⟨order, found, -⟩ := exists_order acyclic
  have whole : Clean s.withoutBranches.findings := by
    rw [findings, accepted.collect_withoutBranches, List.append_nil]
    refine Clean.append_iff.mpr ⟨metadata, Clean.flatMap_iff.mpr ?_⟩
    rintro ⟨d, place⟩ member
    exact accepted.checkDeclaration_withoutBranches (List.mem_zipIdx_iff_getElem?.mp member)
  rw [check_of_order found]
  refine List.filter_eq_nil_iff.mpr fun l member => ?_
  simpa using whole l member

end Scenario

end Prognosis
