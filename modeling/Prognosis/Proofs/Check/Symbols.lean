import Mathlib.Data.List.Nodup
import Prognosis.Check.Scenario

/-! Symbols of a scenario. Each symbol is the first declaration of its name, and symbols come in the
order of the declarations, also where a name is declared twice. In a scenario in which none is,
every declaration owns its name at its own place.
-/

namespace Prognosis

variable {α : Type}

-----------------------------------------------------------------------------------------
-- Findings without errors
-----------------------------------------------------------------------------------------

/-- None of the findings forbids simulation. -/
def Clean (findings : List (Located (Finding α))) : Prop :=
  ∀ finding ∈ findings, finding.isError = false

namespace Clean

variable {first second : List (Located (Finding α))}

theorem append_iff : Clean (first ++ second) ↔ Clean first ∧ Clean second := by
  simp only [Clean, List.mem_append, or_imp, forall_and]

theorem flatMap_iff {β : Type} {items : List β} {f : β → List (Located (Finding α))}
    : Clean (items.flatMap f) ↔ ∀ item ∈ items, Clean (f item) := by
  simp only [Clean, List.mem_flatMap, forall_exists_index, and_imp]
  exact ⟨fun all item member finding found => all finding item member found,
    fun all finding item member found => all item member finding found⟩

theorem of_errors_nil {c : Checked α} (clean : c.errors = []) : Clean c.findings := by
  intro finding member
  simpa using (List.filter_eq_nil_iff.mp clean) finding member

end Clean

-----------------------------------------------------------------------------------------
-- Owners of names
-----------------------------------------------------------------------------------------

namespace Symbols

/-- The declarations of names with their places, counted from the given one on. -/
def named (index : Nat) (declarations : List (Declaration α)) : Symbols α :=
  (declarations.zipIdx index).filterMap fun (d, place) =>
    d.name?.map fun name => ⟨name, place, d⟩

theorem mem_named {index : Nat} {declarations : List (Declaration α)} {symbol : Symbol α}
    : symbol ∈ named index declarations
      ↔ (symbol.declaration, symbol.index) ∈ declarations.zipIdx index
        ∧ symbol.declaration.name? = some symbol.name := by
  simp only [named, List.mem_filterMap, Option.map_eq_some_iff]
  constructor
  · rintro ⟨⟨d, place⟩, member, name, named, rfl⟩
    exact ⟨member, named⟩
  · rintro ⟨member, named⟩
    exact ⟨_, member, symbol.name, named, rfl⟩

theorem find?_eq_none_iff {symbols : Symbols α} {name : String}
    : symbols.find? name = none ↔ name ∉ symbols.map (·.name) := by
  simp only [find?, List.find?_eq_none, beq_iff_eq, List.mem_map, not_exists, not_and]

/-- Where names are different, a symbol is found under its name. -/
theorem find?_eq_some_iff {symbols : Symbols α} (distinct : (symbols.map (·.name)).Nodup)
    {name : String} {symbol : Symbol α}
    : symbols.find? name = some symbol ↔ symbol ∈ symbols ∧ symbol.name = name := by
  constructor
  · intro found
    exact ⟨List.mem_of_find?_eq_some found, by simpa using List.find?_some found⟩
  · rintro ⟨member, rfl⟩
    cases found : symbols.find? symbol.name with
    | none => exact absurd (List.mem_map_of_mem member) (find?_eq_none_iff.mp found)
    | some other =>
        have same : other.name = symbol.name := by simpa using List.find?_some found
        rw [List.inj_on_of_nodup_map distinct (List.mem_of_find?_eq_some found) member same]

/-- Symbols that are collected without a finding are all named declarations, and their names
are different. By induction along the declarations.
-/
theorem collect_clean {known : Symbols α} {index : Nat} {declarations : List (Declaration α)}
    (distinct : (known.map (·.name)).Nodup)
    (clean : Clean (collect known index declarations).2)
    : (collect known index declarations).1 = known ++ named index declarations
      ∧ ((known ++ named index declarations).map (·.name)).Nodup := by
  induction declarations generalizing known index with
  | nil => simpa [collect, named] using distinct
  | cons d rest ih =>
      simp only [collect] at clean ⊢
      cases name : d.name? with
      | none =>
          have same : named index (d :: rest) = named (index + 1) rest := by
            simp [named, List.zipIdx_cons, name]
          simp only [name] at clean ⊢
          rw [same]
          exact ih distinct clean
      | some text =>
          have more : named index (d :: rest) = ⟨text, index, d⟩ :: named (index + 1) rest := by
            simp [named, List.zipIdx_cons, name]
          simp only [name] at clean ⊢
          cases owner : find? known text with
          | some earlier =>
              simp only [owner] at clean
              have error := clean _ (List.mem_cons_self)
              cases error
          | none =>
              simp only [owner] at clean ⊢
              have grown : ((known ++ [(⟨text, index, d⟩ : Symbol α)]).map (·.name)).Nodup := by
                have fresh := find?_eq_none_iff.mp owner
                rw [List.map_append, List.nodup_append]
                refine ⟨distinct, by simp, ?_⟩
                rintro other member last same rfl
                simp only [List.map_cons, List.map_nil, List.mem_singleton] at same
                exact fresh (same ▸ member)
              have whole := ih grown clean
              rw [List.append_assoc, List.singleton_append, ← more] at whole
              exact whole

end Symbols

-----------------------------------------------------------------------------------------
-- Scenarios without errors
-----------------------------------------------------------------------------------------

namespace Scenario

variable [Scalar α] {s : Scenario α}

/-- What the checks of a scenario find when nothing forbids simulation. -/
structure Accepted (s : Scenario α) (graph : CausalGraph) : Prop where
  symbols : Symbols.ofScenario s = Symbols.named 0 s.declarations
  distinct : ((Symbols.ofScenario s).map (·.name)).Nodup
  declarations
    : ∀ d index, (d, index) ∈ s.declarations.zipIdx
        → Clean (Check.checkDeclaration (Symbols.ofScenario s) index d)
  graph : CausalGraph.ofScenario s = .ok graph

/-- A scenario that is checked without an error is accepted with a graph: a cycle would be one.
-/
theorem accepted_of_clean (clean : s.check.errors = [])
    : ∃ graph, s.check.graph = some graph ∧ s.Accepted graph := by
  have all := Clean.of_errors_nil clean
  have first : Clean (Check.checkMetadata s ++ (Symbols.collect [] 0 s.declarations).2
      ++ s.declarations.zipIdx.flatMap fun (d, index) =>
        Check.checkDeclaration (Symbols.ofScenario s) index d) := by
    simp only [check] at all
    cases ordered : CausalGraph.ofScenario s with
    | ok graph =>
        rw [ordered] at all
        exact all
    | error cycle =>
        rw [ordered] at all
        exact (Clean.append_iff.mp all).1
  obtain ⟨before, declarations⟩ := Clean.append_iff.mp first
  obtain ⟨-, duplicates⟩ := Clean.append_iff.mp before
  obtain ⟨symbols, distinct⟩ := Symbols.collect_clean (by simp) duplicates
  cases ordered : CausalGraph.ofScenario s with
  | error cycle =>
      simp only [check, ordered] at all
      have error := (Clean.append_iff.mp all).2 _ List.mem_cons_self
      cases error
  | ok graph =>
      refine ⟨graph, ?_, ⟨symbols, ?_, ?_, ordered⟩⟩
      · simp only [check, ordered]
      · rw [Symbols.ofScenario, symbols]
        exact distinct
      · exact fun d index member => Clean.flatMap_iff.mp declarations (d, index) member

end Scenario

-----------------------------------------------------------------------------------------
-- First declarations of names
-----------------------------------------------------------------------------------------

namespace Symbols

/-- The symbol is the first declaration of its name, counted from a place on. -/
def IsFirst (declarations : List (Declaration α)) (start : Nat) (symbol : Symbol α) : Prop :=
  ∃ offset, declarations.findIdx? (·.name? == some symbol.name) = some offset
    ∧ declarations[offset]? = some symbol.declaration ∧ symbol.index = start + offset

/-- The first declaration of a name in a longer row is its head or the first in the rest. -/
theorem isFirst_cons {d : Declaration α} {rest : List (Declaration α)} {start : Nat}
    {symbol : Symbol α}
    : IsFirst (d :: rest) start symbol
      ↔ d.name? = some symbol.name ∧ symbol.declaration = d ∧ symbol.index = start
        ∨ d.name? ≠ some symbol.name ∧ IsFirst rest (start + 1) symbol := by
  simp only [IsFirst, List.findIdx?_cons]
  by_cases here : d.name? = some symbol.name
  · simp only [here, beq_self_eq_true, if_true, true_and, not_true_eq_false, ne_eq, false_and,
      or_false]
    constructor
    · rintro ⟨offset, zero, found, place⟩
      cases zero
      exact ⟨(Option.some.inj found).symm, place⟩
    · rintro ⟨same, place⟩
      exact ⟨0, rfl, congrArg some same.symm, place⟩
  · have apart : (d.name? == some symbol.name) = false := by simpa using here
    simp only [apart, Bool.false_eq_true, if_false, here, false_and, false_or, ne_eq,
      not_false_eq_true, true_and, Option.map_eq_some_iff]
    constructor
    · rintro ⟨_, ⟨offset, found, rfl⟩, placed, place⟩
      exact ⟨offset, found, by simpa using placed, by omega⟩
    · rintro ⟨offset, found, placed, place⟩
      exact ⟨offset + 1, ⟨offset, found, rfl⟩, by simpa using placed, by omega⟩

/-- What is collected is what was known before, and the first declarations of other names. By
induction along the declarations.
-/
theorem mem_collect {known : Symbols α} {index : Nat} {declarations : List (Declaration α)}
    {symbol : Symbol α}
    : symbol ∈ (collect known index declarations).1
      ↔ symbol ∈ known
        ∨ symbol.name ∉ known.map (·.name) ∧ IsFirst declarations index symbol := by
  induction declarations generalizing known index with
  | nil => simp [collect, IsFirst]
  | cons d rest ih =>
      rw [isFirst_cons]
      simp only [collect]
      cases named : d.name? with
      | none => simp [ih]
      | some name =>
          cases owner : find? known name with
          | some earlier =>
              have old : name ∈ known.map (·.name) := by
                by_contra fresh
                rw [find?_eq_none_iff.mpr fresh] at owner
                cases owner
              simp only [owner, ih]
              have other (fresh : symbol.name ∉ known.map (·.name)) : name ≠ symbol.name := by
                rintro rfl
                exact fresh old
              constructor
              · rintro (there | ⟨fresh, first⟩)
                · exact Or.inl there
                · exact Or.inr ⟨fresh, Or.inr ⟨by simpa using other fresh, first⟩⟩
              · rintro (there | ⟨fresh, ⟨same, -⟩ | ⟨-, first⟩⟩)
                · exact Or.inl there
                · exact absurd (Option.some.inj same) (other fresh)
                · exact Or.inr ⟨fresh, first⟩
          | none =>
              have fresh := find?_eq_none_iff.mp owner
              simp only [owner, ih, List.mem_append, List.mem_singleton, List.map_append,
                List.map_cons, List.map_nil, not_or, ne_eq, Option.some.injEq]
              constructor
              · rintro ((there | rfl) | ⟨⟨out, apart⟩, first⟩)
                · exact Or.inl there
                · exact Or.inr ⟨fresh, Or.inl ⟨rfl, rfl, rfl⟩⟩
                · exact Or.inr ⟨out, Or.inr ⟨fun same => apart same.symm, first⟩⟩
              · rintro (there | ⟨out, ⟨same, decl, place⟩ | ⟨apart, first⟩⟩)
                · exact Or.inl (Or.inl there)
                · refine Or.inl (Or.inr ?_)
                  obtain ⟨own, index, declaration⟩ := symbol
                  cases same
                  cases decl
                  cases place
                  rfl
                · exact Or.inr ⟨⟨out, fun same => apart same.symm⟩, first⟩

/-- Symbols are collected in the order of their places, by induction along the declarations. -/
theorem collect_sorted {known : Symbols α} {index : Nat} {declarations : List (Declaration α)}
    (sorted : known.Pairwise (·.index < ·.index)) (before : ∀ symbol ∈ known, symbol.index < index)
    : (collect known index declarations).1.Pairwise (·.index < ·.index) := by
  induction declarations generalizing known index with
  | nil => exact sorted
  | cons d rest ih =>
      have passed : ∀ symbol ∈ known, symbol.index < index + 1 :=
        fun symbol member => Nat.lt_succ_of_lt (before symbol member)
      simp only [collect]
      cases d.name? with
      | none => exact ih sorted passed
      | some name =>
          simp only
          cases find? known name with
          | some earlier => exact ih sorted passed
          | none =>
              refine ih (List.pairwise_append.mpr ⟨sorted, List.pairwise_singleton _ _, ?_⟩) ?_
              · intro symbol member last is
                rw [List.mem_singleton.mp is]
                exact before symbol member
              · intro symbol member
                rcases List.mem_append.mp member with old | last
                · exact passed symbol old
                · rw [List.mem_singleton.mp last]
                  exact Nat.lt_succ_self index

theorem mem_ofScenario {s : Scenario α} {symbol : Symbol α}
    : symbol ∈ ofScenario s ↔ IsFirst s.declarations 0 symbol := by
  simp [ofScenario, mem_collect]

theorem ofScenario_sorted (s : Scenario α)
    : (ofScenario s).Pairwise (·.index < ·.index) :=
  collect_sorted .nil (by simp)

/-- Symbols have different names: symbols of one name would have one place. -/
theorem ofScenario_distinct (s : Scenario α) : ((ofScenario s).map (·.name)).Nodup := by
  refine List.pairwise_map.mpr ((ofScenario_sorted s).imp_of_mem ?_)
  intro symbol other member memberOther before same
  obtain ⟨offset, found, -, place⟩ := mem_ofScenario.mp member
  obtain ⟨offset', found', -, place'⟩ := mem_ofScenario.mp memberOther
  rw [same, found'] at found
  cases found
  omega

/-- Where all names are different, every named declaration becomes a symbol, and there is
nothing to report. By induction along the declarations.
-/
theorem collect_of_distinct {known : Symbols α} {index : Nat}
    {declarations : List (Declaration α)}
    (distinct : (known.map (·.name) ++ declarations.filterMap (·.name?)).Nodup)
    : collect known index declarations = (known ++ named index declarations, []) := by
  induction declarations generalizing known index with
  | nil => simp [collect, named]
  | cons d rest ih =>
      simp only [collect]
      cases name : d.name? with
      | none =>
          have same : named index (d :: rest) = named (index + 1) rest := by
            simp [named, List.zipIdx_cons, name]
          rw [List.filterMap_cons, name] at distinct
          rw [same]
          exact ih distinct
      | some text =>
          have more : named index (d :: rest) = ⟨text, index, d⟩ :: named (index + 1) rest := by
            simp [named, List.zipIdx_cons, name]
          rw [List.filterMap_cons, name] at distinct
          have fresh : text ∉ known.map (·.name) := by
            rw [List.nodup_append] at distinct
            exact fun member => distinct.2.2 text member text (by simp) rfl
          have grown : collect (known ++ [⟨text, index, d⟩]) (index + 1) rest
              = (known ++ [⟨text, index, d⟩] ++ named (index + 1) rest, []) :=
            ih (by simpa using distinct)
          simp only [find?_eq_none_iff.mpr fresh, grown, more, List.append_assoc,
            List.singleton_append]

end Symbols

-----------------------------------------------------------------------------------------
-- Owners
-----------------------------------------------------------------------------------------

namespace Scenario

/-- Place of the first declaration of a name. -/
def place? (s : Scenario α) (name : String) : Option Nat :=
  s.declarations.findIdx? (·.name? == some name)

/-- The first declaration of one name stands before that of the other. -/
def DeclaredBefore (s : Scenario α) (name other : String) : Prop :=
  ∃ place later, s.place? name = some place ∧ s.place? other = some later ∧ place < later

/-- The named value that owns a name: the first declaration of the name, if it is one. -/
def owner? (s : Scenario α) (name : String) : Option (Quantity α) :=
  (s.find? name).bind (·.quantity?)

/-- The name is owned by a named value or by an import. -/
def IsNode (s : Scenario α) (name : String) : Prop :=
  ∃ d, s.find? name = some d ∧ d.referent?.isSome = true

variable {s : Scenario α}

/-- The symbol of a name is its first declaration, at the place of that. -/
theorem find?_symbol {name : String} {symbol : Symbol α}
    : (Symbols.ofScenario s).find? name = some symbol
      ↔ symbol.name = name ∧ s.place? name = some symbol.index
        ∧ s.declarations[symbol.index]? = some symbol.declaration := by
  rw [Symbols.find?_eq_some_iff (Symbols.ofScenario_distinct s), Symbols.mem_ofScenario]
  simp only [Symbols.IsFirst, Nat.zero_add, place?]
  constructor
  · rintro ⟨⟨offset, found, placed, same⟩, rfl⟩
    exact ⟨rfl, same ▸ found, same ▸ placed⟩
  · rintro ⟨rfl, found, placed⟩
    exact ⟨⟨_, found, placed, rfl⟩, rfl⟩

/-- Symbols are found as declarations are. -/
theorem find?_declaration (s : Scenario α) (name : String)
    : ((Symbols.ofScenario s).find? name).map (·.declaration) = s.find? name := by
  cases found : s.find? name with
  | none =>
      rw [Option.map_eq_none_iff]
      cases symbolFound : (Symbols.ofScenario s).find? name with
      | none => rfl
      | some symbol =>
          obtain ⟨-, place, -⟩ := find?_symbol.mp symbolFound
          have absent : s.place? name = none :=
            List.findIdx?_eq_none_iff.mpr fun d member => by
              simpa using List.find?_eq_none.mp found d member
          rw [absent] at place
          cases place
  | some d =>
      obtain ⟨named, index, bound, is, first⟩ := List.find?_eq_some_iff_getElem.mp found
      have place : s.place? name = some index := by
        refine List.findIdx?_eq_some_iff_getElem.mpr ⟨bound, is ▸ named, fun earlier less => ?_⟩
        simpa using first earlier less
      have owns : (Symbols.ofScenario s).find? name = some ⟨name, index, d⟩ :=
        find?_symbol.mpr ⟨rfl, place, List.getElem?_eq_some_iff.mpr ⟨bound, is⟩⟩
      rw [owns, Option.map_some]

/-- The named value of a symbol is the owner of its name. -/
theorem quantity?_eq_owner? (s : Scenario α) (name : String)
    : (Symbols.ofScenario s).quantity? name = s.owner? name := by
  rw [owner?, ← find?_declaration, Symbols.quantity?]
  cases (Symbols.ofScenario s).find? name <;> rfl

end Scenario

end Prognosis
