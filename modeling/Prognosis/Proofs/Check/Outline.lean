import Mathlib.Data.List.Forall2
import Prognosis.Proofs.Check.Graph

/-! Scenarios in which declarations are exchanged for others that look the same from outside. Checks
see a scenario through its symbols, and of those only what names refer to: the kinds of named
values, imports, and their order. So all declarations are checked as before when others of the same
names and kinds take the places of some.
-/

namespace Prognosis

open Relation

variable {α : Type}

-----------------------------------------------------------------------------------------
-- What checks see
-----------------------------------------------------------------------------------------

/-- A name refers to an import. -/
def Referent.isImport : Referent α → Bool
  | .quantity _ => false
  | .imported _ => true

namespace Check

variable {symbols symbols' : Symbols α} {index index' : Nat}

/-- The symbols show the same to a declaration at one place as to one at the other place. -/
structure SameView (symbols symbols' : Symbols α) (index index' : Nat) : Prop where
  referents
    : ∀ path,
        (symbols'.referent? path).map Referent.isImport
          = (symbols.referent? path).map Referent.isImport
  quantities
    : ∀ name,
        (symbols'.quantity? name).map Quantity.kind = (symbols.quantity? name).map Quantity.kind
  declared : checkName symbols' .declared = checkName symbols .declared
  constants : checkName symbols' .constants = checkName symbols .constants
  before : checkName symbols' (.constantsBefore index') = checkName symbols (.constantsBefore index)

theorem checkExpression_same {scope scope' : Scope}
    (same : checkName symbols' scope' = checkName symbols scope)
    : checkExpression symbols' scope' = checkExpression symbols scope := by
  funext owner span e
  simp only [checkExpression, same]

/-- Expressions over the names of a list are checked without symbols. -/
theorem checkExpression_only (symbols symbols' : Symbols α) (names : List String)
    : checkExpression symbols' (.only names) = checkExpression symbols (.only names) :=
  rfl

namespace SameView

theorem isNone_referent (same : SameView symbols symbols' index index') (path : Path)
    : (symbols'.referent? path).isNone = (symbols.referent? path).isNone := by
  rw [← Option.isNone_map (f := Referent.isImport), same.referents, Option.isNone_map]

theorem checkListed (same : SameView symbols symbols' index index')
    : Check.checkListed symbols' = Check.checkListed symbols := by
  funext key owner span paths
  refine List.filterMap_congr fun path _ => ?_
  have referents := same.referents path
  cases found : symbols.referent? path <;> cases found' : symbols'.referent? path <;>
    simp_all

theorem checkReads (same : SameView symbols symbols' index index')
    : Check.checkReads symbols' = Check.checkReads symbols := by
  funext key owner span listed e
  refine List.filterMap_congr fun (path, own) _ => ?_
  have quantities := same.quantities path.root
  cases found : symbols.quantity? path.root <;> cases found' : symbols'.quantity? path.root <;>
    simp_all [Quantity.isConstant]

/-- Anchors are checked alike, by induction along them. -/
theorem checkAnchors (same : SameView symbols symbols' index index') (owner : Owner) (span : Span)
    (previous : Option PartialDate) (anchors : List (Anchor α))
    : Check.checkAnchors symbols' owner span previous anchors
      = Check.checkAnchors symbols owner span previous anchors := by
  induction anchors generalizing previous with
  | nil => rfl
  | cons a rest ih => simp only [Check.checkAnchors, checkExpression_same same.constants, ih]

theorem checkImpact (same : SameView symbols symbols' index index') (i : Impact α)
    : Check.checkImpact symbols' i = Check.checkImpact symbols i := by
  simp only [Check.checkImpact, same.checkListed, checkExpression_same same.declared,
    same.checkReads]
  cases i.formula with
  | some e => rfl
  | none =>
      refine congrArg (_ ++ ·) (List.filterMap_congr fun path _ => ?_)
      have referents := same.referents path
      rcases found : symbols.referent? path with _ | ⟨_ | _⟩ <;>
        rcases found' : symbols'.referent? path with _ | ⟨_ | _⟩ <;>
          simp_all [Referent.isImport]

end SameView

theorem checkRules_same (symbols symbols' : Symbols α)
    : checkRules symbols' = checkRules symbols :=
  rfl

variable [Scalar α]

theorem checkDistribution_same {scope scope' : Scope}
    (same : checkName symbols' scope' = checkName symbols scope)
    : checkDistribution symbols' scope' = checkDistribution symbols scope := by
  funext owner d
  simp only [checkDistribution, checkExpression_same same]

namespace SameView

theorem checkAssumption (same : SameView symbols symbols' index index') (nested : Bool)
    (a : Assumption α)
    : Check.checkAssumption symbols' index' nested a
      = Check.checkAssumption symbols index nested a := by
  simp only [Check.checkAssumption, checkExpression_same same.before,
    checkDistribution_same same.before, checkExpression_only symbols symbols' transformNames,
    checkRules_same symbols symbols']

theorem checkParameter (same : SameView symbols symbols' index index') (p : Parameter α)
    : Check.checkParameter symbols' index' p = Check.checkParameter symbols index p := by
  simp only [Check.checkParameter, checkExpression_same same.before,
    checkDistribution_same same.before]

theorem checkVariable (same : SameView symbols symbols' index index') (nested : Bool)
    (v : Variable α)
    : Check.checkVariable symbols' nested v = Check.checkVariable symbols nested v := by
  simp only [Check.checkVariable, same.checkListed, same.checkAnchors,
    checkExpression_same same.declared, same.checkReads, checkDistribution_same same.declared]

theorem checkQuantity (same : SameView symbols symbols' index index') (nested : Bool)
    (q : Quantity α)
    : Check.checkQuantity symbols' index' nested q
      = Check.checkQuantity symbols index nested q := by
  cases q with
  | assumption a => exact same.checkAssumption nested a
  | parameter p => exact same.checkParameter p
  | varying v => exact same.checkVariable nested v
  | impact i => exact same.checkImpact i

/-- All declarations but branches are checked alike. -/
theorem checkDeclaration (same : SameView symbols symbols' index index') {d : Declaration α}
    (plain : d.branch? = none)
    : Check.checkDeclaration symbols' index' d = Check.checkDeclaration symbols index d := by
  cases d with
  | quantity q => exact same.checkQuantity false q
  | branch b => cases plain
  | simulate _ | imported _ => rfl
  | watch w =>
      simp only [Check.checkDeclaration, checkWatch, same.isNone_referent,
        checkRules_same symbols symbols']
  | calibrate c =>
      simp only [Check.checkDeclaration, checkCalibrate, same.isNone_referent,
        checkDistribution_same same.declared]

end SameView

end Check

-----------------------------------------------------------------------------------------
-- Declarations that look the same
-----------------------------------------------------------------------------------------

/-- The declarations have the same name and look the same to those that refer to them. Branches are
the same ones.
-/
structure Declaration.Alike (d d' : Declaration α) : Prop where
  name : d'.name? = d.name?
  kind : d'.quantity?.map (·.kind) = d.quantity?.map (·.kind)
  referent : d'.referent?.map Referent.isImport = d.referent?.map Referent.isImport
  branch : d'.branch? = d.branch?

theorem Declaration.Alike.refl (d : Declaration α) : d.Alike d :=
  ⟨rfl, rfl, rfl, rfl⟩

/-- Named values of one name and one kind look the same. -/
theorem Declaration.Alike.quantity {q q' : Quantity α} (name : q'.name = q.name)
    (kind : q'.kind = q.kind)
    : (Declaration.quantity q).Alike (.quantity q') :=
  ⟨congrArg some name, congrArg some kind, rfl, rfl⟩

namespace Scenario

variable {s : Scenario α} {ds : List (Declaration α)}

/-- The scenario with other declarations. -/
def withDeclarations (s : Scenario α) (ds : List (Declaration α)) : Scenario α :=
  { s with declarations := ds }

/-- Each declaration looks like the one at its place. -/
def Outlined (s : Scenario α) (ds : List (Declaration α)) : Prop :=
  List.Forall₂ Declaration.Alike s.declarations ds

namespace Outlined

theorem placed (outlined : s.Outlined ds) {place : Nat} {d : Declaration α}
    (placed : s.declarations[place]? = some d)
    : ∃ d', ds[place]? = some d' ∧ d.Alike d' := by
  obtain ⟨bound, rfl⟩ := List.getElem?_eq_some_iff.mp placed
  have bound' : place < ds.length := outlined.length_eq ▸ bound
  exact ⟨ds[place], List.getElem?_eq_getElem bound', outlined.get bound bound'⟩

/-- Names have their first declarations at the same places. By induction along the declarations. -/
theorem place? (outlined : s.Outlined ds) (name : String)
    : (s.withDeclarations ds).place? name = s.place? name := by
  have along {front other : List (Declaration α)}
      (alike : List.Forall₂ Declaration.Alike front other)
      : other.findIdx? (·.name? == some name) = front.findIdx? (·.name? == some name) := by
    induction alike with
    | nil => rfl
    | cons here _ ih => simp only [List.findIdx?_cons, here.name, ih]
  exact along outlined

/-- What is seen of all declarations is the same. By induction along the declarations. -/
theorem filterMap_eq (outlined : s.Outlined ds) {β : Type} {f : Declaration α → Option β}
    (same : ∀ {d d' : Declaration α}, d.Alike d' → f d' = f d)
    : ds.filterMap f = s.declarations.filterMap f := by
  have along {front other : List (Declaration α)}
      (alike : List.Forall₂ Declaration.Alike front other)
      : other.filterMap f = front.filterMap f := by
    induction alike with
    | nil => rfl
    | cons here _ ih => simp only [List.filterMap_cons, same here, ih]
  exact along outlined

/-- The names of all declarations are the same. -/
theorem names (outlined : s.Outlined ds)
    : ds.filterMap (·.name?) = s.declarations.filterMap (·.name?) :=
  outlined.filterMap_eq Declaration.Alike.name

/-- So are the branches. -/
theorem branches (outlined : s.Outlined ds) : (s.withDeclarations ds).branches = s.branches :=
  outlined.filterMap_eq Declaration.Alike.branch

/-- A name is declared nowhere, or at one place by declarations that look the same. -/
theorem find?_cases (outlined : s.Outlined ds) (name : String)
    : ((Symbols.ofScenario s).find? name = none
          ∧ (Symbols.ofScenario (s.withDeclarations ds)).find? name = none)
        ∨ ∃ place d d', (Symbols.ofScenario s).find? name = some ⟨name, place, d⟩
            ∧ (Symbols.ofScenario (s.withDeclarations ds)).find? name = some ⟨name, place, d'⟩
            ∧ d.Alike d' := by
  cases found : (Symbols.ofScenario s).find? name with
  | none =>
      refine Or.inl ⟨rfl, ?_⟩
      cases found' : (Symbols.ofScenario (s.withDeclarations ds)).find? name with
      | none => rfl
      | some symbol =>
          obtain ⟨named, place, -⟩ := find?_symbol.mp found'
          rw [outlined.place?] at place
          have bound : symbol.index < s.declarations.length :=
            (List.findIdx?_eq_some_iff_getElem.mp place).1
          have there : (Symbols.ofScenario s).find? name
              = some ⟨name, symbol.index, s.declarations[symbol.index]⟩ :=
            find?_symbol.mpr ⟨rfl, place, List.getElem?_eq_getElem bound⟩
          rw [found] at there
          cases there
  | some symbol =>
      obtain ⟨own, place, d⟩ := symbol
      obtain ⟨rfl, first, placed⟩ := find?_symbol.mp found
      obtain ⟨d', placed', alike⟩ := outlined.placed placed
      refine Or.inr ⟨place, d, d', rfl, ?_, alike⟩
      exact find?_symbol.mpr ⟨rfl, (outlined.place? own).trans first, placed'⟩

/-- The checks see the same. -/
theorem sameView (outlined : s.Outlined ds) (index : Nat)
    : Check.SameView (Symbols.ofScenario s) (Symbols.ofScenario (s.withDeclarations ds)) index
        index := by
  constructor
  case referents =>
    intro path
    rcases outlined.find?_cases path.root with
      ⟨found, found'⟩ | ⟨place, d, d', found, found', alike⟩
    · simp [Symbols.referent?, found, found']
    · simpa [Symbols.referent?, found, found'] using alike.referent
  case quantities =>
    intro name
    rcases outlined.find?_cases name with ⟨found, found'⟩ | ⟨place, d, d', found, found', alike⟩
    · simp [Symbols.quantity?, found, found']
    · simpa [Symbols.quantity?, found, found'] using alike.kind
  all_goals
    funext owner path
    rcases outlined.find?_cases path.root with
      ⟨found, found'⟩ | ⟨place, d, d', found, found', alike⟩
    · simp [Check.checkName, found, found']
    · obtain ⟨-, kind, referent, -⟩ := alike
      cases d <;> cases d' <;>
        simp_all [Check.checkName, Declaration.referent?, Declaration.quantity?,
          Referent.isImport, Quantity.isConstant]

/-- The same names are owned by named values or imports. -/
theorem isNode_iff (outlined : s.Outlined ds) {name : String}
    : (s.withDeclarations ds).IsNode name ↔ s.IsNode name := by
  simp only [IsNode, ← find?_declaration, Option.map_eq_some_iff]
  rcases outlined.find?_cases name with ⟨found, found'⟩ | ⟨place, d, d', found, found', alike⟩
  · simp [found, found']
  · have referent := congrArg Option.isSome alike.referent
    simp only [Option.isSome_map] at referent
    simp [found, found', referent]

/-- The owner of a name is at the place of an owner that looks the same. -/
theorem owner?_cases (outlined : s.Outlined ds) {name : String} {q' : Quantity α}
    (owns : (s.withDeclarations ds).owner? name = some q')
    : ∃ (place : Nat) (q : Quantity α), s.owner? name = some q
        ∧ s.declarations[place]? = some (.quantity q) ∧ ds[place]? = some (.quantity q')
        ∧ q'.kind = q.kind := by
  rw [← quantity?_eq_owner?, Symbols.quantity?] at owns
  rcases outlined.find?_cases name with ⟨-, found'⟩ | ⟨place, d, d', found, found', alike⟩
  · rw [found'] at owns
    cases owns
  · rw [found', Option.bind_some] at owns
    obtain ⟨q, declared, kind⟩ : ∃ q, d.quantity? = some q ∧ q'.kind = q.kind := by
      have same := alike.kind
      rw [owns, Option.map_some] at same
      obtain ⟨q, declared, kind⟩ := Option.map_eq_some_iff.mp same.symm
      exact ⟨q, declared, kind.symm⟩
    cases d with
    | quantity _ =>
        cases declared
        cases d' with
        | quantity _ =>
            cases owns
            refine ⟨place, q, ?_, (find?_symbol.mp found).2.2, (find?_symbol.mp found').2.2, kind⟩
            rw [← quantity?_eq_owner?, Symbols.quantity?, found, Option.bind_some]
            rfl
        | branch _ | simulate _ | watch _ | calibrate _ | imported _ => cases owns
    | branch _ | simulate _ | watch _ | calibrate _ | imported _ => cases declared

-----------------------------------------------------------------------------------------
-- Checks
-----------------------------------------------------------------------------------------

variable [Scalar α]

theorem checkOverride (outlined : s.Outlined ds) (owner : Owner) (nested : Quantity α)
    : Check.checkOverride (Symbols.ofScenario (s.withDeclarations ds)) owner nested
      = Check.checkOverride (Symbols.ofScenario s) owner nested := by
  have override : (Symbols.ofScenario (s.withDeclarations ds)).isOverride nested
      = (Symbols.ofScenario s).isOverride nested := by
    have kind := (outlined.sameView 0).quantities nested.name
    simp only [Symbols.isOverride]
    cases found : (Symbols.ofScenario s).quantity? nested.name <;>
      cases found' : (Symbols.ofScenario (s.withDeclarations ds)).quantity? nested.name <;>
        simp_all
  simp only [Check.checkOverride, override]
  rcases outlined.find?_cases nested.name with
    ⟨found, found'⟩ | ⟨place, d, d', found, found', -⟩
  · simp only [found, found']
  · simp only [found, found', (outlined.sameView place).checkQuantity]

/-- Every declaration is checked as before. -/
theorem checkDeclaration (outlined : s.Outlined ds) (place : Nat) (d : Declaration α)
    : Check.checkDeclaration (Symbols.ofScenario (s.withDeclarations ds)) place d
      = Check.checkDeclaration (Symbols.ofScenario s) place d := by
  have view := outlined.sameView place
  cases d with
  | branch b =>
      have overrides := funext₂ outlined.checkOverride
      simp only [Check.checkDeclaration, Check.checkBranch, overrides,
        Check.checkExpression_same view.declared]
  | quantity _ | simulate _ | watch _ | calibrate _ | imported _ => exact view.checkDeclaration rfl

/-- When all that is exchanged has errors of one sort only, and nothing comes before itself, the
scenario has errors of that sort only.
-/
theorem check_errors (outlined : s.Outlined ds) (clean : s.check.errors = [])
    (acyclic : ∀ name, ¬TransGen (s.withDeclarations ds).Precedes name name)
    {sort : Located (Finding α) → Prop}
    (each
      : ∀ place d, ds[place]? = some d
          → ∀ l ∈ Check.checkDeclaration (Symbols.ofScenario s) place d,
              l.isError = true → sort l)
    : (∃ graph, (s.withDeclarations ds).check.graph = some graph)
      ∧ ∀ l ∈ (s.withDeclarations ds).check.errors, sort l := by
  obtain ⟨graph, -, accepted⟩ := accepted_of_clean clean
  have all := Clean.of_errors_nil clean
  rw [check_of_order accepted.graph] at all
  obtain ⟨metadata, -⟩ := Clean.append_iff.mp (Clean.append_iff.mp all).1
  have collected : Symbols.collect [] 0 (s.withDeclarations ds).declarations
      = (Symbols.named 0 ds, []) :=
    Symbols.collect_of_distinct (outlined.names ▸ accepted.declarations_distinct)
  obtain ⟨order, found, -⟩ := exists_order acyclic
  rw [check_of_order found]
  refine ⟨⟨_, rfl⟩, fun l reported => ?_⟩
  obtain ⟨member, error⟩ := List.mem_filter.mp reported
  have findings : (s.withDeclarations ds).findings
      = Check.checkMetadata s
        ++ ds.zipIdx.flatMap fun placed =>
          Check.checkDeclaration (Symbols.ofScenario (s.withDeclarations ds)) placed.2
            placed.1 := by
    rw [Scenario.findings, collected, List.append_nil]
    rfl
  rw [findings] at member
  rcases List.mem_append.mp member with whole | part
  · rw [metadata l whole] at error
    cases error
  · obtain ⟨⟨d, place⟩, placed, among⟩ := List.mem_flatMap.mp part
    simp only [outlined.checkDeclaration] at among
    exact each place d (List.mem_zipIdx_iff_getElem?.mp placed) l among error

end Outlined

end Scenario

-----------------------------------------------------------------------------------------
-- Cycles
-----------------------------------------------------------------------------------------

/-- A relation has no cycles when its edges that follow on others are edges of one without. -/
theorem acyclic_of_edges {r r' : String → String → Prop} (acyclic : ∀ name, ¬TransGen r name name)
    (edges : ∀ before root name, r' before root → r' root name → r root name) (name : String)
    : ¬TransGen r' name name := by
  have along {first last : String} (path : TransGen r' first last)
      (entered : ∃ before, r' before first)
      : TransGen r first last := by
    obtain ⟨before, enters⟩ := entered
    induction path with
    | single edge => exact .single (edges before first _ enters edge)
    | tail path edge ih =>
        obtain ⟨previous, -, into⟩ := TransGen.tail'_iff.mp path
        exact ih.tail (edges _ _ _ into edge)
  intro round
  obtain ⟨previous, -, into⟩ := TransGen.tail'_iff.mp round
  exact acyclic name (along round ⟨previous, into⟩)

end Prognosis
