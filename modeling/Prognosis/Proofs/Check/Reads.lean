import Prognosis.Proofs.Check.Symbols
import Prognosis.Proofs.Simulation.Reads

/-! What clean checks say of the names that declarations read and of the functions that they
call. The checks find every read that simulation makes.
-/

namespace Prognosis

variable {α : Type}

-----------------------------------------------------------------------------------------
-- Expressions
-----------------------------------------------------------------------------------------

/-- The named value that owns a name lies within a scope of names. -/
def Symbols.Admits (symbols : Symbols α) (scope : Check.Scope) (root : String) : Prop :=
  ∃ symbol q, symbols.find? root = some symbol ∧ symbol.declaration = .quantity q
    ∧ match scope with
      | .only _ => False
      | .declared => True
      | .constants => q.isConstant = true
      | .constantsBefore index => q.isConstant = true ∧ symbol.index < index

namespace Check

variable {symbols : Symbols α} {scope : Scope} {owner : Owner}

/-- The expression calls known functions and reads names within the scope only. -/
structure Reads (symbols : Symbols α) (scope : Scope) (e : Expr α) : Prop where
  calls : e.CallsKnown
  names : ∀ root ∈ e.roots, symbols.Admits scope root

/-- A name without a finding lies within its scope. -/
theorem admits_of_checkName (owner : Owner) {path : Path} (closed : ∀ names, scope ≠ .only names)
    (clean : ∀ finding, checkName symbols scope owner path = some finding
      → (⟨finding, none⟩ : Located (Finding α)).isError = false)
    : symbols.Admits scope path.root := by
  cases found : symbols.find? path.root with
  | none =>
      cases scope with
      | only names => exact absurd rfl (closed names)
      | declared | constants | constantsBefore index =>
          have error := clean (.unresolved path owner) (by simp [checkName, found])
          cases error
  | some symbol =>
      cases declaration : symbol.declaration with
      | quantity q =>
          refine ⟨symbol, q, found, declaration, ?_⟩
          cases scope with
          | only names => exact absurd rfl (closed names)
          | declared => trivial
          | constants =>
              by_contra varying
              have error := clean (.readsVarying owner q.kind path) (by
                simp [checkName, found, declaration, Declaration.referent?, varying])
              cases error
          | constantsBefore index =>
              by_cases constant : q.isConstant = true
              · refine ⟨constant, ?_⟩
                by_contra late
                have error := clean (.readsLater owner path) (by
                  simp [checkName, found, declaration, Declaration.referent?, constant]
                  omega)
                cases error
              · have error := clean (.readsVarying owner q.kind path) (by
                  simp [checkName, found, declaration, Declaration.referent?, constant])
                cases error
      | imported i =>
          cases scope with
          | only names => exact absurd rfl (closed names)
          | declared | constants | constantsBefore index =>
              have error := clean (.readsImport owner path) (by
                simp [checkName, found, declaration, Declaration.referent?])
              cases error
      | branch _ | simulate _ | watch _ | calibrate _ =>
          cases scope with
          | only names => exact absurd rfl (closed names)
          | declared | constants | constantsBefore index =>
              have error := clean (.unresolved path owner) (by
                simp [checkName, found, declaration, Declaration.referent?])
              cases error

/-- An expression that is checked without an error reads within its scope. -/
theorem reads_of_checkExpression {span : Option Span} {e : Expr α}
    (closed : ∀ names, scope ≠ .only names)
    (clean : Clean (checkExpression symbols scope owner span e))
    : Reads symbols scope e := by
  obtain ⟨calls, names⟩ := Clean.append_iff.mp clean
  constructor
  · intro function positional named own below unknown
    have error := calls ⟨.unknownFunction function owner, own.or span⟩
      (List.mem_filterMap.mpr ⟨_, below, by simp [checkCall, unknown]⟩)
    cases error
  · intro root read
    obtain ⟨⟨path, own⟩, member, rfl⟩ := List.mem_map.mp read
    apply admits_of_checkName owner closed
    intro finding found
    exact names ⟨finding, own.or span⟩
      (List.mem_filterMap.mpr ⟨_, member, by simp [found]⟩)

-----------------------------------------------------------------------------------------
-- Declarations
-----------------------------------------------------------------------------------------

/-- The expressions of a declaration at a place call known functions. Constants read constants
before the place, anchors read constants, and all else reads named values.
-/
structure QuantityReads (symbols : Symbols α) (index : Nat) (q : Quantity α) : Prop where
  constant : ∀ e ∈ q.constantExpressions, Reads symbols (.constantsBefore index) e
  anchor : ∀ e ∈ q.anchorExpressions, Reads symbols .constants e
  timed : ∀ e ∈ q.expressions, Reads symbols .declared e
  summed : ∀ root ∈ q.summedRoots, symbols.Admits .declared root

variable {index : Nat} {nested : Bool}

namespace QuantityReads

variable {q : Quantity α}

theorem callsKnown (reads : QuantityReads symbols index q) : q.CallsKnown := {
  constant := fun e member => (reads.constant e member).calls
  anchor := fun e member => (reads.anchor e member).calls
  timed := fun e member => (reads.timed e member).calls
}

theorem constantRoots (reads : QuantityReads symbols index q) {root : String}
    (read : root ∈ q.constantRoots)
    : symbols.Admits (.constantsBefore index) root := by
  obtain ⟨e, member, below⟩ := List.mem_flatMap.mp read
  exact (reads.constant e member).names root below

theorem anchorRoots (reads : QuantityReads symbols index q) {root : String}
    (read : root ∈ q.anchorRoots)
    : symbols.Admits .constants root := by
  obtain ⟨e, member, below⟩ := List.mem_flatMap.mp read
  exact (reads.anchor e member).names root below

theorem timedRoots (reads : QuantityReads symbols index q) {root : String}
    (read : root ∈ q.timedRoots)
    : symbols.Admits .declared root := by
  rcases List.mem_append.mp read with written | summed
  · obtain ⟨e, member, below⟩ := List.mem_flatMap.mp written
    exact (reads.timed e member).names root below
  · exact reads.summed root summed

end QuantityReads

/-- Anchors read constants, by induction along them. -/
theorem reads_of_checkAnchors {span : Span} {previous : Option PartialDate}
    {anchors : List (Anchor α)}
    (clean : Clean (checkAnchors symbols owner span previous anchors))
    : ∀ anchor ∈ anchors, Reads symbols .constants anchor.value := by
  induction anchors generalizing previous with
  | nil => simp
  | cons anchor rest ih =>
      simp only [checkAnchors, Clean.append_iff] at clean
      obtain ⟨⟨-, value⟩, others⟩ := clean
      intro other member
      rcases List.mem_cons.mp member with rfl | later
      · exact reads_of_checkExpression (by simp) value
      · exact ih others other later

/-- What an impact without a formula sums are named values: imports are refused. -/
theorem admits_of_summed {i : Impact α} {path : Path} (member : path ∈ i.derivesFrom)
    (listed : Clean (checkListed symbols .derivesFrom owner i.span i.derivesFrom))
    (sums
      : Clean (i.derivesFrom.filterMap fun path =>
          match symbols.referent? path with
          | some (.imported _) => some (report i.span (.sumsImport owner path : Finding α))
          | _ => none))
    : symbols.Admits .declared path.root := by
  cases found : symbols.referent? path with
  | none =>
      have error := listed (report i.span (.unresolvedListed path .derivesFrom owner))
        (List.mem_filterMap.mpr ⟨path, member, by simp only [found]⟩)
      cases error
  | some referent =>
      obtain ⟨symbol, owns, refers⟩ := Option.bind_eq_some_iff.mp found
      cases declaration : symbol.declaration with
      | quantity q => exact ⟨symbol, q, owns, declaration, trivial⟩
      | imported other =>
          simp only [declaration, Declaration.referent?, Option.some.injEq] at refers
          subst refers
          have error := sums (report i.span (.sumsImport owner path))
            (List.mem_filterMap.mpr ⟨path, member, by simp only [found]⟩)
          cases error
      | branch _ | simulate _ | watch _ | calibrate _ =>
          simp [declaration, Declaration.referent?] at refers

variable [Scalar α]

/-- The parameters of a distribution without an error read within their scope. -/
theorem reads_of_checkDistribution {d : Distribution α}
    (closed : ∀ names, scope ≠ .only names)
    (clean : Clean (checkDistribution symbols scope owner d))
    : ∀ e ∈ d.expressions, Reads symbols scope e := by
  intro e member
  have expressions := (Clean.append_iff.mp (Clean.append_iff.mp clean).1).2
  exact reads_of_checkExpression closed (Clean.flatMap_iff.mp expressions e member)

theorem quantityReads_assumption {a : Assumption α}
    (clean : Clean (checkAssumption symbols index nested a))
    : QuantityReads symbols index (.assumption a) := by
  simp only [checkAssumption, Clean.append_iff] at clean
  obtain ⟨⟨⟨⟨-, value⟩, uncertainty⟩, -⟩, -⟩ := clean
  refine ⟨fun e member => ?_, by simp [Quantity.anchorExpressions],
    by simp [Quantity.expressions], by simp [Quantity.summedRoots]⟩
  rcases List.mem_append.mp member with given | spread
  · exact reads_of_checkExpression (by simp) (Clean.flatMap_iff.mp value e given)
  · obtain ⟨d, declared, parameter⟩ := List.mem_flatMap.mp spread
    exact reads_of_checkDistribution (by simp) (Clean.flatMap_iff.mp uncertainty d declared) e
      parameter

theorem quantityReads_parameter {p : Parameter α}
    (clean : Clean (checkParameter symbols index p))
    : QuantityReads symbols index (.parameter p) := by
  simp only [checkParameter, Clean.append_iff] at clean
  obtain ⟨⟨value, range⟩, uncertainty⟩ := clean
  refine ⟨fun e member => ?_, by simp [Quantity.anchorExpressions],
    by simp [Quantity.expressions], by simp [Quantity.summedRoots]⟩
  rcases List.mem_append.mp member with front | spread
  · rcases List.mem_append.mp front with given | bound
    · exact reads_of_checkExpression (by simp)
        (Clean.flatMap_iff.mp value e (List.mem_append_left _ given))
    · obtain ⟨⟨low, high⟩, declared, either⟩ := List.mem_flatMap.mp bound
      have bounds := Clean.flatMap_iff.mp range (low, high) declared
      obtain ⟨⟨cleanLow, cleanHigh⟩, -⟩ := by
        simpa only [Clean.append_iff] using bounds
      simp only [List.mem_cons, List.not_mem_nil, or_false] at either
      rcases either with rfl | rfl
      · exact reads_of_checkExpression (by simp) cleanLow
      · exact reads_of_checkExpression (by simp) cleanHigh
  · obtain ⟨d, declared, parameter⟩ := List.mem_flatMap.mp spread
    exact reads_of_checkDistribution (by simp) (Clean.flatMap_iff.mp uncertainty d declared) e
      parameter

theorem quantityReads_varying {v : Variable α}
    (clean : Clean (checkVariable symbols nested v))
    : QuantityReads symbols index (.varying v) := by
  simp only [checkVariable, Clean.append_iff] at clean
  obtain ⟨⟨⟨-, anchors⟩, model⟩, uncertainty⟩ := clean
  refine ⟨by simp [Quantity.constantExpressions], fun e member => ?_, fun e member => ?_,
    by simp [Quantity.summedRoots]⟩
  · obtain ⟨anchor, given, rfl⟩ := List.mem_map.mp member
    exact reads_of_checkAnchors anchors anchor given
  · rcases List.mem_append.mp member with grown | spread
    · obtain ⟨m, declared, parameter⟩ := List.mem_flatMap.mp grown
      obtain ⟨entry, given, rfl⟩ := List.mem_map.mp parameter
      have parameters := (Clean.append_iff.mp (Clean.flatMap_iff.mp model m declared)).2
      have both := Clean.append_iff.mp (Clean.flatMap_iff.mp parameters entry given)
      exact reads_of_checkExpression (by simp) both.1
    · obtain ⟨d, declared, parameter⟩ := List.mem_flatMap.mp spread
      have given : v.uncertainty = some d := by simpa using declared
      rw [given] at uncertainty
      exact reads_of_checkDistribution (by simp) uncertainty e parameter

omit [Scalar α] in
theorem quantityReads_impact {i : Impact α} (clean : Clean (checkImpact symbols i))
    : QuantityReads symbols index (.impact i) := by
  simp only [checkImpact, Clean.append_iff] at clean
  obtain ⟨listed, formula⟩ := clean
  refine ⟨by simp [Quantity.constantExpressions], by simp [Quantity.anchorExpressions],
    fun e member => ?_, fun root read => ?_⟩
  · have given : i.formula = some e := by simpa [Quantity.expressions] using member
    rw [given] at formula
    exact reads_of_checkExpression (by simp) (Clean.append_iff.mp formula).1
  · simp only [Quantity.summedRoots] at read
    cases written : i.formula with
    | some e => simp [written] at read
    | none =>
        rw [written] at formula
        simp only [written, Option.isNone_none, if_true] at read
        obtain ⟨path, member, rfl⟩ := List.mem_map.mp read
        exact admits_of_summed member listed formula

/-- A declaration that is checked without an error reads what it may. -/
theorem quantityReads_of_checkQuantity (nested : Bool) {q : Quantity α}
    (clean : Clean (checkQuantity symbols index nested q))
    : QuantityReads symbols index q := by
  cases q with
  | assumption a => exact quantityReads_assumption clean
  | parameter p => exact quantityReads_parameter clean
  | varying v => exact quantityReads_varying clean
  | impact i => exact quantityReads_impact clean

/-- A declaration of a branch that takes the place of an owner reads what may be read there. -/
theorem quantityReads_of_checkOverride {q : Quantity α} (replaces : symbols.isOverride q = true)
    (clean : Clean (checkOverride symbols owner q))
    : ∃ symbol, symbols.find? q.name = some symbol
        ∧ QuantityReads symbols symbol.index q := by
  simp only [checkOverride, replaces, if_true] at clean
  cases found : symbols.find? q.name with
  | none => simp [Symbols.isOverride, Symbols.quantity?, found] at replaces
  | some symbol =>
      rw [found] at clean
      exact ⟨symbol, rfl, quantityReads_of_checkQuantity true clean⟩

end Check

end Prognosis

/-! When a distribution is checked without an error: its parameters have known names, read what may
be read, and fit their family. None of it depends on what the distribution belongs to.
-/

namespace Prognosis.Check

variable {α : Type} {symbols : Symbols α} {scope : Scope} {owner : Owner}

-----------------------------------------------------------------------------------------
-- Expressions
-----------------------------------------------------------------------------------------

/-- A name within its scope has no finding. -/
theorem checkName_of_admits (owner : Owner) {path : Path}
    (admits : symbols.Admits scope path.root)
    : checkName symbols scope owner path = none := by
  obtain ⟨symbol, q, found, is, within⟩ := admits
  cases scope with
  | only names => cases within
  | declared => simp [checkName, found, is, Declaration.referent?]
  | constants => simp [checkName, found, is, Declaration.referent?, within]
  | constantsBefore index =>
      simp [checkName, found, is, Declaration.referent?, within.1, Nat.not_le.mpr within.2]

/-- An expression is checked without an error when it reads within its scope, and only then. -/
theorem clean_checkExpression_iff (closed : ∀ names, scope ≠ .only names) {span : Option Span}
    {e : Expr α}
    : Clean (checkExpression symbols scope owner span e) ↔ Reads symbols scope e := by
  refine ⟨reads_of_checkExpression closed, fun reads => Clean.append_iff.mpr ⟨?_, ?_⟩⟩
  · intro l reported
    obtain ⟨node, below, found⟩ := List.mem_filterMap.mp reported
    cases node with
    | call function positional named own =>
        obtain ⟨builtin, known⟩ := Option.ne_none_iff_exists'.mp
          (reads.calls function positional named own below)
        simp [checkCall, known] at found
    | number _ _ | percentage _ _ | currency _ _ _ _ | text _ _ | boolean _ _ | name _ _
    | binary _ _ _ _ | unary _ _ _ => cases found
  · intro l reported
    obtain ⟨⟨path, own⟩, read, found⟩ := List.mem_filterMap.mp reported
    have root : path.root ∈ e.roots := List.mem_map.mpr ⟨(path, own), read, rfl⟩
    simp [checkName_of_admits owner (reads.names _ root)] at found

/-- What reads constants before a place reads declared values. -/
theorem Reads.declared {index : Nat} {e : Expr α} (reads : Reads symbols (.constantsBefore index) e)
    : Reads symbols .declared e := by
  refine ⟨reads.calls, fun root read => ?_⟩
  obtain ⟨symbol, q, found, is, -⟩ := reads.names root read
  exact ⟨symbol, q, found, is, trivial⟩

-----------------------------------------------------------------------------------------
-- Distributions
-----------------------------------------------------------------------------------------

variable [Scalar α] {d : Distribution α}

/-- What is wrong with the parameters is the same for all owners. -/
theorem checkParameters_isSome (kind : DistributionKind) (owner owner' : Owner) (values : List α)
    : (checkParameters kind owner values).isSome = (checkParameters kind owner' values).isSome := by
  simp only [checkParameters]
  split
  all_goals first
    | rfl
    | (split <;> rfl)

theorem checkArguments_isSome (d : Distribution α) (owner owner' : Owner)
    : (checkArguments d owner).isSome = (checkArguments d owner').isSome := by
  simp only [checkArguments]
  split
  · split
    · rfl
    · split
      · split <;> rfl
      · rfl
  · split
    · rfl
    · split
      · exact checkParameters_isSome _ owner owner' _
      · rfl

/-- And it is an error. -/
theorem isError_of_checkParameters {kind : DistributionKind} {values : List α} {finding : Finding α}
    (found : checkParameters kind owner values = some finding) (span : Option Span)
    : (⟨finding, span⟩ : Located (Finding α)).isError = true := by
  simp only [checkParameters] at found
  split at found
  all_goals first
    | (split at found
       · cases found
       · cases found
         rfl)
    | cases found

theorem isError_of_checkArguments {finding : Finding α}
    (found : checkArguments d owner = some finding) (span : Option Span)
    : (⟨finding, span⟩ : Located (Finding α)).isError = true := by
  simp only [checkArguments] at found
  split at found
  · split at found
    · cases found
      rfl
    · split at found
      · split at found
        · cases found
          rfl
        · cases found
      · cases found
  · split at found
    · cases found
      rfl
    · split at found
      · exact isError_of_checkParameters found span
      · cases found

/-- A distribution that is checked without an error has nothing wrong with its parameters. -/
theorem checkArguments_of_clean (clean : Clean (checkDistribution symbols scope owner d))
    : checkArguments d owner = none := by
  by_contra some
  obtain ⟨finding, found⟩ := Option.ne_none_iff_exists'.mp some
  have error := (Clean.append_iff.mp clean).2 ⟨finding, Option.some d.span⟩ (by simp [found])
  rw [isError_of_checkArguments found] at error
  cases error

/-- The distribution is as it must be: it names its own parameters, reads within a scope, and has
parameters that fit together.
-/
structure Fits (symbols : Symbols α) (scope : Scope) (d : Distribution α) : Prop where
  named : ∀ entry ∈ d.named, d.kind.parameters.contains entry.1 = true
  reads : ∀ e ∈ d.expressions, Reads symbols scope e
  arguments : ∀ owner, checkArguments d owner = none

/-- A distribution is checked without an error when it is as it must be, and only then. -/
theorem clean_checkDistribution_iff (closed : ∀ names, scope ≠ .only names)
    : Clean (checkDistribution symbols scope owner d) ↔ Fits symbols scope d := by
  constructor
  · intro clean
    have parts := clean
    simp only [checkDistribution, Clean.append_iff, Clean.flatMap_iff,
      clean_checkExpression_iff closed] at parts
    obtain ⟨⟨unknown, reads⟩, -⟩ := parts
    refine ⟨fun entry member => ?_, reads, fun owner' => ?_⟩
    · by_contra apart
      have error := unknown ⟨.unknownParameter d.kind owner entry.1, some d.span⟩
        (List.mem_map.mpr ⟨entry, List.mem_filter.mpr ⟨member, by simpa using apart⟩, rfl⟩)
      cases error
    · rw [← Option.not_isSome_iff_eq_none, checkArguments_isSome d owner' owner,
        Option.not_isSome_iff_eq_none]
      exact checkArguments_of_clean clean
  · intro fits
    simp only [checkDistribution, Clean.append_iff, Clean.flatMap_iff,
      clean_checkExpression_iff closed]
    refine ⟨⟨?_, fits.reads⟩, ?_⟩
    · intro l reported
      obtain ⟨entry, unknown, -⟩ := List.mem_map.mp reported
      obtain ⟨member, apart⟩ := List.mem_filter.mp unknown
      rw [fits.named entry member] at apart
      cases apart
    · intro l reported
      simp [fits.arguments owner] at reported

/-- A distribution that fits where constants before a place are read fits anywhere. -/
theorem Fits.declared {index : Nat} (fits : Fits symbols (.constantsBefore index) d)
    : Fits symbols .declared d :=
  ⟨fits.named, fun e member => (fits.reads e member).declared, fits.arguments⟩

end Prognosis.Check
