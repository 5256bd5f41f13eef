import Prognosis.Check.Symbols
import Prognosis.Value.Expr

/-! Checks of the declarations of a scenario, each against the names that are declared, and of the
expressions and distributions in them: what they call, what they read, and the parameters that can
be compared before anything is simulated.
-/

namespace Prognosis.Check

variable {α : Type} [Scalar α]

/-- Names that an expression may read: only those of a list, any that are declared, only
constants, or only constants that are declared before a place.
-/
inductive Scope where
  | only (names : List String)
  | declared
  | constants
  | constantsBefore (index : Nat)
  deriving DecidableEq, Repr

/-- What is wrong with a name that an expression reads. -/
def checkName (symbols : Symbols α) (scope : Scope) (owner : Owner) (path : Path)
    : Option (Finding α) :=
  match scope with
  | .only names => if names.contains path.text then none else some (.unavailable path owner names)
  | _ =>
      match symbols.find? path.root with
      | none => some (.unresolved path owner)
      | some symbol =>
          match symbol.declaration.referent? with
          | none => some (.unresolved path owner)
          | some (.imported _) => some (.readsImport owner path)
          | some (.quantity q) =>
              match scope with
              | .constants => if q.isConstant then none else some (.readsVarying owner q.kind path)
              | .constantsBefore index =>
                  if !q.isConstant then some (.readsVarying owner q.kind path)
                  else if index ≤ symbol.index then some (.readsLater owner path)
                  else none
              | _ => none

/-- What is wrong with a call, where the node is one. -/
def checkCall (owner : Owner) (span : Option Span) : Expr α → Option (Located (Finding α))
  | .call function _ _ own =>
      match Expr.Builtin.ofName? function with
      | some _ => none
      | none => some ⟨.unknownFunction function owner, own.or span⟩
  | _ => none

/-- What is wrong with an expression: first its calls, then the names that it reads. Without a
place of their own they are reported at the given one.
-/
def checkExpression (symbols : Symbols α) (scope : Scope) (owner : Owner) (span : Option Span)
    (e : Expr α) : List (Located (Finding α)) :=
  e.nodes.filterMap (checkCall owner span)
    ++ e.names.filterMap fun (path, own) =>
      (checkName symbols scope owner path).map fun finding => ⟨finding, own.or span⟩

/-- What is wrong with the parameters of a distribution that are literals, all of them being
there.
-/
def checkParameters (kind : DistributionKind) (owner : Owner) (values : List α)
    : Option (Finding α) :=
  let positive (x : α) : Bool := Scalar.lt Scalar.zero x
  match kind, values with
  | .uniform, [low, high] =>
      if Scalar.lt low high then none else some (.uniformOrder owner low high)
  | .beta, [a, b] => if positive a && positive b then none else some (.betaSign owner)
  | .triangular, [low, mode, high] =>
      if Scalar.le low mode && Scalar.le mode high then none else some (.triangularOrder owner)
  | .lognormal, [_, spread] =>
      if positive spread then none else some (.lognormalSpread owner spread)
  | _, _ => none

/-- What is wrong with the number and the order of the parameters. -/
def checkArguments (d : Distribution α) (owner : Owner) : Option (Finding α) :=
  let arguments := d.arguments
  let values := arguments.map fun argument => argument.bind Expr.literal?
  let complete := arguments.all Option.isSome
  match d.kind with
  | .normal =>
      if !complete || !(arguments.length == 1 || arguments.length == 2) then
        some (.normalCount owner arguments.length)
      else
        match values.getLast? with
        | some (some spread) =>
            if Scalar.lt spread Scalar.zero then some (.negativeSpread owner spread) else none
        | _ => none
  | kind =>
      if !complete || arguments.length != kind.parameters.length then
        some (.parameterCount kind owner arguments.length)
      else
        match values.mapM id with
        | some literals => checkParameters kind owner literals
        | none => none

/-- What is wrong with a distribution: names of parameters, the expressions given for them, and
then their number and order.
-/
def checkDistribution (symbols : Symbols α) (scope : Scope) (owner : Owner)
    (d : Distribution α) : List (Located (Finding α)) :=
  let span := some d.span
  let unknown := d.named.filter fun (key, _) => !d.kind.parameters.contains key
  unknown.map (fun (key, _) => ⟨.unknownParameter d.kind owner key, span⟩)
    ++ d.expressions.flatMap (checkExpression symbols scope owner span)
    ++ (checkArguments d owner).toList.map fun finding => ⟨finding, span⟩

/-- The number lies from zero to one. -/
def isShare (x : α) : Bool :=
  Scalar.le Scalar.zero x && Scalar.le x Scalar.one

/-- A finding at a place. -/
def report (span : Span) (finding : Finding α) : Located (Finding α) :=
  ⟨finding, some span⟩

/-- A finding at a place, where there is reason for it. -/
def reportIf (reason : Bool) (span : Span) (finding : Finding α) : List (Located (Finding α)) :=
  if reason then [report span finding] else []

/-- Names that rules of a watch may read. -/
def watchNames : List String :=
  ["actual", "assumed"]

/-- Names that the transformation of observations may read. -/
def transformNames : List String :=
  ["value"]

/-- What is wrong with the rules of a watch on a target. -/
def checkRules (symbols : Symbols α) (watch : Watch α) (target : String)
    : List (Located (Finding α)) :=
  watch.rules.flatMap fun rule =>
    checkExpression symbols (.only watchNames) (.watch target) (some watch.span) rule.condition

/-- What is wrong with an assumption declared at a place; the flag says that it stands inside a
branch.
-/
def checkAssumption (symbols : Symbols α) (index : Nat) (nested : Bool) (a : Assumption α)
    : List (Located (Finding α)) :=
  let owner := Owner.quantity .assumption a.name
  let before := Scope.constantsBefore index
  reportIf (!nested && (a.source.getD "").isEmpty) a.span (.noSource a.name)
    ++ (a.confidence.toList.flatMap fun c =>
      reportIf (!isShare c) a.span (.confidence c owner))
    ++ a.value.toList.flatMap (checkExpression symbols before owner (some a.span))
    ++ a.uncertainty.toList.flatMap (checkDistribution symbols before owner)
    ++ (a.binding.toList.flatMap fun b =>
      (b.transform.toList ++ b.fallback.toList).flatMap
        (checkExpression symbols (.only transformNames) owner (some a.span)))
    ++ a.watch.toList.flatMap fun w => checkRules symbols w a.name

/-- What is wrong with a range of two literals. -/
def checkRange (owner : Owner) (span : Span) (low high : Expr α) : List (Located (Finding α)) :=
  match low.literal?, high.literal? with
  | some x, some y => reportIf (Scalar.le y x) span (.emptyRange owner x y)
  | _, _ => []

/-- What is wrong with a parameter declared at a place. -/
def checkParameter (symbols : Symbols α) (index : Nat) (p : Parameter α)
    : List (Located (Finding α)) :=
  let owner := Owner.quantity .parameter p.name
  let before := Scope.constantsBefore index
  let check := checkExpression symbols before owner (some p.span)
  (p.value.toList ++ p.step.toList).flatMap check
    ++ (p.range.toList.flatMap fun (low, high) =>
      check low ++ check high ++ checkRange owner p.span low high)
    ++ p.uncertainty.toList.flatMap (checkDistribution symbols before owner)

/-- What is wrong with names in a list that must be declared. -/
def checkListed (symbols : Symbols α) (key : ListKey) (owner : Owner) (span : Span)
    (paths : List Path) : List (Located (Finding α)) :=
  paths.filterMap fun path =>
    match symbols.referent? path with
    | some _ => none
    | none => some (report span (.unresolvedListed path key owner))

/-- Names of variables and impacts that an expression reads although no list holds them. -/
def checkReads (symbols : Symbols α) (key : ListKey) (owner : Owner) (span : Span)
    (listed : List Path) (e : Expr α) : List (Located (Finding α)) :=
  e.names.filterMap fun (path, own) =>
    match symbols.quantity? path.root with
    | some q =>
        if q.isConstant || listed.any (·.root == path.root) then none
        else some ⟨.unlistedRead owner path key, own.or (some span)⟩
    | none => none

/-- What is wrong with anchors, the date of the one before being given: dates must grow, and
values may read constants only.
-/
def checkAnchors (symbols : Symbols α) (owner : Owner) (span : Span)
    : Option PartialDate → List (Anchor α) → List (Located (Finding α))
  | _, [] => []
  | previous, a :: rest =>
      (previous.toList.filter fun date => !date.before a.date).map (fun date =>
          ⟨.anchorOrder owner a.date date, a.value.span.or (some span)⟩)
        ++ checkExpression symbols .constants owner (some span) a.value
        ++ checkAnchors symbols owner span (some a.date) rest

/-- What is wrong with a variable; the flag says that it stands inside a branch. -/
def checkVariable (symbols : Symbols α) (nested : Bool) (v : Variable α)
    : List (Located (Finding α)) :=
  let owner := Owner.quantity .varying v.name
  checkListed symbols .dependsOn owner v.span v.dependsOn
    ++ checkAnchors symbols owner v.span none v.anchors
    ++ (v.model.toList.flatMap fun m =>
      reportIf (m.kind == .spline && v.anchors.isEmpty) v.span (.splineWithoutAnchors owner)
        ++ m.parameters.flatMap fun (_, e) =>
          checkExpression symbols .declared owner (some v.span) e
            ++ checkReads symbols .dependsOn owner v.span v.dependsOn e)
    ++ match v.uncertainty with
      | some d => checkDistribution symbols .declared owner d
      | none => reportIf (!nested) v.span (.noUncertainty v.name)

/-- What is wrong with an impact. Without a formula it sums what it derives from. -/
def checkImpact (symbols : Symbols α) (i : Impact α) : List (Located (Finding α)) :=
  let owner := Owner.quantity .impact i.name
  checkListed symbols .derivesFrom owner i.span i.derivesFrom
    ++ match i.formula with
      | some e =>
          checkExpression symbols .declared owner (some i.span) e
            ++ checkReads symbols .derivesFrom owner i.span i.derivesFrom e
      | none =>
          i.derivesFrom.filterMap fun path =>
            match symbols.referent? path with
            | some (.imported _) => some (report i.span (.sumsImport owner path))
            | _ => none

/-- What is wrong with a named value declared at a place. -/
def checkQuantity (symbols : Symbols α) (index : Nat) (nested : Bool)
    : Quantity α → List (Located (Finding α))
  | .assumption a => checkAssumption symbols index nested a
  | .parameter p => checkParameter symbols index p
  | .varying v => checkVariable symbols nested v
  | .impact i => checkImpact symbols i

/-- What is wrong with a declaration inside a branch. One that replaces none is ignored; any
other is checked as if it stood at the place of the one that it replaces.
-/
def checkOverride (symbols : Symbols α) (owner : Owner) (nested : Quantity α)
    : List (Located (Finding α)) :=
  if symbols.isOverride nested then
    match symbols.find? nested.name with
    | some outer => checkQuantity symbols outer.index true nested
    | none => []
  else [report nested.span (.ignoredOverride nested.kind nested.name owner)]

/-- What is wrong with a branch. -/
def checkBranch (symbols : Symbols α) (b : Branch α) : List (Located (Finding α)) :=
  let owner := Owner.branch b.name
  checkExpression symbols .declared owner (some b.span) b.condition
    ++ (b.probability.toList.flatMap fun p =>
      reportIf (!isShare p) b.span (.probability p owner))
    ++ b.overrides.flatMap (checkOverride symbols owner)

/-- What is wrong with simulation settings. -/
def checkSimulate (s : Simulate α) : List (Located (Finding α)) :=
  let hundred : α := Scalar.ofNat 100
  (s.runs.toList.flatMap fun n => reportIf (n < 1) s.span (.runs n))
    ++ ((s.percentiles.getD []).flatMap fun p =>
      reportIf (!(Scalar.le Scalar.zero p && Scalar.le p hundred)) s.span (.percentile p))
    ++ s.convergence.toList.flatMap fun c =>
      if !(Scalar.lt Scalar.zero c && Scalar.lt c Scalar.one) then
        [report s.span (.convergence c)]
      else reportIf (Scalar.lt (Scalar.ofDecimal false 1 (-1)) c) s.span (.looseConvergence c)

/-- What is wrong with a watch on a declared value. -/
def checkWatch (symbols : Symbols α) (w : Watch α) : List (Located (Finding α)) :=
  match w.target with
  | none => []
  | some target =>
      reportIf (symbols.referent? target).isNone w.span (.watchTarget target)
        ++ checkRules symbols w target.text

/-- What is wrong with a calibration. -/
def checkCalibrate (symbols : Symbols α) (c : Calibrate α) : List (Located (Finding α)) :=
  reportIf (symbols.referent? c.target).isNone c.span (.calibrationTarget c.target)
    ++ c.prior.toList.flatMap (checkDistribution symbols .declared (.calibrate c.target.text))

/-- What is wrong with a declaration at a place. -/
def checkDeclaration (symbols : Symbols α) (index : Nat)
    : Declaration α → List (Located (Finding α))
  | .quantity q => checkQuantity symbols index false q
  | .branch b => checkBranch symbols b
  | .simulate s => checkSimulate s
  | .watch w => checkWatch symbols w
  | .calibrate c => checkCalibrate symbols c
  | .imported _ => []

/-- What is wrong with a scenario as a whole. -/
def checkMetadata (s : Scenario α) : List (Located (Finding α)) :=
  (match s.metadata.timeframe with
    | none => [report s.span (.noTimeframe s.name)]
    | some t => reportIf (!t.start.before t.finish) s.span (.timeframeOrder t.start t.finish))
    ++ s.metadata.confidence.toList.flatMap fun c =>
      reportIf (!isShare c) s.span (.scenarioConfidence c)

end Prognosis.Check
