import Prognosis.Proofs.Check.Precedence

/-! Which findings the checks can report: cycles stand at the end of all findings and nowhere
else, and declarations inside branches are found to be ignored exactly where they replace none.
-/

namespace Prognosis

variable {α : Type}

-----------------------------------------------------------------------------------------
-- Findings of single declarations
-----------------------------------------------------------------------------------------

/-- The finding is neither a cycle nor a declaration inside a branch that is ignored. -/
def Finding.isPlain : Finding α → Bool
  | cycle _ | ignoredOverride .. => false
  | _ => true

theorem Finding.code_of_isPlain {finding : Finding α} (plain : finding.isPlain = true)
    : finding.code ≠ .error 4 ∧ finding.code ≠ .warning 5 := by
  cases finding with
  | cycle | ignoredOverride => cases plain
  | _ => simp [code]

/-- No finding is a cycle, and none is a declaration that is ignored. -/
def Plain (findings : List (Located (Finding α))) : Prop :=
  ∀ l ∈ findings, l.finding.isPlain = true

namespace Plain

variable {first second : List (Located (Finding α))}

theorem nil : Plain ([] : List (Located (Finding α))) := by
  simp [Plain]

theorem append (left : Plain first) (right : Plain second) : Plain (first ++ second) := by
  intro l member
  rcases List.mem_append.mp member with inFirst | inSecond
  · exact left l inFirst
  · exact right l inSecond

theorem flatMap {β : Type} {items : List β} {f : β → List (Located (Finding α))}
    (all : ∀ item, Plain (f item))
    : Plain (items.flatMap f) := by
  intro l member
  obtain ⟨item, -, found⟩ := List.mem_flatMap.mp member
  exact all item l found

theorem filterMap {β : Type} {items : List β} {f : β → Option (Located (Finding α))}
    (all : ∀ item l, f item = some l → l.finding.isPlain = true)
    : Plain (items.filterMap f) := by
  intro l member
  obtain ⟨item, -, found⟩ := List.mem_filterMap.mp member
  exact all item l found

theorem map {β : Type} {items : List β} {f : β → Located (Finding α)}
    (all : ∀ item, (f item).finding.isPlain = true)
    : Plain (items.map f) := by
  intro l member
  obtain ⟨item, -, rfl⟩ := List.mem_map.mp member
  exact all item

theorem singleton {l : Located (Finding α)} (plain : l.finding.isPlain = true) : Plain [l] := by
  intro other member
  rw [List.mem_singleton.mp member]
  exact plain

end Plain

namespace Check

variable {symbols : Symbols α} {scope : Scope} {owner : Owner} {span : Span} {index : Nat}
  {nested : Bool}

theorem reportIf_plain {reason : Bool} {finding : Finding α} (plain : finding.isPlain = true)
    : Plain (reportIf reason span finding) := by
  cases reason with
  | false => exact .nil
  | true => exact .singleton plain

theorem checkName_plain {path : Path} {finding : Finding α}
    (named : checkName symbols scope owner path = some finding)
    : finding.isPlain = true := by
  unfold checkName at named
  repeat' split at named
  all_goals cases named
  all_goals rfl

theorem checkExpression_plain {place : Option Span} (e : Expr α)
    : Plain (checkExpression symbols scope owner place e) := by
  refine .append (.filterMap fun node l found => ?_) (.filterMap fun read l found => ?_)
  · cases node with
    | call function _ _ own =>
        simp only [checkCall] at found
        split at found
        · cases found
        · cases found
          rfl
    | _ => cases found
  · obtain ⟨finding, named, rfl⟩ := Option.map_eq_some_iff.mp found
    exact checkName_plain named

theorem checkListed_plain {key : ListKey} (paths : List Path)
    : Plain (checkListed symbols key owner span paths) := by
  refine .filterMap fun path l found => ?_
  split at found
  · cases found
  · cases found
    rfl

theorem checkReads_plain {key : ListKey} {listed : List Path} (e : Expr α)
    : Plain (checkReads symbols key owner span listed e) := by
  refine .filterMap fun (path, own) l found => ?_
  dsimp only at found
  split at found
  · split at found
    · cases found
    · cases found
      rfl
  · cases found

theorem checkAnchors_plain (previous : Option PartialDate) (anchors : List (Anchor α))
    : Plain (checkAnchors symbols owner span previous anchors) := by
  induction anchors generalizing previous with
  | nil => exact .nil
  | cons anchor rest ih =>
      exact .append (.append (.map fun _ => rfl) (checkExpression_plain _))
        (ih _)

theorem checkImpact_plain (i : Impact α) : Plain (checkImpact symbols i) := by
  refine .append (checkListed_plain _) ?_
  split
  · exact .append (checkExpression_plain _) (checkReads_plain _)
  · refine .filterMap fun path l found => ?_
    split at found
    · cases found
      rfl
    · cases found

theorem checkRules_plain (w : Watch α) (target : String)
    : Plain (checkRules symbols w target) :=
  .flatMap fun _ => checkExpression_plain _

theorem checkWatch_plain (w : Watch α) : Plain (checkWatch symbols w) := by
  simp only [checkWatch]
  split
  · exact .nil
  · exact .append (reportIf_plain rfl) (checkRules_plain _ _)

variable [Scalar α]

theorem checkParameters_plain {kind : DistributionKind} {values : List α} {finding : Finding α}
    (wrong : checkParameters kind owner values = some finding)
    : finding.isPlain = true := by
  simp only [checkParameters] at wrong
  repeat' split at wrong
  all_goals cases wrong
  all_goals rfl

theorem checkArguments_plain {d : Distribution α} {finding : Finding α}
    (found : checkArguments d owner = some finding)
    : finding.isPlain = true := by
  simp only [checkArguments] at found
  split at found
  · repeat' split at found
    all_goals cases found
    all_goals rfl
  · split at found
    · cases found
      rfl
    · split at found
      · exact checkParameters_plain found
      · cases found

theorem checkDistribution_plain (d : Distribution α)
    : Plain (checkDistribution symbols scope owner d) :=
  .append (.append (.map fun _ => rfl) (.flatMap fun e =>
    checkExpression_plain e)) fun l member => by
      obtain ⟨finding, found, rfl⟩ := List.mem_map.mp member
      exact checkArguments_plain (Option.mem_toList.mp found)

theorem checkAssumption_plain (a : Assumption α)
    : Plain (checkAssumption symbols index nested a) := by
  refine .append (.append (.append (.append (.append ?_ ?_) ?_) ?_) ?_) ?_
  · exact reportIf_plain rfl
  · exact .flatMap fun _ => reportIf_plain rfl
  · exact .flatMap fun _ => checkExpression_plain _
  · exact .flatMap fun _ => checkDistribution_plain _
  · exact .flatMap fun _ => .flatMap fun _ => checkExpression_plain _
  · exact .flatMap fun _ => checkRules_plain _ _

theorem checkParameter_plain (p : Parameter α) : Plain (checkParameter symbols index p) := by
  refine .append (.append ?_ ?_) ?_
  · exact .flatMap fun _ => checkExpression_plain _
  · refine .flatMap fun (low, high) => .append (.append ?_ ?_) ?_
    · exact checkExpression_plain _
    · exact checkExpression_plain _
    · simp only [checkRange]
      split
      · exact reportIf_plain rfl
      · exact .nil
  · exact .flatMap fun _ => checkDistribution_plain _

theorem checkVariable_plain (v : Variable α) : Plain (checkVariable symbols nested v) := by
  refine .append (.append (.append ?_ ?_) ?_) ?_
  · exact checkListed_plain _
  · exact checkAnchors_plain _ _
  · refine .flatMap fun m => .append ?_ (.flatMap fun (_, e) => .append ?_ ?_)
    · exact reportIf_plain rfl
    · exact checkExpression_plain _
    · exact checkReads_plain _
  · split
    · exact checkDistribution_plain _
    · exact reportIf_plain rfl

theorem checkQuantity_plain (q : Quantity α)
    : Plain (checkQuantity symbols index nested q) := by
  cases q with
  | assumption a => exact checkAssumption_plain a
  | parameter p => exact checkParameter_plain p
  | varying v => exact checkVariable_plain v
  | impact i => exact checkImpact_plain i

theorem checkSimulate_plain (s : Simulate α) : Plain (checkSimulate s) := by
  refine .append (.append ?_ ?_) ?_
  · exact .flatMap fun _ => reportIf_plain rfl
  · exact .flatMap fun _ => reportIf_plain rfl
  · refine .flatMap fun _ => ?_
    split
    · exact .singleton rfl
    · exact reportIf_plain rfl

theorem checkCalibrate_plain (c : Calibrate α) : Plain (checkCalibrate symbols c) :=
  .append (reportIf_plain rfl) (.flatMap fun _ => checkDistribution_plain _)

theorem checkMetadata_plain (s : Scenario α) : Plain (checkMetadata s) := by
  refine .append ?_ (.flatMap fun _ => reportIf_plain rfl)
  split
  · exact .singleton rfl
  · exact reportIf_plain rfl

/-- What is wrong with a branch is plain but for the declarations inside that are ignored. -/
theorem plain_or_ignored_of_checkBranch {b : Branch α} {l : Located (Finding α)}
    (found : l ∈ checkBranch symbols b)
    : l.finding.isPlain = true
      ∨ ∃ q ∈ b.overrides, symbols.isOverride q = false
          ∧ l = report q.span (.ignoredOverride q.kind q.name (.branch b.name)) := by
  rcases List.mem_append.mp found with front | nested
  · rcases List.mem_append.mp front with condition | probability
    · exact .inl (checkExpression_plain _ l condition)
    · exact .inl (Plain.flatMap (fun _ => reportIf_plain rfl) l probability)
  · obtain ⟨q, member, own⟩ := List.mem_flatMap.mp nested
    simp only [checkOverride] at own
    split at own
    · split at own
      · exact .inl (checkQuantity_plain _ l own)
      · cases own
    case isFalse ignored =>
      exact .inr ⟨q, member, by simpa using ignored, List.mem_singleton.mp own⟩

/-- So it is with all declarations. -/
theorem plain_or_ignored_of_checkDeclaration {d : Declaration α} {l : Located (Finding α)}
    (found : l ∈ checkDeclaration symbols index d)
    : l.finding.isPlain = true
      ∨ ∃ b, d = .branch b ∧ ∃ q ∈ b.overrides, symbols.isOverride q = false
          ∧ l = report q.span (.ignoredOverride q.kind q.name (.branch b.name)) := by
  cases d with
  | quantity q => exact .inl (checkQuantity_plain q l found)
  | branch b =>
      exact (plain_or_ignored_of_checkBranch found).imp_right fun ignored => ⟨b, rfl, ignored⟩
  | simulate s => exact .inl (checkSimulate_plain s l found)
  | watch w => exact .inl (checkWatch_plain w l found)
  | calibrate c => exact .inl (checkCalibrate_plain c l found)
  | imported i => cases found

end Check

-----------------------------------------------------------------------------------------
-- Findings of a scenario
-----------------------------------------------------------------------------------------

theorem Symbols.collect_plain (known : Symbols α) (index : Nat)
    (declarations : List (Declaration α))
    : Plain (collect known index declarations).2 := by
  induction declarations generalizing known index with
  | nil => exact .nil
  | cons d rest ih =>
      simp only [collect]
      cases d.name? with
      | none => exact ih _ _
      | some name =>
          simp only
          cases find? known name with
          | none => exact ih _ _
          | some owner =>
              exact Plain.append (.singleton rfl) (ih _ _)

namespace Scenario

variable [Scalar α] {s : Scenario α}

/-- All that is found apart from a cycle. -/
def findings (s : Scenario α) : List (Located (Finding α)) :=
  Check.checkMetadata s ++ (Symbols.collect [] 0 s.declarations).2
    ++ s.declarations.zipIdx.flatMap fun (d, index) =>
      Check.checkDeclaration (Symbols.ofScenario s) index d

theorem check_of_order {graph : CausalGraph} (ordered : CausalGraph.ofScenario s = .ok graph)
    : s.check = ⟨s.findings, some graph⟩ := by
  simp only [check, ordered]
  rfl

theorem check_of_cycle {cycle : List String} (failed : CausalGraph.ofScenario s = .error cycle)
    : s.check = ⟨s.findings ++ [Check.checkCycle (Symbols.ofScenario s) cycle], none⟩ := by
  simp only [check, failed]
  rfl

theorem findings_subset_check (s : Scenario α) : s.findings ⊆ s.check.findings := by
  cases order : CausalGraph.ofScenario s with
  | ok graph => rw [check_of_order order]; exact List.Subset.refl _
  | error cycle => rw [check_of_cycle order]; exact List.subset_append_left _ _

/-- What is wrong with a declaration is among the findings. -/
theorem checkDeclaration_subset {declaration : Declaration α}
    (member : declaration ∈ s.declarations)
    : ∃ index, Check.checkDeclaration (Symbols.ofScenario s) index declaration
        ⊆ s.check.findings := by
  obtain ⟨index, placed⟩ := List.mem_iff_getElem?.mp member
  refine ⟨index, fun l found => s.findings_subset_check (List.mem_append_right _ ?_)⟩
  exact List.mem_flatMap.mpr
    ⟨(declaration, index), List.mem_zipIdx_iff_getElem?.mpr placed, found⟩

/-- A quantity is declared, or a branch puts it in the place of one that is. -/
inductive InUse (s : Scenario α) : Quantity α → Prop
  | declared {q} (member : .quantity q ∈ s.declarations) : InUse s q
  | nested {b q} (branch : .branch b ∈ s.declarations) (member : q ∈ b.overrides)
    (replaces : (Symbols.ofScenario s).isOverride q = true)
    : InUse s q

/-- What is wrong with a quantity that is in use is among the findings. -/
theorem InUse.exists_checkQuantity_subset {q : Quantity α} (inUse : s.InUse q)
    : ∃ index nested,
        Check.checkQuantity (Symbols.ofScenario s) index nested q ⊆ s.check.findings := by
  cases inUse with
  | declared member =>
      obtain ⟨index, declared⟩ := checkDeclaration_subset member
      exact ⟨index, false, declared⟩
  | @nested b q branch member replaces =>
      obtain ⟨index, declared⟩ := checkDeclaration_subset branch
      have replaced := replaces
      simp only [Symbols.isOverride, Symbols.quantity?] at replaced
      cases outer : (Symbols.ofScenario s).find? q.name with
      | none => simp [outer] at replaced
      | some symbol =>
          refine ⟨symbol.index, true, fun l found => declared (List.mem_append_right _ ?_)⟩
          refine List.mem_flatMap.mpr ⟨q, member, ?_⟩
          simpa only [Check.checkOverride, replaces, if_true, outer] using found

/-- What is found apart from a cycle is no cycle, and it is a declaration that is ignored only
where that declaration replaces none.
-/
theorem ignored_of_findings {l : Located (Finding α)} (found : l ∈ s.findings)
    : l.finding.code ≠ .error 4
      ∧ (l.finding.code = .warning 5
          → ∃ b ∈ s.branches, ∃ q ∈ b.overrides, (Symbols.ofScenario s).isOverride q = false
              ∧ l = Check.report q.span (.ignoredOverride q.kind q.name (.branch b.name))) := by
  have front : Plain (Check.checkMetadata s ++ (Symbols.collect [] 0 s.declarations).2) :=
    .append (Check.checkMetadata_plain s) (Symbols.collect_plain _ _ _)
  have plain (is : l.finding.isPlain = true) := Finding.code_of_isPlain is
  rcases List.mem_append.mp found with before | declared
  · exact ⟨(plain (front l before)).1, fun same => absurd same (plain (front l before)).2⟩
  · obtain ⟨⟨d, index⟩, placed, own⟩ := List.mem_flatMap.mp declared
    rcases Check.plain_or_ignored_of_checkDeclaration own with is | ⟨b, rfl, nested⟩
    · exact ⟨(plain is).1, fun same => absurd same (plain is).2⟩
    · have member : .branch b ∈ s.declarations :=
        List.mem_of_getElem? (List.mem_zipIdx_iff_getElem?.mp placed)
      have branch : b ∈ s.branches := List.mem_filterMap.mpr ⟨_, member, rfl⟩
      refine ⟨?_, fun _ => ⟨b, branch, nested⟩⟩
      obtain ⟨q, -, -, rfl⟩ := nested
      simp [Check.report, Finding.code]

/-- A declaration inside a branch that replaces none is found to be ignored. -/
theorem ignored_mem_findings {b : Branch α} (branch : b ∈ s.branches) {q : Quantity α}
    (member : q ∈ b.overrides) (ignored : (Symbols.ofScenario s).isOverride q = false)
    : Check.report q.span (.ignoredOverride q.kind q.name (.branch b.name)) ∈ s.findings := by
  obtain ⟨d, declared, is⟩ := List.mem_filterMap.mp branch
  obtain ⟨index, placed⟩ := List.mem_iff_getElem?.mp declared
  cases d with
  | branch other =>
      cases is
      refine List.mem_append_right _ (List.mem_flatMap.mpr
        ⟨(.branch b, index), List.mem_zipIdx_iff_getElem?.mpr placed, ?_⟩)
      refine List.mem_append_right _ (List.mem_flatMap.mpr ⟨q, member, ?_⟩)
      simp [Check.checkOverride, ignored]
  | quantity _ | simulate _ | watch _ | calibrate _ | imported _ => cases is

end Scenario

end Prognosis
