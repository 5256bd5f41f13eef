import Prognosis.Proofs.Grammar.Scenario
import Prognosis.Proofs.Grammar.Shape

/-! Spelling of names in scenarios. Wherever a scenario that was read has a dotted name, each
segment of it is a word of the text, so that no segment has a dot of its own.
-/

namespace Prognosis

open Grammar Attempt

variable {α : Type}

-----------------------------------------------------------------------------------------
-- Spelled names
-----------------------------------------------------------------------------------------

/-- All segments are names. -/
structure Path.IsSpelled (path : Path) : Prop where
  root : IsName path.root
  rest : ∀ segment ∈ path.rest, IsName segment

/-- All names that the expression reads are spelled, and so are those of its arguments. -/
def Expr.IsSpelled (e : Expr α) : Prop :=
  e.AllNodes SpellsNames

/-- All names in the parameters are spelled. -/
structure Distribution.IsSpelled (d : Distribution α) : Prop where
  positional : ∀ e ∈ d.positional, e.IsSpelled
  named : ∀ entry ∈ d.named, entry.2.IsSpelled

/-- All names in the parameters are spelled. -/
def Model.IsSpelled (m : Model α) : Prop :=
  ∀ entry ∈ m.parameters, entry.2.IsSpelled

/-- All names in the formulas are spelled. -/
structure Binding.IsSpelled (b : Binding α) : Prop where
  transform : ∀ e ∈ b.transform, e.IsSpelled
  fallback : ∀ e ∈ b.fallback, e.IsSpelled

/-- The target is spelled, and so are all names in the conditions. -/
structure Watch.IsSpelled (w : Watch α) : Prop where
  target : ∀ path ∈ w.target, path.IsSpelled
  rules : ∀ rule ∈ w.rules, rule.condition.IsSpelled

/-- All names in the parts are spelled. -/
structure Assumption.IsSpelled (a : Assumption α) : Prop where
  value : ∀ e ∈ a.value, e.IsSpelled
  uncertainty : ∀ d ∈ a.uncertainty, d.IsSpelled
  binding : ∀ b ∈ a.binding, b.IsSpelled
  watch : ∀ w ∈ a.watch, w.IsSpelled

/-- All names in the parts are spelled. -/
structure Variable.IsSpelled (v : Variable α) : Prop where
  anchors : ∀ anchor ∈ v.anchors, anchor.value.IsSpelled
  dependsOn : ∀ path ∈ v.dependsOn, path.IsSpelled
  model : ∀ m ∈ v.model, m.IsSpelled
  uncertainty : ∀ d ∈ v.uncertainty, d.IsSpelled

/-- All names in the parts are spelled. -/
structure Parameter.IsSpelled (p : Parameter α) : Prop where
  value : ∀ e ∈ p.value, e.IsSpelled
  range : ∀ bounds ∈ p.range, bounds.1.IsSpelled ∧ bounds.2.IsSpelled
  uncertainty : ∀ d ∈ p.uncertainty, d.IsSpelled
  step : ∀ e ∈ p.step, e.IsSpelled

/-- All names in the parts are spelled. -/
structure Impact.IsSpelled (i : Impact α) : Prop where
  derivesFrom : ∀ path ∈ i.derivesFrom, path.IsSpelled
  formula : ∀ e ∈ i.formula, e.IsSpelled

/-- All names in the declaration are spelled. -/
def Quantity.IsSpelled : Quantity α → Prop
  | .assumption d => d.IsSpelled
  | .varying d => d.IsSpelled
  | .parameter d => d.IsSpelled
  | .impact d => d.IsSpelled

/-- All names in the condition and in the declarations inside are spelled. -/
structure Branch.IsSpelled (b : Branch α) : Prop where
  condition : b.condition.IsSpelled
  overrides : ∀ q ∈ b.overrides, q.IsSpelled

/-- The target is spelled, and so are all names in the prior. -/
structure Calibrate.IsSpelled (c : Calibrate α) : Prop where
  target : c.target.IsSpelled
  prior : ∀ d ∈ c.prior, d.IsSpelled

/-- All names in the declaration are spelled. -/
def Declaration.IsSpelled : Declaration α → Prop
  | .quantity d => d.IsSpelled
  | .branch d => d.IsSpelled
  | .watch d => d.IsSpelled
  | .calibrate d => d.IsSpelled
  | .simulate _ | .imported _ => True

/-- All names in the declarations are spelled. -/
def Scenario.IsSpelled (s : Scenario α) : Prop :=
  ∀ d ∈ s.declarations, d.IsSpelled

namespace Grammar

/-- All words among the tokens are names. -/
def HasNames (ts : List (Token α)) : Prop :=
  ∀ t ∈ ts, t.kind = .word → IsName t.text

theorem HasNames.of_suffix {ts rest : List (Token α)} (names : HasNames ts) (left : rest <:+ ts)
    : HasNames rest :=
  fun t member => names t (left.subset member)

theorem forall_mem_none {β : Type} (holds : β → Prop) : ∀ v ∈ none, holds v :=
  fun v is => absurd is (Option.not_mem_none v)

theorem forall_mem_some {β : Type} {holds : β → Prop} {value : β} (right : holds value)
    : ∀ v ∈ some value, holds v :=
  fun _ is => Option.some.inj is ▸ right

variable {tokens ts : List (Token α)} (names : HasNames tokens)

include names

-----------------------------------------------------------------------------------------
-- Values
-----------------------------------------------------------------------------------------

theorem dottedName_spelled (inside : ts <:+ tokens) : (dottedName ts).Yields Path.IsSpelled := by
  refine identifier_yields.andMaybe fun root rest left word => ?_
  have behind := left.trans inside
  have later := segments_yields rest
  cases read : segments rest with
  | error e => exact fun _ other => by cases other
  | ok s =>
      intro p other
      cases other
      obtain ⟨t, member, isWord, rfl⟩ := word
      obtain ⟨taken, all, derived⟩ := segments_derives rest ⟨s, read, rfl, rfl⟩
      have among : ∀ t ∈ taken, t.kind = .word → IsName t.text := fun t member =>
        names.of_suffix behind t (all ▸ List.mem_append_left _ member)
      exact ⟨(later s read).1, {
        root := names t (inside.subset member) (Token.isAnyWord_iff.mp isWord)
        rest := Expr.isName_of_segments derived among
      }⟩

theorem expression_spelled (inside : ts <:+ tokens) : (expression ts).Yields Expr.IsSpelled := by
  intro p read
  obtain ⟨taken, all, derived⟩ := binary_derives .disjunction ts ⟨p, read, rfl, rfl⟩
  refine ⟨(expression_yields ts p read).1, Expr.spellsNames_of_derives derived fun t member => ?_⟩
  exact names.of_suffix inside t (all ▸ List.mem_append_left _ member)

theorem range_spelled (inside : ts <:+ tokens)
    : (range ts).Yields fun bounds => bounds.1.IsSpelled ∧ bounds.2.IsSpelled :=
  (expectSign_yields _ _ _).andThen fun _ _ opened _ =>
  (expression_spelled names (opened.trans inside)).andThen fun _ _ first low =>
  (expectSign_yields _ _ _).andThen fun _ _ parted _ =>
  (expression_spelled names
    ((parted.trans first).trans (opened.trans inside))).andThen fun _ _ _ high =>
  (expectSign_yields _ _ _).mapValue fun _ _ => ⟨low, high⟩

omit names in
/-- The arguments of a call are spelled if the call is. -/
theorem spelled_of_call {function : String} {positional : List (Expr α)}
    {named : List (String × Expr α)} {place : Option Span}
    (spelled : (Expr.call function positional named place).IsSpelled)
    : (∀ e ∈ positional, e.IsSpelled) ∧ ∀ entry ∈ named, entry.2.IsSpelled := by
  have parts := (Expr.allNodes_iff.mp spelled).2
  rw [Expr.children, List.forall_mem_append, List.forall_mem_map] at parts
  exact parts

theorem distribution_spelled (inside : ts <:+ tokens)
    : (distribution ts).Yields Distribution.IsSpelled := by
  cases ts with
  | nil => exact failAtEnd_yields _
  | cons t rest =>
      simp only [distribution]
      split
      case isTrue =>
        have spread := expression_spelled names ((List.suffix_cons t rest).trans inside)
        refine Attempt.Yields.afterToken (spread.mapValue fun e spelled => ?_) t
        exact ⟨List.forall_mem_singleton.mpr spelled, List.forall_mem_nil _⟩
      case isFalse =>
        have called := expression_spelled names inside
        cases read : expression (t :: rest) with
        | error e => exact yields_error e
        | ok p =>
            obtain ⟨left, spelled⟩ := called p read
            dsimp only
            split
            case h_2 => exact failHere_yields _
            case h_1 is =>
              rw [is] at spelled
              obtain ⟨positional, named⟩ := spelled_of_call spelled
              split
              case h_1 => exact yields_ok (p := p.map _) left ⟨positional, named⟩
              case h_2 => exact failHere_yields _

theorem model_spelled (inside : ts <:+ tokens) : (model ts).Yields Model.IsSpelled := by
  cases ts with
  | nil => exact failAtEnd_yields _
  | cons t rest =>
      have called := expression_spelled names inside
      simp only [model]
      cases read : expression (t :: rest) with
      | error e => exact yields_error e
      | ok p =>
          obtain ⟨left, spelled⟩ := called p read
          dsimp only
          split
          case h_2 => exact failHere_yields _
          case h_1 arguments _ _ is =>
            rw [is] at spelled
            obtain ⟨positional, named⟩ := spelled_of_call spelled
            split
            case h_2 => exact failHere_yields _
            case h_1 =>
              split
              case isFalse => exact failHere_yields _
              case isTrue =>
                have first : ∀ entry ∈ coefficients arguments, entry.2.IsSpelled := by
                  rintro entry among
                  obtain ⟨⟨e, index⟩, placed, rfl⟩ := List.mem_map.mp among
                  exact positional e (List.fst_mem_of_mem_zipIdx placed)
                exact yields_ok (p := p.map _) left (List.forall_mem_append.mpr ⟨first, named⟩)

-----------------------------------------------------------------------------------------
-- Parts of declarations
-----------------------------------------------------------------------------------------

theorem bindingForm_spelled : (bindingForm (α := α)).KeepsWithin tokens Binding.IsSpelled := {
  properties := by
    simp only [bindingForm, List.forall_mem_cons]
    exact ⟨(field_keeps quotedString_yields fun _ _ fine => { fine with }).within tokens,
      (field_keeps (choice_yields _ _ _) fun _ _ fine => { fine with }).within tokens,
      (field_keeps quotedString_yields fun _ _ fine => { fine with }).within tokens,
      field_keepsWithin (fun _ => expression_spelled names) fun _ _ fine spelled =>
        { fine with transform := forall_mem_some spelled },
      field_keepsWithin (fun _ => expression_spelled names) fun _ _ fine spelled =>
        { fine with fallback := forall_mem_some spelled }, by simp⟩
  extra record ts outcome _ := noExtra_keeps record ts outcome
}

theorem binding_spelled (span : Span) (inside : ts <:+ tokens)
    : (binding span ts).Yields Binding.IsSpelled :=
  Outcome.yields_afterSkipped .colon <|
    block_yieldsWithin (bindingForm_spelled names)
      ⟨forall_mem_none _, forall_mem_none _⟩ ((skipSign_rest .colon ts).trans inside)

theorem ruleHandler_spelled (severity : AlertSeverity)
    : (ruleHandler (α := α) severity).2.KeepsWithin tokens Watch.IsSpelled := by
  intro watch _ ts inside fine
  have start : (Attempt.andMaybe (expectWord "when" ts) fun _ rest =>
      .ok (skipSign .colon rest)).Yields fun _ => True := by
    apply (expectWord_yields "when" ts).andMaybe
    intro _ rest _ _ p read
    cases read
    exact ⟨skipSign_rest .colon rest, trivial⟩
  refine Outcome.yields_silent (start.andThen fun _ rest left _ => ?_)
  refine (expression_spelled names (left.trans inside)).mapValue fun condition spelled => ?_
  exact { fine with
    rules := List.forall_mem_append.mpr ⟨fine.rules, List.forall_mem_singleton.mpr spelled⟩ }

theorem watchForm_spelled (target : Option Path)
    : (watchForm (α := α) target).KeepsWithin tokens Watch.IsSpelled := {
  properties := by
    simp only [watchForm, List.forall_mem_cons]
    refine ⟨ruleHandler_spelled names _, ruleHandler_spelled names _, ?_, by simp⟩
    exact fun _ _ _ _ fine => (Outcome.yields_afterSkipped .colon
      (block_yields triggerForm_keeps trivial _)).mapValue fun _ _ => { fine with }
  extra record ts outcome _ := noExtra_keeps record ts outcome
}

theorem watchBody_spelled {target : Option Path} (aims : ∀ path ∈ target, path.IsSpelled)
    (span : Span) (inside : ts <:+ tokens)
    : (watchBody target span ts).Yields Watch.IsSpelled :=
  block_yieldsWithin (watchForm_spelled names target) ⟨aims, List.forall_mem_nil _⟩ inside

-----------------------------------------------------------------------------------------
-- Declared values
-----------------------------------------------------------------------------------------

section Values

variable [Scalar α]

theorem assumedHandler_spelled
    : (assumedHandler (α := α)).2.KeepsWithin tokens Assumption.IsSpelled := by
  intro record _ ts inside fine
  have valued := (expectSign_yields .colon "':' after 'value'" ts).andThen
    fun _ rest left _ => expression_spelled names (left.trans inside)
  refine Outcome.yields_silent (Attempt.Yields.andMaybe valued fun value rest _ spelled => ?_)
  have replaced : ({ record with value := some value } : Assumption α).IsSpelled :=
    { fine with value := forall_mem_some spelled }
  dsimp only
  split
  case isFalse => exact mayYield_stay replaced
  case isTrue =>
    have dated := (expectWord_yields "by" rest).andThen fun _ more _ _ => date_yields more
    split
    case h_1 => exact fun _ read => by cases read
    case h_2 by_ read =>
      intro p other
      cases other
      exact ⟨(dated by_ read).1, { replaced with }⟩

theorem assumptionForm_spelled (owner : String)
    : (assumptionForm (α := α) owner).KeepsWithin tokens Assumption.IsSpelled := {
  properties := by
    simp only [assumptionForm, List.forall_mem_cons]
    refine ⟨assumedHandler_spelled names,
      (field_keeps quotedString_yields fun _ _ fine => { fine with }).within tokens,
      (field_keeps (number_yields true) fun _ _ fine => { fine with }).within tokens,
      field_keepsWithin (fun _ => distribution_spelled names) fun _ _ fine spelled =>
        { fine with uncertainty := forall_mem_some spelled }, ?_, ?_, by simp⟩
    · intro record key ts inside fine
      exact (binding_spelled names key.span inside).mapValue fun _ spelled =>
        { fine with binding := forall_mem_some spelled }
    · intro record key ts inside fine
      have watched := watchBody_spelled names (forall_mem_none Path.IsSpelled) key.span inside
      exact watched.mapValue fun _ spelled => { fine with watch := forall_mem_some spelled }
  extra record ts outcome _ := noExtra_keeps record ts outcome
}

theorem anchorItem_spelled (record : Variable α) (ts : List (Token α))
    (outcome : Outcome α (Variable α) ts) (inside : ts <:+ tokens) (fine : record.IsSpelled)
    (found : anchorItem record ts = some outcome)
    : outcome.Yields Variable.IsSpelled := by
  unfold anchorItem at found
  split at found
  case isFalse => cases found
  case isTrue =>
    cases found
    refine Outcome.yields_silent ((date_yields ts).andThen fun _ _ dated _ => ?_)
    refine (expectSign_yields _ _ _).andThen fun _ rest parted _ => ?_
    refine (expression_spelled names (parted.trans (dated.trans inside))).mapValue
      fun value spelled => ?_
    exact { fine with
      anchors := List.forall_mem_append.mpr ⟨fine.anchors, List.forall_mem_singleton.mpr spelled⟩ }

theorem variableForm_spelled (owner : String)
    : (variableForm (α := α) owner).KeepsWithin tokens Variable.IsSpelled := {
  properties := by
    simp only [variableForm, List.forall_mem_cons]
    exact ⟨(field_keeps quotedString_yields fun _ _ fine => { fine with }).within tokens,
      (field_keeps quotedString_yields fun _ _ fine => { fine with }).within tokens,
      (field_keeps quotedString_yields fun _ _ fine => { fine with }).within tokens,
      (field_keeps quotedString_yields fun _ _ fine => { fine with }).within tokens,
      (field_keeps quotedString_yields fun _ _ fine => { fine with }).within tokens,
      field_keepsWithin
        (fun _ => nameList_yields_all fun _ => dottedName_spelled names) fun _ _ fine spelled =>
        { fine with dependsOn := spelled },
      field_keepsWithin (fun _ => model_spelled names) fun _ _ fine spelled =>
        { fine with model := forall_mem_some spelled },
      field_keepsWithin (fun _ => distribution_spelled names) fun _ _ fine spelled =>
        { fine with uncertainty := forall_mem_some spelled },
      (field_keeps (choice_yields _ _ _) fun _ _ fine => { fine with }).within tokens, by simp⟩
  extra := anchorItem_spelled names
}

omit [Scalar α] in
theorem parameterForm_spelled (owner : String)
    : (parameterForm (α := α) owner).KeepsWithin tokens Parameter.IsSpelled := {
  properties := by
    simp only [parameterForm, List.forall_mem_cons]
    exact ⟨field_keepsWithin (fun _ => expression_spelled names) fun _ _ fine spelled =>
        { fine with value := forall_mem_some spelled },
      field_keepsWithin (fun _ => range_spelled names) fun _ _ fine spelled =>
        { fine with range := forall_mem_some spelled },
      field_keepsWithin (fun _ => distribution_spelled names) fun _ _ fine spelled =>
        { fine with uncertainty := forall_mem_some spelled },
      (field_keeps quotedString_yields fun _ _ fine => { fine with }).within tokens,
      (field_keeps quotedString_yields fun _ _ fine => { fine with }).within tokens,
      (field_keeps quotedString_yields fun _ _ fine => { fine with }).within tokens,
      field_keepsWithin (fun _ => expression_spelled names) fun _ _ fine spelled =>
        { fine with step := forall_mem_some spelled },
      (field_keeps quotedString_yields fun _ _ fine => { fine with }).within tokens,
      (field_keeps quotedString_yields fun _ _ fine => { fine with }).within tokens,
      (field_keeps (choice_yields _ _ _) fun _ _ fine => { fine with }).within tokens,
      (field_keeps quotedString_yields fun _ _ fine => { fine with }).within tokens,
      (field_keeps quotedString_yields fun _ _ fine => { fine with }).within tokens, by simp⟩
  extra record ts outcome _ := noExtra_keeps record ts outcome
}

omit [Scalar α] in
theorem impactForm_spelled (owner : String)
    : (impactForm (α := α) owner).KeepsWithin tokens Impact.IsSpelled := {
  properties := by
    simp only [impactForm, List.forall_mem_cons]
    exact ⟨(field_keeps quotedString_yields fun _ _ fine => { fine with }).within tokens,
      (field_keeps quotedString_yields fun _ _ fine => { fine with }).within tokens,
      (field_keeps quotedString_yields fun _ _ fine => { fine with }).within tokens,
      (field_keeps quotedString_yields fun _ _ fine => { fine with }).within tokens,
      (field_keeps quotedString_yields fun _ _ fine => { fine with }).within tokens,
      field_keepsWithin
        (fun _ => nameList_yields_all fun _ => dottedName_spelled names) fun _ _ fine spelled =>
        { fine with derivesFrom := spelled },
      field_keepsWithin (fun _ => expression_spelled names) fun _ _ fine spelled =>
        { fine with formula := forall_mem_some spelled }, by simp⟩
  extra record ts outcome _ := noExtra_keeps record ts outcome
}

theorem quantity?_spelled {keyword : String} {span : Span} (inside : ts <:+ tokens)
    {outcome : Outcome α (Quantity α) ts} (found : quantity? keyword span ts = some outcome)
    : outcome.Yields Quantity.IsSpelled := by
  have started {β : Type} {form : String → BlockForm α β} {start : String → β}
      {holds : β → Prop} (keeps : ∀ name, (form name).KeepsWithin tokens holds)
      (starts : ∀ name, holds (start name))
      : Outcome.Yields (.afterAttempt (identifier ts) fun name rest =>
          block (form name) (start name) rest) holds :=
    Outcome.yields_afterAttempt identifier_yields fun name _ left _ =>
      block_yieldsWithin (keeps name) (starts name) (left.trans inside)
  unfold quantity? at found
  split at found
  case h_1 =>
    cases found
    refine (started (assumptionForm_spelled names) fun name => ?_).mapValue fun _ right => right
    exact ⟨forall_mem_none _, forall_mem_none _, forall_mem_none _, forall_mem_none _⟩
  case h_2 =>
    cases found
    refine (started (variableForm_spelled names) fun name => ?_).mapValue fun _ right => right
    exact ⟨List.forall_mem_nil _, List.forall_mem_nil _, forall_mem_none _, forall_mem_none _⟩
  case h_3 =>
    cases found
    refine (started (parameterForm_spelled names) fun name => ?_).mapValue fun _ right => right
    exact ⟨forall_mem_none _, forall_mem_none _, forall_mem_none _, forall_mem_none _⟩
  case h_4 =>
    cases found
    refine (started (impactForm_spelled names) fun name => ?_).mapValue fun _ right => right
    exact ⟨List.forall_mem_nil _, forall_mem_none _⟩
  case h_5 => cases found

end Values

-----------------------------------------------------------------------------------------
-- Branches and settings
-----------------------------------------------------------------------------------------

variable [Scalar α]

theorem overrideItem_spelled (record : Branch α) (ts : List (Token α))
    (outcome : Outcome α (Branch α) ts) (inside : ts <:+ tokens) (fine : record.IsSpelled)
    (found : overrideItem record ts = some outcome)
    : outcome.Yields Branch.IsSpelled := by
  unfold overrideItem at found
  split at found
  case h_1 => cases found
  case h_2 t rest =>
    split at found
    case isFalse => cases found
    case isTrue =>
      cases found
      apply orRecover_yields fine
      split
      case h_1 => exact Outcome.yields_silent (failHere_yields _)
      case h_2 inner known =>
        have behind := (List.suffix_cons t rest).trans inside
        refine ((quantity?_spelled names behind known).mapValue fun q spelled => ?_).afterToken t
        exact { fine with
          overrides := List.forall_mem_append.mpr
            ⟨fine.overrides, List.forall_mem_singleton.mpr spelled⟩ }

theorem branchForm_spelled (name : String)
    : (branchForm (α := α) name).KeepsWithin tokens Branch.IsSpelled := {
  properties := by
    simp only [branchForm, List.forall_mem_cons]
    refine ⟨(field_keeps (number_yields true) fun _ _ fine => { fine with }).within tokens, ?_,
      by simp⟩
    exact fun _ _ _ _ fine => Outcome.yields_silent <|
      (expectSign_yields _ _ _).andThen fun _ _ _ _ =>
      (expectWord_yields _ _).andThen fun _ rest _ _ =>
        (quotedString_yields rest).mapValue fun _ _ => { fine with }
  extra := overrideItem_spelled names
}

theorem branch_spelled (span : Span) (inside : ts <:+ tokens)
    : (branch span ts).Yields Branch.IsSpelled := by
  apply Outcome.yields_afterAttempt (wordOrString_yields ts)
  intro name rest left _
  have condition := (expectWord_yields "when" rest).andThen fun _ more later _ =>
    expression_spelled names (later.trans (left.trans inside))
  exact Outcome.yields_afterAttempt condition fun condition more later spelled =>
    block_yieldsWithin (branchForm_spelled names name) ⟨spelled, List.forall_mem_nil _⟩
      (later.trans (left.trans inside))

omit [Scalar α] in
theorem calibrateForm_spelled (target : Path)
    : (calibrateForm (α := α) target).KeepsWithin tokens Calibrate.IsSpelled := {
  properties := by
    simp only [calibrateForm, List.forall_mem_cons]
    exact ⟨(field_keeps quotedString_yields fun _ _ fine => { fine with }).within tokens,
      (field_keeps (choice_yields _ _ _) fun _ _ fine => { fine with }).within tokens,
      (field_keeps duration_yields fun _ _ fine => { fine with }).within tokens,
      field_keepsWithin (fun _ => distribution_spelled names) fun _ _ fine spelled =>
        { fine with prior := forall_mem_some spelled },
      (field_keeps (choice_yields _ _ _) fun _ _ fine => { fine with }).within tokens, by simp⟩
  extra record ts outcome _ := noExtra_keeps record ts outcome
}

/-- Whatever is declared among the tokens is spelled. -/
theorem declares_spelled : Declares tokens Declaration.IsSpelled := by
  intro keyword span ts outcome inside found
  unfold declaration? at found
  split at found
  case h_1 =>
    cases found
    exact (branch_spelled names span inside).mapValue fun _ right => right
  case h_2 =>
    cases found
    exact (block_yields simulateForm_keeps trivial ts).mapValue fun _ _ => trivial
  case h_3 =>
    cases found
    refine Outcome.Yields.mapValue (Outcome.yields_afterAttempt (dottedName_spelled names inside)
      fun target rest left spelled => ?_) fun _ right => right
    exact watchBody_spelled names (forall_mem_some spelled) span (left.trans inside)
  case h_4 =>
    cases found
    refine Outcome.Yields.mapValue (Outcome.yields_afterAttempt (dottedName_spelled names inside)
      fun target rest left spelled => ?_) fun _ right => right
    exact block_yieldsWithin (calibrateForm_spelled names target) ⟨spelled, forall_mem_none _⟩
      (left.trans inside)
  case h_5 =>
    cases found
    exact Outcome.yields_silent ((imported_yields span ts).mapValue fun _ _ => trivial)
  case h_6 =>
    obtain ⟨inner, known, rfl⟩ := Option.map_eq_some_iff.mp found
    exact (quantity?_spelled names inside known).mapValue fun _ right => right

end Grammar

/-- All names in a scenario that was read from a text are spelled, also where the text is at fault.
-/
theorem SourceText.read_isSpelled [Scalar α] {source : String} {text : SourceText α}
    (read : SourceText.read source = .ok text) {s : Scenario α} (found : text.scenario = some s)
    : s.IsSpelled := by
  unfold SourceText.read at read
  dsimp only at read
  split at read
  case h_1 => cases read
  case h_2 scenario reports readFile =>
    cases read
    cases found
    have names : Grammar.HasNames (TokenText.scan (α := α) source).tokens :=
      fun _ scanned word => Token.isName_of_scan scanned word
    exact Grammar.file_yields (Grammar.declares_spelled names) (fun _ => trivial) readFile

end Prognosis
