import Prognosis.Grammar.Block
import Prognosis.Grammar.Declaration
import Prognosis.Proofs.Entries
import Prognosis.Proofs.Grammar.Value

/-! What readers of blocks and declarations leave. A block keeps every property of its record that
each of its properties keeps. The name of a declared value is one of the words that it was read
from, whatever its block says.
-/

namespace Prognosis.Grammar

variable {α β γ : Type} {ts : List (Token α)}

open Attempt

-----------------------------------------------------------------------------------------
-- Readings with reports
-----------------------------------------------------------------------------------------

namespace Outcome

variable {holds : β → Prop} {becomes : γ → Prop}

/-- Where the construct was read, whatever was reported, the tokens that are left end the given
ones, and the value has the property.
-/
def Yields (o : Outcome α β ts) (holds : β → Prop) : Prop :=
  o.attempt.Yields holds

theorem yields_silent {a : Attempt α β ts} (yields : a.Yields holds)
    : (silent a).Yields holds :=
  yields

theorem Yields.weaken {o : Outcome α β ts} (yields : o.Yields holds) {also : β → Prop}
    (weaker : ∀ value, holds value → also value)
    : o.Yields also :=
  Attempt.Yields.weaken yields weaker

theorem Yields.mapValue {o : Outcome α β ts} (yields : o.Yields holds) {f : β → γ}
    (changed : ∀ value, holds value → becomes (f value))
    : (o.mapValue f).Yields becomes :=
  Attempt.Yields.mapValue yields changed

theorem yields_afterAttempt {a : Attempt α β ts} (yields : a.Yields holds)
    {next : β → (rest : List (Token α)) → Outcome α γ rest}
    (after : ∀ value rest, rest <:+ ts → holds value → (next value rest).Yields becomes)
    : (afterAttempt a next).Yields becomes := by
  cases a with
  | error e => exact yields_error e
  | ok p =>
      obtain ⟨left, value⟩ := yields p rfl
      have then_ := after p.value p.rest left value
      unfold Outcome.Yields at *
      simp only [afterAttempt]
      cases read : (next p.value p.rest).attempt with
      | error e => exact yields_error e
      | ok q =>
          obtain ⟨leftThen, valueThen⟩ := then_ q read
          exact yields_ok (p := p.after q) (leftThen.trans left) valueThen

theorem yields_afterSkipped (sign : Sign)
    {o : Outcome α β (skipSign sign ts).rest} (yields : o.Yields holds)
    : (afterSkipped (skipSign sign ts) o).Yields holds := by
  unfold Outcome.Yields at *
  simp only [afterSkipped]
  cases read : o.attempt with
  | error e => exact yields_error e
  | ok p =>
      obtain ⟨left, value⟩ := yields p read
      exact yields_ok (left.trans (skipSign_rest sign ts)) value

end Outcome

-----------------------------------------------------------------------------------------
-- Tokens that are passed over
-----------------------------------------------------------------------------------------

theorem afterProperty_suffix (line : Nat) (depth : Int) (ts : List (Token α))
    : afterProperty line depth ts <:+ ts := by
  induction ts generalizing depth with
  | nil => exact List.suffix_rfl
  | cons t rest ih =>
      unfold afterProperty
      split
      case isTrue => exact List.suffix_rfl
      case isFalse => exact (ih _).trans (List.suffix_cons t rest)

theorem skipSeparators_suffix (ts : List (Token α)) : skipSeparators ts <:+ ts :=
  List.dropWhile_suffix _

theorem recover_suffix (depth : Nat) (ts : List (Token α)) : recover depth ts <:+ ts := by
  induction ts generalizing depth with
  | nil => exact List.suffix_rfl
  | cons t rest ih =>
      have later (depth : Nat) := (ih depth).trans (List.suffix_cons t rest)
      unfold recover
      split
      case isTrue => exact later _
      case isFalse =>
        split
        case isTrue =>
          split
          case h_1 => exact List.suffix_rfl
          case h_2 => exact List.suffix_cons t rest
          case h_3 => exact later _
        case isFalse =>
          split
          case isTrue => exact List.suffix_rfl
          case isFalse => exact later _

-----------------------------------------------------------------------------------------
-- Blocks
-----------------------------------------------------------------------------------------

section Blocks

variable {σ : Type} {holds : σ → Prop}

/-- The reader of a property keeps the property of records wherever it starts among the tokens. -/
def Handler.KeepsWithin (tokens : List (Token α)) (handler : Handler α σ) (holds : σ → Prop)
    : Prop :=
  ∀ record key ts, ts <:+ tokens → holds record → (handler record key ts).Yields holds

/-- All readers of items in a block keep the property of records wherever they start among the
tokens.
-/
structure BlockForm.KeepsWithin (tokens : List (Token α)) (form : BlockForm α σ)
    (holds : σ → Prop) : Prop where
  properties : ∀ property ∈ form.properties, property.2.KeepsWithin tokens holds
  extra
    : ∀ record (ts : List (Token α)) outcome, ts <:+ tokens → holds record
        → form.extra record ts = some outcome → outcome.Yields holds

/-- The reader of a property keeps the property of records. -/
def Handler.Keeps (handler : Handler α σ) (holds : σ → Prop) : Prop :=
  ∀ record key ts, holds record → (handler record key ts).Yields holds

/-- All readers of items in a block keep the property of records. -/
structure BlockForm.Keeps (form : BlockForm α σ) (holds : σ → Prop) : Prop where
  properties : ∀ property ∈ form.properties, property.2.Keeps holds
  extra
    : ∀ record (ts : List (Token α)) outcome, holds record
        → form.extra record ts = some outcome → outcome.Yields holds

theorem Handler.Keeps.within {handler : Handler α σ} (keeps : handler.Keeps holds)
    (tokens : List (Token α))
    : handler.KeepsWithin tokens holds :=
  fun record key ts _ => keeps record key ts

theorem BlockForm.Keeps.within {form : BlockForm α σ} (keeps : form.Keeps holds)
    (tokens : List (Token α))
    : form.KeepsWithin tokens holds where
  properties property member := (keeps.properties property member).within tokens
  extra record ts outcome _ := keeps.extra record ts outcome

theorem noExtra_keeps (record : σ) (ts : List (Token α)) (outcome : Outcome α σ ts)
    (_ : holds record) (found : noExtra record ts = some outcome)
    : outcome.Yields holds := by
  cases found

/-- A field keeps a property of records that its value does not break. -/
theorem field_keepsWithin {tokens : List (Token α)} {key : String}
    {value : (ts : List (Token α)) → Attempt α β ts} {put : σ → β → σ} {means : β → Prop}
    (yields : ∀ ts, ts <:+ tokens → (value ts).Yields means)
    (kept : ∀ record v, holds record → means v → holds (put record v))
    : (field key value put).2.KeepsWithin tokens holds := by
  intro record _ ts inside right
  exact (expectSign_yields _ _ _).andThen fun _ rest left _ =>
    (yields rest (left.trans inside)).mapValue fun v meant => kept record v right meant

theorem field_keeps {key : String} {value : (ts : List (Token α)) → Attempt α β ts}
    {put : σ → β → σ} (yields : ∀ ts, (value ts).Yields fun _ => True)
    (kept : ∀ record v, holds record → holds (put record v))
    : (field key value put).2.Keeps holds :=
  fun record key ts => field_keepsWithin (fun ts _ => yields ts)
    (fun record v right _ => kept record v right) record key ts (List.suffix_refl ts)

theorem BlockForm.KeepsWithin.handler {tokens : List (Token α)} {form : BlockForm α σ}
    (keeps : form.KeepsWithin tokens holds) {t : Token α} {handler : Handler α σ}
    (found : form.handler? t = some handler)
    : handler.KeepsWithin tokens holds := by
  unfold BlockForm.handler? at found
  split at found
  case isFalse => cases found
  case isTrue => exact keeps.properties _ (Entries.mem_of_lookup found)

theorem BlockForm.Keeps.handler {form : BlockForm α σ} (keeps : form.Keeps holds) {t : Token α}
    {handler : Handler α σ} (found : form.handler? t = some handler)
    : handler.Keeps holds :=
  fun record key ts => (keeps.within ts).handler found record key ts (List.suffix_refl ts)

/-- Items of a block keep what each of them keeps. By induction on the number of tokens. -/
theorem blockItems_yieldsWithin {tokens : List (Token α)} {form : BlockForm α σ}
    (keeps : form.KeepsWithin tokens holds) {record : σ} (right : holds record)
    {ts : List (Token α)} (inside : ts <:+ tokens)
    : (blockItems form record ts).Yields holds := by
  unfold blockItems
  split
  case h_1 => exact yields_error _
  case h_2 t rest skipped =>
    have all : t :: rest <:+ ts := skipped ▸ skipSeparators_suffix ts
    have behind := (List.suffix_cons t rest).trans all
    split
    case isTrue => exact yields_ok behind right
    case isFalse =>
      split
      case h_1 outcome found =>
        have item := keeps.extra record _ outcome (all.trans inside) right found
        split
        case h_1 => exact yields_error _
        case h_2 p read =>
          obtain ⟨left, value⟩ := item p read
          have shorter : p.rest.length < ts.length :=
            Nat.lt_of_lt_of_le p.shorter all.length_le
          have later := blockItems_yieldsWithin keeps value ((left.trans all).trans inside)
          dsimp only [Outcome.Yields]
          split
          case h_1 => exact yields_error _
          case h_2 q readOthers =>
            obtain ⟨leftThen, valueThen⟩ := later q readOthers
            exact yields_ok (leftThen.trans (left.trans all)) valueThen
      case h_2 =>
        split
        case h_1 handler found =>
          have item := keeps.handler found record t rest (behind.trans inside) right
          dsimp only
          split
          case h_1 => exact yields_error _
          case h_2 p read =>
            obtain ⟨left, value⟩ := item p read
            have shorter : p.rest.length < ts.length :=
              Nat.lt_of_lt_of_le p.shorter behind.length_le
            have later := blockItems_yieldsWithin keeps value ((left.trans behind).trans inside)
            dsimp only [Outcome.Yields]
            split
            case h_1 => exact yields_error _
            case h_2 q readOthers =>
              obtain ⟨leftThen, valueThen⟩ := later q readOthers
              exact yields_ok (leftThen.trans (left.trans behind)) valueThen
        case h_2 =>
          have left := afterProperty_suffix t.span.line 0 rest
          have shorter : (afterProperty t.span.line 0 rest).length < ts.length :=
            Nat.lt_of_lt_of_le (Nat.lt_succ_of_le left.length_le) all.length_le
          have later := blockItems_yieldsWithin keeps right ((left.trans behind).trans inside)
          dsimp only [Outcome.Yields]
          split
          case h_1 => exact yields_error _
          case h_2 q readOthers =>
            obtain ⟨leftThen, valueThen⟩ := later q readOthers
            exact yields_ok (leftThen.trans (left.trans behind)) valueThen
termination_by ts.length

theorem block_yieldsWithin {tokens : List (Token α)} {form : BlockForm α σ}
    (keeps : form.KeepsWithin tokens holds) {record : σ} (right : holds record)
    {ts : List (Token α)} (inside : ts <:+ tokens)
    : (block form record ts).Yields holds :=
  Outcome.yields_afterAttempt (expectSign_yields _ _ _) fun _ _ left _ =>
    blockItems_yieldsWithin keeps right (left.trans inside)

theorem block_yields {form : BlockForm α σ} (keeps : form.Keeps holds) {record : σ}
    (right : holds record) (ts : List (Token α))
    : (block form record ts).Yields holds :=
  block_yieldsWithin (keeps.within ts) right (List.suffix_refl ts)

end Blocks

-----------------------------------------------------------------------------------------
-- Parts of declarations
-----------------------------------------------------------------------------------------

theorem bindingForm_keeps : (bindingForm (α := α)).Keeps fun _ => True := {
  properties := by
    simp only [bindingForm, List.forall_mem_cons]
    exact ⟨field_keeps quotedString_yields fun _ _ _ => trivial,
      field_keeps (choice_yields _ _ _) fun _ _ _ => trivial,
      field_keeps quotedString_yields fun _ _ _ => trivial,
      field_keeps expression_yields fun _ _ _ => trivial,
      field_keeps expression_yields fun _ _ _ => trivial, by simp⟩
  extra := noExtra_keeps
}

theorem binding_yields (span : Span) (ts : List (Token α))
    : (binding span ts).Yields fun _ => True :=
  Outcome.yields_afterSkipped .colon (block_yields bindingForm_keeps trivial _)

theorem triggerForm_keeps : (triggerForm (α := α)).Keeps fun _ => True := {
  properties := by
    simp only [triggerForm, List.forall_mem_cons]
    exact ⟨field_keeps boolean_yields fun _ _ _ => trivial,
      field_keeps stringList_yields fun _ _ _ => trivial,
      field_keeps quotedString_yields fun _ _ _ => trivial, by simp⟩
  extra := noExtra_keeps
}

theorem ruleHandler_keeps (severity : AlertSeverity)
    : (ruleHandler (α := α) severity).2.Keeps fun _ => True := by
  intro watch _ ts _
  have start : (Attempt.andMaybe (expectWord "when" ts) fun _ rest =>
      .ok (skipSign .colon rest)).Yields fun _ => True := by
    apply (expectWord_yields "when" ts).andMaybe
    intro _ rest _ _ p read
    cases read
    exact ⟨skipSign_rest .colon rest, trivial⟩
  exact start.andThen fun _ rest _ _ => (expression_yields rest).mapValue fun _ _ => trivial

theorem watchForm_keeps (target : Option Path)
    : (watchForm (α := α) target).Keeps fun _ => True := {
  properties := by
    simp only [watchForm, List.forall_mem_cons]
    refine ⟨ruleHandler_keeps _, ruleHandler_keeps _, ?_, by simp⟩
    exact fun _ _ _ _ => (Outcome.yields_afterSkipped .colon
      (block_yields triggerForm_keeps trivial _)).mapValue fun _ _ => trivial
  extra := noExtra_keeps
}

theorem watchBody_yields (target : Option Path) (span : Span) (ts : List (Token α))
    : (watchBody target span ts).Yields fun _ => True :=
  block_yields (watchForm_keeps target) trivial ts

-----------------------------------------------------------------------------------------
-- Declared values
-----------------------------------------------------------------------------------------

section Values

variable [Scalar α] {name : String}

theorem assumedHandler_keeps
    : (assumedHandler (α := α)).2.Keeps fun a => a.name = name := by
  intro record _ ts named
  have valued := (expectSign_yields .colon "':' after 'value'" ts).andThen
    fun _ rest _ _ => expression_yields rest
  refine Outcome.yields_silent (Attempt.Yields.andMaybe valued fun value rest _ _ => ?_)
  dsimp only
  split
  case isFalse => exact mayYield_stay named
  case isTrue =>
    have dated := (expectWord_yields "by" rest).andThen fun _ more _ _ =>
      date_yields more
    split
    case h_1 => exact fun _ read => by cases read
    case h_2 by_ read =>
      intro p other
      cases other
      exact ⟨(dated by_ read).1, named⟩

theorem assumptionForm_keeps (owner : String)
    : (assumptionForm (α := α) owner).Keeps fun a => a.name = name := {
  properties := by
    simp only [assumptionForm, List.forall_mem_cons]
    refine ⟨assumedHandler_keeps, field_keeps quotedString_yields fun _ _ named => named,
      field_keeps (number_yields true) fun _ _ named => named,
      field_keeps distribution_yields fun _ _ named => named, ?_, ?_, by simp⟩
    · exact fun _ key ts named => (binding_yields key.span ts).mapValue fun _ _ => named
    · exact fun _ key ts named => (watchBody_yields none key.span ts).mapValue fun _ _ => named
  extra := noExtra_keeps
}

theorem anchorItem_keeps (record : Variable α) (ts : List (Token α))
    (outcome : Outcome α (Variable α) ts) (named : record.name = name)
    (found : anchorItem record ts = some outcome)
    : outcome.Yields fun v => v.name = name := by
  unfold anchorItem at found
  split at found
  case isFalse => cases found
  case isTrue =>
    cases found
    exact Outcome.yields_silent <| (date_yields ts).andThen fun _ _ _ _ =>
      (expectSign_yields _ _ _).andThen fun _ rest _ _ =>
        (expression_yields rest).mapValue fun _ _ => named

theorem variableForm_keeps (owner : String)
    : (variableForm (α := α) owner).Keeps fun v => v.name = name := {
  properties := by
    simp only [variableForm, List.forall_mem_cons]
    exact ⟨field_keeps quotedString_yields fun _ _ named => named,
      field_keeps quotedString_yields fun _ _ named => named,
      field_keeps quotedString_yields fun _ _ named => named,
      field_keeps quotedString_yields fun _ _ named => named,
      field_keeps quotedString_yields fun _ _ named => named,
      field_keeps nameList_yields fun _ _ named => named,
      field_keeps model_yields fun _ _ named => named,
      field_keeps distribution_yields fun _ _ named => named,
      field_keeps (choice_yields _ _ _) fun _ _ named => named, by simp⟩
  extra := anchorItem_keeps
}

omit [Scalar α] in
theorem parameterForm_keeps (owner : String)
    : (parameterForm (α := α) owner).Keeps fun p => p.name = name := {
  properties := by
    simp only [parameterForm, List.forall_mem_cons]
    exact ⟨field_keeps expression_yields fun _ _ named => named,
      field_keeps range_yields fun _ _ named => named,
      field_keeps distribution_yields fun _ _ named => named,
      field_keeps quotedString_yields fun _ _ named => named,
      field_keeps quotedString_yields fun _ _ named => named,
      field_keeps quotedString_yields fun _ _ named => named,
      field_keeps expression_yields fun _ _ named => named,
      field_keeps quotedString_yields fun _ _ named => named,
      field_keeps quotedString_yields fun _ _ named => named,
      field_keeps (choice_yields _ _ _) fun _ _ named => named,
      field_keeps quotedString_yields fun _ _ named => named,
      field_keeps quotedString_yields fun _ _ named => named, by simp⟩
  extra := noExtra_keeps
}

omit [Scalar α] in
theorem impactForm_keeps (owner : String)
    : (impactForm (α := α) owner).Keeps fun i => i.name = name := {
  properties := by
    simp only [impactForm, List.forall_mem_cons]
    exact ⟨field_keeps quotedString_yields fun _ _ named => named,
      field_keeps quotedString_yields fun _ _ named => named,
      field_keeps quotedString_yields fun _ _ named => named,
      field_keeps quotedString_yields fun _ _ named => named,
      field_keeps quotedString_yields fun _ _ named => named,
      field_keeps nameList_yields fun _ _ named => named,
      field_keeps expression_yields fun _ _ named => named, by simp⟩
  extra := noExtra_keeps
}

end Values

/-- The name of a declared value is the word after its keyword. -/
theorem quantity?_yields [Scalar α] {keyword : String} {span : Span} {ts : List (Token α)}
    {outcome : Outcome α (Quantity α) ts} (found : quantity? keyword span ts = some outcome)
    : outcome.Yields fun q => HasWord ts q.name := by
  have started {β : Type} {form : String → BlockForm α β} {label : β → String}
      {start : String → β} (keeps : ∀ name, (form name).Keeps fun record => label record = name)
      (starts : ∀ name, label (start name) = name)
      : Outcome.Yields (.afterAttempt (identifier ts) fun name rest =>
          block (form name) (start name) rest) fun record => HasWord ts (label record) :=
    Outcome.yields_afterAttempt identifier_yields fun name rest _ word =>
      (block_yields (keeps name) (starts name) rest).weaken fun _ named => named ▸ word
  unfold quantity? at found
  split at found
  case h_1 =>
    cases found
    exact (started (fun name => assumptionForm_keeps name) fun _ => rfl).mapValue
      fun _ word => word
  case h_2 =>
    cases found
    exact (started (fun name => variableForm_keeps name) fun _ => rfl).mapValue
      fun _ word => word
  case h_3 =>
    cases found
    exact (started (fun name => parameterForm_keeps name) fun _ => rfl).mapValue
      fun _ word => word
  case h_4 =>
    cases found
    exact (started (fun name => impactForm_keeps name) fun _ => rfl).mapValue
      fun _ word => word
  case h_5 => cases found

-----------------------------------------------------------------------------------------
-- Branches and settings
-----------------------------------------------------------------------------------------

section Recovery

variable {σ : Type} {holds : σ → Prop} {t : Token α} {rest : List (Token α)}

theorem Outcome.Yields.afterToken {o : Outcome α σ rest} (yields : o.Yields holds) (t : Token α)
    : (o.afterToken t).Yields holds :=
  Attempt.Yields.afterToken yields t

/-- Where a construct is given up, the record stays. -/
theorem orRecover_yields {record : σ} (right : holds record) {o : Outcome α σ (t :: rest)}
    (yields : o.Yields holds)
    : (orRecover t rest record o).Yields holds := by
  unfold orRecover
  split
  case h_1 => exact yields_ok ((recover_suffix 0 rest).trans (List.suffix_cons t rest)) right
  case h_2 => exact yields

end Recovery

variable [Scalar α]

theorem overrideItem_keeps (record : Branch α) (ts : List (Token α))
    (outcome : Outcome α (Branch α) ts) (_ : True)
    (found : overrideItem record ts = some outcome)
    : outcome.Yields fun _ => True := by
  unfold overrideItem at found
  split at found
  case h_1 => cases found
  case h_2 t rest =>
    split at found
    case isFalse => cases found
    case isTrue =>
      cases found
      apply orRecover_yields trivial
      split
      case h_1 => exact Outcome.yields_silent (failHere_yields _)
      case h_2 inner known =>
        exact ((quantity?_yields known).mapValue fun _ _ => trivial).afterToken t

theorem branchForm_keeps (name : String) : (branchForm (α := α) name).Keeps fun _ => True := {
  properties := by
    simp only [branchForm, List.forall_mem_cons]
    refine ⟨field_keeps (number_yields true) fun _ _ _ => trivial, ?_, by simp⟩
    exact fun _ _ _ _ => Outcome.yields_silent <| (expectSign_yields _ _ _).andThen fun _ _ _ _ =>
      (expectWord_yields _ _).andThen fun _ rest _ _ =>
        (quotedString_yields rest).mapValue fun _ _ => trivial
  extra := overrideItem_keeps
}

theorem branch_yields (span : Span) (ts : List (Token α))
    : (branch span ts).Yields fun _ => True := by
  apply Outcome.yields_afterAttempt (wordOrString_yields ts)
  intro name rest _ _
  have condition := (expectWord_yields "when" rest).andThen fun _ more _ _ =>
    expression_yields more
  exact Outcome.yields_afterAttempt condition fun condition rest _ _ =>
    block_yields (branchForm_keeps name) trivial rest

theorem simulateForm_keeps : (simulateForm (α := α)).Keeps fun _ => True := {
  properties := by
    simp only [simulateForm, List.forall_mem_cons]
    exact ⟨field_keeps wholeNumber_yields fun _ _ _ => trivial,
      field_keeps (choice_yields _ _ _) fun _ _ _ => trivial,
      field_keeps wholeNumber_yields fun _ _ _ => trivial,
      field_keeps (choice_yields _ _ _) fun _ _ _ => trivial,
      field_keeps numberList_yields fun _ _ _ => trivial,
      field_keeps (number_yields false) fun _ _ _ => trivial,
      field_keeps duration_yields fun _ _ _ => trivial, by simp⟩
  extra := noExtra_keeps
}

omit [Scalar α] in
theorem calibrateForm_keeps (target : Path)
    : (calibrateForm (α := α) target).Keeps fun _ => True := {
  properties := by
    simp only [calibrateForm, List.forall_mem_cons]
    exact ⟨field_keeps quotedString_yields fun _ _ _ => trivial,
      field_keeps (choice_yields _ _ _) fun _ _ _ => trivial,
      field_keeps duration_yields fun _ _ _ => trivial,
      field_keeps distribution_yields fun _ _ _ => trivial,
      field_keeps (choice_yields _ _ _) fun _ _ _ => trivial, by simp⟩
  extra := noExtra_keeps
}

omit [Scalar α] in
theorem imported_yields (span : Span) (ts : List (Token α))
    : (imported span ts).Yields fun _ => True :=
  (quotedString_yields ts).andThen fun _ _ _ _ =>
    (expectWord_yields _ _).andThen fun _ _ _ _ => identifier_yields.mapValue fun _ _ => trivial

/-- A declaration that declares a value takes its name from a word. -/
theorem declaration?_yields {keyword : String} {span : Span} {ts : List (Token α)}
    {outcome : Outcome α (Declaration α) ts}
    (found : declaration? keyword span ts = some outcome)
    : outcome.Yields fun d => ∀ q, d.quantity? = some q → HasWord ts q.name := by
  unfold declaration? at found
  split at found
  case h_1 =>
    cases found
    exact (branch_yields span ts).mapValue fun _ _ _ is => by cases is
  case h_2 =>
    cases found
    exact Outcome.Yields.mapValue (block_yields simulateForm_keeps trivial ts)
      fun _ _ _ is => by cases is
  case h_3 =>
    cases found
    exact Outcome.Yields.mapValue
      (Outcome.yields_afterAttempt (dottedName_yields ts) fun target rest _ _ =>
        watchBody_yields (some target) span rest)
      fun _ _ _ is => by cases is
  case h_4 =>
    cases found
    exact Outcome.Yields.mapValue
      (Outcome.yields_afterAttempt (dottedName_yields ts) fun target rest _ _ =>
        block_yields (calibrateForm_keeps target) trivial rest)
      fun _ _ _ is => by cases is
  case h_5 =>
    cases found
    exact Outcome.yields_silent ((imported_yields span ts).mapValue fun _ _ _ is => by cases is)
  case h_6 =>
    obtain ⟨inner, known, rfl⟩ := Option.map_eq_some_iff.mp found
    apply (quantity?_yields known).mapValue
    intro q word other is
    cases is
    exact word

end Prognosis.Grammar
