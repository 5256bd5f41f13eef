import Prognosis.Proofs.Grammar.Declaration
import Prognosis.Proofs.Grammar.Faults
import Prognosis.Proofs.Grammar.Seam.Block

/-! Declarations and their numbers. A declaration stops the reading only at a whole number or a date
whose number has no whole part, because it is beyond the range of numbers.
-/

namespace Prognosis

namespace Token

variable {α : Type} [Scalar α]

/-- The token is a number that has no whole part, with its sign or with the other one. -/
def IsUnbounded (t : Token α) : Prop :=
  ∃ x, t.kind = .number x ∧ (Scalar.truncate? x = none ∨ Scalar.truncate? (-x) = none)

end Token

namespace Grammar

variable {α β γ σ : Type} {ts tokens : List (Token α)}

-----------------------------------------------------------------------------------------
-- Readings with reports
-----------------------------------------------------------------------------------------

/-- A construct that was read leaves an end of the tokens, and its value has the property. -/
theorem Attempt.Yields.of_bare {a : Attempt α β ts} {holds : β → Prop} (yields : a.Yields holds)
    {value : β} {rest : List (Token α)} (read : a.bare = .ok (value, rest))
    : rest <:+ ts ∧ holds value := by
  cases a with
  | error e => cases read
  | ok p =>
      cases read
      exact yields p rfl

namespace Outcome

variable {only : Fault → Prop}

theorem faultsOnly_told {o : Outcome α β ts}
    : FaultsOnly only o.told.2 ↔ FaultsOnly only o.attempt :=
  faultsOnly_bare

theorem silent_faults {a : Attempt α β ts} (inner : FaultsOnly only a)
    : FaultsOnly only (silent a).attempt :=
  inner

theorem afterAttempt_faults {a : Attempt α β ts} (first : FaultsOnly only a)
    (yields : a.Yields fun _ => True) {next : β → (rest : List (Token α)) → Outcome α γ rest}
    (after : ∀ value rest, rest <:+ ts → FaultsOnly only (next value rest).attempt)
    : FaultsOnly only (afterAttempt a next).attempt := by
  rw [← faultsOnly_told, told_afterAttempt, Told.andThen_snd]
  refine (faultsOnly_bare.mpr first).bind fun ⟨value, rest⟩ read => ?_
  exact faultsOnly_bare.mpr (after value rest (yields.of_bare read).1)

theorem afterSkipped_faults {c : Continued α Unit ts} {o : Outcome α β c.rest}
    (inner : FaultsOnly only o.attempt)
    : FaultsOnly only (afterSkipped c o).attempt := by
  rw [← faultsOnly_told, told_afterSkipped]
  exact faultsOnly_told.mpr inner

theorem mapValue_faults {o : Outcome α β ts} (inner : FaultsOnly only o.attempt) (f : β → γ)
    : FaultsOnly only (o.mapValue f).attempt :=
  Attempt.mapValue_faults inner f

theorem afterToken_faults {o : Outcome α β ts} (inner : FaultsOnly only o.attempt) (t : Token α)
    : FaultsOnly only (o.afterToken t).attempt :=
  Attempt.afterToken_faults inner t

/-- What is wrong with the text is reported, so faults are all that can stop what recovers. -/
theorem orRecover_faults {t : Token α} {rest : List (Token α)} {record : β}
    {o : Outcome α β (t :: rest)} (inner : FaultsOnly only o.attempt)
    : FaultsOnly only (orRecover t rest record o).attempt := by
  unfold orRecover
  split
  case h_1 => exact faultsOnly_ok _
  case h_2 => exact inner

end Outcome

-----------------------------------------------------------------------------------------
-- Whole numbers and dates
-----------------------------------------------------------------------------------------

section Numbers

variable [Scalar α]

/-- The fault is that of a number without a whole part, which stands among the tokens. -/
def Overflows (tokens : List (Token α)) (fault : Fault) : Prop :=
  fault = .overflow ∧ ∃ t ∈ tokens, t.IsUnbounded

/-- The value is that of a number among the tokens, with its sign or with the other one. -/
def IsWritten (ts : List (Token α)) (value : α) : Prop :=
  ∃ t ∈ ts, ∃ x, t.kind = .number x ∧ (value = x ∨ value = -x)

theorem unsignedNumber_written (negative : Bool) (ts : List (Token α))
    : (unsignedNumber false negative ts).Yields (IsWritten ts) := by
  cases ts with
  | nil => exact failAtEnd_yields _
  | cons t rest =>
      simp only [unsignedNumber]
      split
      case h_2 same => cases same
      case h_3 => exact failExpected_yields _
      case h_1 value is =>
        refine Attempt.yields_single ⟨t, List.mem_cons_self, value, is, ?_⟩
        cases negative with
        | false => exact Or.inl rfl
        | true => exact Or.inr rfl

theorem number_written (ts : List (Token α)) : (number false ts).Yields (IsWritten ts) := by
  cases ts with
  | nil => exact failAtEnd_yields _
  | cons t rest =>
      simp only [number]
      split
      case isFalse => exact unsignedNumber_written false _
      case isTrue =>
        have behind := (unsignedNumber_written true rest).afterToken t
        refine behind.weaken fun value isWritten => ?_
        obtain ⟨u, among, written⟩ := isWritten
        exact ⟨u, List.mem_cons_of_mem t among, written⟩

theorem wholeNumber_faults (left : ts <:+ tokens)
    : FaultsOnly (Overflows tokens) (wholeNumber ts) := by
  rw [← faultsOnly_bare, Seam.wholeNumber_bare]
  refine (faultsOnly_bare.mpr (number_faults false ts)).bind fun ⟨value, rest⟩ read => ?_
  obtain ⟨t, among, x, is, same⟩ := ((number_written ts).of_bare read).2
  dsimp only
  split
  case h_1 none =>
    rintro fault ⟨⟩
    refine ⟨rfl, t, left.mem among, x, is, ?_⟩
    rcases same with rfl | rfl
    · exact Or.inl none
    · exact Or.inr none
  case h_2 =>
    split
    case isTrue => exact faultsOnly_ok _
    case isFalse => exact faultsOnly_finding _

theorem date_faults (left : ts <:+ tokens) : FaultsOnly (Overflows tokens) (date ts) := by
  cases ts with
  | nil => exact faultsOnly_finding _
  | cons t rest =>
      simp only [date]
      split
      case h_1 => exact faultsOnly_ok _
      case h_3 => exact faultsOnly_finding _
      case h_2 value is =>
        split
        case h_1 none =>
          rintro fault ⟨⟩
          exact ⟨rfl, t, left.mem List.mem_cons_self, value, is, Or.inl none⟩
        case h_2 =>
          split
          case isTrue => exact faultsOnly_ok _
          case isFalse => exact faultsOnly_finding _

-----------------------------------------------------------------------------------------
-- Blocks
-----------------------------------------------------------------------------------------

/-- Among the tokens, the reader of a property stops only for a number without a whole part. -/
def Handler.Returns (handler : Handler α σ) (tokens : List (Token α)) : Prop :=
  ∀ record key ts, ts <:+ tokens → FaultsOnly (Overflows tokens) (handler record key ts).attempt

/-- So do all readers of items in a block. -/
structure BlockForm.Returns (form : BlockForm α σ) (tokens : List (Token α)) : Prop where
  properties : ∀ property ∈ form.properties, property.2.Returns tokens
  extra
    : ∀ record ts outcome, ts <:+ tokens → form.extra record ts = some outcome
        → FaultsOnly (Overflows tokens) outcome.attempt

theorem noExtra_returns (record : σ) (ts : List (Token α)) (outcome : Outcome α σ ts)
    (_ : ts <:+ tokens) (found : noExtra record ts = some outcome)
    : FaultsOnly (Overflows tokens) outcome.attempt := by
  cases found

theorem field_returns {key : String} {value : (ts : List (Token α)) → Attempt α β ts}
    {put : σ → β → σ} (each : ∀ ts, ts <:+ tokens → FaultsOnly (Overflows tokens) (value ts))
    : (field key value put).2.Returns tokens :=
  fun _ _ _ left =>
    Attempt.andThen_faults (expectSign_faults _ _ _) (expectSign_yields _ _ _) fun _ rest behind =>
      Attempt.mapValue_faults (each rest (behind.trans left)) _

/-- A property whose value can be at fault in its text only. -/
theorem plain_returns {key : String} {value : (ts : List (Token α)) → Attempt α β ts}
    {put : σ → β → σ} (each : ∀ ts, FaultsOnly (Overflows tokens) (value ts))
    : (field key value put).2.Returns tokens :=
  field_returns fun ts _ => each ts

section Blocks

variable {form : BlockForm α σ} {holds : σ → Prop}

theorem BlockForm.Returns.handler (returns : form.Returns tokens) {t : Token α}
    {handler : Handler α σ} (found : form.handler? t = some handler)
    : handler.Returns tokens := by
  unfold BlockForm.handler? at found
  split at found
  case isFalse => cases found
  case isTrue => exact returns.properties _ (Entries.mem_of_lookup found)

theorem blockItem_faults (returns : form.Returns tokens) (record : σ) {t : Token α}
    {rest : List (Token α)} (left : t :: rest <:+ tokens)
    : FaultsOnly (Overflows tokens) (blockItem form record t rest).attempt := by
  unfold blockItem
  split
  case h_1 outcome found => exact returns.extra record _ outcome left found
  case h_2 =>
    split
    case h_2 => exact faultsOnly_ok _
    case h_1 handler found =>
      have behind := (List.suffix_cons t rest).trans left
      exact Outcome.afterToken_faults (returns.handler found record t rest behind) t

omit [Scalar α] in
theorem blockItem_yields (keeps : form.Keeps holds) {record : σ} (right : holds record)
    (t : Token α) (rest : List (Token α))
    : (blockItem form record t rest).Yields holds := by
  unfold blockItem
  split
  case h_1 outcome found => exact keeps.extra record _ outcome right found
  case h_2 =>
    split
    case h_1 handler found => exact (keeps.handler found record t rest right).afterToken t
    case h_2 =>
      have behind := (afterProperty_suffix t.span.line 0 rest).trans (List.suffix_cons t rest)
      exact Attempt.yields_ok behind right

/-- A block stops only where one of its items does. By induction on the number of tokens; the
records matter only because items are known to leave an end of the tokens where a record is kept.
-/
theorem blockItems_faults (returns : form.Returns tokens) (keeps : form.Keeps holds)
    {record : σ} (right : holds record) {ts : List (Token α)} (left : ts <:+ tokens)
    : FaultsOnly (Overflows tokens) (blockItems form record ts).attempt := by
  rw [← Outcome.faultsOnly_told, blockItems_told]
  split
  case h_1 => exact faultsOnly_finding _
  case h_2 t rest skipped =>
    have inside : t :: rest <:+ ts := skipped ▸ skipSeparators_suffix ts
    split
    case isTrue => exact faultsOnly_ok _
    case isFalse =>
      rw [Told.andThen_snd]
      have item := blockItem_faults returns record (inside.trans left)
      refine (faultsOnly_bare.mpr item).bind fun r read => ?_
      obtain ⟨end_, kept⟩ := Attempt.Yields.of_bare (blockItem_yields keeps right t rest) read
      have shorter := Nat.lt_of_lt_of_le (Attempt.length_lt_of_bare read) inside.length_le
      exact faultsOnly_bare.mpr
        (blockItems_faults returns keeps kept (end_.trans (inside.trans left)))
termination_by ts.length
decreasing_by exact shorter

theorem block_faults (returns : form.Returns tokens) (keeps : form.Keeps holds)
    {record : σ} (right : holds record) (left : ts <:+ tokens)
    : FaultsOnly (Overflows tokens) (block form record ts).attempt :=
  Outcome.afterAttempt_faults (expectSign_faults _ _ _) (expectSign_yields _ _ _)
    fun _ _ behind => blockItems_faults returns keeps right (behind.trans left)

/-- A block with an optional colon in front. -/
theorem colon_block_faults (returns : form.Returns tokens) (keeps : form.Keeps holds)
    {record : σ} (right : holds record) (left : ts <:+ tokens)
    : FaultsOnly (Overflows tokens)
        (Outcome.afterSkipped (skipSign .colon ts)
          (block form record (skipSign .colon ts).rest)).attempt :=
  Outcome.afterSkipped_faults
    (block_faults returns keeps right ((skipSign_rest .colon ts).trans left))

end Blocks

-----------------------------------------------------------------------------------------
-- Parts of declarations
-----------------------------------------------------------------------------------------

theorem bindingForm_returns : (bindingForm (α := α)).Returns tokens := {
  properties := by
    simp only [bindingForm, List.forall_mem_cons]
    exact ⟨plain_returns quotedString_faults, plain_returns (choice_faults _ _ _),
      plain_returns quotedString_faults, plain_returns expression_faults,
      plain_returns expression_faults, by simp⟩
  extra := noExtra_returns
}

theorem triggerForm_returns : (triggerForm (α := α)).Returns tokens := {
  properties := by
    simp only [triggerForm, List.forall_mem_cons]
    exact ⟨plain_returns boolean_faults, plain_returns stringList_faults,
      plain_returns quotedString_faults, by simp⟩
  extra := noExtra_returns
}

theorem ruleHandler_returns (severity : AlertSeverity)
    : (ruleHandler (α := α) severity).2.Returns tokens := by
  intro watch _ ts _
  have start : FaultsOnly (Overflows tokens) (Attempt.andMaybe (expectWord "when" ts)
      fun _ rest => .ok (skipSign .colon rest)) :=
    Attempt.andMaybe_faults (expectWord_faults _ _) (expectWord_yields _ _) fun _ _ _ =>
      faultsOnly_ok _
  have skips : (Attempt.andMaybe (expectWord "when" ts) fun _ rest =>
      .ok (skipSign .colon rest)).Yields fun _ => True := by
    apply (expectWord_yields "when" ts).andMaybe
    rintro _ rest _ _ p ⟨⟩
    exact ⟨skipSign_rest .colon rest, trivial⟩
  exact Attempt.andThen_faults start skips fun _ rest _ =>
    Attempt.mapValue_faults (expression_faults rest) _

theorem watchForm_returns (target : Option Path)
    : (watchForm (α := α) target).Returns tokens := {
  properties := by
    simp only [watchForm, List.forall_mem_cons]
    refine ⟨ruleHandler_returns _, ruleHandler_returns _, ?_, by simp⟩
    exact fun _ _ _ left => Outcome.mapValue_faults
      (colon_block_faults triggerForm_returns triggerForm_keeps trivial left) _
  extra := noExtra_returns
}

/-- A value stops where its date does. -/
theorem assumedHandler_returns : (assumedHandler (α := α)).2.Returns tokens := by
  intro record _ ts left
  have valued := (expectSign_yields .colon "':' after 'value'" ts).andThen
    fun _ rest _ _ => expression_yields rest
  refine Outcome.silent_faults (Attempt.andMaybe_faults ?_ valued fun value rest behind => ?_)
  · exact Attempt.andThen_faults (expectSign_faults _ _ _) (expectSign_yields _ _ _)
      fun _ rest _ => expression_faults rest
  · dsimp only
    split
    case isFalse => exact faultsOnly_ok _
    case isTrue =>
      have dated : FaultsOnly (Overflows tokens)
          (Attempt.andThen (expectWord "by" rest) fun _ more => date more) :=
        Attempt.andThen_faults (expectWord_faults _ _) (expectWord_yields _ _)
          fun _ _ after => date_faults (after.trans (behind.trans left))
      split
      case h_1 e read => exact fun fault is => dated fault (by cases is; exact read)
      case h_2 => exact faultsOnly_ok _

theorem assumptionForm_returns (name : String)
    : (assumptionForm (α := α) name).Returns tokens := {
  properties := by
    simp only [assumptionForm, List.forall_mem_cons]
    refine ⟨assumedHandler_returns, plain_returns quotedString_faults,
      plain_returns (number_faults true), plain_returns distribution_faults, ?_, ?_, by simp⟩
    · exact fun _ key _ left => Outcome.mapValue_faults
        (colon_block_faults bindingForm_returns bindingForm_keeps trivial left) _
    · exact fun _ key _ left => Outcome.mapValue_faults
        (block_faults (watchForm_returns none) (watchForm_keeps none) trivial left) _
  extra := noExtra_returns
}

theorem anchorItem_returns (record : Variable α) (ts : List (Token α))
    (outcome : Outcome α (Variable α) ts) (left : ts <:+ tokens)
    (found : anchorItem record ts = some outcome)
    : FaultsOnly (Overflows tokens) outcome.attempt := by
  unfold anchorItem at found
  split at found
  case isFalse => cases found
  case isTrue =>
    cases found
    exact Outcome.silent_faults <|
      Attempt.andThen_faults (date_faults left) (date_yields ts) fun _ _ _ =>
      Attempt.andThen_faults (expectSign_faults _ _ _) (expectSign_yields _ _ _) fun _ rest _ =>
      Attempt.mapValue_faults (expression_faults rest) _

theorem variableForm_returns (name : String)
    : (variableForm (α := α) name).Returns tokens := {
  properties := by
    simp only [variableForm, List.forall_mem_cons]
    exact ⟨plain_returns quotedString_faults, plain_returns quotedString_faults,
      plain_returns quotedString_faults, plain_returns quotedString_faults,
      plain_returns quotedString_faults, plain_returns nameList_faults,
      plain_returns model_faults, plain_returns distribution_faults,
      plain_returns (choice_faults _ _ _), by simp⟩
  extra := anchorItem_returns
}

theorem parameterForm_returns (name : String)
    : (parameterForm (α := α) name).Returns tokens := {
  properties := by
    simp only [parameterForm, List.forall_mem_cons]
    exact ⟨plain_returns expression_faults, plain_returns range_faults,
      plain_returns distribution_faults, plain_returns quotedString_faults,
      plain_returns quotedString_faults, plain_returns quotedString_faults,
      plain_returns expression_faults, plain_returns quotedString_faults,
      plain_returns quotedString_faults, plain_returns (choice_faults _ _ _),
      plain_returns quotedString_faults, plain_returns quotedString_faults, by simp⟩
  extra := noExtra_returns
}

theorem impactForm_returns (name : String) : (impactForm (α := α) name).Returns tokens := {
  properties := by
    simp only [impactForm, List.forall_mem_cons]
    exact ⟨plain_returns quotedString_faults, plain_returns quotedString_faults,
      plain_returns quotedString_faults, plain_returns quotedString_faults,
      plain_returns quotedString_faults, plain_returns nameList_faults,
      plain_returns expression_faults, by simp⟩
  extra := noExtra_returns
}

-----------------------------------------------------------------------------------------
-- Declarations
-----------------------------------------------------------------------------------------

theorem quantity?_faults {keyword : String} {span : Span} (left : ts <:+ tokens)
    {outcome : Outcome α (Quantity α) ts} (found : quantity? keyword span ts = some outcome)
    : FaultsOnly (Overflows tokens) outcome.attempt := by
  have started {ρ : Type} {form : String → BlockForm α ρ} {label : ρ → String}
      {start : String → ρ} (returns : ∀ name, (form name).Returns tokens)
      (keeps : ∀ name, (form name).Keeps fun record => label record = name)
      (starts : ∀ name, label (start name) = name)
      : FaultsOnly (Overflows tokens) (Outcome.afterAttempt (identifier ts) fun name rest =>
          block (form name) (start name) rest).attempt :=
    Outcome.afterAttempt_faults (identifier_faults ts) identifier_yields.any fun name _ behind =>
      block_faults (returns name) (keeps name) (starts name) (behind.trans left)
  unfold quantity? at found
  split at found
  case h_1 =>
    cases found
    exact Outcome.mapValue_faults (started assumptionForm_returns
      (fun name => assumptionForm_keeps name) fun _ => rfl) _
  case h_2 =>
    cases found
    exact Outcome.mapValue_faults (started variableForm_returns
      (fun name => variableForm_keeps name) fun _ => rfl) _
  case h_3 =>
    cases found
    exact Outcome.mapValue_faults (started parameterForm_returns
      (fun name => parameterForm_keeps name) fun _ => rfl) _
  case h_4 =>
    cases found
    exact Outcome.mapValue_faults (started impactForm_returns
      (fun name => impactForm_keeps name) fun _ => rfl) _
  case h_5 => cases found

theorem overrideItem_returns (record : Branch α) (ts : List (Token α))
    (outcome : Outcome α (Branch α) ts) (left : ts <:+ tokens)
    (found : overrideItem record ts = some outcome)
    : FaultsOnly (Overflows tokens) outcome.attempt := by
  unfold overrideItem at found
  split at found
  case h_1 => cases found
  case h_2 t rest =>
    split at found
    case isFalse => cases found
    case isTrue =>
      cases found
      apply Outcome.orRecover_faults
      split
      case h_1 => exact faultsOnly_finding _
      case h_2 inner known =>
        have behind := (List.suffix_cons t rest).trans left
        exact Outcome.afterToken_faults
          (Outcome.mapValue_faults (quantity?_faults behind known) _) t

theorem branchForm_returns (name : String) : (branchForm (α := α) name).Returns tokens := {
  properties := by
    simp only [branchForm, List.forall_mem_cons]
    refine ⟨plain_returns (number_faults true), ?_, by simp⟩
    exact fun _ _ _ _ =>
      Attempt.andThen_faults (expectSign_faults _ _ _) (expectSign_yields _ _ _) fun _ _ _ =>
      Attempt.andThen_faults (expectWord_faults _ _) (expectWord_yields _ _) fun _ rest _ =>
      Attempt.mapValue_faults (quotedString_faults rest) _
  extra := overrideItem_returns
}

theorem branch_faults (span : Span) (left : ts <:+ tokens)
    : FaultsOnly (Overflows tokens) (branch span ts).attempt := by
  refine Outcome.afterAttempt_faults (wordOrString_faults ts) (wordOrString_yields ts)
    fun name rest behind => ?_
  have condition := (expectWord_yields "when" rest).andThen fun _ more _ _ =>
    expression_yields more
  refine Outcome.afterAttempt_faults ?_ condition fun _ _ after =>
    block_faults (branchForm_returns name) (branchForm_keeps name) trivial
      (after.trans (behind.trans left))
  exact Attempt.andThen_faults (expectWord_faults _ _) (expectWord_yields _ _) fun _ more _ =>
    expression_faults more

theorem simulateForm_returns : (simulateForm (α := α)).Returns tokens := {
  properties := by
    simp only [simulateForm, List.forall_mem_cons]
    exact ⟨field_returns fun _ left => wholeNumber_faults left,
      plain_returns (choice_faults _ _ _), field_returns fun _ left => wholeNumber_faults left,
      plain_returns (choice_faults _ _ _), plain_returns numberList_faults,
      plain_returns (number_faults false), plain_returns duration_faults, by simp⟩
  extra := noExtra_returns
}

theorem calibrateForm_returns (target : Path)
    : (calibrateForm (α := α) target).Returns tokens := {
  properties := by
    simp only [calibrateForm, List.forall_mem_cons]
    exact ⟨plain_returns quotedString_faults, plain_returns (choice_faults _ _ _),
      plain_returns duration_faults, plain_returns distribution_faults,
      plain_returns (choice_faults _ _ _), by simp⟩
  extra := noExtra_returns
}

omit [Scalar α] in
theorem imported_faults {only : Fault → Prop} (span : Span) (ts : List (Token α))
    : FaultsOnly only (imported span ts) :=
  Attempt.andThen_faults (quotedString_faults ts) (quotedString_yields ts) fun _ _ _ =>
  Attempt.andThen_faults (expectWord_faults _ _) (expectWord_yields _ _) fun _ rest _ =>
  Attempt.mapValue_faults (identifier_faults rest) _

theorem declaration?_faults {keyword : String} {span : Span} (left : ts <:+ tokens)
    {outcome : Outcome α (Declaration α) ts}
    (found : declaration? keyword span ts = some outcome)
    : FaultsOnly (Overflows tokens) outcome.attempt := by
  unfold declaration? at found
  split at found
  case h_1 =>
    cases found
    exact Outcome.mapValue_faults (branch_faults span left) _
  case h_2 =>
    cases found
    exact Outcome.mapValue_faults
      (block_faults simulateForm_returns simulateForm_keeps trivial left) _
  case h_3 =>
    cases found
    exact Outcome.mapValue_faults (Outcome.afterAttempt_faults (dottedName_faults ts)
      (dottedName_yields ts) fun target _ behind =>
        block_faults (watchForm_returns _) (watchForm_keeps _) trivial (behind.trans left)) _
  case h_4 =>
    cases found
    exact Outcome.mapValue_faults (Outcome.afterAttempt_faults (dottedName_faults ts)
      (dottedName_yields ts) fun target _ behind =>
        block_faults (calibrateForm_returns _) (calibrateForm_keeps _) trivial
          (behind.trans left)) _
  case h_5 =>
    cases found
    exact Attempt.mapValue_faults (imported_faults span ts) _
  case h_6 =>
    obtain ⟨inner, known, rfl⟩ := Option.map_eq_some_iff.mp found
    exact Outcome.mapValue_faults (quantity?_faults left known) _

end Numbers

end Grammar

end Prognosis
