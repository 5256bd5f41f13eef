import Prognosis.Grammar.Scenario
import Prognosis.Proofs.Grammar.Seam.Block

/-! Declarations and bodies of scenarios at a seam. Each reader of a declaration takes the same from
both rows of tokens, so a declaration that ends in front of the seam is read alike whatever follows
it. A body that ends with the brace of the first row goes on behind the seam in the other row, and
as if it started there but for what it holds already.
-/

namespace Prognosis.Grammar

variable {α β σ : Type}

namespace Seam

variable {seam : Seam α}

theorem Repeats.weaken {reader : (ts : List (Token α)) → Attempt α β ts}
    (repeats : seam.Repeats never reader)
    : seam.Repeats seam.RunsOut reader :=
  fun ts ts' meets => (repeats ts ts' meets).weaken

theorem Meets.atWord {ts ts' : List (Token α)} (meets : seam.Meets ts ts') {word : String}
    (other : word ∉ declarationKeywords)
    : Grammar.atWord ts' word = Grammar.atWord ts word := by
  cases meets with
  | here => exact (seam.delimits.isWord other).trans (seam.closing_delimits.isWord other).symm
  | cons t meets => rfl

theorem noExtra_repeats (record : σ) (t : Token α) (ts ts' : List (Token α))
    (_ : seam.Meets ts ts')
    : seam.AgreesMaybe seam.RunsOut (noExtra record (t :: ts)) (noExtra record (t :: ts')) :=
  .none

/-- Readers of properties that are read as values after a colon. -/
theorem field_repeats {key : String} {value : (ts : List (Token α)) → Attempt α β ts}
    {put : σ → β → σ} (repeats : seam.Repeats seam.RunsOut value)
    : seam.HandlerRepeats (field key value put).2 := by
  intro record _ ts ts' meets
  apply agreesTold_silent
  rw [Attempt.bare_andThen, Attempt.bare_andThen]
  exact (expectSign_agrees (by decide) _ meets).bind fun _ _ _ _ meets =>
    (repeats _ _ meets).mapValue _

/-- A block in a block that runs out leaves nothing of the block around it. -/
theorem colon_block_repeats {form : BlockForm α σ} (repeats : seam.FormRepeats form)
    (record : σ)
    : seam.RepeatsTold seam.RunsOut fun ts =>
        .afterSkipped (skipSign .colon ts) (block form record (skipSign .colon ts).rest) := by
  intro ts ts' meets
  dsimp only
  rw [Outcome.told_afterSkipped, Outcome.told_afterSkipped]
  have other : Sign.colon ≠ .rbrace := nofun
  exact (block_repeats repeats record _ _ (skipSign_meets other meets)).mono fun _ finished =>
    Or.inl finished

-----------------------------------------------------------------------------------------
-- Parts of declarations
-----------------------------------------------------------------------------------------

theorem quoted_repeats : seam.Repeats seam.RunsOut (quotedString (α := α)) :=
  quotedString_repeats.weaken

theorem chosen_repeats (options : List β) (word : β → String) (what : String)
    : seam.Repeats seam.RunsOut (choice (α := α) options word what) :=
  (choice_repeats options word what).weaken

theorem bindingForm_repeats : seam.FormRepeats (bindingForm (α := α)) := {
  properties := by
    simp only [bindingForm, List.forall_mem_cons]
    exact ⟨field_repeats quoted_repeats, field_repeats (chosen_repeats _ _ _),
      field_repeats quoted_repeats, field_repeats expression_repeats.weaken,
      field_repeats expression_repeats.weaken, by simp⟩
  extra := noExtra_repeats
}

theorem triggerForm_repeats : seam.FormRepeats (triggerForm (α := α)) := {
  properties := by
    simp only [triggerForm, List.forall_mem_cons]
    exact ⟨field_repeats boolean_repeats.weaken, field_repeats stringList_repeats.weaken,
      field_repeats quoted_repeats, by simp⟩
  extra := noExtra_repeats
}

theorem ruleHandler_repeats (severity : AlertSeverity)
    : seam.HandlerRepeats (ruleHandler (α := α) severity).2 := by
  intro watch _ ts ts' meets
  apply agreesTold_silent
  rw [Attempt.bare_andThen, Attempt.bare_andThen, Attempt.bare_andMaybe, Attempt.bare_andMaybe]
  have start : seam.Agrees never
      ((expectWord "when" ts).bare.bind fun r => bare (.ok (skipSign .colon r.2)))
      ((expectWord "when" ts').bare.bind fun r => bare (.ok (skipSign .colon r.2))) :=
    (expectWord_agrees (by decide) meets).bind fun _ _ _ _ meets =>
      agrees_ok (skipSign_meets nofun meets)
  exact start.bind fun _ _ _ _ meets => (expression_repeats _ _ meets).weaken.mapValue _

theorem watchForm_repeats (target : Option Path)
    : seam.FormRepeats (watchForm (α := α) target) := {
  properties := by
    simp only [watchForm, List.forall_mem_cons]
    refine ⟨ruleHandler_repeats _, ruleHandler_repeats _, ?_, by simp⟩
    intro watch _ ts ts' meets
    exact (colon_block_repeats triggerForm_repeats ⟨none, [], none⟩ ts ts' meets).mapValue
      fun trigger => { watch with onTrigger := some trigger }
  extra := noExtra_repeats
}

section Numbers

variable [Scalar α]

/-- A value may end with its date. -/
theorem assumedHandler_repeats : seam.HandlerRepeats (assumedHandler (α := α)).2 := by
  intro record _ ts ts' meets
  apply agreesTold_silent
  rw [Attempt.bare_andMaybe, Attempt.bare_andMaybe, Attempt.bare_andThen, Attempt.bare_andThen]
  have valued : seam.Agrees never
      ((expectSign .colon "':' after 'value'" ts).bare.bind fun r => (expression r.2).bare)
      ((expectSign .colon "':' after 'value'" ts').bare.bind fun r => (expression r.2).bare) :=
    (expectSign_agrees (by decide) _ meets).bind fun _ _ _ _ meets =>
      expression_repeats _ _ meets
  refine valued.bind fun value rest rest' _ meets => ?_
  have dated : seam.Agrees seam.RunsOut
      (Attempt.andThen (expectWord "by" rest) fun _ more => date more).bare
      (Attempt.andThen (expectWord "by" rest') fun _ more => date more).bare := by
    rw [Attempt.bare_andThen, Attempt.bare_andThen]
    exact (expectWord_agrees (by decide) meets).bind fun _ _ _ _ meets =>
      (date_repeats _ _ meets).weaken
  dsimp only
  rw [meets.atWord (by decide)]
  split
  case isFalse => exact agrees_ok meets
  case isTrue =>
    generalize (Attempt.andThen (expectWord "by" rest) fun _ more => date more) = a at dated ⊢
    generalize (Attempt.andThen (expectWord "by" rest') fun _ more => date more) = a' at dated ⊢
    have recorded := dated.map fun d => { record with value := some value, byDate := some d }
    cases a <;> cases a' <;> exact recorded

end Numbers

-----------------------------------------------------------------------------------------
-- Declared values
-----------------------------------------------------------------------------------------

/-- A block after its name. -/
theorem named_block_repeats {form : β → BlockForm α σ} (start : β → σ)
    {name : (ts : List (Token α)) → Attempt α β ts} (named : seam.Repeats never name)
    (repeats : ∀ n, seam.FormRepeats (form n))
    : seam.RepeatsTold Exhausted fun ts =>
        .afterAttempt (name ts) fun n rest => block (form n) (start n) rest :=
  fun ts ts' meets => agreesTold_afterAttempt (named ts ts' meets) fun n rest rest' meets =>
    block_repeats (repeats n) (start n) rest rest' meets

theorem identifier_repeats : seam.Repeats never (identifier (α := α)) :=
  fun _ _ meets => identifier_agrees meets

theorem dottedName_repeats : seam.Repeats never (dottedName (α := α)) :=
  fun _ _ meets => dottedName_agrees meets

section Quantities

variable [Scalar α]

theorem assumptionForm_repeats (name : String)
    : seam.FormRepeats (assumptionForm (α := α) name) := {
  properties := by
    simp only [assumptionForm, List.forall_mem_cons]
    refine ⟨assumedHandler_repeats, field_repeats quoted_repeats,
      field_repeats (number_repeats true).weaken, field_repeats distribution_repeats.weaken,
      ?_, ?_, by simp⟩
    · intro a key ts ts' meets
      exact (colon_block_repeats bindingForm_repeats ⟨none, none, none, none, none, key.span⟩
        ts ts' meets).mapValue fun v => { a with binding := some v }
    · intro a key ts ts' meets
      exact ((block_repeats (watchForm_repeats none) ⟨none, [], none, key.span⟩ ts ts' meets).mono
        fun _ finished => Or.inl finished).mapValue fun v => { a with watch := some v }
  extra := noExtra_repeats
}

omit [Scalar α] in
theorem startsAnchor_meets {t : Token α} {ts ts' : List (Token α)} (meets : seam.Meets ts ts')
    : startsAnchor (t :: ts') = startsAnchor (t :: ts) := by
  simp only [startsAnchor, meets.atSign .colon nofun]

theorem anchorItem_repeats (record : Variable α) (t : Token α) (ts ts' : List (Token α))
    (meets : seam.Meets ts ts')
    : seam.AgreesMaybe seam.RunsOut (anchorItem record (t :: ts))
        (anchorItem record (t :: ts')) := by
  unfold anchorItem
  rw [startsAnchor_meets meets]
  split
  case isFalse => exact .none
  case isTrue =>
    refine .some (agreesTold_silent ?_)
    simp only [Attempt.bare_andThen]
    refine (date_repeats _ _ (.cons t meets)).bind fun day rest rest' _ meets => ?_
    refine (expectSign_agrees (by decide) _ meets).bind fun _ rest rest' _ meets => ?_
    exact (expression_repeats _ _ meets).weaken.mapValue _

theorem variableForm_repeats (name : String)
    : seam.FormRepeats (variableForm (α := α) name) := {
  properties := by
    simp only [variableForm, List.forall_mem_cons]
    exact ⟨field_repeats quoted_repeats, field_repeats quoted_repeats,
      field_repeats quoted_repeats, field_repeats quoted_repeats, field_repeats quoted_repeats,
      field_repeats nameList_repeats, field_repeats model_repeats.weaken,
      field_repeats distribution_repeats.weaken, field_repeats (chosen_repeats _ _ _), by simp⟩
  extra := anchorItem_repeats
}

omit [Scalar α] in
theorem parameterForm_repeats (name : String)
    : seam.FormRepeats (parameterForm (α := α) name) := {
  properties := by
    simp only [parameterForm, List.forall_mem_cons]
    exact ⟨field_repeats expression_repeats.weaken, field_repeats range_repeats.weaken,
      field_repeats distribution_repeats.weaken, field_repeats quoted_repeats,
      field_repeats quoted_repeats, field_repeats quoted_repeats,
      field_repeats expression_repeats.weaken, field_repeats quoted_repeats,
      field_repeats quoted_repeats, field_repeats (chosen_repeats _ _ _),
      field_repeats quoted_repeats, field_repeats quoted_repeats, by simp⟩
  extra := noExtra_repeats
}

omit [Scalar α] in
theorem impactForm_repeats (name : String)
    : seam.FormRepeats (impactForm (α := α) name) := {
  properties := by
    simp only [impactForm, List.forall_mem_cons]
    exact ⟨field_repeats quoted_repeats, field_repeats quoted_repeats,
      field_repeats quoted_repeats, field_repeats quoted_repeats, field_repeats quoted_repeats,
      field_repeats nameList_repeats, field_repeats expression_repeats.weaken, by simp⟩
  extra := noExtra_repeats
}

theorem quantity?_agrees (keyword : String) (span : Span) {ts ts' : List (Token α)}
    (meets : seam.Meets ts ts')
    : seam.AgreesMaybe Exhausted (quantity? keyword span ts) (quantity? keyword span ts') := by
  unfold quantity?
  split
  case h_1 =>
    exact .some ((named_block_repeats _ identifier_repeats assumptionForm_repeats
      ts ts' meets).mapValue _)
  case h_2 =>
    exact .some ((named_block_repeats _ identifier_repeats variableForm_repeats
      ts ts' meets).mapValue _)
  case h_3 =>
    exact .some ((named_block_repeats _ identifier_repeats parameterForm_repeats
      ts ts' meets).mapValue _)
  case h_4 =>
    exact .some ((named_block_repeats _ identifier_repeats impactForm_repeats
      ts ts' meets).mapValue _)
  case h_5 => exact .none

end Quantities

-----------------------------------------------------------------------------------------
-- Branches and settings
-----------------------------------------------------------------------------------------

/-- Where a construct is given up for the first row, it is given up for the other one as well,
and reading resumes at the same place.
-/
theorem orRecover_agrees (t : Token α) {ts ts' : List (Token α)} (meets : seam.Meets ts ts')
    (record : σ) {o : Outcome α σ (t :: ts)} {o' : Outcome α σ (t :: ts')}
    (agrees : seam.AgreesTold Exhausted o.told o'.told)
    : seam.AgreesTold Exhausted (orRecover t ts record o).told
        (orRecover t ts' record o').told := by
  rw [Outcome.told_orRecover, Outcome.told_orRecover]
  generalize o.told = x at agrees ⊢
  generalize o'.told = x' at agrees ⊢
  obtain ⟨reports, read⟩ := x
  obtain ⟨reports', read'⟩ := x'
  match read with
  | .error (.fault _) => exact fun _ => trivial
  | .ok (value, rest) =>
      intro tolerated
      rcases agrees tolerated with finished | ⟨rest', rfl, meets⟩
      · exact Or.inl finished
      · exact agrees_ok meets
  | .error (.finding found) =>
      intro tolerated
      have inside : seam.tolerates found := tolerated found (by simp)
      obtain ⟨found', rfl⟩ := agrees (fun l is => tolerated l (by simp [is])) inside
      rcases recover_meets inside 0 meets with finished | meets
      · exact Or.inl finished
      · exact agrees_ok meets

section Branches

variable [Scalar α]

theorem overrideItem_repeats (record : Branch α) (t : Token α) (ts ts' : List (Token α))
    (meets : seam.Meets ts ts')
    : seam.AgreesMaybe seam.RunsOut (overrideItem record (t :: ts))
        (overrideItem record (t :: ts')) := by
  unfold overrideItem
  dsimp only
  rw [meets.atSign .colon nofun]
  split
  case isFalse => exact .none
  case isTrue =>
    refine .some (AgreesTold.mono ?_ fun rest (none : rest = []) => Or.inl none)
    apply orRecover_agrees t meets
    have inner := quantity?_agrees t.text t.span meets
    generalize quantity? t.text t.span ts = known at inner ⊢
    generalize quantity? t.text t.span ts' = known' at inner ⊢
    cases inner with
    | none => exact agreesTold_silent agrees_failHere
    | some agrees =>
        dsimp only
        rw [Outcome.told_afterToken, Outcome.told_afterToken]
        exact agrees.mapValue fun q => { record with overrides := record.overrides ++ [q] }

theorem branchForm_repeats (name : String) : seam.FormRepeats (branchForm (α := α) name) := {
  properties := by
    simp only [branchForm, List.forall_mem_cons]
    refine ⟨field_repeats (number_repeats true).weaken, ?_, by simp⟩
    intro b _ ts ts' meets
    apply agreesTold_silent
    simp only [Attempt.bare_andThen]
    refine (expectSign_agrees (by decide) _ meets).bind fun _ rest rest' _ meets => ?_
    refine (expectWord_agrees (by decide) meets).bind fun _ rest rest' _ meets => ?_
    exact (quoted_repeats _ _ meets).mapValue _
  extra := overrideItem_repeats
}

theorem branch_repeats (span : Span) : seam.RepeatsTold Exhausted (branch (α := α) span) := by
  intro ts ts' meets
  refine agreesTold_afterAttempt (wordOrString_repeats _ _ meets) fun name rest rest' meets => ?_
  refine agreesTold_afterAttempt ?_ fun condition rest rest' meets =>
    block_repeats (branchForm_repeats name) _ _ _ meets
  rw [Attempt.bare_andThen, Attempt.bare_andThen]
  exact (expectWord_agrees (by decide) meets).bind fun _ _ _ _ meets =>
    expression_repeats _ _ meets

theorem simulateForm_repeats : seam.FormRepeats (simulateForm (α := α)) := {
  properties := by
    simp only [simulateForm, List.forall_mem_cons]
    exact ⟨field_repeats wholeNumber_repeats.weaken, field_repeats (chosen_repeats _ _ _),
      field_repeats wholeNumber_repeats.weaken, field_repeats (chosen_repeats _ _ _),
      field_repeats (bracketed_repeats (number_repeats false)).weaken,
      field_repeats (number_repeats false).weaken, field_repeats duration_repeats.weaken, by simp⟩
  extra := noExtra_repeats
}

omit [Scalar α] in
theorem calibrateForm_repeats (target : Path)
    : seam.FormRepeats (calibrateForm (α := α) target) := {
  properties := by
    simp only [calibrateForm, List.forall_mem_cons]
    exact ⟨field_repeats quoted_repeats, field_repeats (chosen_repeats _ _ _),
      field_repeats duration_repeats.weaken, field_repeats distribution_repeats.weaken,
      field_repeats (chosen_repeats _ _ _), by simp⟩
  extra := noExtra_repeats
}

omit [Scalar α] in
theorem imported_repeats (span : Span) : seam.Repeats never (imported (α := α) span) := by
  intro ts ts' meets
  simp only [imported, Attempt.bare_andThen]
  refine (quotedString_repeats _ _ meets).bind fun path rest rest' _ meets => ?_
  refine (expectWord_agrees (by decide) meets).bind fun _ rest rest' _ meets => ?_
  exact (identifier_agrees meets).mapValue _

/-- A declaration is read alike from both rows. -/
theorem declaration?_agrees (keyword : String) (span : Span) {ts ts' : List (Token α)}
    (meets : seam.Meets ts ts')
    : seam.AgreesMaybe Exhausted (declaration? keyword span ts)
        (declaration? keyword span ts') := by
  unfold declaration?
  split
  case h_1 => exact .some ((branch_repeats span ts ts' meets).mapValue _)
  case h_2 => exact .some ((block_repeats simulateForm_repeats _ ts ts' meets).mapValue _)
  case h_3 =>
    exact .some ((named_block_repeats _ dottedName_repeats
      (fun target => watchForm_repeats (some target)) ts ts' meets).mapValue _)
  case h_4 =>
    exact .some ((named_block_repeats _ dottedName_repeats calibrateForm_repeats
      ts ts' meets).mapValue _)
  case h_5 =>
    exact .some (agreesTold_silent ((imported_repeats span ts ts' meets).weaken.mapValue _))
  case h_6 =>
    have inner := quantity?_agrees keyword span meets
    generalize quantity? keyword span ts = known at inner ⊢
    generalize quantity? keyword span ts' = known' at inner ⊢
    cases inner with
    | none => exact .none
    | some agrees => exact .some (agrees.mapValue Declaration.quantity)

end Branches

end Seam

-----------------------------------------------------------------------------------------
-- Declarations of a body
-----------------------------------------------------------------------------------------

/-- The declarations of a body after the given ones, and the tokens that are left. -/
def declares (first : List (Declaration α)) (read : Except Failure (Body α × List (Token α)))
    : Except Failure (List (Declaration α) × List (Token α)) :=
  read.map fun r => (first ++ r.1.declarations, r.2)

theorem declares_eq_iff {first first' : List (Declaration α)}
    {read read' : Except Failure (Body α × List (Token α))}
    : declares first read = declares first' read'
      ↔ (∃ e, read = .error e ∧ read' = .error e)
        ∨ ∃ body body' rest, read = .ok (body, rest) ∧ read' = .ok (body', rest)
          ∧ first ++ body.declarations = first' ++ body'.declarations := by
  cases read <;> cases read' <;> simp [declares, Except.map] <;> grind

/-- What stands in front of both readings does not matter. -/
theorem declares_trans {more : List (Declaration α)}
    {read read' : Except Failure (Body α × List (Token α))}
    (same : declares [] read = declares more read') (first : List (Declaration α))
    : declares first read = declares (first ++ more) read' := by
  rcases declares_eq_iff.mp same with ⟨e, rfl, rfl⟩ | ⟨body, body', rest, rfl, rfl, all⟩
  · rfl
  · rw [List.nil_append] at all
    simp [declares, Except.map, all]

-----------------------------------------------------------------------------------------
-- Bodies item by item
-----------------------------------------------------------------------------------------

variable [Scalar α]

/-- A body is its closing brace, or an item and what follows it. -/
theorem bodyItems_told (name : String) (header : Span) (body : Body α) (ts : List (Token α))
    : (bodyItems name header body ts).told
      = match skipSeparators ts with
        | [] => ([], .error (.finding ⟨.unterminatedScenario name, some header⟩))
        | t :: rest =>
            if t.isSign .rbrace then ([], .ok (body, rest))
            else (orRecover t rest body (bodyItem body t rest)).told.andThen fun r =>
              (bodyItems name header r.1 r.2).told := by
  rw [bodyItems]
  split
  case h_1 skipped =>
    simp only [skipped]
    rfl
  case h_2 t rest skipped =>
    simp only [skipped]
    split
    case isTrue => rfl
    case isFalse =>
      generalize orRecover t rest body (bodyItem body t rest) = outcome
      obtain ⟨reports, attempt⟩ := outcome
      cases attempt with
      | error e => rfl
      | ok p =>
          simp only [Outcome.told, Told.andThen, Attempt.bare_ok]
          cases (bodyItems name header p.value p.rest).attempt <;> rfl

namespace Seam

variable {seam : Seam α}

theorem metadataValue_repeats (key : String) (m : Metadata α)
    : seam.Repeats never (metadataValue key m) := by
  intro ts ts' meets
  unfold metadataValue
  split
  case h_1 =>
    simp only [Attempt.bare_andThen]
    refine (date_repeats _ _ meets).bind fun start rest rest' _ meets => ?_
    refine (expectSign_agrees (by decide) _ meets).bind fun _ rest rest' _ meets => ?_
    exact (date_repeats _ _ meets).mapValue _
  case h_2 => exact (choice_repeats _ _ _ _ _ meets).mapValue _
  case h_3 => exact (number_repeats true _ _ meets).mapValue _
  case h_4 => exact (stringList_repeats _ _ meets).mapValue _
  case h_5 | h_6 => exact (wordOrString_repeats _ _ meets).mapValue _
  case h_7 | h_8 | h_9 | h_10 | h_11 | h_12 => exact (quotedString_repeats _ _ meets).mapValue _

theorem bodyItem_agrees (body : Body α) (t : Token α) {ts ts' : List (Token α)}
    (meets : seam.Meets ts ts')
    : seam.AgreesTold Exhausted (bodyItem body t ts).told (bodyItem body t ts').told := by
  unfold bodyItem
  rw [meets.atSign .colon nofun]
  split
  case isTrue =>
    apply agreesTold_silent
    simp only [Attempt.bare_afterToken, Attempt.bare_andThen]
    refine (expectSign_agrees (by decide) _ meets).bind fun _ rest rest' _ meets => ?_
    exact (metadataValue_repeats _ _ _ _ meets).weaken.mapValue _
  case isFalse =>
    have inner : seam.AgreesMaybe Exhausted
        (if t.isAnyWord then declaration? t.text t.span ts else none)
        (if t.isAnyWord then declaration? t.text t.span ts' else none) := by
      split
      case isTrue => exact declaration?_agrees t.text t.span meets
      case isFalse => exact .none
    generalize (if t.isAnyWord then declaration? t.text t.span ts else none) = known at inner ⊢
    generalize (if t.isAnyWord then declaration? t.text t.span ts' else none) = known' at inner ⊢
    cases inner with
    | none => exact agreesTold_silent agrees_failHere
    | some agrees =>
        dsimp only
        rw [Outcome.told_afterToken, Outcome.told_afterToken]
        exact agrees.mapValue fun d => { body with declarations := body.declarations ++ [d] }

/-- A body that ends with the brace of the first row, all that is reported of it being tolerated,
goes on in the other row with what it holds there. By induction on the number of tokens.
-/
theorem bodyItems_continues (name : String) (header : Span) {body last : Body α}
    {ts ts' rest : List (Token α)} (meets : seam.Meets ts ts')
    {reports : List (Located SyntaxFinding)}
    (read : (bodyItems name header body ts).told = (reports, .ok (last, rest)))
    (spent : skipSeparators rest = [])
    (tolerated : ∀ l ∈ reports, seam.tolerates l)
    : (bodyItems name header body ts').told.2
      = (bodyItems name header last (seam.next :: seam.after)).told.2 := by
  have shorter := skipSeparators_length ts
  have skipped := skipSeparators_meets meets
  rw [bodyItems_told] at read
  rw [bodyItems_told name header body ts']
  generalize skipSeparators ts = us at shorter skipped read
  generalize skipSeparators ts' = us' at skipped
  cases skipped with
  | here =>
      have brace : seam.closing.isSign .rbrace = true := Token.isSign_iff.mpr seam.closes
      simp only [brace, if_true] at read
      cases read
      rw [bodyItems_told, skipSeparators,
        List.dropWhile_cons_of_neg (by simp [seam.delimits.isSeparator])]
  | @cons t more more' meets =>
      dsimp only at read ⊢
      split at read
      case isTrue brace =>
        cases read
        exact absurd spent (List.ne_nil_of_length_pos (skipSeparators_meets meets).length_pos)
      case isFalse other =>
        rw [if_neg other]
        obtain ⟨⟨value, left⟩, first, rfl, later⟩ := Told.ok_of_andThen_ok read
        have agrees := orRecover_agrees t meets body (bodyItem_agrees body t meets)
          fun l is => tolerated l (List.mem_append_left _ is)
        rw [first] at agrees
        rcases agrees with finished | ⟨left', first', meets⟩
        · dsimp only at later
          rw [finished, bodyItems_told] at later
          cases later
        · have fewer := Attempt.length_lt_of_bare first
          rw [Told.andThen, first']
          exact bodyItems_continues name header meets (Prod.ext rfl later) spent
            fun l is => tolerated l (List.mem_append_right _ is)
termination_by ts.length
decreasing_by exact Nat.lt_of_lt_of_le fewer shorter

end Seam

-----------------------------------------------------------------------------------------
-- What a body holds already
-----------------------------------------------------------------------------------------

section Shift

variable {first : List (Declaration α)} {body body' : Body α}

/-- What is left after a metadata entry does not depend on the entries in front of it. -/
theorem metadataValue_left (key : String) (m m' : Metadata α) (ts : List (Token α))
    : (metadataValue key m ts).bare.map Prod.snd
      = (metadataValue key m' ts).bare.map Prod.snd := by
  unfold metadataValue
  split <;> simp only [Attempt.left_mapValue, Attempt.left_andThen]

theorem bodyItem_shift (shifted : body.declarations = first ++ body'.declarations) (t : Token α)
    (rest : List (Token α))
    : declares [] (bodyItem body t rest).told.2
      = declares first (bodyItem body' t rest).told.2 := by
  unfold bodyItem
  split
  case isTrue =>
    simp only [Outcome.told, Outcome.silent, Attempt.bare_afterToken, Attempt.bare_andThen,
      Attempt.bare_mapValue]
    cases (expectSign .colon "':'" rest).bare with
    | error e => rfl
    | ok start =>
        have same := metadataValue_left t.text body.metadata body'.metadata start.2
        simp only [Except.bind]
        generalize (metadataValue t.text body.metadata start.2).bare = read at same ⊢
        generalize (metadataValue t.text body'.metadata start.2).bare = read' at same ⊢
        cases read <;> cases read' <;> simp_all [declares, Except.map]
  case isFalse =>
    generalize (if t.isAnyWord then declaration? t.text t.span rest else none) = known
    cases known with
    | none => rfl
    | some outcome =>
        obtain ⟨reports, attempt⟩ := outcome
        cases attempt with
        | error e => rfl
        | ok p =>
            simp [declares, Outcome.told, Outcome.afterToken, Outcome.mapValue, Attempt.mapValue,
              Attempt.afterToken, Parsed.map, Parsed.afterToken, Except.map, shifted]

theorem orRecover_shift (shifted : body.declarations = first ++ body'.declarations) (t : Token α)
    (rest : List (Token α))
    : declares [] (orRecover t rest body (bodyItem body t rest)).told.2
      = declares first (orRecover t rest body' (bodyItem body' t rest)).told.2 := by
  have item := bodyItem_shift shifted t rest
  rw [Outcome.told_orRecover, Outcome.told_orRecover]
  generalize (bodyItem body t rest).told = x at item ⊢
  generalize (bodyItem body' t rest).told = x' at item ⊢
  obtain ⟨reports, read⟩ := x
  obtain ⟨reports', read'⟩ := x'
  rcases declares_eq_iff.mp item with ⟨e, rfl, rfl⟩ | ⟨value, value', left, rfl, rfl, same⟩
  · cases e with
    | finding found => simp [declares, Except.map, shifted]
    | fault fault => rfl
  · exact item

/-- A body is read on in the same way whatever it holds already. By induction on the number of
tokens.
-/
theorem bodyItems_shift (name : String) (header : Span) {first : List (Declaration α)}
    {body body' : Body α} (shifted : body.declarations = first ++ body'.declarations)
    (ts : List (Token α))
    : declares [] (bodyItems name header body ts).told.2
      = declares first (bodyItems name header body' ts).told.2 := by
  have shorter := skipSeparators_length ts
  rw [bodyItems_told, bodyItems_told name header body']
  generalize skipSeparators ts = us at shorter
  cases us with
  | nil => rfl
  | cons t rest =>
      dsimp only
      split
      case isTrue => simp [declares, Except.map, shifted]
      case isFalse =>
        have item := orRecover_shift shifted t rest
        have fewer (r : Body α × List (Token α))
            (read : (orRecover t rest body (bodyItem body t rest)).told.2 = .ok r)
            : r.2.length < (t :: rest).length :=
          Attempt.length_lt_of_bare read
        rw [Told.andThen_snd, Told.andThen_snd]
        generalize (orRecover t rest body (bodyItem body t rest)).told.2 = read at item fewer
        generalize (orRecover t rest body' (bodyItem body' t rest)).told.2 = read' at item
        rcases declares_eq_iff.mp item with ⟨e, rfl, rfl⟩ | ⟨value, value', left, rfl, rfl, same⟩
        · rfl
        · have less := fewer _ rfl
          exact bodyItems_shift name header same left
termination_by ts.length
decreasing_by exact Nat.lt_of_lt_of_le less shorter

end Shift

end Prognosis.Grammar
