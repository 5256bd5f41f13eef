import Prognosis.Proofs.Grammar.Answers
import Prognosis.Proofs.Grammar.Layout.Block
import Prognosis.Proofs.Grammar.Overflow
import Prognosis.Proofs.Grammar.Seam.Declaration

/-! Declarations at other places. -/

namespace Prognosis.Grammar

variable {α β γ σ : Type} {ts ts' : List (Token α)}

-----------------------------------------------------------------------------------------
-- Properties
-----------------------------------------------------------------------------------------

/-- Putting values that are alike into records that are alike makes records that are alike. -/
theorem alike_put {f : σ → σ} {g : β → β} (put : σ → β → σ)
    (commutes : ∀ record value, f (put record value) = put (f record) (g value))
    {record record' : σ} {value value' : β} (is : Alike f record record')
    (alike : Alike g value value')
    : Alike f (put record value) (put record' value') := by
  rw [Alike, commutes, commutes]
  exact congr (congrArg put is) alike

/-- Values that are alike stay so as parts of others. -/
theorem Alike.inject {f : β → β} {g : γ → γ} {part : β → γ} {value value' : β}
    (alike : Alike f value value') (commutes : ∀ value, g (part value) = part (f value))
    : Alike g (part value) (part value') := by
  rw [Alike, commutes, commutes]
  exact congrArg part alike

section Fields

variable {f : σ → σ} {key : String} {value : (ts : List (Token α)) → Attempt α β ts}
  {put : σ → β → σ}

/-- Properties that hold values with places. -/
theorem field_carries {g : β → β} (carries : Carries (Alike g) value)
    (commutes : ∀ record v, f (put record v) = put (f record) (g v))
    : HandlerCarries (Alike f) (field key value put).2 := by
  intro record record' _ _ is ts ts' moved
  apply carriedTold_silent
  rw [Attempt.bare_andThen, Attempt.bare_andThen]
  refine (expectSign_carries _ _ _ _ moved).bind fun _ _ _ _ _ _ moved => ?_
  rw [Attempt.bare_mapValue, Attempt.bare_mapValue]
  exact (carries _ _ moved).map fun _ _ alike => alike_put put commutes is alike

/-- Properties that hold values without places. -/
theorem plain_carries (carries : Carries Eq value)
    (commutes : ∀ record v, f (put record v) = put (f record) v)
    : HandlerCarries (Alike f) (field key value put).2 :=
  field_carries (g := id) (fun ts ts' moved => (carries ts ts' moved).mono fun _ _ is => is.symm)
    commutes

end Fields

theorem noExtra_carried {same : σ → σ → Prop} (record record' : σ) (_ : same record record')
    (ts ts' : List (Token α)) (_ : Moved ts ts')
    : CarriedMaybe same (noExtra record ts) (noExtra record' ts') :=
  .none

/-- A block after an optional colon. -/
theorem colon_block_carried {same : σ → σ → Prop} {form : BlockForm α σ}
    (carries : FormCarries same form) {record record' : σ} (is : same record record')
    (moved : Moved ts ts')
    : CarriedTold same
        (Outcome.afterSkipped (skipSign .colon ts)
          (block form record (skipSign .colon ts).rest)).told
        (Outcome.afterSkipped (skipSign .colon ts')
          (block form record' (skipSign .colon ts').rest)).told := by
  rw [Outcome.told_afterSkipped, Outcome.told_afterSkipped]
  exact block_carries carries is (moved.skipSign .colon)

-----------------------------------------------------------------------------------------
-- Parts of declarations
-----------------------------------------------------------------------------------------

theorem bindingForm_carries
    : FormCarries (Alike Binding.unplaced) (bindingForm (α := α)) := {
  properties := by
    simp only [bindingForm, List.forall_mem_cons]
    exact ⟨plain_carries quotedString_carries fun _ _ => rfl,
      plain_carries (choice_carries _ _ _) fun _ _ => rfl,
      plain_carries quotedString_carries fun _ _ => rfl,
      field_carries expression_carries fun _ _ => rfl,
      field_carries expression_carries fun _ _ => rfl, by simp⟩
  extra := noExtra_carried
}

theorem binding_carried (span span' : Span) (moved : Moved ts ts')
    : CarriedTold (Alike Binding.unplaced) (binding span ts).told (binding span' ts').told :=
  colon_block_carried bindingForm_carries rfl moved

theorem triggerForm_carries : FormCarries (Alike id) (triggerForm (α := α)) := {
  properties := by
    simp only [triggerForm, List.forall_mem_cons]
    exact ⟨plain_carries boolean_carries fun _ _ => rfl,
      plain_carries stringList_carries fun _ _ => rfl,
      plain_carries quotedString_carries fun _ _ => rfl, by simp⟩
  extra := noExtra_carried
}

theorem ruleHandler_carries (severity : AlertSeverity)
    : HandlerCarries (Alike Watch.unplaced) (ruleHandler (α := α) severity).2 := by
  intro watch watch' _ _ is ts ts' moved
  apply carriedTold_silent
  simp only [Attempt.bare_andThen, Attempt.bare_andMaybe]
  have start : Carried (fun _ _ => True)
      ((expectWord "when" ts).bare.bind fun r => bare (.ok (skipSign .colon r.2)))
      ((expectWord "when" ts').bare.bind fun r => bare (.ok (skipSign .colon r.2))) :=
    (expectWord_carries _ _ _ moved).bind fun _ _ _ _ _ _ moved =>
      .ok trivial (moved.skipSign .colon)
  refine start.bind fun _ _ _ _ _ _ moved => ?_
  rw [Attempt.bare_mapValue, Attempt.bare_mapValue]
  refine (expression_carries _ _ moved).map fun _ _ alike =>
    alike_put (fun (w : Watch α) e => { w with rules := w.rules ++ [⟨severity, e⟩] })
      (fun w e => ?_) is alike
  simp [Watch.unplaced, WatchRule.unplaced]

theorem watchForm_carries (target : Option Path)
    : FormCarries (Alike Watch.unplaced) (watchForm (α := α) target) := {
  properties := by
    simp only [watchForm, List.forall_mem_cons]
    refine ⟨ruleHandler_carries _, ruleHandler_carries _, ?_, by simp⟩
    intro watch watch' _ _ is ts ts' moved
    have start : Alike id (⟨none, [], none⟩ : Trigger) ⟨none, [], none⟩ := rfl
    exact (colon_block_carried triggerForm_carries start moved).mapValue
      fun _ _ alike => alike_put (fun (w : Watch α) t => { w with onTrigger := some t })
        (fun _ _ => rfl) is alike
  extra := noExtra_carried
}

theorem watchBody_carried (target : Option Path) (span span' : Span) (moved : Moved ts ts')
    : CarriedTold (Alike Watch.unplaced) (watchBody target span ts).told
        (watchBody target span' ts').told :=
  block_carries (watchForm_carries target) rfl moved

/-- A block after its name. -/
theorem named_block_carried {same : σ → σ → Prop} {form : β → BlockForm α σ} {start start' : β → σ}
    {name : (ts : List (Token α)) → Attempt α β ts} (named : Carries Eq name)
    (carries : ∀ n, FormCarries same (form n)) (is : ∀ n, same (start n) (start' n))
    (moved : Moved ts ts')
    : CarriedTold same
        (Outcome.afterAttempt (name ts) fun n rest => block (form n) (start n) rest).told
        (Outcome.afterAttempt (name ts') fun n rest => block (form n) (start' n) rest).told :=
  carriedTold_afterAttempt (named ts ts' moved) fun n _ _ _ same moved => by
    subst same
    exact block_carries (carries n) (is n) moved

-----------------------------------------------------------------------------------------
-- Declared values
-----------------------------------------------------------------------------------------

section Quantities

variable [Scalar α]

/-- A value may end with its date. -/
theorem assumedHandler_carries
    : HandlerCarries (Alike Assumption.unplaced) (assumedHandler (α := α)).2 := by
  intro record record' _ _ is ts ts' moved
  apply carriedTold_silent
  simp only [Attempt.bare_andMaybe, Attempt.bare_andThen]
  have valued : Carried (Alike Expr.unplaced)
      ((expectSign .colon "':' after 'value'" ts).bare.bind fun r => (expression r.2).bare)
      ((expectSign .colon "':' after 'value'" ts').bare.bind fun r => (expression r.2).bare) :=
    (expectSign_carries _ _ _ _ moved).bind fun _ _ _ _ _ _ moved =>
      expression_carries _ _ moved
  refine valued.bind fun value value' rest rest' _ alike moved => ?_
  have kept : Alike Assumption.unplaced { record with value := some value }
      { record' with value := some value' } :=
    alike_put (fun (a : Assumption α) v => { a with value := some v }) (fun _ _ => rfl) is
      alike
  have dated : Carried Eq
      (Attempt.andThen (expectWord "by" rest) fun _ more => date more).bare
      (Attempt.andThen (expectWord "by" rest') fun _ more => date more).bare := by
    rw [Attempt.bare_andThen, Attempt.bare_andThen]
    exact (expectWord_carries _ _ _ moved).bind fun _ _ _ _ _ _ moved => date_carries _ _ moved
  dsimp only
  rw [moved.atWord]
  split
  case isFalse => exact .ok kept moved
  case isTrue =>
    generalize (Attempt.andThen (expectWord "by" rest) fun _ more => date more) = a at dated ⊢
    generalize (Attempt.andThen (expectWord "by" rest') fun _ more => date more) = a' at dated ⊢
    have recorded : Carried (Alike Assumption.unplaced) _ _ := dated.map fun d d' same =>
      alike_put (fun (a : Assumption α) d => { a with byDate := some d }) (g := id)
        (fun _ _ => rfl) kept same.symm
    cases a <;> cases a' <;> exact recorded

theorem assumptionForm_carries (name : String)
    : FormCarries (Alike Assumption.unplaced) (assumptionForm (α := α) name) := {
  properties := by
    simp only [assumptionForm, List.forall_mem_cons]
    refine ⟨assumedHandler_carries, plain_carries quotedString_carries fun _ _ => rfl,
      plain_carries (number_carries true) fun _ _ => rfl,
      field_carries distribution_carries fun _ _ => rfl, ?_, ?_, by simp⟩
    · intro a a' key span is ts ts' moved
      exact (binding_carried key.span span moved).mapValue fun _ _ alike =>
        alike_put (fun (a : Assumption α) b => { a with binding := some b })
          (fun _ _ => rfl) is alike
    · intro a a' key span is ts ts' moved
      exact (watchBody_carried none key.span span moved).mapValue fun _ _ alike =>
        alike_put (fun (a : Assumption α) w => { a with watch := some w })
          (fun _ _ => rfl) is alike
  extra := noExtra_carried
}

omit [Scalar α] in
theorem Moved.startsAnchor (moved : Moved ts ts')
    : Grammar.startsAnchor ts' = Grammar.startsAnchor ts := by
  cases moved with
  | nil => rfl
  | cons t span others =>
      simp only [Grammar.startsAnchor, Token.kind_movedTo, others.atSign]

theorem anchorItem_carried (record record' : Variable α)
    (is : Alike Variable.unplaced record record') (ts ts' : List (Token α)) (moved : Moved ts ts')
    : CarriedMaybe (Alike Variable.unplaced) (anchorItem record ts) (anchorItem record' ts') := by
  unfold anchorItem
  rw [moved.startsAnchor]
  split
  case isFalse => exact .none
  case isTrue =>
    refine .some (carriedTold_silent ?_)
    simp only [Attempt.bare_andThen, Attempt.bare_mapValue]
    refine (date_carries _ _ moved).bind fun day _ _ _ _ same moved => ?_
    subst same
    refine (expectSign_carries _ _ _ _ moved).bind fun _ _ _ _ _ _ moved => ?_
    refine (expression_carries _ _ moved).map fun _ _ alike =>
      alike_put (fun (x : Variable α) v => { x with anchors := x.anchors ++ [⟨day, v⟩] })
        (fun x v => ?_) is alike
    simp [Variable.unplaced, Anchor.unplaced]

theorem variableForm_carries (name : String)
    : FormCarries (Alike Variable.unplaced) (variableForm (α := α) name) := {
  properties := by
    simp only [variableForm, List.forall_mem_cons]
    exact ⟨plain_carries quotedString_carries fun _ _ => rfl,
      plain_carries quotedString_carries fun _ _ => rfl,
      plain_carries quotedString_carries fun _ _ => rfl,
      plain_carries quotedString_carries fun _ _ => rfl,
      plain_carries quotedString_carries fun _ _ => rfl,
      plain_carries nameList_carries fun _ _ => rfl,
      field_carries model_carries fun _ _ => rfl,
      field_carries distribution_carries fun _ _ => rfl,
      plain_carries (choice_carries _ _ _) fun _ _ => rfl, by simp⟩
  extra := anchorItem_carried
}

omit [Scalar α] in
theorem parameterForm_carries (name : String)
    : FormCarries (Alike Parameter.unplaced) (parameterForm (α := α) name) := {
  properties := by
    simp only [parameterForm, List.forall_mem_cons]
    exact ⟨field_carries expression_carries fun _ _ => rfl,
      field_carries range_carries fun _ _ => rfl,
      field_carries distribution_carries fun _ _ => rfl,
      plain_carries quotedString_carries fun _ _ => rfl,
      plain_carries quotedString_carries fun _ _ => rfl,
      plain_carries quotedString_carries fun _ _ => rfl,
      field_carries expression_carries fun _ _ => rfl,
      plain_carries quotedString_carries fun _ _ => rfl,
      plain_carries quotedString_carries fun _ _ => rfl,
      plain_carries (choice_carries _ _ _) fun _ _ => rfl,
      plain_carries quotedString_carries fun _ _ => rfl,
      plain_carries quotedString_carries fun _ _ => rfl, by simp⟩
  extra := noExtra_carried
}

omit [Scalar α] in
theorem impactForm_carries (name : String)
    : FormCarries (Alike Impact.unplaced) (impactForm (α := α) name) := {
  properties := by
    simp only [impactForm, List.forall_mem_cons]
    exact ⟨plain_carries quotedString_carries fun _ _ => rfl,
      plain_carries quotedString_carries fun _ _ => rfl,
      plain_carries quotedString_carries fun _ _ => rfl,
      plain_carries quotedString_carries fun _ _ => rfl,
      plain_carries quotedString_carries fun _ _ => rfl,
      plain_carries nameList_carries fun _ _ => rfl,
      field_carries expression_carries fun _ _ => rfl, by simp⟩
  extra := noExtra_carried
}

theorem assumption_carried (span span' : Span) (moved : Moved ts ts')
    : CarriedTold (Alike Assumption.unplaced) (assumption span ts).told
        (assumption span' ts').told :=
  named_block_carried identifier_carries assumptionForm_carries (fun _ => rfl) moved

theorem varying_carried (span span' : Span) (moved : Moved ts ts')
    : CarriedTold (Alike Variable.unplaced) (varying span ts).told (varying span' ts').told :=
  named_block_carried identifier_carries variableForm_carries (fun _ => rfl) moved

omit [Scalar α] in
theorem parameter_carried (span span' : Span) (moved : Moved ts ts')
    : CarriedTold (Alike Parameter.unplaced) (parameter span ts).told (parameter span' ts').told :=
  named_block_carried identifier_carries parameterForm_carries (fun _ => rfl) moved

omit [Scalar α] in
theorem impact_carried (span span' : Span) (moved : Moved ts ts')
    : CarriedTold (Alike Impact.unplaced) (impact span ts).told (impact span' ts').told :=
  named_block_carried identifier_carries impactForm_carries (fun _ => rfl) moved

theorem quantity?_carried (keyword : String) (span span' : Span) (moved : Moved ts ts')
    : CarriedMaybe (Alike Quantity.unplaced) (quantity? keyword span ts)
        (quantity? keyword span' ts') := by
  unfold quantity?
  split
  case h_1 =>
    exact .some ((assumption_carried span span' moved).mapValue fun _ _ is =>
      is.inject fun _ => rfl)
  case h_2 =>
    exact .some ((varying_carried span span' moved).mapValue fun _ _ is => is.inject fun _ => rfl)
  case h_3 =>
    exact .some ((parameter_carried span span' moved).mapValue fun _ _ is => is.inject fun _ => rfl)
  case h_4 =>
    exact .some ((impact_carried span span' moved).mapValue fun _ _ is => is.inject fun _ => rfl)
  case h_5 => exact .none

end Quantities

-----------------------------------------------------------------------------------------
-- Branches and settings
-----------------------------------------------------------------------------------------

section Branches

variable [Scalar α]

theorem overrideItem_carried (record record' : Branch α)
    (is : Alike Branch.unplaced record record') (ts ts' : List (Token α)) (moved : Moved ts ts')
    : CarriedMaybe (Alike Branch.unplaced) (overrideItem record ts) (overrideItem record' ts') := by
  cases moved with
  | nil => exact .none
  | @cons t span us us' others =>
      unfold overrideItem
      dsimp only
      rw [Token.isAnyWord_movedTo, Token.text_movedTo, others.atSign]
      split
      case isFalse => exact .none
      case isTrue =>
        refine .some (carriedTold_orRecover ?_)
        have inner := quantity?_carried t.text t.span (t.movedTo span).span others
        generalize quantity? t.text t.span us = known at inner ⊢
        generalize quantity? t.text (t.movedTo span).span us' = known' at inner ⊢
        cases inner with
        | none => exact carriedTold_silent .error
        | some carried =>
            dsimp only
            rw [Outcome.told_afterToken, Outcome.told_afterToken]
            refine carried.mapValue fun _ _ alike =>
              alike_put (fun (b : Branch α) q => { b with overrides := b.overrides ++ [q] })
                (fun b q => ?_) is alike
            simp [Branch.unplaced]

theorem branchForm_carries (name : String)
    : FormCarries (Alike Branch.unplaced) (branchForm (α := α) name) := {
  properties := by
    simp only [branchForm, List.forall_mem_cons]
    refine ⟨plain_carries (number_carries true) fun _ _ => rfl, ?_, by simp⟩
    intro b b' _ _ is ts ts' moved
    apply carriedTold_silent
    simp only [Attempt.bare_andThen, Attempt.bare_mapValue]
    refine (expectSign_carries _ _ _ _ moved).bind fun _ _ _ _ _ _ moved => ?_
    refine (expectWord_carries _ _ _ moved).bind fun _ _ _ _ _ _ moved => ?_
    exact (quotedString_carries _ _ moved).map fun _ _ same =>
      alike_put (fun (b : Branch α) v => { b with fork := some v }) (g := id)
        (fun _ _ => rfl) is same.symm
  extra := overrideItem_carried
}

theorem branch_carried (span span' : Span) (moved : Moved ts ts')
    : CarriedTold (Alike Branch.unplaced) (branch span ts).told (branch span' ts').told := by
  refine carriedTold_afterAttempt (wordOrString_carries _ _ moved)
    fun name _ rest rest' same moved => ?_
  subst same
  have conditioned : Carried (Alike Expr.unplaced)
      (Attempt.andThen (expectWord "when" rest) fun _ more => expression more).bare
      (Attempt.andThen (expectWord "when" rest') fun _ more => expression more).bare := by
    rw [Attempt.bare_andThen, Attempt.bare_andThen]
    exact (expectWord_carries _ _ _ moved).bind fun _ _ _ _ _ _ moved =>
      expression_carries _ _ moved
  refine carriedTold_afterAttempt conditioned fun condition _ _ _ alike moved =>
    block_carries (branchForm_carries name) ?_ moved
  simp only [Alike] at alike
  simp [Alike, Branch.unplaced, alike]

theorem simulateForm_carries
    : FormCarries (Alike Simulate.unplaced) (simulateForm (α := α)) := {
  properties := by
    simp only [simulateForm, List.forall_mem_cons]
    exact ⟨plain_carries wholeNumber_carries fun _ _ => rfl,
      plain_carries (choice_carries _ _ _) fun _ _ => rfl,
      plain_carries wholeNumber_carries fun _ _ => rfl,
      plain_carries (choice_carries _ _ _) fun _ _ => rfl,
      plain_carries (bracketed_carries (number_carries false)) fun _ _ => rfl,
      plain_carries (number_carries false) fun _ _ => rfl,
      plain_carries duration_carries fun _ _ => rfl, by simp⟩
  extra := noExtra_carried
}

omit [Scalar α] in
theorem calibrateForm_carries (target : Path)
    : FormCarries (Alike Calibrate.unplaced) (calibrateForm (α := α) target) := {
  properties := by
    simp only [calibrateForm, List.forall_mem_cons]
    exact ⟨plain_carries quotedString_carries fun _ _ => rfl,
      plain_carries (choice_carries _ _ _) fun _ _ => rfl,
      plain_carries duration_carries fun _ _ => rfl,
      field_carries distribution_carries fun _ _ => rfl,
      plain_carries (choice_carries _ _ _) fun _ _ => rfl, by simp⟩
  extra := noExtra_carried
}

theorem simulate_carried (span span' : Span) (moved : Moved ts ts')
    : CarriedTold (Alike Simulate.unplaced) (simulate span ts).told (simulate span' ts').told :=
  block_carries simulateForm_carries rfl moved

omit [Scalar α] in
theorem watch_carried (span span' : Span) (moved : Moved ts ts')
    : CarriedTold (Alike Watch.unplaced) (watch span ts).told (watch span' ts').told :=
  named_block_carried dottedName_carries (fun target => watchForm_carries (some target))
    (fun _ => rfl) moved

omit [Scalar α] in
theorem calibrate_carried (span span' : Span) (moved : Moved ts ts')
    : CarriedTold (Alike Calibrate.unplaced) (calibrate span ts).told (calibrate span' ts').told :=
  named_block_carried dottedName_carries calibrateForm_carries (fun _ => rfl) moved

omit [Scalar α] in
theorem import_alike (path : String) {name name' : String} (same : name = name')
    {span span' : Span}
    : Alike Import.unplaced ⟨path, name, span⟩ ⟨path, name', span'⟩ :=
  same ▸ rfl

omit [Scalar α] in
theorem imported_carried (span span' : Span) (moved : Moved ts ts')
    : Carried (Alike Import.unplaced) (imported span ts).bare (imported span' ts').bare := by
  simp only [imported, Attempt.bare_andThen, Attempt.bare_mapValue]
  refine (quotedString_carries _ _ moved).bind fun path _ _ _ _ same moved => ?_
  subst same
  refine (expectWord_carries _ _ _ moved).bind fun _ _ _ _ _ _ moved => ?_
  exact (identifier_carries _ _ moved).map fun _ _ same => import_alike path same

/-- A declaration of which nothing is reported is the same, up to places, wherever its tokens
stand.
-/
theorem declaration?_carried (keyword : String) (span span' : Span) (moved : Moved ts ts')
    : CarriedMaybe (Alike Declaration.unplaced) (declaration? keyword span ts)
        (declaration? keyword span' ts') := by
  unfold declaration?
  split
  case h_1 =>
    exact .some ((branch_carried span span' moved).mapValue fun _ _ is => is.inject fun _ => rfl)
  case h_2 =>
    exact .some ((simulate_carried span span' moved).mapValue fun _ _ is => is.inject fun _ => rfl)
  case h_3 =>
    exact .some ((watch_carried span span' moved).mapValue fun _ _ is => is.inject fun _ => rfl)
  case h_4 =>
    exact .some ((calibrate_carried span span' moved).mapValue fun _ _ is => is.inject fun _ => rfl)
  case h_5 =>
    exact .some (carriedTold_silent ((imported_carried span span' moved).mapValue fun _ _ is =>
      is.inject fun _ => rfl))
  case h_6 =>
    have inner := quantity?_carried keyword span span' moved
    generalize quantity? keyword span ts = known at inner ⊢
    generalize quantity? keyword span' ts' = known' at inner ⊢
    cases inner with
    | none => exact .none
    | some carried =>
        exact .some (carried.mapValue fun _ _ is => is.inject fun _ => rfl)

end Branches

end Prognosis.Grammar

/-! Scenarios at other places. The body of a scenario of which nothing is reported is read alike
wherever its tokens stand and whatever it holds already; imports are read alike, reports or not.
-/

namespace Prognosis.Grammar

variable {α : Type} {ts ts' : List (Token α)}

-----------------------------------------------------------------------------------------
-- Bodies
-----------------------------------------------------------------------------------------

/-- The second body holds what the first one holds, up to places, and the given declarations in
front of that.
-/
structure Body.Behind (front : List (Declaration α)) (body body' : Body α) : Prop where
  metadata : body'.metadata = body.metadata
  declarations
    : body'.declarations.map Declaration.unplaced
      = (front ++ body.declarations).map Declaration.unplaced

variable {front : List (Declaration α)} {body body' : Body α}

theorem Body.Behind.describe (behind : Body.Behind front body body') {m m' : Metadata α}
    (same : m = m')
    : Body.Behind front { body with metadata := m } { body' with metadata := m' } :=
  ⟨same.symm, behind.declarations⟩

theorem Body.Behind.declare (behind : Body.Behind front body body') {d d' : Declaration α}
    (alike : Alike Declaration.unplaced d d')
    : Body.Behind front ⟨body.metadata, body.declarations ++ [d]⟩
        ⟨body'.metadata, body'.declarations ++ [d']⟩ := by
  refine ⟨behind.metadata, ?_⟩
  have same : d'.unplaced = d.unplaced := alike
  rw [← List.append_assoc, List.map_append, List.map_append, behind.declarations,
    List.map_singleton, List.map_singleton, same]

section Bodies

variable [Scalar α]

theorem metadataValue_carries (key : String) (m : Metadata α)
    : Carries Eq (metadataValue key m) := by
  intro ts ts' moved
  unfold metadataValue
  split
  case h_1 =>
    simp only [Attempt.bare_andThen]
    refine (date_carries _ _ moved).bind fun start _ _ _ _ same moved => ?_
    subst same
    refine (expectSign_carries _ _ _ _ moved).bind fun _ _ _ _ _ _ moved => ?_
    exact (date_carries _ _ moved).mapValue fun _ _ same => same ▸ rfl
  case h_2 => exact (choice_carries _ _ _ _ _ moved).mapValue fun _ _ same => same ▸ rfl
  case h_3 => exact (number_carries true _ _ moved).mapValue fun _ _ same => same ▸ rfl
  case h_4 => exact (stringList_carries _ _ moved).mapValue fun _ _ same => same ▸ rfl
  case h_5 | h_6 => exact (wordOrString_carries _ _ moved).mapValue fun _ _ same => same ▸ rfl
  case h_7 | h_8 | h_9 | h_10 | h_11 | h_12 =>
    exact (quotedString_carries _ _ moved).mapValue fun _ _ same => same ▸ rfl

theorem bodyItem_carried (behind : Body.Behind front body body') (t : Token α) (span : Span)
    (moved : Moved ts ts')
    : CarriedTold (Body.Behind front) (bodyItem body t ts).told
        (bodyItem body' (t.movedTo span) ts').told := by
  unfold bodyItem
  rw [Token.isAnyWord_movedTo, Token.text_movedTo, moved.atSign]
  split
  case isTrue =>
    apply carriedTold_silent
    simp only [Attempt.bare_afterToken, Attempt.bare_andThen, Attempt.bare_mapValue]
    refine (expectSign_carries _ _ _ _ moved).bind fun _ _ _ _ _ _ moved => ?_
    rw [behind.metadata]
    exact (metadataValue_carries _ _ _ _ moved).map fun _ _ same => behind.describe same
  case isFalse =>
    have inner : CarriedMaybe (Alike Declaration.unplaced)
        (if t.isAnyWord then declaration? t.text t.span ts else none)
        (if t.isAnyWord then declaration? t.text (t.movedTo span).span ts' else none) := by
      split
      case isTrue => exact declaration?_carried t.text t.span (t.movedTo span).span moved
      case isFalse => exact .none
    generalize (if t.isAnyWord then declaration? t.text t.span ts else none) = known at inner ⊢
    generalize (if t.isAnyWord then declaration? t.text (t.movedTo span).span ts' else none)
      = known' at inner ⊢
    cases inner with
    | none => exact carriedTold_silent .error
    | some carried =>
        dsimp only
        rw [Outcome.told_afterToken, Outcome.told_afterToken]
        exact carried.mapValue fun _ _ alike => behind.declare alike

/-- By induction on the number of tokens. -/
theorem bodyItems_carried (name : String) (header header' : Span) {body body' : Body α}
    (behind : Body.Behind front body body') {ts ts' : List (Token α)} (moved : Moved ts ts')
    : CarriedTold (Body.Behind front) (bodyItems name header body ts).told
        (bodyItems name header' body' ts').told := by
  have shorter := skipSeparators_length ts
  have skipped := moved.skipSeparators
  rw [bodyItems_told name header body ts, bodyItems_told name header' body' ts']
  generalize skipSeparators ts = us at shorter skipped
  generalize skipSeparators ts' = us' at skipped
  cases skipped with
  | nil => exact fun value rest none => by cases none
  | cons t span others =>
      dsimp only
      rw [Token.isSign_movedTo]
      split
      case isTrue => exact carriedTold_ok behind others
      case isFalse =>
        refine (carriedTold_orRecover (bodyItem_carried behind t span others)).andThen
          fun value value' rest rest' read behind moved => ?_
        have fewer := Attempt.length_lt_of_bare read
        exact bodyItems_carried name header header' behind moved
termination_by ts.length
decreasing_by exact Nat.lt_of_lt_of_le fewer shorter

end Bodies

-----------------------------------------------------------------------------------------
-- Imports
-----------------------------------------------------------------------------------------

/-- Reading resumes at the same token. -/
theorem Moved.recover (depth : Nat) (moved : Moved ts ts')
    : Moved (Grammar.recover depth ts) (Grammar.recover depth ts') := by
  induction moved generalizing depth with
  | nil => exact .nil
  | cons t span others ih =>
      have resumes {us us' : List (Token α)} (moved : Moved us us')
          : resumesAt (t.movedTo span) us' = resumesAt t us := by
        rw [resumesAt, resumesAt, Token.isAnyWord_movedTo, Token.text_movedTo, moved.atSign]
      rw [recover.eq_def, recover.eq_def depth (t.movedTo span :: _)]
      dsimp only
      rw [Token.isSign_movedTo, Token.isSign_movedTo, resumes others]
      split
      case isTrue => exact ih _
      case isFalse =>
        split
        case isTrue =>
          rcases depth with _ | _ | depth
          · exact .cons t span others
          · exact others
          · exact ih _
        case isFalse =>
          split
          case isTrue => exact .cons t span others
          case isFalse => exact ih _

/-- The import in front, if it is read; then the imports that come after it. -/
theorem imports_step (ts : List (Token α))
    : imports ts
      = match skipSeparators ts with
        | [] => .ok ⟨[], [], []⟩
        | t :: rest =>
            if t.isWord "import" then
              match (imported t.span rest).bare with
              | .error (.fault fault) => .error fault
              | .error (.finding found) =>
                  (imports (recover 0 rest)).map fun others =>
                    { others with reports := found :: others.reports }
              | .ok (i, left) =>
                  (imports left).map fun others =>
                    { others with value := .imported i :: others.value }
            else .ok ⟨[], [], t :: rest⟩ := by
  rw [imports]
  split
  case h_1 skipped =>
    simp only [skipped]
  case h_2 t rest skipped =>
    simp only [skipped]
    split
    case isFalse => rfl
    case isTrue =>
      cases imported t.span rest with
      | error e =>
          cases e with
          | fault fault => rfl
          | finding found =>
              simp only [Attempt.bare_error]
              cases imports (recover 0 rest) <;> rfl
      | ok p =>
          simp only [Attempt.bare_ok]
          cases imports p.rest <;> rfl

/-- Imports are read alike wherever they stand, and as many are given up among them. By induction on
the number of tokens.
-/
theorem imports_carried {ts ts' : List (Token α)} (moved : Moved ts ts')
    {read : Progress α (List (Declaration α))} (is : imports ts = .ok read)
    : ∃ read', imports ts' = .ok read'
        ∧ read'.value.map Declaration.unplaced = read.value.map Declaration.unplaced
        ∧ Moved read.rest read'.rest ∧ read'.reports.length = read.reports.length := by
  have shorter := skipSeparators_length ts
  have skipped := moved.skipSeparators
  rw [imports_step] at is
  rw [imports_step]
  generalize skipSeparators ts = us at shorter skipped is
  generalize skipSeparators ts' = us' at skipped
  cases skipped with
  | nil =>
      cases is
      exact ⟨_, rfl, rfl, .nil, rfl⟩
  | @cons t span more more' others =>
      dsimp only at is ⊢
      rw [Token.isWord_movedTo]
      split at is
      case isFalse other =>
        cases is
        rw [if_neg other]
        exact ⟨_, rfl, rfl, .cons t span others, rfl⟩
      case isTrue word =>
        rw [if_pos word]
        have forth := imported_carried t.span (t.movedTo span).span others
        have back := imported_carried (t.movedTo span).span t.span others.symm
        have finds : FaultsOnly (fun _ => False) (imported t.span more).bare :=
          faultsOnly_bare.mpr (imported_faults t.span more)
        have finds' : FaultsOnly (fun _ => False) (imported (t.movedTo span).span more').bare :=
          faultsOnly_bare.mpr (imported_faults (t.movedTo span).span more')
        have fewer {i : Import} {left : List (Token α)}
            (took : (imported t.span more).bare = .ok (i, left))
            : left.length < more.length :=
          Attempt.length_lt_of_bare took
        have less := recover_length 0 more
        generalize (imported t.span more).bare = first at is forth back finds fewer
        generalize (imported (t.movedTo span).span more').bare = first' at forth back finds'
        cases first with
        | ok r =>
            obtain ⟨value', left', rfl, alike, moved⟩ := forth r.1 r.2 rfl
            obtain ⟨later, read⟩ := imports_returns r.2
            simp only [read] at is
            cases is
            have fewer := fewer rfl
            obtain ⟨later', read', same, left, asMany⟩ := imports_carried moved read
            simp only [read', Except.map]
            refine ⟨_, rfl, ?_, left, asMany⟩
            rw [List.map_cons, List.map_cons, same]
            exact congrArg (· :: _) (congrArg Declaration.imported alike)
        | error e =>
            obtain ⟨found, rfl⟩ : ∃ found, e = .finding found := by
              cases e with
              | finding found => exact ⟨found, rfl⟩
              | fault fault => exact (finds fault rfl).elim
            obtain ⟨later, read⟩ := imports_returns (recover 0 more)
            simp only [read] at is
            cases is
            obtain ⟨later', read', same, left, asMany⟩ := imports_carried (others.recover 0) read
            cases first' with
            | ok r =>
                obtain ⟨_, _, took, -, -⟩ := back r.1 r.2 rfl
                cases took
            | error e' =>
                cases e' with
                | fault fault => exact (finds' fault rfl).elim
                | finding found' =>
                    simp only [read', Except.map]
                    exact ⟨_, rfl, same, left, congrArg (· + 1) asMany⟩
termination_by ts.length
decreasing_by
  · simp only [List.length_cons] at shorter
    omega
  · simp only [List.length_cons] at shorter
    omega

end Prognosis.Grammar
