import Prognosis.Proofs.Grammar.Spacing

/-! Separators in declarations. They may stand in front of every item of a block and behind the last
one, or be missing there: where nothing is reported, the same is declared. An item that is a block
is spelled with slots of its own.
-/

namespace Prognosis.Grammar

variable {α β γ σ : Type}

-----------------------------------------------------------------------------------------
-- Blocks
-----------------------------------------------------------------------------------------

/-- How the items of a block are read. -/
def BlockForm.item (form : BlockForm α σ) : ItemTaking α σ :=
  fun record t => silently fun ts => (blockItem form record t ts).told

/-- Some items are spelled with slots inside; all others are spelled without slots. -/
def spelledBy (item : ItemTaking α σ) (inner : σ → Token α → Option (Spelling α σ))
    : ItemSpelling α σ :=
  fun record t => (inner record t).getD (.solid (item record t))

section SpelledBy

variable {item : ItemTaking α σ} {inner : σ → Token α → Option (Spelling α σ)} {record next : σ}
  {t : Token α}

theorem spelledBy_inner {p : Template α} {spelling : Spelling α σ}
    (is : inner record t = some spelling) (spelled : spelling p next)
    : spelledBy item inner record t p next := by
  rwa [spelledBy, is]

theorem spelledBy_solid {ts : List (Token α)} (is : inner record t = none)
    (took : item record t ts next [])
    : spelledBy item inner record t (ts.map some) next := by
  rw [spelledBy, is]
  exact ⟨ts, rfl, took⟩

end SpelledBy

/-- No item has slots inside. -/
def noSlots : σ → Token α → Option (Spelling α σ) :=
  fun _ _ => none

/-- The items of a block may have any number of separators around them. -/
structure Spaced (follows : List (Token α) → Prop) (form : BlockForm α σ)
    (inner : σ → Token α → Option (Spelling α σ)) : Prop where
  each : ∀ record t, Elastic follows (form.item record t) (spelledBy form.item inner record t)
  initial : ∀ record t ts next rest, form.item record t ts next rest → Initial t
  joins : ∀ record ts last rest, Run form.item Closes record ts last rest → follows ts

theorem runs_elastic {follows : List (Token α) → Prop} {item : ItemTaking α σ}
    {spelling : ItemSpelling α σ}
    (each : ∀ record t, Elastic follows (item record t) (spelling record t))
    (initial : ∀ record t ts next rest, item record t ts next rest → Initial t)
    (joins : ∀ record ts last rest, Run item Closes record ts last rest → follows ts)
    (record : σ)
    : Elastic anywhere (bracedItems item record) (Braced spelling record) := by
  refine bracedItems_elastic (run_elastic each (fun record t ts next rest read => ?_) joins record)
  have starts := initial record t ts next rest read
  exact ⟨starts.isSeparator, by simp [Closes, starts.isSign]⟩

theorem block_silently (form : BlockForm α σ) (record : σ)
    : (silently fun ts => (block form record ts).told) = bracedItems form.item record := by
  funext ts last rest
  rw [silently, block, told_afterAttempt_iff]
  have loop {more : List (Token α)}
      : (blockItems form record more).told = ([], .ok (last, rest))
        ↔ ∃ closing, Run form.item Closes record more last (closing :: rest) :=
    loop_silently (blockItems_told form) fun record t ts next rest read =>
      Nat.le_of_lt_succ (Attempt.length_lt_of_bare (congrArg Prod.snd read))
  refine propext ⟨?_, ?_⟩
  · rintro ⟨_, more, brace, read⟩
    obtain ⟨opening, rfl, opens⟩ := expectSign_takes_iff.mp brace
    obtain ⟨closing, run⟩ := loop.mp read
    exact ⟨opening, more, closing, rfl, opens, run⟩
  · rintro ⟨opening, more, closing, rfl, opens, run⟩
    exact ⟨(), more, expectSign_takes_iff.mpr ⟨opening, rfl, opens⟩, loop.mpr ⟨closing, run⟩⟩

theorem block_opens {form : BlockForm α σ} {record last : σ} {ts rest : List (Token α)}
    (read : silently (fun ts => (block form record ts).told) ts last rest)
    : ∃ opening more, ts = opening :: more ∧ opening.isSign .lbrace = true := by
  rw [block_silently] at read
  obtain ⟨opening, more, _, rfl, opens, -⟩ := read
  exact ⟨opening, more, rfl, opens⟩

theorem Elastic.mapValue {follows : List (Token α) → Prop}
    {reader : (ts : List (Token α)) → Outcome α β ts} {spelling : Spelling α β}
    (elastic : Elastic follows (silently fun ts => (reader ts).told) spelling) (f : β → γ)
    : Elastic follows (silently fun ts => ((reader ts).mapValue f).told) (spelling.map f) := by
  have same : (silently fun ts => ((reader ts).mapValue f).told)
      = (silently fun ts => (reader ts).told).map f := by
    funext ts value rest
    exact propext told_mapValue_iff
  rw [same]
  exact elastic.map f

theorem Elastic.afterAttempt {follows : List (Token α) → Prop}
    {reader : (ts : List (Token α)) → Attempt α β ts} (isLocal : (takes reader).Local follows)
    (atEnd : follows []) {next : β → (ts : List (Token α)) → Outcome α γ ts}
    {spelling : β → Spelling α γ}
    (later : ∀ value, Elastic anywhere (silently fun ts => (next value ts).told) (spelling value))
    (joins : ∀ value ts others rest, silently (fun ts => (next value ts).told) ts others rest
      → follows ts)
    : Elastic anywhere (silently fun ts => (Outcome.afterAttempt (reader ts) (next)).told)
        ((Spelling.solid (takes reader)).andThen spelling) := by
  have same : (silently fun ts => (Outcome.afterAttempt (reader ts) (next)).told)
      = (takes reader).andThen fun value => silently fun ts => (next value ts).told := by
    funext ts last rest
    exact propext told_afterAttempt_iff
  rw [same]
  exact (Elastic.solid isLocal atEnd).andThen later fun value ts others rest read _ =>
    joins value ts others rest read

section Forms

variable {follows : List (Token α) → Prop} {form : BlockForm α σ}
  {inner : σ → Token α → Option (Spelling α σ)}

theorem Spaced.elastic (spaced : Spaced follows form inner) (record : σ)
    : Elastic anywhere (silently fun ts => (block form record ts).told)
        (Braced (spelledBy form.item inner) record) := by
  rw [block_silently]
  exact runs_elastic spaced.each spaced.initial spaced.joins record

/-- An item of a block is one of its other items or a known property. -/
theorem item_iff {record next : σ} {t : Token α} {ts rest : List (Token α)}
    : form.item record t ts next rest
      ↔ match form.extra record (t :: ts) with
        | some outcome => outcome.told = ([], .ok (next, rest))
        | none => ∃ handler, form.handler? t = some handler
            ∧ (handler record t ts).told = ([], .ok (next, rest)) := by
  rw [BlockForm.item, silently, blockItem]
  cases form.extra record (t :: ts) with
  | some outcome => rfl
  | none =>
      cases form.handler? t with
      | some handler =>
          simp only [Outcome.told_afterToken]
          exact ⟨fun read => ⟨handler, rfl, read⟩, fun ⟨_, is, read⟩ => by cases is; exact read⟩
      | none => exact iff_of_false (by simp [Outcome.told]) nofun

/-- What the reader of a property takes is the same in front of all tokens that may follow. -/
def HandlerLocal (follows : List (Token α) → Prop) (handler : Handler α σ) : Prop :=
  ∀ record key, (silently fun ts => (handler record key ts).told).Local follows

/-- The key of a property goes on with no value, and the property is taken as a whole unless it is
nested.
-/
structure Fits (follows : List (Token α) → Prop) (nested : List String)
    (property : String × Handler α σ) : Prop where
  key : property.1 ∉ ["and", "or", "by"]
  isLocal : property.1 ∉ nested → HandlerLocal follows property.2

theorem field_takes {key : String} {value : (ts : List (Token α)) → Attempt α β ts}
    {put : σ → β → σ} (record : σ) (t : Token α)
    : (silently fun ts => ((field key value put).2 record t ts).told)
      = (takes (expectSign .colon ("':' after '" ++ key ++ "'"))).andThen fun _ =>
          (takes value).map (put record) := by
  funext ts next rest
  rw [← takes_mapValue, ← takes_andThen]
  exact propext told_silent_iff

/-- Properties that are read as values after a colon. -/
theorem field_fits {nested : List String} {key : String} (free : key ∉ ["and", "or", "by"])
    {value : (ts : List (Token α)) → Attempt α β ts} {put : σ → β → σ}
    (isLocal : (takes value).Local follows)
    : Fits follows nested (field key value put) := by
  refine ⟨free, fun _ record t => ?_⟩
  rw [field_takes]
  exact (expectSign_local _ _).then_anywhere fun _ => isLocal.map _

theorem nested_fits {nested : List String} {key : String} (free : key ∉ ["and", "or", "by"])
    (member : key ∈ nested) {handler : Handler α σ}
    : Fits follows nested (key, handler) :=
  ⟨free, fun other => absurd member other⟩

theorem handler?_mem {t : Token α} {handler : Handler α σ}
    (found : form.handler? t = some handler)
    : t.isAnyWord = true ∧ (t.text, handler) ∈ form.properties := by
  unfold BlockForm.handler? at found
  split at found
  case isTrue word => exact ⟨word, Entries.mem_of_lookup found⟩
  case isFalse => cases found

section Properties

variable {t : Token α} {nested : List String}

/-- The items that start with the token are known properties. -/
def IsProperty (form : BlockForm α σ) (t : Token α) : Prop :=
  ∀ record ts next rest, form.item record t ts next rest
    ↔ ∃ handler, form.handler? t = some handler
      ∧ (handler record t ts).told = ([], .ok (next, rest))

theorem isProperty_of_bare (bare : ∀ record ts, form.extra record (t :: ts) = none)
    : IsProperty form t := by
  intro record ts next rest
  rw [item_iff, bare]

/-- A property that is not nested is taken as a whole. -/
theorem IsProperty.isLocal (is : IsProperty form t)
    (properties : ∀ property ∈ form.properties, Fits follows nested property) (record : σ)
    (other : t.isAnyWord = true → t.text ∉ nested)
    : (form.item record t).Local follows := by
  intro ts next rest read
  obtain ⟨handler, found, read⟩ := (is _ _ _ _).mp read
  obtain ⟨word, member⟩ := handler?_mem found
  obtain ⟨taken, rfl, again⟩ :=
    (properties _ member).isLocal (other word) record t ts next rest read
  exact ⟨taken, rfl, fun more may => (is _ _ _ _).mpr ⟨handler, found, again more may⟩⟩

theorem IsProperty.initial (is : IsProperty form t)
    (properties : ∀ property ∈ form.properties, Fits follows nested property)
    {record next : σ} {ts rest : List (Token α)} (read : form.item record t ts next rest)
    : Initial t := by
  obtain ⟨handler, found, -⟩ := (is _ _ _ _).mp read
  obtain ⟨word, member⟩ := handler?_mem found
  exact Or.inl ⟨word, (properties _ member).key⟩

/-- A nested property is taken as its reader takes it. -/
theorem IsProperty.of_key (is : IsProperty form t) {key : String} (word : t.isWord key = true)
    {handler : Handler α σ} (found : form.properties.lookup key = some handler) (record : σ)
    : form.item record t = silently fun ts => (handler record t ts).told := by
  simp only [Token.isWord, Bool.and_eq_true, beq_iff_eq] at word
  have known : form.handler? t = some handler := by
    rw [BlockForm.handler?, if_pos word.1, word.2, found]
  funext ts next rest
  rw [is]
  simp [known, silently]

end Properties

/-- A block of properties, of which some are nested blocks with a spelling of their own. -/
theorem spaced_of_nested (nested : List String)
    (bare : ∀ record t ts, form.extra record (t :: ts) = none)
    (weaker : ∀ ts, Apart ts → follows ts)
    (properties : ∀ property ∈ form.properties, Fits follows nested property)
    (blocks : ∀ record t spelling, inner record t = some spelling
      → Elastic follows (form.item record t) spelling)
    (others : ∀ record t, inner record t = none → t.isAnyWord = true → t.text ∉ nested)
    : Spaced follows form inner := by
  have initial (record : σ) (t : Token α) (ts : List (Token α)) (next : σ)
      (rest : List (Token α)) (read : form.item record t ts next rest)
      : Initial t :=
    (isProperty_of_bare (bare · t)).initial properties read
  refine ⟨fun record t => ?_, initial, fun record ts last rest run => weaker _ (run.apart initial)⟩
  rw [spelledBy]
  cases is : inner record t with
  | some spelling => exact blocks record t spelling is
  | none =>
      have whole := (isProperty_of_bare (bare · t)).isLocal properties record (others record t is)
      exact .solid whole (weaker [] apart_nil)

/-- A block of properties that are no blocks. -/
theorem spaced_of_properties (bare : ∀ record t ts, form.extra record (t :: ts) = none)
    (properties : ∀ property ∈ form.properties, Fits Ends [] property)
    : Spaced Ends form noSlots :=
  spaced_of_nested [] bare (fun _ => Apart.ends) properties nofun fun _ _ _ _ => List.not_mem_nil

end Forms

-----------------------------------------------------------------------------------------
-- Parts of declarations
-----------------------------------------------------------------------------------------

/-- A colon, which may be missing. -/
def optionalColon : Taking α Unit :=
  mayTake fun ts => .ok (skipSign .colon ts)

theorem optionalColon_iff {ts rest : List (Token α)} {u : Unit}
    : optionalColon ts u rest
      ↔ (∃ t, ts = t :: rest ∧ t.isSign .colon = true) ∨ ts = rest ∧ atSign ts .colon = false := by
  cases ts with
  | nil => simp [optionalColon, mayTake, skipSign, atSign, Continued.stay]
  | cons t ts =>
      rw [optionalColon, mayTake, skipSign]
      cases is : t.isSign .colon <;> simp [atSign, Continued.stay, is]

theorem optionalColon_local
    : (optionalColon (α := α)).Local fun ts => atSign ts .colon = false := by
  intro ts u rest took
  rcases optionalColon_iff.mp took with ⟨t, rfl, colon⟩ | ⟨rfl, -⟩
  · exact ⟨[t], rfl, fun more _ => optionalColon_iff.mpr (Or.inl ⟨t, rfl, colon⟩)⟩
  · exact ⟨[], rfl, fun more colonless => optionalColon_iff.mpr (Or.inr ⟨rfl, colonless⟩)⟩

/-- How a block is spelled after a colon, which may be missing. -/
def colonBraced (item : ItemSpelling α σ) (record : σ) : Spelling α σ :=
  (Spelling.solid optionalColon).andThen fun _ => Braced item record

theorem Spaced.colonBlock {follows : List (Token α) → Prop} {form : BlockForm α σ}
    {inner : σ → Token α → Option (Spelling α σ)} (spaced : Spaced follows form inner) (record : σ)
    : Elastic anywhere
        (silently fun ts => (Outcome.afterSkipped (skipSign .colon ts)
          (Grammar.block form record (skipSign .colon ts).rest)).told)
        (colonBraced (spelledBy form.item inner) record) := by
  have same : (silently fun ts => (Outcome.afterSkipped (skipSign .colon ts)
          (Grammar.block form record (skipSign .colon ts).rest)).told)
      = optionalColon.andThen fun _ => silently fun ts => (Grammar.block form record ts).told := by
    funext ts last rest
    simp only [silently, Outcome.told_afterSkipped, Taking.andThen, optionalColon, mayTake, bare_ok]
    simp
  rw [same]
  refine (Elastic.solid optionalColon_local rfl).andThen (fun _ => spaced.elastic record)
    fun _ ts last rest read _ => ?_
  obtain ⟨opening, more, rfl, opens⟩ := block_opens read
  simp [atSign, Token.isSign, Token.isSign_iff.mp opens]

theorem bindingForm_spaced : Spaced Ends (bindingForm (α := α)) noSlots := by
  refine spaced_of_properties (fun _ _ _ => rfl) ?_
  simp only [bindingForm, List.forall_mem_cons]
  exact ⟨field_fits (by decide) quotedString_local,
    field_fits (by decide) (choice_local _ _ _), field_fits (by decide) quotedString_local,
    field_fits (by decide) expression_local, field_fits (by decide) expression_local, by simp⟩

theorem triggerForm_spaced : Spaced Ends (triggerForm (α := α)) noSlots := by
  refine spaced_of_properties (fun _ _ _ => rfl) ?_
  simp only [triggerForm, List.forall_mem_cons]
  exact ⟨field_fits (by decide) boolean_local, field_fits (by decide) stringList_local,
    field_fits (by decide) quotedString_local, by simp⟩

/-- No expression begins with a colon. -/
theorem expression_colonless {ts rest : List (Token α)} {e : Expr α}
    (took : takes expression ts e rest)
    : atSign ts .colon = false := by
  obtain ⟨taken, rfl, derived⟩ :=
    binary_derives .disjunction ts (Attempt.reads_iff_bare.mpr took)
  obtain ⟨t, more, rfl, begins⟩ := derived.head
  rw [List.cons_append, atSign, ← Bool.not_eq_true, Token.isSign_iff]
  intro colon
  simpa using begins _ colon

theorem ruleHandler_fits (severity : AlertSeverity) (nested : List String)
    : Fits Ends nested (ruleHandler (α := α) severity) := by
  have key : severity.word ∉ ["and", "or", "by"] := by cases severity <;> decide
  refine ⟨key, fun _ watch t => ?_⟩
  have same : (silently fun ts => ((ruleHandler severity).2 watch t ts).told)
      = ((takes (expectWord "when")).andThen fun _ => optionalColon).andThen fun _ =>
          (takes expression).map fun condition =>
            { watch with rules := watch.rules ++ [⟨severity, condition⟩] } := by
    funext ts next rest
    rw [optionalColon, ← takes_andMaybe, ← takes_mapValue, ← takes_andThen]
    exact propext told_silent_iff
  rw [same]
  refine ((expectWord_local "when").then_anywhere fun _ => optionalColon_local).andThen
    (fun _ => expression_local.map _) ?_
  rintro _ ts _ rest ⟨e, took, -⟩ -
  exact expression_colonless took

/-- How what is nested in a watch block is spelled: what it triggers is a block of its own. -/
def watchInner (watch : Watch α) (t : Token α) : Option (Spelling α (Watch α)) :=
  if t.isWord "on_trigger" = true then
    some ((colonBraced (spelledBy triggerForm.item noSlots) ⟨none, [], none⟩).map fun trigger =>
      { watch with onTrigger := some trigger })
  else none

theorem watchForm_spaced (target : Option Path)
    : Spaced Ends (watchForm (α := α) target) watchInner := by
  refine spaced_of_nested ["on_trigger"] (fun _ _ _ => rfl) (fun _ => Apart.ends) ?_ ?_ ?_
  case refine_1 =>
    simp only [watchForm, List.forall_mem_cons]
    exact ⟨ruleHandler_fits _ _, ruleHandler_fits _ _,
      nested_fits (by decide) (List.mem_singleton_self _), by simp⟩
  case refine_2 =>
    intro watch t spelling is
    unfold watchInner at is
    split at is
    case isTrue word =>
      cases is
      rw [(isProperty_of_bare fun _ _ => rfl).of_key word rfl]
      exact ((triggerForm_spaced.colonBlock _).mapValue _).weaken
    case isFalse => cases is
  case refine_3 =>
    intro watch t is word
    unfold watchInner at is
    split at is
    case isTrue => cases is
    case isFalse other => simpa [Token.isWord, word] using other

-----------------------------------------------------------------------------------------
-- Declared values
-----------------------------------------------------------------------------------------

section Values

variable [Scalar α]

/-- The word in front of a date, and the date. -/
def datedBy : Taking α PartialDate :=
  takes fun ts => Attempt.andThen (expectWord "by" ts) fun _ more => date more

/-- The date of a value, which may be missing. -/
def assumedDate (record : Assumption α) : Taking α (Assumption α) :=
  fun ts value rest =>
    if atWord ts "by" = true then
      (datedBy.map fun day => { record with byDate := some day }) ts value rest
    else value = record ∧ rest = ts

theorem assumedDate_eq (record : Assumption α)
    : assumedDate record
      = mayTake fun ts =>
          if atWord ts "by" then
            match Attempt.andThen (expectWord "by" ts) fun _ more => date more with
            | .error e => .error e
            | .ok by_ => .ok (by_.map fun d => { record with byDate := some d }).continued
          else .ok (.stay record) := by
  funext ts value rest
  rw [assumedDate, mayTake]
  split
  case isFalse => simp [Continued.stay, eq_comm (a := value), eq_comm (a := rest)]
  case isTrue =>
    rw [datedBy, Taking.map]
    simp only [takes]
    cases Attempt.andThen (expectWord "by" ts) fun _ more => date more with
    | error e => simp
    | ok p => simp [Parsed.map, Parsed.continued, and_comm]

theorem assumedDate_local (record : Assumption α) : (assumedDate record).Local Apart := by
  intro ts value rest took
  unfold assumedDate at took ⊢
  split at took
  case isTrue word =>
    have dated : (datedBy (α := α)).Local Apart := by
      rw [datedBy, takes_andThen]
      exact (expectWord_local "by").then_anywhere fun _ => date_local
    cases ts with
    | nil => cases word
    | cons t ts =>
        obtain ⟨taken, rfl, again⟩ := (dated.map _).starts (takes_progresses.map _) took
        refine ⟨t :: taken, rfl, fun more apart => ?_⟩
        have stays : atWord (t :: taken ++ more) "by" = true := word
        rw [if_pos stays]
        exact again more apart
  case isFalse =>
    obtain ⟨rfl, rfl⟩ := took
    refine ⟨[], rfl, fun more apart => ?_⟩
    rw [List.nil_append, apart.undated]
    exact ⟨rfl, rfl⟩

theorem assumedHandler_fits (nested : List String)
    : Fits Apart nested (assumedHandler (α := α)) := by
  have key : "value" ∉ ["and", "or", "by"] := by decide
  refine ⟨key, fun _ record t => ?_⟩
  have same : (silently fun ts => (assumedHandler.2 record t ts).told)
      = ((takes (expectSign .colon "':' after 'value'")).andThen fun _ => takes expression).andThen
          fun value => assumedDate { record with value := some value } := by
    funext ts next rest
    rw [← takes_andThen]
    have tail (value : Expr α) : assumedDate { record with value := some value } = mayTake _ :=
      assumedDate_eq { record with value := some value }
    simp only [tail]
    rw [← takes_andMaybe]
    exact propext told_silent_iff
  rw [same]
  refine ((expectSign_local _ _).then_anywhere fun _ => expression_local).andThen
    (fun value => assumedDate_local _) ?_
  intro value ts next rest took apart
  unfold assumedDate at took
  split at took
  case isTrue word =>
    cases ts with
    | nil => cases word
    | cons t ts =>
        simp only [atWord, Token.isWord, Bool.and_eq_true, beq_iff_eq] at word
        exact ends_of_word word.1 (by simp [word.2]) ts
  case isFalse =>
    obtain ⟨-, rfl⟩ := took
    exact apart.ends

/-- How what is nested in an assumption is spelled: its binding and what is watched of it. -/
def assumptionInner (record : Assumption α) (t : Token α) : Option (Spelling α (Assumption α)) :=
  if t.isWord "bind" = true then
    some ((colonBraced (spelledBy bindingForm.item noSlots)
      ⟨none, none, none, none, none, t.span⟩).map fun v => { record with binding := some v })
  else if t.isWord "watch" = true then
    some (Spelling.map (Braced (spelledBy (watchForm none).item watchInner)
      ⟨none, [], none, t.span⟩) fun v => { record with watch := some v })
  else none

theorem assumptionForm_spaced (name : String)
    : Spaced Apart (assumptionForm (α := α) name) assumptionInner := by
  refine spaced_of_nested ["bind", "watch"] (fun _ _ _ => rfl) (fun _ => id) ?_ ?_ ?_
  case refine_1 =>
    simp only [assumptionForm, List.forall_mem_cons]
    exact ⟨assumedHandler_fits _, field_fits (by decide) quotedString_local,
      field_fits (by decide) (number_local true),
      field_fits (by decide) (distribution_local.mono fun _ => Apart.ends),
      nested_fits (by decide) (by decide), nested_fits (by decide) (by decide), by simp⟩
  case refine_2 =>
    intro record t spelling is
    unfold assumptionInner at is
    split at is
    case isTrue word =>
      cases is
      rw [(isProperty_of_bare fun _ _ => rfl).of_key word rfl]
      exact ((bindingForm_spaced.colonBlock _).mapValue _).weaken
    case isFalse =>
      split at is
      case isTrue word =>
        cases is
        rw [(isProperty_of_bare fun _ _ => rfl).of_key word rfl]
        exact (((watchForm_spaced none).elastic _).mapValue _).weaken
      case isFalse => cases is
  case refine_3 =>
    intro record t is word
    unfold assumptionInner at is
    split at is
    case isTrue => cases is
    case isFalse noBind =>
      split at is
      case isTrue => cases is
      case isFalse noWatch =>
        simp only [Token.isWord, word, Bool.true_and, beq_iff_eq] at noBind noWatch
        simp [noBind, noWatch]

omit [Scalar α] in
theorem parameterForm_spaced (name : String)
    : Spaced Ends (parameterForm (α := α) name) noSlots := by
  refine spaced_of_properties (fun _ _ _ => rfl) ?_
  simp only [parameterForm, List.forall_mem_cons]
  exact ⟨field_fits (by decide) expression_local, field_fits (by decide) range_local,
    field_fits (by decide) distribution_local, field_fits (by decide) quotedString_local,
    field_fits (by decide) quotedString_local, field_fits (by decide) quotedString_local,
    field_fits (by decide) expression_local, field_fits (by decide) quotedString_local,
    field_fits (by decide) quotedString_local, field_fits (by decide) (choice_local _ _ _),
    field_fits (by decide) quotedString_local, field_fits (by decide) quotedString_local, by simp⟩

theorem simulateForm_spaced : Spaced Ends (simulateForm (α := α)) noSlots := by
  refine spaced_of_properties (fun _ _ _ => rfl) ?_
  simp only [simulateForm, List.forall_mem_cons]
  exact ⟨field_fits (by decide) wholeNumber_local, field_fits (by decide) (choice_local _ _ _),
    field_fits (by decide) wholeNumber_local, field_fits (by decide) (choice_local _ _ _),
    field_fits (by decide) (bracketed_local (number_local false)),
    field_fits (by decide) (number_local false), field_fits (by decide) duration_local, by simp⟩

omit [Scalar α] in
theorem calibrateForm_spaced (target : Path)
    : Spaced Ends (calibrateForm (α := α) target) noSlots := by
  refine spaced_of_properties (fun _ _ _ => rfl) ?_
  simp only [calibrateForm, List.forall_mem_cons]
  exact ⟨field_fits (by decide) quotedString_local, field_fits (by decide) (choice_local _ _ _),
    field_fits (by decide) duration_local, field_fits (by decide) distribution_local,
    field_fits (by decide) (choice_local _ _ _), by simp⟩

/-- A property with a colon behind its key. -/
def HasColon (handler : Handler α σ) : Prop :=
  ∀ record key ts next rest, (handler record key ts).told = ([], .ok (next, rest))
    → atSign ts .colon = true

omit [Scalar α] in
theorem field_hasColon {key : String} {β : Type} {value : (ts : List (Token α)) → Attempt α β ts}
    {put : σ → β → σ}
    : HasColon (field key value put).2 := by
  intro record t ts next rest read
  have took : (silently fun ts => ((field key value put).2 record t ts).told) ts next rest := read
  rw [field_takes] at took
  obtain ⟨_, _, colon, -⟩ := took
  obtain ⟨u, rfl, is⟩ := expectSign_takes_iff.mp colon
  exact is

omit [Scalar α] in
theorem IsProperty.hasColon {form : BlockForm α σ} {t : Token α} (is : IsProperty form t)
    (colons : ∀ property ∈ form.properties, HasColon property.2)
    {record next : σ} {ts rest : List (Token α)} (read : form.item record t ts next rest)
    : atSign ts .colon = true := by
  obtain ⟨handler, found, read⟩ := (is _ _ _ _).mp read
  exact colons _ (handler?_mem found).2 record t ts next rest read

omit [Scalar α] in
/-- Names end in a block of properties that have a colon each, and of other items that start with no
word.
-/
theorem spaced_of_colons {form : BlockForm α σ}
    (words : ∀ record t ts, t.isAnyWord = true → form.extra record (t :: ts) = none)
    (properties : ∀ property ∈ form.properties, Fits NamesEnd [] property ∧ HasColon property.2)
    (others : ∀ record t, t.isAnyWord = false → (form.item record t).Local NamesEnd
      ∧ ∀ ts next rest, form.item record t ts next rest → Initial t)
    : Spaced NamesEnd form noSlots := by
  have fits : ∀ property ∈ form.properties, Fits NamesEnd [] property :=
    fun property member => (properties property member).1
  have isProperty {t : Token α} (word : t.isAnyWord = true) : IsProperty form t :=
    isProperty_of_bare fun record ts => words record t ts word
  have initial (record : σ) (t : Token α) (ts : List (Token α)) (next : σ)
      (rest : List (Token α)) (read : form.item record t ts next rest)
      : Initial t := by
    cases word : t.isAnyWord with
    | true => exact (isProperty word).initial fits read
    | false => exact (others record t word).2 ts next rest read
  refine ⟨fun record t => .solid ?_ namesEnd_nil, initial, fun record ts last rest run =>
    run.namesEnd initial fun record t ts next rest read word => ?_⟩
  · cases word : t.isAnyWord with
    | true => exact (isProperty word).isLocal fits record fun _ => List.not_mem_nil
    | false => exact (others record t word).1
  · exact (isProperty word).hasColon (fun property member => (properties property member).2) read

omit [Scalar α] in
theorem impactForm_spaced (name : String)
    : Spaced NamesEnd (impactForm (α := α) name) noSlots := by
  refine spaced_of_colons (fun _ _ _ _ => rfl) ?_ fun record t other => ?_
  · simp only [impactForm, List.forall_mem_cons]
    exact ⟨⟨field_fits (by decide) quotedString_local, field_hasColon⟩,
      ⟨field_fits (by decide) quotedString_local, field_hasColon⟩,
      ⟨field_fits (by decide) quotedString_local, field_hasColon⟩,
      ⟨field_fits (by decide) quotedString_local, field_hasColon⟩,
      ⟨field_fits (by decide) quotedString_local, field_hasColon⟩,
      ⟨field_fits (by decide) nameList_local, field_hasColon⟩,
      ⟨field_fits (by decide) (expression_local.mono fun _ => NamesEnd.ends), field_hasColon⟩,
      by simp⟩
  · have none (ts : List (Token α)) (next : Impact α) (rest : List (Token α))
        : ¬(impactForm name).item record t ts next rest := by
      rw [isProperty_of_bare fun _ _ => rfl]
      rintro ⟨handler, found, -⟩
      simpa [other] using (handler?_mem found).1
    exact ⟨fun ts next rest read => absurd read (none ts next rest),
      fun ts next rest read => absurd read (none ts next rest)⟩

/-- An anchor of a variable: a date, a colon and an expression. -/
def anchorTaking (record : Variable α) : Taking α (Variable α) :=
  takes fun ts =>
    Attempt.andThen (date ts) fun day rest =>
    Attempt.andThen (expectSign .colon "':'" rest) fun _ rest =>
    (expression rest).mapValue fun value =>
      { record with anchors := record.anchors ++ [⟨day, value⟩] }

theorem anchorTaking_local (record : Variable α) : (anchorTaking record).Local Ends := by
  simp only [anchorTaking, takes_andThen, takes_mapValue]
  exact date_local.then_anywhere fun _ => (expectSign_local _ _).then_anywhere fun _ =>
    expression_local.map _

theorem anchorTaking_starts {record next : Variable α} {t : Token α} {ts rest : List (Token α)}
    (took : anchorTaking record (t :: ts) next rest)
    : startsAnchor (t :: ts) = true
      ∧ ((∃ value, t.kind = .number value) ∨ ∃ value, t.kind = .date value) := by
  simp only [anchorTaking, takes_andThen] at took
  obtain ⟨day, left, dated, _, _, colon, -⟩ := took
  obtain ⟨rfl, kind⟩ := date_starts dated
  obtain ⟨u, rfl, is⟩ := expectSign_takes_iff.mp colon
  refine ⟨?_, kind⟩
  rcases kind with ⟨_, kind⟩ | ⟨_, kind⟩ <;> simp [startsAnchor, kind, atSign, is]

theorem anchor_item_iff (name : String) (record : Variable α) {t : Token α}
    (other : t.isAnyWord = false) {ts rest : List (Token α)} {next : Variable α}
    : (variableForm name).item record t ts next rest ↔ anchorTaking record (t :: ts) next rest := by
  rw [item_iff]
  simp only [variableForm, anchorItem]
  cases starts : startsAnchor (t :: ts) with
  | true => exact told_silent_iff
  | false =>
      refine iff_of_false ?_ fun took => ?_
      · rintro ⟨handler, found, -⟩
        simpa [other] using (handler?_mem found).1
      · simpa [starts] using (anchorTaking_starts took).1

theorem anchorItem_word (record : Variable α) {t : Token α} (ts : List (Token α))
    (word : t.isAnyWord = true)
    : anchorItem record (t :: ts) = none := by
  simp [anchorItem, startsAnchor, Token.isAnyWord_iff.mp word]

theorem variableForm_spaced (name : String)
    : Spaced NamesEnd (variableForm (α := α) name) noSlots := by
  refine spaced_of_colons (fun record _ ts word => anchorItem_word record ts word) ?_
    fun record t other => ⟨fun ts next rest read => ?_, fun ts next rest read => ?_⟩
  · simp only [variableForm, List.forall_mem_cons]
    exact ⟨⟨field_fits (by decide) quotedString_local, field_hasColon⟩,
      ⟨field_fits (by decide) quotedString_local, field_hasColon⟩,
      ⟨field_fits (by decide) quotedString_local, field_hasColon⟩,
      ⟨field_fits (by decide) quotedString_local, field_hasColon⟩,
      ⟨field_fits (by decide) quotedString_local, field_hasColon⟩,
      ⟨field_fits (by decide) nameList_local, field_hasColon⟩,
      ⟨field_fits (by decide) (model_local.mono fun _ => NamesEnd.ends), field_hasColon⟩,
      ⟨field_fits (by decide) (distribution_local.mono fun _ => NamesEnd.ends), field_hasColon⟩,
      ⟨field_fits (by decide) (choice_local _ _ _), field_hasColon⟩, by simp⟩
  · obtain ⟨taken, rfl, again⟩ := (anchorTaking_local record).starts takes_progresses
      ((anchor_item_iff name record other).mp read)
    exact ⟨taken, rfl, fun more end_ =>
      (anchor_item_iff name record other).mpr (again more end_.ends)⟩
  · exact Or.inr (anchorTaking_starts ((anchor_item_iff name record other).mp read)).2

-----------------------------------------------------------------------------------------
-- Declarations
-----------------------------------------------------------------------------------------

/-- How a block is spelled behind a header that is read. -/
def headed (header : (ts : List (Token α)) → Attempt α β ts) (item : β → ItemSpelling α σ)
    (start : β → σ) : Spelling α σ :=
  (Spelling.solid (takes header)).andThen fun value => Braced (item value) (start value)

omit [Scalar α] in
theorem Spaced.headed {follows : List (Token α) → Prop}
    {header : (ts : List (Token α)) → Attempt α β ts} {form : β → BlockForm α σ}
    {inner : σ → Token α → Option (Spelling α σ)} (isLocal : (takes header).Local Ends)
    (spaced : ∀ value, Spaced follows (form value) inner) (start : β → σ)
    : Elastic anywhere
        (silently fun ts => (Outcome.afterAttempt (header ts) fun value rest =>
          Grammar.block (form value) (start value) rest).told)
        (Grammar.headed header (fun value => spelledBy (form value).item inner) start) := by
  refine Elastic.afterAttempt isLocal ends_nil (fun value => (spaced value).elastic _)
    fun value ts last rest read => ?_
  obtain ⟨opening, more, rfl, opens⟩ := block_opens read
  exact ends_of_sign opens (by decide) more

/-- What is read without a report where there is something that reads it. -/
def silently? (reader? : (ts : List (Token α)) → Option (Outcome α β ts)) : Taking α β :=
  fun ts value rest => ∃ outcome, reader? ts = some outcome
    ∧ outcome.told = ([], .ok (value, rest))

omit [Scalar α] in
theorem Elastic.silently? {follows : List (Token α) → Prop}
    {reader? : (ts : List (Token α)) → Option (Outcome α β ts)}
    {reader : (ts : List (Token α)) → Outcome α β ts} {spelling : Spelling α β}
    (known : ∀ ts, reader? ts = some (reader ts))
    (elastic : Elastic follows (silently fun ts => (reader ts).told) spelling)
    : Elastic follows (Grammar.silently? reader?) spelling := by
  have same : Grammar.silently? reader? = silently fun ts => (reader ts).told := by
    funext ts value rest
    simp [Grammar.silently?, known, silently]
  rwa [same]

omit [Scalar α] in
theorem silently?_map (reader? : (ts : List (Token α)) → Option (Outcome α β ts)) (f : β → γ)
    : (silently? fun ts => (reader? ts).map fun outcome => outcome.mapValue f)
      = (silently? reader?).map f := by
  funext ts value rest
  simp only [silently?, Taking.map, Option.map_eq_some_iff]
  refine propext ⟨?_, ?_⟩
  · rintro ⟨_, ⟨outcome, known, rfl⟩, read⟩
    obtain ⟨inner, read, is⟩ := told_mapValue_iff.mp read
    exact ⟨inner, ⟨outcome, known, read⟩, is⟩
  · rintro ⟨inner, ⟨outcome, known, read⟩, is⟩
    exact ⟨_, ⟨outcome, known, rfl⟩, told_mapValue_iff.mpr ⟨inner, read, is⟩⟩

/-- How a declared value is spelled behind its keyword. -/
def quantitySpelling? (keyword : String) (span : Span) : Option (Spelling α (Quantity α)) :=
  match keyword with
  | "assumption" =>
      some ((headed identifier (fun name => spelledBy (assumptionForm name).item assumptionInner)
        fun name => ⟨name, none, none, none, none, none, none, none, span⟩).map .assumption)
  | "variable" =>
      some ((headed identifier (fun name => spelledBy (variableForm name).item noSlots)
        fun name => ⟨name, [], [], none, none, none, none, none, none, none, none, span⟩).map
          .varying)
  | "parameter" =>
      some ((headed identifier (fun name => spelledBy (parameterForm name).item noSlots)
        fun name => ⟨name, none, none, none, none, none, none, none, none, none, none, none, none,
          span⟩).map .parameter)
  | "impact" =>
      some ((headed identifier (fun name => spelledBy (impactForm name).item noSlots)
        fun name => ⟨name, [], none, none, none, none, none, none, span⟩).map .impact)
  | _ => none

theorem quantity_elastic {keyword : String} {span : Span} {spelling : Spelling α (Quantity α)}
    (known : quantitySpelling? keyword span = some spelling)
    : Elastic anywhere (silently? (quantity? keyword span)) spelling := by
  unfold quantitySpelling? at known
  split at known
  case h_1 =>
    cases known
    exact .silently? (fun _ => rfl)
      ((Spaced.headed identifier_local assumptionForm_spaced _).mapValue _)
  case h_2 =>
    cases known
    exact .silently? (fun _ => rfl)
      ((Spaced.headed identifier_local variableForm_spaced _).mapValue _)
  case h_3 =>
    cases known
    exact .silently? (fun _ => rfl)
      ((Spaced.headed identifier_local parameterForm_spaced _).mapValue _)
  case h_4 =>
    cases known
    exact .silently? (fun _ => rfl)
      ((Spaced.headed identifier_local impactForm_spaced _).mapValue _)
  case h_5 => cases known

theorem quantity?_eq_none {keyword : String} {span : Span}
    (unknown : quantitySpelling? (α := α) keyword span = none) (ts : List (Token α))
    : quantity? keyword span ts = none := by
  unfold quantity?
  split
  case h_5 => rfl
  all_goals cases unknown

/-- A declared value starts with a keyword, and no colon is behind that. -/
theorem quantity_starts {keyword : String} {span : Span} {ts rest : List (Token α)}
    {q : Quantity α} (took : silently? (quantity? keyword span) ts q rest)
    : declarationKeywords.contains keyword = true ∧ keyword ∉ ["and", "or", "by"]
      ∧ atSign ts .colon = false := by
  obtain ⟨outcome, known, told⟩ := took
  unfold quantity? at known
  have named {β : Type} {next : String → (ts : List (Token α)) → Outcome α β ts}
      {f : β → Quantity α}
      (told : ((Outcome.afterAttempt (identifier ts) (next)).mapValue f).told = ([], .ok (q, rest)))
      : atSign ts .colon = false := by
    obtain ⟨_, read, -⟩ := told_mapValue_iff.mp told
    obtain ⟨name, left, first, -⟩ := told_afterAttempt_iff.mp read
    obtain ⟨t, rfl, word, -⟩ := identifier_reads_iff.mp first
    simp [atSign, Token.isSign, Token.isAnyWord_iff.mp word]
  split at known
  case h_5 => cases known
  all_goals
    cases known
    exact ⟨by decide, by decide, named told⟩

theorem quantitySpelling?_keyword {keyword : String} {span : Span}
    {spelling : Spelling α (Quantity α)} (known : quantitySpelling? keyword span = some spelling)
    : declarationKeywords.contains keyword = true := by
  unfold quantitySpelling? at known
  split at known
  case h_5 => cases known
  all_goals decide

/-- How what is declared inside of something is spelled: each declaration as its keyword says. -/
def declaredInner (spelling? : String → Span → Option (Spelling α β)) (put : σ → β → σ)
    : σ → Token α → Option (Spelling α σ) :=
  fun record t =>
    if t.isAnyWord = true then
      (spelling? t.text t.span).map fun spelling => spelling.map (put record)
    else none

omit [Scalar α] in
/-- What is no declaration is taken as a whole. -/
theorem declaredInner_elastic {follows : List (Token α) → Prop} {item : ItemTaking α σ}
    {spelling? : String → Span → Option (Spelling α β)} {put : σ → β → σ} {record : σ} {t : Token α}
    (declared : t.isAnyWord = true → ∀ spelling, spelling? t.text t.span = some spelling
      → Elastic follows (item record t) (spelling.map (put record)))
    (other : (t.isAnyWord = true → spelling? t.text t.span = none)
      → (item record t).Local follows)
    (atEnd : follows [])
    : Elastic follows (item record t)
        (spelledBy item (declaredInner spelling? put) record t) := by
  rw [spelledBy, declaredInner]
  split
  case isFalse noWord => exact .solid (other fun word => absurd word noWord) atEnd
  case isTrue word =>
    cases known : spelling? t.text t.span with
    | none => exact .solid (other fun _ => known) atEnd
    | some spelling => exact declared word spelling known

/-- How what is nested in a branch is spelled: the values that it overrides. -/
def branchInner : Branch α → Token α → Option (Spelling α (Branch α)) :=
  declaredInner quantitySpelling? fun record q =>
    { record with overrides := record.overrides ++ [q] }

/-- No keyword of a declaration is a property of a branch. -/
theorem branch_handler?_eq_none (name : String) {t : Token α}
    (keyword : declarationKeywords.contains t.text = true)
    : (branchForm name).handler? t = none := by
  cases found : (branchForm name).handler? t with
  | none => rfl
  | some handler =>
      have member := (handler?_mem found).2
      simp only [branchForm, field, List.mem_cons, List.not_mem_nil, or_false,
        Prod.mk.injEq] at member
      rcases member with ⟨is, -⟩ | ⟨is, -⟩
      all_goals
        rw [is] at keyword
        exact absurd keyword (by decide)

theorem branch_item_iff (name : String) {record next : Branch α} {t : Token α}
    {ts rest : List (Token α)}
    : (branchForm name).item record t ts next rest
      ↔ (t.isAnyWord = true
          ∧ ((silently? (quantity? t.text t.span)).map fun q =>
              { record with overrides := record.overrides ++ [q] }) ts next rest)
        ∨ ∃ handler, (branchForm name).handler? t = some handler
            ∧ (handler record t ts).told = ([], .ok (next, rest)) := by
  have extra : (branchForm name).extra record (t :: ts) = overrideItem record (t :: ts) := rfl
  rw [item_iff, extra, overrideItem]
  by_cases starts : (t.isAnyWord && declarationKeywords.contains t.text && !atSign ts .colon) = true
  case pos =>
    have keyword := starts
    simp only [Bool.and_eq_true] at keyword
    rw [if_pos starts, branch_handler?_eq_none name keyword.1.2]
    simp only [told_orRecover_iff, keyword.1.1, true_and, reduceCtorEq, false_and, exists_false,
      or_false, Taking.map, silently?]
    cases quantity? t.text t.span ts with
    | none => simp [told_silent_iff, failHere]
    | some outcome =>
        simp only [Outcome.told_afterToken, told_mapValue_iff, Option.some.injEq, exists_eq_left']
  case neg =>
    rw [if_neg starts]
    refine (or_iff_right ?_).symm
    rintro ⟨word, q, took, -⟩
    obtain ⟨keyword, -, colonless⟩ := quantity_starts took
    exact starts (by simp only [word, keyword, colonless, Bool.not_false, Bool.and_self])

theorem branch_properties_fit (name : String)
    : ∀ property ∈ (branchForm (α := α) name).properties, Fits Ends [] property := by
  simp only [branchForm, List.forall_mem_cons]
  have key : "fork" ∉ ["and", "or", "by"] := by decide
  refine ⟨field_fits (by decide) (number_local true), ⟨key, fun _ record t => ?_⟩, by simp⟩
  have forked : (takes fun (ts : List (Token α)) =>
      Attempt.andThen (expectSign .colon "':' after 'fork'" ts) fun _ rest =>
      Attempt.andThen (expectWord "scenario" rest) fun _ rest =>
      (quotedString rest).mapValue fun v => { record with fork := some v }).Local Ends := by
    simp only [takes_andThen, takes_mapValue]
    exact (expectSign_local _ _).then_anywhere fun _ =>
      (expectWord_local _).then_anywhere fun _ => quotedString_local.map _
  simp only [silently_silent]
  exact forked

theorem branch_item_elastic (name : String) (record : Branch α) (t : Token α)
    : Elastic Ends ((branchForm name).item record t)
        (spelledBy (branchForm name).item branchInner record t) := by
  refine declaredInner_elastic (fun word spelling known => ?_) (fun unknown => ?_) ends_nil
  · have same : (branchForm name).item record t
        = (silently? (quantity? t.text t.span)).map fun q =>
            { record with overrides := record.overrides ++ [q] } := by
      funext ts next rest
      refine propext ((branch_item_iff name).trans ?_)
      rw [branch_handler?_eq_none name (quantitySpelling?_keyword known)]
      simp [word]
    rw [same]
    exact ((quantity_elastic known).map _).weaken
  · have isProperty : IsProperty (branchForm name) t := by
      intro record ts next rest
      refine (branch_item_iff name).trans (or_iff_right ?_)
      rintro ⟨word, q, ⟨outcome, known, -⟩, -⟩
      rw [quantity?_eq_none (unknown word)] at known
      cases known
    exact isProperty.isLocal (branch_properties_fit name) record fun _ => List.not_mem_nil

theorem branchForm_spaced (name : String)
    : Spaced Ends (branchForm (α := α) name) branchInner := by
  have initial (record : Branch α) (t : Token α) (ts : List (Token α)) (next : Branch α)
      (rest : List (Token α)) (read : (branchForm name).item record t ts next rest)
      : Initial t := by
    rcases (branch_item_iff name).mp read with ⟨word, q, took, -⟩ | ⟨handler, found, -⟩
    · exact Or.inl ⟨word, (quantity_starts took).2.1⟩
    · obtain ⟨word, member⟩ := handler?_mem found
      exact Or.inl ⟨word, (branch_properties_fit name _ member).key⟩
  exact ⟨branch_item_elastic name, initial,
    fun record ts last rest run => (run.apart initial).ends⟩

/-- How a branch is spelled behind its keyword. -/
def branchSpelling (span : Span) : Spelling α (Branch α) :=
  (Spelling.solid (takes wordOrString)).andThen fun name =>
    headed (fun ts => Attempt.andThen (expectWord "when" ts) fun _ more => expression more)
      (fun _ => spelledBy (branchForm name).item branchInner)
      fun condition => ⟨name, condition, none, none, [], span⟩

theorem branch_elastic (span : Span)
    : Elastic anywhere (silently fun ts => (branch span ts).told)
        (branchSpelling (α := α) span) := by
  have name : (takes (wordOrString (α := α))).Local anywhere := wordOrString_local
  refine Elastic.afterAttempt name trivial (fun name => ?_) fun _ _ _ _ _ => trivial
  have condition : (takes fun (ts : List (Token α)) =>
      Attempt.andThen (expectWord "when" ts) fun _ more => expression more).Local Ends := by
    rw [takes_andThen]
    exact (expectWord_local _).then_anywhere fun _ => expression_local
  exact Spaced.headed condition (fun _ => branchForm_spaced name) _

omit [Scalar α] in
theorem imported_local (span : Span) : (takes (imported (α := α) span)).Local anywhere := by
  unfold imported
  simp only [takes_andThen, takes_mapValue]
  exact quotedString_local.then_anywhere fun _ =>
    (expectWord_local _).then_anywhere fun _ => identifier_local.map _

/-- How a declaration is spelled behind its keyword. -/
def declarationSpelling? (keyword : String) (span : Span) : Option (Spelling α (Declaration α)) :=
  match keyword with
  | "branch" => some ((branchSpelling span).map .branch)
  | "simulate" =>
      some (Spelling.map (Braced (spelledBy simulateForm.item noSlots)
        ⟨none, none, none, none, none, none, none, span⟩) .simulate)
  | "watch" =>
      some ((headed dottedName (fun target => spelledBy (watchForm (some target)).item watchInner)
        fun target => ⟨some target, [], none, span⟩).map .watch)
  | "calibrate" =>
      some ((headed dottedName (fun target => spelledBy (calibrateForm target).item noSlots)
        fun target => ⟨target, none, none, none, none, none, span⟩).map .calibrate)
  | "import" => some ((Spelling.solid (takes (imported span))).map .imported)
  | _ => (quantitySpelling? keyword span).map fun spelling => spelling.map .quantity

theorem declaration_elastic {keyword : String} {span : Span}
    {spelling : Spelling α (Declaration α)}
    (known : declarationSpelling? keyword span = some spelling)
    : Elastic anywhere (silently? (declaration? keyword span)) spelling := by
  unfold declarationSpelling? at known
  split at known
  case h_1 =>
    cases known
    exact .silently? (fun _ => rfl) ((branch_elastic span).mapValue _)
  case h_2 =>
    cases known
    exact .silently? (fun _ => rfl) ((simulateForm_spaced.elastic _).mapValue _)
  case h_3 =>
    cases known
    exact .silently? (fun _ => rfl)
      ((Spaced.headed dottedName_local (fun target => watchForm_spaced (some target)) _).mapValue _)
  case h_4 =>
    cases known
    exact .silently? (fun _ => rfl)
      ((Spaced.headed dottedName_local calibrateForm_spaced _).mapValue _)
  case h_5 =>
    cases known
    refine .silently? (fun _ => rfl) ?_
    rw [silently_silent, takes_mapValue]
    exact (Elastic.solid (imported_local span) trivial).map _
  case h_6 noBranch noSimulate noWatch noCalibrate noImport =>
    obtain ⟨inner, found, rfl⟩ := Option.map_eq_some_iff.mp known
    have other : (declaration? keyword span : (ts : List (Token α)) → _)
        = fun ts => (quantity? keyword span ts).map fun outcome =>
            outcome.mapValue .quantity := by
      funext ts
      unfold declaration?
      split
      case h_1 => exact (noBranch rfl).elim
      case h_2 => exact (noSimulate rfl).elim
      case h_3 => exact (noWatch rfl).elim
      case h_4 => exact (noCalibrate rfl).elim
      case h_5 => exact (noImport rfl).elim
      case h_6 => rfl
    rw [other, silently?_map]
    exact (quantity_elastic found).map _

theorem declaration?_eq_none {keyword : String} {span : Span}
    (unknown : declarationSpelling? (α := α) keyword span = none) (ts : List (Token α))
    : declaration? keyword span ts = none := by
  unfold declaration?
  split
  case h_6 noBranch noSimulate noWatch noCalibrate noImport =>
    simp only [declarationSpelling?, Option.map_eq_none_iff] at unknown
    rw [quantity?_eq_none unknown, Option.map_none]
  all_goals cases unknown

end Values

end Prognosis.Grammar
