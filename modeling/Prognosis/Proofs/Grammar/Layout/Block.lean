import Prognosis.Proofs.Grammar.Layout
import Prognosis.Proofs.Grammar.Seam.Block
import Prognosis.Proofs.Grammar.Seam.Value

/-! Values of properties at other places. -/

namespace Prognosis.Grammar

variable {α β : Type}

-----------------------------------------------------------------------------------------
-- Texts and words
-----------------------------------------------------------------------------------------

@[simp]
theorem textValue?_movedTo (t : Token α) (span : Span)
    : textValue? (t.movedTo span) = textValue? t := rfl

theorem quotedString_carries : Carries Eq (quotedString (α := α)) := by
  intro ts ts' moved
  cases moved with
  | nil => exact .error
  | cons t span others =>
      simp only [quotedString, textValue?_movedTo]
      split
      case h_1 => exact .ok rfl others
      case h_2 => exact .error

theorem wordOrString_carries : Carries Eq (wordOrString (α := α)) := by
  intro ts ts' moved
  cases moved with
  | nil => exact .error
  | cons t span others =>
      simp only [wordOrString, textValue?_movedTo]
      split
      case h_1 => exact .ok rfl others
      case h_2 => exact identifier_carries _ _ (.cons t span others)

theorem choice_carries (options : List β) (word : β → String) (what : String)
    : Carries Eq (choice (α := α) options word what) := by
  intro ts ts' moved
  rw [Seam.choice_bare, Seam.choice_bare]
  refine (wordOrString_carries ts ts' moved).bind fun value _ rest rest' _ is moved => ?_
  subst is
  dsimp only
  split
  case h_1 => exact .ok rfl moved
  case h_2 => exact .error

-----------------------------------------------------------------------------------------
-- Numbers and dates
-----------------------------------------------------------------------------------------

section Numbers

variable [Scalar α]

theorem unsignedNumber_carries (percent negative : Bool)
    : Carries Eq (unsignedNumber (α := α) percent negative) := by
  intro ts ts' moved
  cases moved with
  | nil => exact .error
  | cons t span others =>
      simp only [unsignedNumber, Token.kind_movedTo]
      split
      case h_1 | h_2 => exact .ok rfl others
      case h_3 => exact .error

theorem number_carries (percent : Bool) : Carries Eq (number (α := α) percent) := by
  intro ts ts' moved
  cases moved with
  | nil => exact .error
  | cons t span others =>
      simp only [number]
      rw [Token.isSign_movedTo]
      split
      case isTrue =>
        rw [Attempt.bare_afterToken, Attempt.bare_afterToken]
        exact unsignedNumber_carries percent true _ _ others
      case isFalse => exact unsignedNumber_carries percent false _ _ (.cons t span others)

theorem wholeNumber_carries : Carries Eq (wholeNumber (α := α)) := by
  intro ts ts' moved
  rw [Seam.wholeNumber_bare, Seam.wholeNumber_bare]
  refine (number_carries false ts ts' moved).bind fun value _ rest rest' _ is moved => ?_
  subst is
  dsimp only
  split
  case h_1 => exact .error
  case h_2 =>
    split
    case isTrue => exact .ok rfl moved
    case isFalse => exact .error

omit [Scalar α] in
theorem boolean_carries : Carries Eq (boolean (α := α)) := by
  intro ts ts' moved
  cases moved with
  | nil => exact .error
  | cons t span others =>
      simp only [boolean]
      rw [Token.isWord_movedTo, Token.isWord_movedTo]
      split
      case isTrue => exact .ok rfl others
      case isFalse =>
        split
        case isTrue => exact .ok rfl others
        case isFalse => exact .error

theorem date_carries : Carries Eq (date (α := α)) := by
  intro ts ts' moved
  cases moved with
  | nil => exact .error
  | cons t span others =>
      simp only [date]
      rw [Token.kind_movedTo, Token.text_movedTo]
      split
      case h_1 => exact .ok rfl others
      case h_2 =>
        split
        case h_1 => exact .error
        case h_2 =>
          split
          case isTrue => exact .ok rfl others
          case isFalse => exact .error
      case h_3 => exact .error

omit [Scalar α] in
theorem duration_carries : Carries Eq (duration (α := α)) := by
  intro ts ts' moved
  cases moved with
  | nil => exact .error
  | cons t span others =>
      simp only [duration, Token.kind_movedTo]
      split
      case h_1 => exact .ok rfl others
      case h_2 => exact .error

end Numbers

-----------------------------------------------------------------------------------------
-- Lists
-----------------------------------------------------------------------------------------

section Lists

variable {item : (ts : List (Token α)) → Attempt α β ts}

mutual

theorem items_carried (carries : Carries Eq item) {ts ts' : List (Token α)}
    (moved : Moved ts ts')
    : Carried Eq (items item ts).bare (items item ts').bare := by
  cases moved with
  | nil =>
      rw [items]
      exact (carries [] [] .nil).mapValue fun _ _ is => is ▸ rfl
  | cons t span others =>
      rw [Seam.items_bare, Seam.items_bare, Token.isSign_movedTo]
      split
      case isTrue => exact .ok rfl others
      case isFalse =>
        refine (carries _ _ (.cons t span others)).bind fun first _ rest rest' read is moved => ?_
        have shorter := Attempt.length_lt_of_bare read
        subst is
        exact afterItem_carried carries first moved
termination_by ts.length
decreasing_by
  exact shorter

theorem afterItem_carried (carries : Carries Eq item) (first : β) {ts ts' : List (Token α)}
    (moved : Moved ts ts')
    : Carried Eq (Seam.afterItem item first ts) (Seam.afterItem item first ts') := by
  cases moved with
  | nil => exact .error
  | cons u span others =>
      rw [Seam.afterItem, Seam.afterItem, Token.isSign_movedTo, Token.isSign_movedTo]
      split
      case isTrue => exact .ok rfl others
      case isFalse =>
        split
        case isTrue => exact (items_carried carries others).map fun _ _ is => is ▸ rfl
        case isFalse => exact .error
termination_by ts.length

end

theorem bracketed_carries (carries : Carries Eq item) : Carries Eq (bracketed item) := by
  intro ts ts' moved
  rw [bracketed, bracketed, Attempt.bare_andThen, Attempt.bare_andThen]
  exact (expectSign_carries _ _ ts ts' moved).bind fun _ _ _ _ _ _ moved =>
    items_carried carries moved

theorem stringList_carries : Carries Eq (stringList (α := α)) := by
  intro ts ts' moved
  cases moved with
  | nil => exact .error
  | cons t span others =>
      simp only [stringList, textValue?_movedTo]
      split
      case h_1 => exact .ok rfl others
      case h_2 => exact bracketed_carries quotedString_carries _ _ (.cons t span others)

end Lists

-----------------------------------------------------------------------------------------
-- Names
-----------------------------------------------------------------------------------------

theorem Moved.continuesNames {ts ts' : List (Token α)} (moved : Moved ts ts')
    : Grammar.continuesNames ts' = Grammar.continuesNames ts := by
  cases moved with
  | nil => rfl
  | cons t span others =>
      cases others with
      | nil => rfl
      | cons u place others =>
          simp only [Grammar.continuesNames, Token.isSign_movedTo, Token.isAnyWord_movedTo,
            others.atSign]

/-- By induction on the number of tokens. -/
theorem moreNames_carried {ts ts' : List (Token α)} (moved : Moved ts ts')
    : Carried Eq (bare (moreNames ts)) (bare (moreNames ts')) := by
  cases moved with
  | nil =>
      rw [moreNames]
      exact .ok rfl .nil
  | cons t span others =>
      rw [Seam.moreNames_bare, Seam.moreNames_bare, (Moved.cons t span others).continuesNames]
      split
      case isFalse => exact .ok rfl (.cons t span others)
      case isTrue =>
        refine (dottedName_carries _ _ others).bind fun name _ rest rest' read is moved => ?_
        have shorter := Attempt.length_lt_of_bare read
        subst is
        exact (moreNames_carried moved).map fun _ _ is => is ▸ rfl
termination_by ts.length
decreasing_by
  exact Nat.lt_succ_of_lt shorter

theorem nameList_carries : Carries Eq (nameList (α := α)) := by
  intro ts ts' moved
  rw [Seam.nameList_bare, Seam.nameList_bare, moved.atSign]
  split
  case isTrue => exact bracketed_carries dottedName_carries ts ts' moved
  case isFalse =>
    refine (dottedName_carries ts ts' moved).bind fun name _ _ _ _ is moved => ?_
    subst is
    exact (moreNames_carried moved).map fun _ _ is => is ▸ rfl

-----------------------------------------------------------------------------------------
-- Ranges, distributions and models
-----------------------------------------------------------------------------------------

/-- The bounds of a range without places. -/
def unplacedBounds (bounds : Expr α × Expr α) : Expr α × Expr α :=
  (bounds.1.unplaced, bounds.2.unplaced)

theorem range_carries : Carries (Alike unplacedBounds) (range (α := α)) := by
  intro ts ts' moved
  simp only [range, Attempt.bare_andThen, Attempt.bare_mapValue]
  refine (expectSign_carries _ _ _ _ moved).bind fun _ _ _ _ _ _ moved => ?_
  refine (expression_carries _ _ moved).bind fun low low' _ _ _ isLow moved => ?_
  refine (expectSign_carries _ _ _ _ moved).bind fun _ _ _ _ _ _ moved => ?_
  refine (expression_carries _ _ moved).bind fun high high' _ _ _ isHigh moved => ?_
  have same : Alike unplacedBounds (low, high) (low', high') := Prod.ext isLow isHigh
  exact (expectSign_carries _ _ _ _ moved).map fun _ _ _ => same

/-- What is alike with a call is a call of the same function with arguments that are alike. -/
theorem alike_call {function : String} {positional : List (Expr α)}
    {named : List (String × Expr α)} {place : Option Span} {e : Expr α}
    (alike : Alike Expr.unplaced (.call function positional named place) e)
    : ∃ positional' named' place', e = .call function positional' named' place'
        ∧ positional'.map Expr.unplaced = positional.map Expr.unplaced
        ∧ named'.map Expr.unplacedEntry = named.map Expr.unplacedEntry := by
  cases e with
  | call function' positional' named' place' =>
      simp only [Alike, Expr.unplaced, Expr.call.injEq, Expr.unplacedAll_eq, Expr.unplacedNamed_eq]
        at alike
      obtain ⟨rfl, positional, named, -⟩ := alike
      exact ⟨positional', named', place', rfl, positional, named⟩
  | number | percentage | currency | text | boolean | name | binary | unary => cases alike

theorem spread_alike {spread spread' : Expr α} (is : Alike Expr.unplaced spread spread')
    {place place' : Span}
    : Alike Distribution.unplaced ⟨.normal, [spread], [], place⟩
        ⟨.normal, [spread'], [], place'⟩ := by
  simp only [Alike] at is
  simp [Alike, Distribution.unplaced, is]

theorem distribution_carries : Carries (Alike Distribution.unplaced) (distribution (α := α)) := by
  intro ts ts' moved
  cases moved with
  | nil => exact .error
  | cons t span others =>
      rw [Seam.distribution_bare, Seam.distribution_bare, Token.isSign_movedTo]
      split
      case isTrue =>
        exact (expression_carries _ _ others).map fun _ _ is => spread_alike is
      case isFalse =>
        refine (expression_carries _ _ (.cons t span others)).bind
          fun value value' rest rest' _ alike moved => ?_
        cases value with
        | call function positional named place =>
            obtain ⟨positional', named', place', rfl, samePositional, sameNamed⟩ :=
              alike_call alike
            simp only [Seam.calledDistribution]
            cases DistributionKind.ofName? function with
            | none => exact .error
            | some kind =>
                refine .ok ?_ moved
                simp [Alike, Distribution.unplaced, samePositional, sameNamed]
        | number | percentage | currency | text | boolean | name | binary | unary => exact .error

theorem coefficients_unplaced (positional : List (Expr α))
    : (coefficients positional).map Expr.unplacedEntry
      = coefficients (positional.map Expr.unplaced) := by
  simp only [coefficients, List.zipIdx_map, List.map_map]
  rfl

theorem model_carries : Carries (Alike Model.unplaced) (model (α := α)) := by
  intro ts ts' moved
  cases moved with
  | nil => exact .error
  | cons t span others =>
      rw [Seam.model_bare, Seam.model_bare]
      refine (expression_carries _ _ (.cons t span others)).bind
        fun value value' rest rest' _ alike moved => ?_
      cases value with
      | call function positional named place =>
          obtain ⟨positional', named', place', rfl, samePositional, sameNamed⟩ := alike_call alike
          have same : positional'.isEmpty = positional.isEmpty := by
            simpa using congrArg List.isEmpty samePositional
          simp only [Seam.calledModel, same]
          cases ModelKind.ofName? function with
          | none => exact .error
          | some kind =>
              dsimp only
              split
              case isTrue =>
                refine .ok ?_ moved
                simp [Alike, Model.unplaced, coefficients_unplaced, samePositional, sameNamed]
              case isFalse => exact .error
      | number | percentage | currency | text | boolean | name | binary | unary => exact .error

end Prognosis.Grammar

/-! Blocks at other places. A block of which nothing is reported is read alike wherever its tokens
stand. One with an unknown property need not be: such a property ends with its line.
-/

namespace Prognosis.Grammar

variable {α β γ σ : Type} {ts ts' : List (Token α)}

-----------------------------------------------------------------------------------------
-- Readings with reports
-----------------------------------------------------------------------------------------

/-- What the first reading takes without a report, the second one takes without a report. -/
def CarriedTold (same : β → β → Prop) (x x' : Told α β) : Prop :=
  ∀ value rest, x = ([], .ok (value, rest))
    → ∃ value' rest', x' = ([], .ok (value', rest')) ∧ same value value' ∧ Moved rest rest'

/-- What reads with reports takes the same from tokens that stand at other places. -/
def CarriesTold (same : β → β → Prop) (reader : (ts : List (Token α)) → Outcome α β ts) : Prop :=
  ∀ ts ts', Moved ts ts' → CarriedTold same (reader ts).told (reader ts').told

/-- Either both readings may be made and what the first one takes carries over, or none of them. -/
inductive CarriedMaybe (same : β → β → Prop)
    : {ts ts' : List (Token α)} → Option (Outcome α β ts) → Option (Outcome α β ts') → Prop
  | none {ts ts' : List (Token α)}
    : CarriedMaybe same (none : Option (Outcome α β ts)) (none : Option (Outcome α β ts'))
  | some {ts ts' : List (Token α)} {o : Outcome α β ts} {o' : Outcome α β ts'}
      (carried : CarriedTold same o.told o'.told)
    : CarriedMaybe same (some o) (some o')

section Told

variable {same : β → β → Prop} {alike : γ → γ → Prop}

theorem carriedTold_silent {a : Attempt α β ts} {a' : Attempt α β ts'}
    (carried : Carried same a.bare a'.bare)
    : CarriedTold same (Outcome.silent a).told (Outcome.silent a').told := by
  intro value rest read
  obtain ⟨value', rest', read', is, moved⟩ := carried value rest (congrArg Prod.snd read)
  exact ⟨value', rest', Prod.ext rfl read', is, moved⟩

theorem carriedTold_ok {value value' : β} {rest rest' : List (Token α)} (is : same value value')
    (moved : Moved rest rest')
    : CarriedTold same ([], .ok (value, rest)) ([], .ok (value', rest')) := by
  intro _ _ read
  cases read
  exact ⟨value', rest', rfl, is, moved⟩

/-- A reading with a report need not carry over. -/
theorem carriedTold_reported {x x' : Told α β} {l : Located SyntaxFinding} (reported : l ∈ x.1)
    : CarriedTold same x x' := by
  intro value rest read
  rw [read] at reported
  cases reported

namespace CarriedTold

variable {x x' : Told α β}

/-- Reads on after values that are the same. -/
theorem andThen {k k' : β × List (Token α) → Told α γ} (first : CarriedTold same x x')
    (second : ∀ value value' rest rest', x.2 = .ok (value, rest) → same value value'
      → Moved rest rest' → CarriedTold alike (k (value, rest)) (k' (value', rest')))
    : CarriedTold alike (x.andThen k) (x'.andThen k') := by
  intro value rest read
  obtain ⟨⟨start, left⟩, took, reports, later⟩ := Told.ok_of_andThen_ok read
  obtain ⟨silent, quiet⟩ := List.append_eq_nil_iff.mp reports.symm
  obtain ⟨start', left', took', is, moved⟩ := first start left (Prod.ext silent took)
  obtain ⟨value', rest', later', same', moved'⟩ :=
    second start start' left left' took is moved value rest (Prod.ext quiet later)
  refine ⟨value', rest', ?_, same', moved'⟩
  rw [took', Told.andThen]
  simp only [later', List.append_nil]

theorem mapValue {o : Outcome α β ts} {o' : Outcome α β ts'}
    (carried : CarriedTold same o.told o'.told) {f f' : β → γ}
    (kept : ∀ value value', same value value' → alike (f value) (f' value'))
    : CarriedTold alike (o.mapValue f).told (o'.mapValue f').told := by
  obtain ⟨reports, attempt⟩ := o
  obtain ⟨reports', attempt'⟩ := o'
  intro value rest read
  simp only [Outcome.told, Outcome.mapValue, Attempt.bare_mapValue, Prod.mk.injEq] at read ⊢
  obtain ⟨rfl, read⟩ := read
  cases took : attempt.bare with
  | error e =>
      rw [took] at read
      cases read
  | ok r =>
      rw [took] at read
      cases read
      obtain ⟨value', rest', took', is, moved⟩ := carried r.1 r.2 (Prod.ext rfl took)
      simp only [Outcome.told, Prod.mk.injEq] at took'
      exact ⟨f' value', rest', ⟨took'.1, by rw [took'.2]; rfl⟩, kept _ _ is, moved⟩

end CarriedTold

theorem carriedTold_afterAttempt {a : Attempt α β ts} {a' : Attempt α β ts'}
    (first : Carried same a.bare a'.bare)
    {next next' : β → (rest : List (Token α)) → Outcome α γ rest}
    (second : ∀ value value' rest rest', same value value' → Moved rest rest'
      → CarriedTold alike (next value rest).told (next' value' rest').told)
    : CarriedTold alike (Outcome.afterAttempt a next).told
        (Outcome.afterAttempt a' next').told := by
  rw [Outcome.told_afterAttempt, Outcome.told_afterAttempt]
  have carried : CarriedTold same ([], a.bare) ([], a'.bare) := carriedTold_silent first
  exact carried.andThen fun value value' rest rest' _ is moved =>
    second value value' rest rest' is moved

/-- A construct that is given up is reported. -/
theorem carriedTold_orRecover {t t' : Token α} {rest rest' : List (Token α)} {record record' : β}
    {o : Outcome α β (t :: rest)} {o' : Outcome α β (t' :: rest')}
    (carried : CarriedTold same o.told o'.told)
    : CarriedTold same (orRecover t rest record o).told
        (orRecover t' rest' record' o').told := by
  rw [Outcome.told_orRecover, Outcome.told_orRecover]
  generalize o.told = x at carried ⊢
  generalize o'.told = x' at carried ⊢
  obtain ⟨reports, read⟩ := x
  match read with
  | .error (.finding found) => exact carriedTold_reported (l := found) (by simp)
  | .error (.fault fault) => exact fun value rest none => by cases none
  | .ok r =>
      intro value rest took
      cases took
      obtain ⟨value', rest', rfl, is, moved⟩ := carried _ _ rfl
      exact ⟨value', rest', rfl, is, moved⟩

end Told

-----------------------------------------------------------------------------------------
-- Blocks
-----------------------------------------------------------------------------------------

/-- The reader of a property takes the same from tokens that stand at other places. -/
def HandlerCarries (same : σ → σ → Prop) (handler : Handler α σ) : Prop :=
  ∀ record record' key span, same record record' → ∀ ts ts', Moved ts ts'
    → CarriedTold same (handler record key ts).told (handler record' (key.movedTo span) ts').told

/-- All readers of items in a block take the same from tokens that stand at other places. -/
structure FormCarries (same : σ → σ → Prop) (form : BlockForm α σ) : Prop where
  properties : ∀ property ∈ form.properties, HandlerCarries same property.2
  extra
    : ∀ record record', same record record' → ∀ ts ts', Moved ts ts'
        → CarriedMaybe same (form.extra record ts) (form.extra record' ts')

section Forms

variable {same : σ → σ → Prop} {form : BlockForm α σ}

theorem FormCarries.handler (carries : FormCarries same form) {t : Token α}
    {handler : Handler α σ} (found : form.handler? t = some handler)
    : HandlerCarries same handler := by
  unfold BlockForm.handler? at found
  split at found
  case isFalse => cases found
  case isTrue => exact carries.properties _ (Entries.mem_of_lookup found)

theorem blockItem_carried (carries : FormCarries same form) {record record' : σ}
    (is : same record record') (t : Token α) (span : Span) (moved : Moved ts ts')
    : CarriedTold same (blockItem form record t ts).told
        (blockItem form record' (t.movedTo span) ts').told := by
  have extra := carries.extra record record' is _ _ (.cons t span moved)
  unfold blockItem
  generalize form.extra record (t :: ts) = other at extra ⊢
  generalize form.extra record' (t.movedTo span :: ts') = other' at extra ⊢
  cases extra with
  | some carried => exact carried
  | none =>
      have named : form.handler? (t.movedTo span) = form.handler? t := rfl
      rw [named]
      cases known : form.handler? t with
      | some handler =>
          simp only [Outcome.told_afterToken]
          exact carries.handler known record record' t span is ts ts' moved
      | none => exact carriedTold_reported (List.mem_singleton_self _)

/-- By induction on the number of tokens. -/
theorem blockItems_carried (carries : FormCarries same form) {record record' : σ}
    (is : same record record') {ts ts' : List (Token α)} (moved : Moved ts ts')
    : CarriedTold same (blockItems form record ts).told
        (blockItems form record' ts').told := by
  have shorter := skipSeparators_length ts
  have skipped := moved.skipSeparators
  rw [blockItems_told form record ts, blockItems_told form record' ts']
  generalize skipSeparators ts = us at shorter skipped
  generalize skipSeparators ts' = us' at skipped
  cases skipped with
  | nil => exact fun value rest none => by cases none
  | cons t span others =>
      dsimp only
      rw [Token.isSign_movedTo]
      split
      case isTrue => exact carriedTold_ok is others
      case isFalse =>
        refine (blockItem_carried carries is t span others).andThen
          fun value value' rest rest' read is moved => ?_
        have fewer := Attempt.length_lt_of_bare read
        exact blockItems_carried carries is moved
termination_by ts.length
decreasing_by exact Nat.lt_of_lt_of_le fewer shorter

theorem block_carries (carries : FormCarries same form) {record record' : σ}
    (is : same record record') (moved : Moved ts ts')
    : CarriedTold same (block form record ts).told (block form record' ts').told :=
  carriedTold_afterAttempt (expectSign_carries _ _ _ _ moved)
    fun _ _ _ _ _ moved => blockItems_carried carries is moved

end Forms

end Prognosis.Grammar
