import Prognosis.Proofs.Grammar.Seam.Expression

/-! Values of properties at a seam. -/

namespace Prognosis

namespace Token.Delimits

open Grammar

variable {α : Type} {t : Token α}

theorem textValue?_eq_none (delimits : t.Delimits) : textValue? t = none := by
  rcases delimits with is | ⟨is, -⟩ <;> simp [textValue?, is]

end Token.Delimits

namespace Grammar.Seam

variable {α : Type} {seam : Seam α} {ts ts' : List (Token α)}

-----------------------------------------------------------------------------------------
-- Texts and words
-----------------------------------------------------------------------------------------

theorem quotedString_repeats : seam.Repeats never (quotedString (α := α)) := by
  intro ts ts' meets
  cases meets with
  | here =>
      simp only [quotedString, seam.closing_delimits.textValue?_eq_none,
        seam.delimits.textValue?_eq_none]
      exact agrees_failHere
  | cons t meets =>
      simp only [quotedString]
      split
      case h_1 => exact agrees_ok meets
      case h_2 => exact agrees_failHere

theorem wordOrString_repeats : seam.Repeats never (wordOrString (α := α)) := by
  intro ts ts' meets
  cases meets with
  | here =>
      simp only [wordOrString, seam.closing_delimits.textValue?_eq_none,
        seam.delimits.textValue?_eq_none]
      exact identifier_agrees .here
  | cons t meets =>
      simp only [wordOrString]
      split
      case h_1 => exact agrees_ok meets
      case h_2 => exact identifier_agrees (.cons t meets)

section Choices

variable {β : Type} (options : List β) (word : β → String) (what : String)

theorem choice_bare (ts : List (Token α))
    : (choice options word what ts).bare
      = (wordOrString ts).bare.bind fun r =>
          match options.find? (word · == r.1) with
          | some option => .ok (option, r.2)
          | none => failHere ts (.unknownChoice what r.1 (options.map word)) := by
  rw [choice]
  cases wordOrString ts with
  | error e => rfl
  | ok read =>
      simp only [Attempt.bare_ok, Except.bind]
      cases options.find? (word · == read.value) <;> rfl

theorem choice_repeats : seam.Repeats never (choice (α := α) options word what) := by
  intro ts ts' meets
  rw [choice_bare, choice_bare]
  refine (wordOrString_repeats ts ts' meets).bind fun value rest rest' _ meets => ?_
  dsimp only
  split
  case h_1 => exact agrees_ok meets
  case h_2 => exact agrees_failHere

end Choices

-----------------------------------------------------------------------------------------
-- Numbers and dates
-----------------------------------------------------------------------------------------

section Numbers

variable [Scalar α]

theorem unsignedNumber_of_delimits (percent negative : Bool) {t : Token α}
    (delimits : t.Delimits) (rest : List (Token α))
    : unsignedNumber percent negative (t :: rest) = failExpected (t :: rest) "a number" := by
  rcases delimits with is | ⟨is, -⟩ <;> simp [unsignedNumber, is]

theorem unsignedNumber_repeats (percent negative : Bool)
    : seam.Repeats never (unsignedNumber percent negative) := by
  intro ts ts' meets
  cases meets with
  | here =>
      rw [unsignedNumber_of_delimits percent negative seam.closing_delimits,
        unsignedNumber_of_delimits percent negative seam.delimits]
      exact agrees_failHere
  | cons t meets =>
      simp only [unsignedNumber]
      split
      case h_1 | h_2 => exact agrees_ok meets
      case h_3 => exact agrees_failHere

theorem number_repeats (percent : Bool) : seam.Repeats never (number percent) := by
  intro ts ts' meets
  cases meets with
  | here =>
      simp only [number, seam.closing_delimits.isSign .minus (by decide),
        seam.delimits.isSign .minus (by decide)]
      exact unsignedNumber_repeats percent false _ _ .here
  | cons t meets =>
      simp only [number]
      split
      case isTrue =>
        rw [Attempt.bare_afterToken, Attempt.bare_afterToken]
        exact unsignedNumber_repeats percent true _ _ meets
      case isFalse => exact unsignedNumber_repeats percent false _ _ (.cons t meets)

theorem wholeNumber_bare (ts : List (Token α))
    : (wholeNumber ts).bare
      = (number false ts).bare.bind fun r =>
          match Scalar.truncate? r.1 with
          | none => .error (.fault .overflow)
          | some whole =>
              if Scalar.eq r.1 (Scalar.ofInt whole) then .ok (whole, r.2)
              else failHere ts (.expectedWhole ((found ts).getD "")) := by
  rw [wholeNumber]
  cases number false ts with
  | error e => rfl
  | ok read =>
      simp only [Attempt.bare_ok, Except.bind]
      cases Scalar.truncate? read.value with
      | none => rfl
      | some whole =>
          dsimp only
          split <;> rfl

theorem wholeNumber_repeats : seam.Repeats never (wholeNumber (α := α)) := by
  intro ts ts' meets
  rw [wholeNumber_bare, wholeNumber_bare]
  refine (number_repeats false ts ts' meets).bind fun value rest rest' _ meets => ?_
  dsimp only
  split
  case h_1 => trivial
  case h_2 =>
    split
    case isTrue => exact agrees_ok meets
    case isFalse => exact agrees_failHere

omit [Scalar α] in
theorem boolean_repeats : seam.Repeats never (boolean (α := α)) := by
  intro ts ts' meets
  cases meets with
  | here =>
      have isTrue : "true" ∉ declarationKeywords := by decide
      have isFalse : "false" ∉ declarationKeywords := by decide
      simp only [boolean, seam.closing_delimits.isWord isTrue, seam.delimits.isWord isTrue,
        seam.closing_delimits.isWord isFalse, seam.delimits.isWord isFalse]
      exact agrees_failHere
  | cons t meets =>
      simp only [boolean]
      split
      case isTrue => exact agrees_ok meets
      case isFalse =>
        split
        case isTrue => exact agrees_ok meets
        case isFalse => exact agrees_failHere

theorem date_of_delimits {t : Token α} (delimits : t.Delimits) (rest : List (Token α))
    : date (t :: rest)
      = failExpected (t :: rest) "a date (YYYY, YYYY-MM or YYYY-MM-DD)" := by
  rcases delimits with is | ⟨is, -⟩ <;> simp [date, is]

theorem date_repeats : seam.Repeats never (date (α := α)) := by
  intro ts ts' meets
  cases meets with
  | here =>
      rw [date_of_delimits seam.closing_delimits, date_of_delimits seam.delimits]
      exact agrees_failHere
  | cons t meets =>
      simp only [date]
      split
      case h_1 => exact agrees_ok meets
      case h_2 =>
        split
        case h_1 => trivial
        case h_2 =>
          split
          case isTrue => exact agrees_ok meets
          case isFalse => exact agrees_failHere
      case h_3 => exact agrees_failHere

omit [Scalar α] in
theorem duration_of_delimits {t : Token α} (delimits : t.Delimits) (rest : List (Token α))
    : duration (t :: rest)
      = failExpected (t :: rest) "a duration such as 5y, 6m, 4w or 30d" := by
  rcases delimits with is | ⟨is, -⟩ <;> simp [duration, is]

omit [Scalar α] in
theorem duration_repeats : seam.Repeats never (duration (α := α)) := by
  intro ts ts' meets
  cases meets with
  | here =>
      rw [duration_of_delimits seam.closing_delimits, duration_of_delimits seam.delimits]
      exact agrees_failHere
  | cons t meets =>
      simp only [duration]
      split
      case h_1 => exact agrees_ok meets
      case h_2 => exact agrees_failHere

end Numbers

-----------------------------------------------------------------------------------------
-- Lists
-----------------------------------------------------------------------------------------

section Lists

variable {β : Type} {item : (ts : List (Token α)) → Attempt α β ts}

/-- What is read after an item of a list, which comes first in what is read. -/
def afterItem (item : (ts : List (Token α)) → Attempt α β ts) (first : β)
    : List (Token α) → Except Failure (List β × List (Token α))
  | [] => failAtEnd "',' or ']'"
  | u :: more =>
      if u.isSign .rbracket then .ok ([first], more)
      else if u.isSign .comma then (items item more).bare.map fun s => (first :: s.1, s.2)
      else failExpected (u :: more) "',' or ']'"

theorem items_bare (t : Token α) (rest : List (Token α))
    : (items item (t :: rest)).bare
      = if t.isSign .rbracket then .ok ([], rest)
        else (item (t :: rest)).bare.bind fun r => afterItem item r.1 r.2 := by
  rw [items]
  split
  case isTrue => rfl
  case isFalse =>
    cases item (t :: rest) with
    | error e => rfl
    | ok first =>
        simp only [Attempt.bare_ok, Except.bind]
        split
        case h_1 none => rw [none]; rfl
        case h_2 u more is =>
          simp only [is, afterItem]
          split
          case isTrue => rfl
          case isFalse =>
            split
            case isTrue => cases items item more <;> rfl
            case isFalse => rfl

mutual

theorem items_agrees (repeats : seam.Repeats never item) {ts ts' : List (Token α)}
    (meets : seam.Meets ts ts')
    : seam.Agrees never (items item ts).bare (items item ts').bare := by
  cases meets with
  | here =>
      rw [items_bare, items_bare]
      simp only [seam.closing_delimits.isSign .rbracket nofun,
        seam.delimits.isSign .rbracket nofun, Bool.false_eq_true, if_false]
      refine (repeats _ _ .here).bind fun first rest rest' read meets => ?_
      have shorter := Attempt.length_lt_of_bare read
      exact afterItem_agrees repeats first meets
  | cons t meets =>
      rw [items_bare, items_bare]
      split
      case isTrue => exact agrees_ok meets
      case isFalse =>
        refine (repeats _ _ (.cons t meets)).bind fun first rest rest' read meets => ?_
        have shorter := Attempt.length_lt_of_bare read
        exact afterItem_agrees repeats first meets
termination_by ts.length
decreasing_by
  all_goals exact shorter

theorem afterItem_agrees (repeats : seam.Repeats never item) (first : β)
    {ts ts' : List (Token α)} (meets : seam.Meets ts ts')
    : seam.Agrees never (afterItem item first ts) (afterItem item first ts') := by
  cases meets with
  | here =>
      simp only [afterItem, seam.closing_delimits.isSign .rbracket nofun,
        seam.delimits.isSign .rbracket nofun, seam.closing_delimits.isSign .comma nofun,
        seam.delimits.isSign .comma nofun]
      exact agrees_failHere
  | cons u meets =>
      rw [afterItem, afterItem]
      split
      case isTrue => exact agrees_ok meets
      case isFalse =>
        split
        case isTrue => exact (items_agrees repeats meets).map fun all => first :: all
        case isFalse => exact agrees_failHere
termination_by ts.length

end

theorem bracketed_repeats (repeats : seam.Repeats never item)
    : seam.Repeats never (bracketed item) := by
  intro ts ts' meets
  rw [bracketed, bracketed, Attempt.bare_andThen, Attempt.bare_andThen]
  exact (expectSign_agrees (by decide) _ meets).bind fun _ _ _ _ meets =>
    items_agrees repeats meets

theorem stringList_repeats : seam.Repeats never (stringList (α := α)) := by
  intro ts ts' meets
  cases meets with
  | here =>
      simp only [stringList, seam.closing_delimits.textValue?_eq_none,
        seam.delimits.textValue?_eq_none]
      exact bracketed_repeats quotedString_repeats _ _ .here
  | cons t meets =>
      simp only [stringList]
      split
      case h_1 => exact agrees_ok meets
      case h_2 => exact bracketed_repeats quotedString_repeats _ _ (.cons t meets)

end Lists

-----------------------------------------------------------------------------------------
-- Names
-----------------------------------------------------------------------------------------

/-- The first row is at its end, or nothing but separators is left in front of its brace. -/
def RunsOut (seam : Seam α) (rest : List (Token α)) : Prop :=
  rest = [] ∨ skipSeparators rest = [seam.closing]

theorem moreNames_bare (t : Token α) (rest : List (Token α))
    : bare (moreNames (t :: rest))
      = if continuesNames (t :: rest) then
          (dottedName rest).bare.bind fun r =>
            (bare (moreNames r.2)).map fun s => (r.1 :: s.1, s.2)
        else .ok ([], t :: rest) := by
  rw [moreNames]
  split
  case isFalse => rfl
  case isTrue =>
    cases dottedName rest with
    | error e => rfl
    | ok name =>
        simp only [Attempt.bare_ok, Except.bind]
        cases moreNames name.rest <;> rfl

/-- A comma in front of the brace ends the names of the first row only, and there its block as
well. By induction on the number of tokens.
-/
theorem moreNames_agrees {ts ts' : List (Token α)} (meets : seam.Meets ts ts')
    : seam.Agrees seam.RunsOut (bare (moreNames ts)) (bare (moreNames ts')) := by
  cases meets with
  | here =>
      have plain (u : Token α) (delimits : u.Delimits) (more : List (Token α))
          : continuesNames (u :: more) = false := by
        cases more with
        | nil => rfl
        | cons => simp [continuesNames, delimits.isSign .comma (by decide)]
      rw [moreNames_bare, moreNames_bare, plain _ seam.closing_delimits, plain _ seam.delimits]
      exact agrees_ok .here
  | @cons t us us' meets =>
      rw [moreNames_bare, moreNames_bare]
      by_cases comma : t.isSign .comma = true
      case neg =>
        have plain (more : List (Token α)) : continuesNames (t :: more) = false := by
          cases more with
          | nil => rfl
          | cons => simp [continuesNames, comma]
        rw [plain, plain]
        exact agrees_ok (.cons t meets)
      case pos =>
        cases meets with
        | here =>
            rw [if_neg (by simp [continuesNames, seam.closing_isAnyWord])]
            refine Or.inl (Or.inr ?_)
            simp [skipSeparators, Token.isSeparator, comma,
              seam.closing_delimits.isSign .semicolon (by decide),
              seam.closing_delimits.isSign .comma (by decide)]
        | @cons u more more' meets =>
            have same : continuesNames (t :: u :: more') = continuesNames (t :: u :: more) := by
              rw [continuesNames, continuesNames, meets.atSign .colon (by decide)]
            rw [same]
            split
            case isFalse => exact agrees_ok (.cons t (.cons u meets))
            case isTrue =>
              refine (dottedName_agrees (.cons u meets)).bind fun name rest rest' read meets => ?_
              have shorter := Attempt.length_lt_of_bare read
              exact (moreNames_agrees meets).map fun names => name :: names
termination_by ts.length
decreasing_by
  exact Nat.lt_succ_of_lt shorter

theorem nameList_bare (ts : List (Token α))
    : (nameList ts).bare
      = if atSign ts .lbracket then (bracketed dottedName ts).bare
        else
          (dottedName ts).bare.bind fun r =>
            (bare (moreNames r.2)).map fun s => (r.1 :: s.1, s.2) := by
  rw [nameList]
  split
  case isTrue => rfl
  case isFalse =>
    rw [Attempt.bare_andMaybe]
    congr 1
    funext r
    cases moreNames r.2 <;> rfl

theorem nameList_repeats : seam.Repeats seam.RunsOut (nameList (α := α)) := by
  intro ts ts' meets
  rw [nameList_bare, nameList_bare, meets.atSign .lbracket nofun]
  split
  case isTrue =>
    exact (bracketed_repeats (fun _ _ meets => dottedName_agrees meets) ts ts' meets).weaken
  case isFalse =>
    exact (dottedName_agrees meets).bind fun name _ _ _ meets =>
      (moreNames_agrees meets).map fun names => name :: names

-----------------------------------------------------------------------------------------
-- Ranges, distributions and models
-----------------------------------------------------------------------------------------

theorem range_repeats : seam.Repeats never (range (α := α)) := by
  intro ts ts' meets
  simp only [range, Attempt.bare_andThen, Attempt.bare_mapValue]
  refine (expectSign_agrees (by decide) _ meets).bind fun _ _ _ _ meets => ?_
  refine (expression_repeats _ _ meets).bind fun low _ _ _ meets => ?_
  refine (expectSign_agrees (by decide) _ meets).bind fun _ _ _ _ meets => ?_
  refine (expression_repeats _ _ meets).bind fun high _ _ _ meets => ?_
  exact (expectSign_agrees (by decide) _ meets).map fun _ => (low, high)

/-- The distribution that a call names, at the place where it starts. -/
def calledDistribution (ts : List (Token α)) (place : Span)
    : Expr α × List (Token α) → Except Failure (Distribution α × List (Token α))
  | (.call function positional named _, rest) =>
      match DistributionKind.ofName? function with
      | some kind => .ok (⟨kind, positional, named, place⟩, rest)
      | none => failHere ts .noDistribution
  | _ => failHere ts .noDistribution

theorem distribution_bare (t : Token α) (rest : List (Token α))
    : (distribution (t :: rest)).bare
      = if t.isSign .plusMinus then
          (expression rest).bare.map fun r => (⟨.normal, [r.1], [], t.span⟩, r.2)
        else (expression (t :: rest)).bare.bind (calledDistribution (t :: rest) t.span) := by
  rw [distribution]
  split
  case isTrue => rw [Attempt.bare_afterToken, Attempt.bare_mapValue]
  case isFalse =>
    cases expression (t :: rest) with
    | error e => rfl
    | ok read =>
        simp only [Attempt.bare_ok, Except.bind]
        cases read.value with
        | call function positional named place =>
            simp only [calledDistribution]
            cases DistributionKind.ofName? function <;> rfl
        | number | percentage | currency | text | boolean | name | binary | unary => rfl

theorem distribution_repeats : seam.Repeats never (distribution (α := α)) := by
  intro ts ts' meets
  cases meets with
  | here =>
      rw [distribution_bare, distribution_bare]
      simp only [seam.closing_delimits.isSign .plusMinus nofun,
        seam.delimits.isSign .plusMinus nofun, Bool.false_eq_true, if_false]
      have first : seam.Agrees never (expression [seam.closing]).bare _ :=
        expression_repeats _ _ .here
      obtain ⟨e, is⟩ := first.error_here
      exact first.bind fun value rest rest' read _ => by rw [is] at read; cases read
  | cons t meets =>
      rw [distribution_bare, distribution_bare]
      split
      case isTrue =>
        exact (expression_repeats _ _ meets).map fun spread =>
          (⟨.normal, [spread], [], t.span⟩ : Distribution α)
      case isFalse =>
        refine (expression_repeats _ _ (.cons t meets)).bind fun value rest rest' _ meets => ?_
        cases value with
        | call function positional named place =>
            simp only [calledDistribution]
            cases DistributionKind.ofName? function with
            | some kind => exact agrees_ok meets
            | none => exact agrees_failHere
        | number | percentage | currency | text | boolean | name | binary | unary =>
            exact agrees_failHere

/-- The model that a call names, at the place where it starts. -/
def calledModel (ts : List (Token α)) (place : Span)
    : Expr α × List (Token α) → Except Failure (Model α × List (Token α))
  | (.call function positional named _, rest) =>
      match ModelKind.ofName? function with
      | some kind =>
          if positional.isEmpty || kind == .polynomial then
            .ok (⟨kind, coefficients positional ++ named, place⟩, rest)
          else failHere ts (.unnamedParameters function)
      | none => failHere ts .noModel
  | _ => failHere ts .noModel

theorem model_bare (t : Token α) (rest : List (Token α))
    : (model (t :: rest)).bare
      = (expression (t :: rest)).bare.bind (calledModel (t :: rest) t.span) := by
  rw [model]
  cases expression (t :: rest) with
  | error e => rfl
  | ok read =>
      simp only [Attempt.bare_ok, Except.bind]
      cases read.value with
      | call function positional named place =>
          simp only [calledModel]
          cases ModelKind.ofName? function with
          | none => rfl
          | some kind =>
              dsimp only
              split <;> rfl
      | number | percentage | currency | text | boolean | name | binary | unary => rfl

theorem model_repeats : seam.Repeats never (model (α := α)) := by
  intro ts ts' meets
  cases meets with
  | here =>
      rw [model_bare, model_bare]
      have first : seam.Agrees never (expression [seam.closing]).bare _ :=
        expression_repeats _ _ .here
      obtain ⟨e, is⟩ := first.error_here
      exact first.bind fun value rest rest' read _ => by rw [is] at read; cases read
  | cons t meets =>
      rw [model_bare, model_bare]
      refine (expression_repeats _ _ (.cons t meets)).bind fun value rest rest' _ meets => ?_
      cases value with
      | call function positional named place =>
          simp only [calledModel]
          cases ModelKind.ofName? function with
          | none => exact agrees_failHere
          | some kind =>
              dsimp only
              split
              case isTrue => exact agrees_ok meets
              case isFalse => exact agrees_failHere
      | number | percentage | currency | text | boolean | name | binary | unary =>
          exact agrees_failHere

end Grammar.Seam

end Prognosis
