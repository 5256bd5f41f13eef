import Prognosis.Proofs.Grammar.Seam.Value
import Prognosis.Proofs.Grammar.Value

/-! How readers of expressions and values fail. Whatever is wrong with a text is a finding; a
reading stops with a fault only at a number that has no whole part, where one is asked for.
-/

namespace Prognosis

namespace Grammar

variable {α β γ : Type} {ts : List (Token α)} {only : Fault → Prop}

-----------------------------------------------------------------------------------------
-- Readings and their faults
-----------------------------------------------------------------------------------------

/-- Where the reading stops with a fault, it is one of these. -/
def FaultsOnly (only : Fault → Prop) (a : Except Failure β) : Prop :=
  ∀ fault, a = .error (.fault fault) → only fault

theorem faultsOnly_ok (value : β) : FaultsOnly only (.ok value : Except Failure β) :=
  fun _ => nofun

theorem faultsOnly_finding (found : Located SyntaxFinding)
    : FaultsOnly only (.error (.finding found) : Except Failure β) :=
  fun _ => nofun

namespace FaultsOnly

theorem map {a : Except Failure β} (first : FaultsOnly only a) (f : β → γ)
    : FaultsOnly only (a.map f) := by
  cases a with
  | error e =>
      rintro fault ⟨⟩
      exact first fault rfl
  | ok value => exact faultsOnly_ok _

theorem bind {a : Except Failure β} (first : FaultsOnly only a)
    {next : β → Except Failure γ} (after : ∀ value, a = .ok value → FaultsOnly only (next value))
    : FaultsOnly only (a.bind next) := by
  cases a with
  | error e =>
      rintro fault ⟨⟩
      exact first fault rfl
  | ok value => exact after value rfl

end FaultsOnly

/-- A change of the value changes no fault. -/
theorem faultsOnly_map {a : Except Failure β} {f : β → γ}
    : FaultsOnly only (a.map f) ↔ FaultsOnly only a := by
  refine ⟨fun first => ?_, fun first => first.map f⟩
  cases a with
  | error e =>
      rintro fault ⟨⟩
      exact first fault rfl
  | ok value => exact faultsOnly_ok value

theorem faultsOnly_bare {a : Attempt α β ts} : FaultsOnly only a.bare ↔ FaultsOnly only a :=
  faultsOnly_map

theorem faultsOnly_maybe {a : Except Failure (Continued α β ts)}
    : FaultsOnly only (bare a) ↔ FaultsOnly only a :=
  faultsOnly_map

namespace Attempt

variable {a : Attempt α β ts}

theorem mapValue_faults (first : FaultsOnly only a) (f : β → γ)
    : FaultsOnly only (a.mapValue f) := by
  rw [← faultsOnly_bare, bare_mapValue]
  exact (faultsOnly_bare.mpr first).map _

theorem afterToken_faults (first : FaultsOnly only a) (t : Token α)
    : FaultsOnly only (a.afterToken t) := by
  rw [← faultsOnly_bare, bare_afterToken]
  exact faultsOnly_bare.mpr first

/-- What is read next is an end of what was given. -/
theorem andThen_faults (first : FaultsOnly only a) (yields : a.Yields fun _ => True)
    {next : β → (rest : List (Token α)) → Attempt α γ rest}
    (after : ∀ value rest, rest <:+ ts → FaultsOnly only (next value rest))
    : FaultsOnly only (a.andThen next) := by
  cases a with
  | error e =>
      rintro fault ⟨⟩
      exact first fault rfl
  | ok p =>
      rw [← faultsOnly_bare, bare_andThen]
      exact faultsOnly_bare.mpr (after p.value p.rest (yields p rfl).1)

theorem andMaybe_faults (first : FaultsOnly only a) (yields : a.Yields fun _ => True)
    {next : β → (rest : List (Token α)) → Except Failure (Continued α γ rest)}
    (after : ∀ value rest, rest <:+ ts → FaultsOnly only (next value rest))
    : FaultsOnly only (a.andMaybe next) := by
  cases a with
  | error e =>
      rintro fault ⟨⟩
      exact first fault rfl
  | ok p =>
      rw [← faultsOnly_bare, bare_andMaybe]
      exact (after p.value p.rest (yields p rfl).1).map _

end Attempt

-----------------------------------------------------------------------------------------
-- Signs and names
-----------------------------------------------------------------------------------------

theorem expectSign_faults (sign : Sign) (what : String) (ts : List (Token α))
    : FaultsOnly only (expectSign sign what ts) := by
  cases ts with
  | nil => exact faultsOnly_finding _
  | cons t rest =>
      simp only [expectSign]
      split
      case isTrue => exact faultsOnly_ok _
      case isFalse => exact faultsOnly_finding _

theorem expectWord_faults (word : String) (ts : List (Token α))
    : FaultsOnly only (expectWord word ts) := by
  cases ts with
  | nil => exact faultsOnly_finding _
  | cons t rest =>
      simp only [expectWord]
      split
      case isTrue => exact faultsOnly_ok _
      case isFalse => exact faultsOnly_finding _

theorem identifier_faults (ts : List (Token α)) : FaultsOnly only (identifier ts) := by
  cases ts with
  | nil => exact faultsOnly_finding _
  | cons t rest =>
      simp only [identifier]
      split
      case isTrue => exact faultsOnly_ok _
      case isFalse => exact faultsOnly_finding _

theorem segments_faults : (ts : List (Token α)) → FaultsOnly only (segments ts)
  | [] => faultsOnly_ok _
  | t :: [] => by
      unfold segments
      split
      case isTrue => exact faultsOnly_finding _
      case isFalse => exact faultsOnly_ok _
  | t :: u :: more => by
      have later := segments_faults more
      unfold segments
      split
      case isFalse => exact faultsOnly_ok _
      case isTrue =>
        dsimp only
        split
        case isFalse => exact faultsOnly_finding _
        case isTrue =>
          split
          case h_1 e read => exact fun fault is => later fault (by cases is; exact read)
          case h_2 => exact faultsOnly_ok _

theorem dottedName_faults (ts : List (Token α)) : FaultsOnly only (dottedName ts) := by
  refine Attempt.andMaybe_faults (identifier_faults ts) identifier_yields.any
    fun root rest _ => ?_
  have later : FaultsOnly only (segments rest) := segments_faults rest
  split
  case h_1 e read => exact fun fault is => later fault (by cases is; exact read)
  case h_2 => exact faultsOnly_ok _

-----------------------------------------------------------------------------------------
-- Expressions
-----------------------------------------------------------------------------------------

mutual

theorem binary_faults (level : Level) (ts : List (Token α))
    : FaultsOnly only (binary level ts) := by
  rw [← faultsOnly_bare, binary_bare]
  refine (faultsOnly_bare.mpr (operand_faults level ts)).bind fun ⟨left, rest⟩ read => ?_
  have shorter := Attempt.length_lt_of_bare read
  exact (chain_faults level left rest).map _
termination_by (ts.length, 2 * level.height + 3)
decreasing_by
  · exact Prod.Lex.right _ (by omega)
  · exact Prod.Lex.left _ _ shorter

theorem operand_faults (level : Level) (ts : List (Token α))
    : FaultsOnly only (operand level ts) := by
  unfold operand
  split
  case h_1 stronger next =>
    have lower := Level.height_next? next
    exact binary_faults stronger ts
  case h_2 => exact unary_faults ts
termination_by (ts.length, 2 * level.height + 2)
decreasing_by
  · exact Prod.Lex.right _ (by omega)
  · exact Prod.Lex.right _ (by cases level <;> simp [Level.height])

theorem chain_faults (level : Level) (left : Expr α) (ts : List (Token α))
    : FaultsOnly only (chain level left ts) := by
  cases ts with
  | nil =>
      unfold chain
      exact faultsOnly_ok _
  | cons t rest =>
      rw [← faultsOnly_maybe, chain_bare]
      split
      case h_1 => exact faultsOnly_ok _
      case h_2 op found =>
        refine (faultsOnly_bare.mpr (operand_faults level rest)).bind fun ⟨right, behind⟩ read => ?_
        have shorter := Attempt.length_lt_of_bare read
        exact (chain_faults level (.binary op left right (some t.span)) behind).map _
termination_by (ts.length, 2 * level.height + 1)
decreasing_by
  · exact Prod.Lex.left _ _ (Nat.lt_succ_self _)
  · exact Prod.Lex.left _ _ (Nat.lt_succ_of_lt shorter)

theorem unary_faults (ts : List (Token α)) : FaultsOnly only (unary ts) := by
  cases ts with
  | nil =>
      unfold unary
      exact primary_faults []
  | cons t rest =>
      rw [← faultsOnly_bare, unary_bare]
      split
      case h_1 => exact (faultsOnly_bare.mpr (unary_faults rest)).map _
      case h_2 => exact faultsOnly_bare.mpr (power_faults (t :: rest))
termination_by (ts.length, 3)
decreasing_by
  · exact Prod.Lex.right _ (by omega)
  · exact Prod.Lex.left _ _ (Nat.lt_succ_self _)
  · exact Prod.Lex.right _ (by omega)

theorem power_faults (ts : List (Token α)) : FaultsOnly only (power ts) := by
  rw [← faultsOnly_bare, power_bare]
  refine (faultsOnly_bare.mpr (primary_faults ts)).bind fun ⟨base, rest⟩ read => ?_
  have shorter := Attempt.length_lt_of_bare read
  dsimp only
  split
  case h_1 => exact faultsOnly_ok _
  case h_2 t behind =>
    split
    case isTrue => exact (faultsOnly_bare.mpr (unary_faults behind)).map _
    case isFalse => exact faultsOnly_ok _
termination_by (ts.length, 2)
decreasing_by
  · exact Prod.Lex.right _ (by omega)
  · exact Prod.Lex.left _ _ (Nat.lt_of_succ_lt shorter)

theorem primary_faults (ts : List (Token α)) : FaultsOnly only (primary ts) := by
  cases ts with
  | nil =>
      unfold primary
      exact faultsOnly_finding _
  | cons t rest =>
      rw [← faultsOnly_bare, primary_bare]
      split
      case h_1 | h_2 | h_3 | h_4 => exact faultsOnly_ok _
      case h_7 => exact faultsOnly_finding _
      case h_5 =>
        exact (faultsOnly_bare.mpr (binary_faults .disjunction rest)).bind fun _ _ =>
          (faultsOnly_bare.mpr (expectSign_faults _ _ _)).map _
      case h_6 =>
        split
        case isTrue => exact faultsOnly_ok _
        case isFalse =>
          split
          case isTrue => exact faultsOnly_finding _
          case isFalse =>
            cases rest with
            | nil => exact faultsOnly_ok _
            | cons u more =>
                dsimp only
                split
                case isTrue => exact (faultsOnly_bare.mpr (arguments_faults false more)).map _
                case isFalse => exact ((segments_faults _).map _).map _
termination_by (ts.length, 1)
decreasing_by
  · exact Prod.Lex.left _ _ (Nat.lt_succ_self _)
  · exact Prod.Lex.left _ _ (Nat.lt_succ_of_lt (Nat.lt_succ_self _))

theorem arguments_faults (afterNamed : Bool) (ts : List (Token α))
    : FaultsOnly only (arguments afterNamed ts) := by
  cases ts with
  | nil =>
      unfold arguments
      split <;> exact faultsOnly_finding _
  | cons t rest =>
      rw [← faultsOnly_bare, arguments_bare]
      split
      case isTrue => exact faultsOnly_ok _
      case isFalse =>
        split
        case h_1 name value found =>
          have behind := argumentName?_shorter found
          refine (faultsOnly_bare.mpr (binary_faults .disjunction value)).bind
            fun ⟨argument, rest⟩ read => ?_
          have shorter := Attempt.length_lt_of_bare read
          exact (faultsOnly_bare.mpr (moreArguments_faults true rest)).map _
        case h_2 =>
          split
          case isTrue => exact faultsOnly_finding _
          case isFalse =>
            refine (faultsOnly_bare.mpr (binary_faults .disjunction (t :: rest))).bind
              fun ⟨argument, rest⟩ read => ?_
            have shorter := Attempt.length_lt_of_bare read
            exact (faultsOnly_bare.mpr (moreArguments_faults false rest)).map _
termination_by (ts.length, 20)
decreasing_by
  · exact Prod.Lex.left _ _ behind
  · exact Prod.Lex.left _ _ (Nat.lt_trans shorter behind)
  · exact Prod.Lex.right _ (by simp [Level.height])
  · exact Prod.Lex.left _ _ shorter

theorem moreArguments_faults (afterNamed : Bool) (ts : List (Token α))
    : FaultsOnly only (moreArguments afterNamed ts) := by
  cases ts with
  | nil =>
      unfold moreArguments
      exact faultsOnly_finding _
  | cons t rest =>
      rw [← faultsOnly_bare, moreArguments_bare]
      split
      case isTrue => exact faultsOnly_ok _
      case isFalse =>
        split
        case isTrue => exact faultsOnly_bare.mpr (arguments_faults afterNamed rest)
        case isFalse => exact faultsOnly_finding _
termination_by (ts.length, 0)
decreasing_by
  · exact Prod.Lex.left _ _ (Nat.lt_succ_self _)

end

theorem expression_faults (ts : List (Token α)) : FaultsOnly only (expression ts) :=
  binary_faults .disjunction ts

-----------------------------------------------------------------------------------------
-- Texts, words and numbers
-----------------------------------------------------------------------------------------

theorem quotedString_faults (ts : List (Token α)) : FaultsOnly only (quotedString ts) := by
  cases ts with
  | nil => exact faultsOnly_finding _
  | cons t rest =>
      simp only [quotedString]
      split
      case h_1 => exact faultsOnly_ok _
      case h_2 => exact faultsOnly_finding _

theorem wordOrString_faults (ts : List (Token α)) : FaultsOnly only (wordOrString ts) := by
  cases ts with
  | nil => exact faultsOnly_finding _
  | cons t rest =>
      simp only [wordOrString]
      split
      case h_1 => exact faultsOnly_ok _
      case h_2 => exact identifier_faults _

theorem choice_faults (options : List β) (word : β → String) (what : String)
    (ts : List (Token α))
    : FaultsOnly only (choice options word what ts) := by
  rw [← faultsOnly_bare, Seam.choice_bare]
  refine (faultsOnly_bare.mpr (wordOrString_faults ts)).bind fun r _ => ?_
  split
  case h_1 => exact faultsOnly_ok _
  case h_2 => exact faultsOnly_finding _

theorem boolean_faults (ts : List (Token α)) : FaultsOnly only (boolean ts) := by
  cases ts with
  | nil => exact faultsOnly_finding _
  | cons t rest =>
      simp only [boolean]
      split
      case isTrue => exact faultsOnly_ok _
      case isFalse =>
        split
        case isTrue => exact faultsOnly_ok _
        case isFalse => exact faultsOnly_finding _

theorem duration_faults (ts : List (Token α)) : FaultsOnly only (duration ts) := by
  cases ts with
  | nil => exact faultsOnly_finding _
  | cons t rest =>
      simp only [duration]
      split
      case h_1 => exact faultsOnly_ok _
      case h_2 => exact faultsOnly_finding _

theorem unsignedNumber_faults [Scalar α] (percent negative : Bool) (ts : List (Token α))
    : FaultsOnly only (unsignedNumber percent negative ts) := by
  cases ts with
  | nil => exact faultsOnly_finding _
  | cons t rest =>
      simp only [unsignedNumber]
      split
      case h_1 | h_2 => exact faultsOnly_ok _
      case h_3 => exact faultsOnly_finding _

theorem number_faults [Scalar α] (percent : Bool) (ts : List (Token α))
    : FaultsOnly only (number percent ts) := by
  cases ts with
  | nil => exact faultsOnly_finding _
  | cons t rest =>
      simp only [number]
      split
      case isTrue => exact Attempt.afterToken_faults (unsignedNumber_faults _ _ rest) t
      case isFalse => exact unsignedNumber_faults _ _ _

-----------------------------------------------------------------------------------------
-- Lists
-----------------------------------------------------------------------------------------

section Lists

variable {item : (ts : List (Token α)) → Attempt α β ts}

mutual

/-- A list stops where an item does. By induction on the number of tokens. -/
theorem items_faults (each : ∀ ts, FaultsOnly only (item ts)) (ts : List (Token α))
    : FaultsOnly only (items item ts) := by
  cases ts with
  | nil =>
      rw [items]
      exact Attempt.mapValue_faults (each []) _
  | cons t rest =>
      rw [← faultsOnly_bare, Seam.items_bare]
      split
      case isTrue => exact faultsOnly_ok _
      case isFalse =>
        refine (faultsOnly_bare.mpr (each (t :: rest))).bind fun ⟨first, behind⟩ read => ?_
        have shorter := Attempt.length_lt_of_bare read
        exact afterItem_faults each first behind
termination_by ts.length
decreasing_by exact shorter

theorem afterItem_faults (each : ∀ ts, FaultsOnly only (item ts)) (first : β)
    (ts : List (Token α))
    : FaultsOnly only (Seam.afterItem item first ts) := by
  cases ts with
  | nil => exact faultsOnly_finding _
  | cons u more =>
      rw [Seam.afterItem]
      split
      case isTrue => exact faultsOnly_ok _
      case isFalse =>
        split
        case isTrue => exact (faultsOnly_bare.mpr (items_faults each more)).map _
        case isFalse => exact faultsOnly_finding _
termination_by ts.length

end

theorem bracketed_faults (each : ∀ ts, FaultsOnly only (item ts)) (ts : List (Token α))
    : FaultsOnly only (bracketed item ts) :=
  Attempt.andThen_faults (expectSign_faults _ _ ts) (expectSign_yields _ _ ts) fun _ rest _ =>
    items_faults each rest

theorem stringList_faults (ts : List (Token α)) : FaultsOnly only (stringList ts) := by
  cases ts with
  | nil => exact faultsOnly_finding _
  | cons t rest =>
      simp only [stringList]
      split
      case h_1 => exact faultsOnly_ok _
      case h_2 => exact bracketed_faults quotedString_faults _

theorem numberList_faults [Scalar α] (ts : List (Token α))
    : FaultsOnly only (numberList ts) :=
  bracketed_faults (number_faults false) ts

/-- By induction on the number of tokens. -/
theorem moreNames_faults (ts : List (Token α)) : FaultsOnly only (moreNames ts) := by
  cases ts with
  | nil =>
      rw [moreNames]
      exact faultsOnly_ok _
  | cons t rest =>
      rw [← faultsOnly_maybe, Seam.moreNames_bare]
      split
      case isFalse => exact faultsOnly_ok _
      case isTrue =>
        refine (faultsOnly_bare.mpr (dottedName_faults rest)).bind fun r read => ?_
        have shorter := Attempt.length_lt_of_bare read
        exact (faultsOnly_maybe.mpr (moreNames_faults r.2)).map _
termination_by ts.length
decreasing_by exact Nat.lt_succ_of_lt shorter

theorem nameList_faults (ts : List (Token α)) : FaultsOnly only (nameList ts) := by
  rw [← faultsOnly_bare, Seam.nameList_bare]
  split
  case isTrue => exact faultsOnly_bare.mpr (bracketed_faults dottedName_faults ts)
  case isFalse =>
    exact (faultsOnly_bare.mpr (dottedName_faults ts)).bind fun r _ =>
      (faultsOnly_maybe.mpr (moreNames_faults r.2)).map _

end Lists

-----------------------------------------------------------------------------------------
-- Ranges, distributions and models
-----------------------------------------------------------------------------------------

theorem range_faults (ts : List (Token α)) : FaultsOnly only (range ts) :=
  Attempt.andThen_faults (expectSign_faults _ _ _) (expectSign_yields _ _ _) fun _ rest _ =>
  Attempt.andThen_faults (expression_faults rest) (expression_yields rest) fun _ _ _ =>
  Attempt.andThen_faults (expectSign_faults _ _ _) (expectSign_yields _ _ _) fun _ rest _ =>
  Attempt.andThen_faults (expression_faults rest) (expression_yields rest) fun _ _ _ =>
  Attempt.mapValue_faults (expectSign_faults _ _ _) _

theorem distribution_faults (ts : List (Token α)) : FaultsOnly only (distribution ts) := by
  cases ts with
  | nil => exact faultsOnly_finding _
  | cons t rest =>
      rw [← faultsOnly_bare, Seam.distribution_bare]
      split
      case isTrue => exact (faultsOnly_bare.mpr (expression_faults rest)).map _
      case isFalse =>
        refine (faultsOnly_bare.mpr (expression_faults _)).bind fun ⟨e, behind⟩ _ => ?_
        cases e with
        | call function positional named place =>
            simp only [Seam.calledDistribution]
            split
            case h_1 => exact faultsOnly_ok _
            case h_2 => exact faultsOnly_finding _
        | number | percentage | currency | text | boolean | name | binary | unary =>
            exact faultsOnly_finding _

theorem model_faults (ts : List (Token α)) : FaultsOnly only (model ts) := by
  cases ts with
  | nil => exact faultsOnly_finding _
  | cons t rest =>
      rw [← faultsOnly_bare, Seam.model_bare]
      refine (faultsOnly_bare.mpr (expression_faults _)).bind fun ⟨e, behind⟩ _ => ?_
      cases e with
      | call function positional named place =>
          simp only [Seam.calledModel]
          split
          case h_2 => exact faultsOnly_finding _
          case h_1 =>
            split
            case isTrue => exact faultsOnly_ok _
            case isFalse => exact faultsOnly_finding _
      | number | percentage | currency | text | boolean | name | binary | unary =>
          exact faultsOnly_finding _

end Grammar

end Prognosis
