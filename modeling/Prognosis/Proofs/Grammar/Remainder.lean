import Prognosis.Grammar.Expression
import Prognosis.Grammar.Parsed

/-! What readers leave. A reader takes tokens from the front only, so that what is left is an end
of what was given; properties of all tokens thereby pass from one reader to the next.
-/

namespace Prognosis.Grammar

variable {α β γ : Type} {ts : List (Token α)}

-----------------------------------------------------------------------------------------
-- Readings and their values
-----------------------------------------------------------------------------------------

/-- Where the construct was read, the tokens that are left end the given ones, and the value has
the property.
-/
def Attempt.Yields (a : Attempt α β ts) (holds : β → Prop) : Prop :=
  ∀ p, a = .ok p → p.rest <:+ ts ∧ holds p.value

/-- The same for what may have been read from no token at all. -/
def MayYield (a : Except Failure (Continued α β ts)) (holds : β → Prop) : Prop :=
  ∀ p, a = .ok p → p.rest <:+ ts ∧ holds p.value

namespace Attempt

variable {holds : β → Prop} {becomes : γ → Prop}

theorem yields_error (e : Failure) : Yields (.error e : Attempt α β ts) holds :=
  fun _ read => by cases read

theorem yields_ok {p : Parsed α β ts} (left : p.rest <:+ ts) (value : holds p.value)
    : Yields (.ok p) holds :=
  fun _ read => by
    cases read
    exact ⟨left, value⟩

theorem yields_single {t : Token α} {value : β} (right : holds value)
    : Yields (.ok (.single t value) : Attempt α β (t :: ts)) holds :=
  yields_ok (List.suffix_cons t ts) right

namespace Yields

variable {a : Attempt α β ts}

theorem weaken (yields : a.Yields holds) {also : β → Prop}
    (weaker : ∀ value, holds value → also value)
    : a.Yields also :=
  fun p read => ⟨(yields p read).1, weaker p.value (yields p read).2⟩

/-- Nothing is said about the value. -/
theorem any (yields : a.Yields holds) : a.Yields fun _ => True :=
  yields.weaken fun _ _ => trivial

theorem mapValue (yields : a.Yields holds) {f : β → γ}
    (changed : ∀ value, holds value → becomes (f value))
    : (a.mapValue f).Yields becomes := by
  cases a with
  | error e => exact yields_error e
  | ok p =>
      obtain ⟨left, value⟩ := yields p rfl
      exact yields_ok left (changed p.value value)

theorem andThen (yields : a.Yields holds)
    {next : β → (rest : List (Token α)) → Attempt α γ rest}
    (after : ∀ value rest, rest <:+ ts → holds value → (next value rest).Yields becomes)
    : (a.andThen next).Yields becomes := by
  cases a with
  | error e => exact yields_error e
  | ok p =>
      obtain ⟨left, value⟩ := yields p rfl
      have then_ := after p.value p.rest left value
      cases read : next p.value p.rest with
      | error e => simpa only [Attempt.andThen, read] using yields_error e
      | ok q =>
          obtain ⟨leftThen, valueThen⟩ := then_ q read
          simpa only [Attempt.andThen, read]
            using yields_ok (p := p.after q) (leftThen.trans left) valueThen

theorem andMaybe (yields : a.Yields holds)
    {next : β → (rest : List (Token α)) → Except Failure (Continued α γ rest)}
    (after : ∀ value rest, rest <:+ ts → holds value → MayYield (next value rest) becomes)
    : (a.andMaybe next).Yields becomes := by
  cases a with
  | error e => exact yields_error e
  | ok p =>
      obtain ⟨left, value⟩ := yields p rfl
      have then_ := after p.value p.rest left value
      cases read : next p.value p.rest with
      | error e => simpa only [Attempt.andMaybe, read] using yields_error e
      | ok q =>
          obtain ⟨leftThen, valueThen⟩ := then_ q read
          simpa only [Attempt.andMaybe, read]
            using yields_ok (p := p.followed q) (leftThen.trans left) valueThen

theorem afterToken (yields : a.Yields holds) (t : Token α)
    : (a.afterToken t).Yields holds := by
  cases a with
  | error e => exact yields_error e
  | ok p =>
      obtain ⟨left, value⟩ := yields p rfl
      exact yields_ok (left.trans (List.suffix_cons t ts)) value

end Yields

end Attempt

theorem mayYield_stay {holds : β → Prop} {value : β} (right : holds value)
    : MayYield (.ok (.stay value) : Except Failure (Continued α β ts)) holds :=
  fun _ read => by
    cases read
    exact ⟨List.suffix_rfl, right⟩

-----------------------------------------------------------------------------------------
-- Signs and names
-----------------------------------------------------------------------------------------

theorem failHere_yields {holds : β → Prop} {stuck : List (Token α)} (finding : SyntaxFinding)
    : Attempt.Yields (failHere stuck finding : Attempt α β ts) holds :=
  Attempt.yields_error _

theorem failExpected_yields {holds : β → Prop} {stuck : List (Token α)} (what : String)
    : Attempt.Yields (failExpected stuck what : Attempt α β ts) holds :=
  Attempt.yields_error _

theorem failAtEnd_yields {holds : β → Prop} (what : String)
    : Attempt.Yields (failAtEnd what : Attempt α β ts) holds :=
  Attempt.yields_error _

theorem expectSign_yields (sign : Sign) (what : String) (ts : List (Token α))
    : (expectSign sign what ts).Yields fun _ => True := by
  cases ts with
  | nil => exact failAtEnd_yields what
  | cons t rest =>
      simp only [expectSign]
      split
      case isTrue => exact Attempt.yields_single trivial
      case isFalse => exact failExpected_yields what

theorem expectWord_yields (word : String) (ts : List (Token α))
    : (expectWord word ts).Yields fun _ => True := by
  cases ts with
  | nil => exact failAtEnd_yields _
  | cons t rest =>
      simp only [expectWord]
      split
      case isTrue => exact Attempt.yields_single trivial
      case isFalse => exact failExpected_yields _

theorem skipSign_rest (sign : Sign) (ts : List (Token α))
    : (skipSign sign ts).rest <:+ ts := by
  cases ts with
  | nil => exact List.suffix_rfl
  | cons t rest =>
      simp only [skipSign]
      split
      case isTrue => exact List.suffix_cons t rest
      case isFalse => exact List.suffix_rfl

/-- The text is that of a word among the tokens. -/
def HasWord (ts : List (Token α)) (text : String) : Prop :=
  ∃ t ∈ ts, t.isAnyWord = true ∧ t.text = text

theorem HasWord.of_suffix {rest : List (Token α)} {text : String} (word : HasWord rest text)
    (left : rest <:+ ts)
    : HasWord ts text := by
  obtain ⟨t, member, word⟩ := word
  exact ⟨t, left.subset member, word⟩

theorem identifier_yields : (identifier ts).Yields (HasWord ts) := by
  cases ts with
  | nil => exact failAtEnd_yields _
  | cons t rest =>
      simp only [identifier]
      split
      case isTrue word => exact Attempt.yields_single ⟨t, List.mem_cons_self, word, rfl⟩
      case isFalse => exact failExpected_yields _

theorem segments_yields : (ts : List (Token α)) → MayYield (segments ts) fun _ => True
  | [] => mayYield_stay trivial
  | t :: [] => by
      unfold segments
      split
      case isTrue => exact fun _ read => by cases read
      case isFalse => exact mayYield_stay trivial
  | t :: u :: more => by
      have later := segments_yields more
      unfold segments
      split
      case isFalse => exact mayYield_stay trivial
      case isTrue =>
        dsimp only
        split
        case isFalse => exact fun _ read => by cases read
        case isTrue =>
          cases read : segments more with
          | error e => exact fun _ other => by cases other
          | ok s =>
              intro p other
              cases other
              have left := (later s read).1
              exact ⟨left.trans ((List.suffix_cons u more).trans (List.suffix_cons t _)), trivial⟩

theorem dottedName_yields (ts : List (Token α)) : (dottedName ts).Yields fun _ => True := by
  apply identifier_yields.andMaybe
  intro root rest _ _
  have later := segments_yields rest
  cases read : segments rest with
  | error e => exact fun _ other => by cases other
  | ok s =>
      intro p other
      cases other
      exact ⟨(later s read).1, trivial⟩

end Prognosis.Grammar

/-! What readers of expressions leave. -/

namespace Prognosis.Grammar

variable {α : Type}

open Attempt

/-- The value of a named argument ends the tokens that its name starts. -/
theorem argumentName?_suffix {ts rest : List (Token α)} {name : String}
    (found : argumentName? ts = some (name, rest))
    : rest <:+ ts := by
  unfold argumentName? at found
  split at found
  case h_2 => cases found
  case h_1 t u more =>
    split at found
    case isFalse => cases found
    case isTrue =>
      cases found
      exact (List.suffix_cons u rest).trans (List.suffix_cons t _)

mutual

theorem binary_yields (level : Level) (ts : List (Token α))
    : (binary level ts).Yields fun _ => True := by
  have first := operand_yields level ts
  unfold binary
  cases readLeft : operand level ts with
  | error e => exact yields_error e
  | ok left =>
      have more := chain_yields level left.value left.rest
      dsimp only
      cases readAll : chain level left.value left.rest with
      | error e => exact yields_error e
      | ok all =>
          exact yields_ok ((more all readAll).1.trans (first left readLeft).1) trivial
termination_by (ts.length, 2 * level.height + 3)
decreasing_by
  · exact Prod.Lex.right _ (by omega)
  · exact Prod.Lex.left _ _ left.shorter

theorem operand_yields (level : Level) (ts : List (Token α))
    : (operand level ts).Yields fun _ => True := by
  unfold operand
  split
  case h_1 stronger next =>
    have lower := Level.height_next? next
    exact binary_yields stronger ts
  case h_2 => exact unary_yields ts
termination_by (ts.length, 2 * level.height + 2)
decreasing_by
  · exact Prod.Lex.right _ (by omega)
  · exact Prod.Lex.right _ (by cases level <;> simp [Level.height])

theorem chain_yields (level : Level) (left : Expr α) (ts : List (Token α))
    : MayYield (chain level left ts) fun _ => True := by
  unfold chain
  cases ts with
  | nil => exact mayYield_stay trivial
  | cons t rest =>
      dsimp only
      cases found : operator? level t with
      | none => exact mayYield_stay trivial
      | some op =>
          have second := operand_yields level rest
          dsimp only
          cases readRight : operand level rest with
          | error e => exact fun _ read => by cases read
          | ok right =>
              have more := chain_yields level (.binary op left right.value (some t.span))
                right.rest
              dsimp only
              cases readAll
                : chain level (.binary op left right.value (some t.span)) right.rest with
              | error e => exact fun _ read => by cases read
              | ok all =>
                  intro p read
                  cases read
                  have end_ := (more all readAll).1.trans (second right readRight).1
                  exact ⟨end_.trans (List.suffix_cons t rest), trivial⟩
termination_by (ts.length, 2 * level.height + 1)
decreasing_by
  · exact Prod.Lex.left _ _ (Nat.lt_succ_self _)
  · exact Prod.Lex.left _ _ (Nat.lt_succ_of_lt right.shorter)

theorem unary_yields (ts : List (Token α)) : (unary ts).Yields fun _ => True := by
  unfold unary
  cases ts with
  | nil => exact primary_yields []
  | cons t rest =>
      dsimp only
      cases found : leadingOperator? t with
      | none => exact power_yields (t :: rest)
      | some op =>
          have operand := unary_yields rest
          dsimp only
          cases read : unary rest with
          | error e => exact yields_error e
          | ok p => exact yields_ok ((operand p read).1.trans (List.suffix_cons t rest)) trivial
termination_by (ts.length, 3)
decreasing_by
  · exact Prod.Lex.right _ (by omega)
  · exact Prod.Lex.right _ (by omega)
  · exact Prod.Lex.left _ _ (Nat.lt_succ_self _)

theorem power_yields (ts : List (Token α)) : (power ts).Yields fun _ => True := by
  have first := primary_yields ts
  unfold power
  cases readBase : primary ts with
  | error e => exact yields_error e
  | ok base =>
      have left := (first base readBase).1
      dsimp only
      split
      case h_1 => exact yields_ok left trivial
      case h_2 t rest after =>
        split
        case isFalse => exact yields_ok left trivial
        case isTrue =>
          have shorter : rest.length < ts.length := by
            have shorter := base.shorter
            rw [after, List.length_cons] at shorter
            omega
          have exponent := unary_yields rest
          cases readExponent : unary rest with
          | error e => exact yields_error e
          | ok p =>
              have end_ := (exponent p readExponent).1.trans (List.suffix_cons t rest)
              exact yields_ok (end_.trans (after ▸ left)) trivial
termination_by (ts.length, 2)
decreasing_by
  · exact Prod.Lex.right _ (by omega)
  · exact Prod.Lex.left _ _ shorter

theorem primary_yields (ts : List (Token α)) : (primary ts).Yields fun _ => True := by
  unfold primary
  cases ts with
  | nil => exact failAtEnd_yields _
  | cons t rest =>
      dsimp only
      split
      case h_1 | h_2 | h_3 | h_4 => exact yields_single trivial
      case h_7 => exact failExpected_yields _
      case h_5 =>
        have inside := binary_yields .disjunction rest
        cases readInner : binary .disjunction rest with
        | error e => exact yields_error e
        | ok inner =>
            have closing := expectSign_yields .rparen "')'" inner.rest
            dsimp only
            cases readClosed : expectSign .rparen "')'" inner.rest with
            | error e => exact yields_error e
            | ok closed =>
                have end_ := (closing closed readClosed).1.trans (inside inner readInner).1
                exact yields_ok (end_.trans (List.suffix_cons t rest)) trivial
      case h_6 =>
        split
        case isTrue => exact yields_single trivial
        case isFalse =>
          split
          case isTrue => exact failHere_yields _
          case isFalse =>
            cases rest with
            | nil => exact yields_single trivial
            | cons u more =>
                dsimp only
                split
                case isTrue =>
                  have inside := arguments_yields false more
                  cases readArguments : arguments false more with
                  | error e => exact yields_error e
                  | ok args =>
                      have end_ := (inside args readArguments).1.trans (List.suffix_cons u more)
                      exact yields_ok (end_.trans (List.suffix_cons t _)) trivial
                case isFalse =>
                  have dotted := segments_yields (u :: more)
                  cases readSegments : segments (u :: more) with
                  | error e => exact yields_error e
                  | ok s =>
                      have end_ := (dotted s readSegments).1
                      exact yields_ok (end_.trans (List.suffix_cons t _)) trivial
termination_by (ts.length, 1)
decreasing_by
  · exact Prod.Lex.left _ _ (Nat.lt_succ_self _)
  · exact Prod.Lex.left _ _ (by simp only [List.length_cons]; omega)

theorem arguments_yields (afterNamed : Bool) (ts : List (Token α))
    : (arguments afterNamed ts).Yields fun _ => True := by
  unfold arguments
  cases ts with
  | nil =>
      dsimp only
      split
      case isTrue => exact yields_error _
      case isFalse => exact failAtEnd_yields _
  | cons t rest =>
      dsimp only
      split
      case isTrue => exact yields_single trivial
      case isFalse =>
        split
        case h_1 name value found =>
          have shorter := argumentName?_shorter found
          have inside := binary_yields .disjunction value
          cases readArgument : binary .disjunction value with
          | error e => exact yields_error e
          | ok argument =>
              have shorterRest := argument.shorter
              have more := moreArguments_yields true argument.rest
              dsimp only
              cases readOthers : moreArguments true argument.rest with
              | error e => exact yields_error e
              | ok others =>
                  have end_ := (more others readOthers).1.trans (inside argument readArgument).1
                  exact yields_ok (end_.trans (argumentName?_suffix found)) trivial
        case h_2 =>
          split
          case isTrue => exact failHere_yields _
          case isFalse =>
            have inside := binary_yields .disjunction (t :: rest)
            cases readArgument : binary .disjunction (t :: rest) with
            | error e => exact yields_error e
            | ok argument =>
                have more := moreArguments_yields false argument.rest
                dsimp only
                cases readOthers : moreArguments false argument.rest with
                | error e => exact yields_error e
                | ok others =>
                    have end_ := (more others readOthers).1
                    exact yields_ok (end_.trans (inside argument readArgument).1) trivial
termination_by (ts.length, 20)
decreasing_by
  · exact Prod.Lex.left _ _ shorter
  · exact Prod.Lex.left _ _ (by omega)
  · exact Prod.Lex.right _ (by simp [Level.height])
  · exact Prod.Lex.left _ _ argument.shorter

theorem moreArguments_yields (afterNamed : Bool) (ts : List (Token α))
    : (moreArguments afterNamed ts).Yields fun _ => True := by
  unfold moreArguments
  cases ts with
  | nil => exact failAtEnd_yields _
  | cons t rest =>
      dsimp only
      split
      case isTrue => exact yields_single trivial
      case isFalse =>
        split
        case isFalse => exact failExpected_yields _
        case isTrue =>
          have inside := arguments_yields afterNamed rest
          cases readOthers : arguments afterNamed rest with
          | error e => exact yields_error e
          | ok others =>
              exact yields_ok ((inside others readOthers).1.trans (List.suffix_cons t rest))
                trivial
termination_by (ts.length, 0)
decreasing_by
  · exact Prod.Lex.left _ _ (Nat.lt_succ_self _)

end

theorem expression_yields (ts : List (Token α)) : (expression ts).Yields fun _ => True :=
  binary_yields .disjunction ts

end Prognosis.Grammar
