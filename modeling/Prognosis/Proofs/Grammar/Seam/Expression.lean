import Prognosis.Proofs.Grammar.Seam

/-! Expressions at a seam. Neither a closing brace nor a keyword of a declaration goes on with an
expression, so what is read in front of either is the same.
-/

namespace Prognosis

namespace Token.Delimits

open Grammar

variable {α : Type} {t : Token α}

theorem operator?_eq_none (delimits : t.Delimits) (level : Level) : operator? level t = none := by
  rcases delimits with is | ⟨is, keyword⟩
  · cases level <;> simp [operator?, is]
  · have other (word : String) (free : word ∉ declarationKeywords) : t.text ≠ word := by
      rintro rfl
      exact free keyword
    cases level <;> simp [operator?, is, other "or" (by decide), other "and" (by decide)]

theorem leadingOperator?_eq_none (delimits : t.Delimits) : leadingOperator? t = none := by
  rcases delimits with is | ⟨is, keyword⟩
  · simp [leadingOperator?, is]
  · have other : t.text ≠ "not" := by
      rintro same
      rw [same] at keyword
      exact absurd keyword (by decide)
    simp [leadingOperator?, is, other]

end Token.Delimits

namespace Grammar

variable {α : Type}

-----------------------------------------------------------------------------------------
-- The readers as compositions
-----------------------------------------------------------------------------------------

section Bare

variable (t : Token α) (rest : List (Token α))

theorem binary_bare (level : Level) (ts : List (Token α))
    : (binary level ts).bare
      = (operand level ts).bare.bind fun r => bare (chain level r.1 r.2) := by
  rw [binary]
  cases operand level ts with
  | error e => rfl
  | ok left =>
      simp only [Attempt.bare_ok, Except.bind]
      cases chain level left.value left.rest <;> rfl

theorem chain_bare (level : Level) (left : Expr α)
    : bare (chain level left (t :: rest))
      = match operator? level t with
        | none => .ok (left, t :: rest)
        | some op =>
            (operand level rest).bare.bind fun r =>
              bare (chain level (.binary op left r.1 (some t.span)) r.2) := by
  rw [chain]
  cases operator? level t with
  | none => rfl
  | some op =>
      cases operand level rest with
      | error e => rfl
      | ok right =>
          simp only [Attempt.bare_ok, Except.bind]
          cases chain level (.binary op left right.value (some t.span)) right.rest <;> rfl

theorem unary_bare
    : (unary (t :: rest)).bare
      = match leadingOperator? t with
        | some op => (unary rest).bare.map fun r => (.unary op r.1 (some t.span), r.2)
        | none => (power (t :: rest)).bare := by
  rw [unary]
  cases leadingOperator? t with
  | none => rfl
  | some op => cases unary rest <;> rfl

theorem power_bare (ts : List (Token α))
    : (power ts).bare
      = (primary ts).bare.bind fun r =>
          match r.2 with
          | [] => .ok r
          | t :: rest =>
              if t.isSign .caret then
                (unary rest).bare.map fun s => (.binary .pow r.1 s.1 (some t.span), s.2)
              else .ok r := by
  rw [power]
  cases read : primary ts with
  | error e => rfl
  | ok base =>
      simp only [Attempt.bare_ok, Except.bind]
      split
      case h_1 none => simp [none]
      case h_2 t rest is =>
        simp only [is]
        split
        case isTrue => cases unary rest <;> rfl
        case isFalse => rw [Attempt.bare_ok, is]

theorem primary_bare
    : (primary (t :: rest)).bare
      = match t.kind with
        | .number value => .ok (.number value (some t.span), rest)
        | .percentage value => .ok (.percentage value (some t.span), rest)
        | .currency amount currency magnitude =>
            .ok (.currency amount currency magnitude (some t.span), rest)
        | .text value => .ok (.text value (some t.span), rest)
        | .sign .lparen =>
            (binary .disjunction rest).bare.bind fun r =>
              (expectSign .rparen "')'" r.2).bare.map fun s => (r.1, s.2)
        | .word =>
            if t.text == "true" || t.text == "false" then
              .ok (.boolean (t.text == "true") (some t.span), rest)
            else if reservedWords.contains t.text then
              failHere (t :: rest) (.keywordInExpression t.text)
            else
              match rest with
              | [] => .ok (.name ⟨t.text, []⟩ (some t.span), [])
              | u :: more =>
                  if u.isSign .lparen then
                    (arguments false more).bare.map fun r =>
                      (.call t.text r.1.1 r.1.2 (some t.span), r.2)
                  else
                    (bare (segments (u :: more))).map fun r =>
                      (.name ⟨t.text, r.1⟩ (some t.span), r.2)
        | _ => failExpected (t :: rest) "an expression" := by
  unfold primary
  dsimp only
  generalize t.kind = kind
  cases kind with
  | sign sign =>
      cases sign with
      | lparen =>
          dsimp only
          cases binary .disjunction rest with
          | error e => rfl
          | ok inner =>
              simp only [Attempt.bare_ok, Except.bind]
              cases expectSign .rparen "')'" inner.rest <;> rfl
      | _ => rfl
  | word =>
      dsimp only
      split
      case isTrue => rfl
      case isFalse =>
        split
        case isTrue => rfl
        case isFalse =>
          cases rest with
          | nil => rfl
          | cons u more =>
              dsimp only
              split
              case isTrue => cases arguments false more <;> rfl
              case isFalse => cases segments (u :: more) <;> rfl
  | _ => rfl

theorem arguments_bare (afterNamed : Bool)
    : (arguments afterNamed (t :: rest)).bare
      = if t.isSign .rparen then .ok (([], []), rest)
        else
          match argumentName? (t :: rest) with
          | some (name, value) =>
              (binary .disjunction value).bare.bind fun r =>
                (moreArguments true r.2).bare.map fun s => ((s.1.1, (name, r.1) :: s.1.2), s.2)
          | none =>
              if afterNamed then failHere (t :: rest) .positionalAfterNamed
              else
                (binary .disjunction (t :: rest)).bare.bind fun r =>
                  (moreArguments false r.2).bare.map fun s => ((r.1 :: s.1.1, s.1.2), s.2) := by
  rw [arguments]
  split
  case isTrue => rfl
  case isFalse =>
    split
    case h_1 name value found =>
      simp only [found]
      cases binary .disjunction value with
      | error e => rfl
      | ok argument =>
          simp only [Attempt.bare_ok, Except.bind]
          cases moreArguments true argument.rest <;> rfl
    case h_2 found =>
      simp only [found]
      split
      case isTrue => rfl
      case isFalse =>
        cases binary .disjunction (t :: rest) with
        | error e => rfl
        | ok argument =>
            simp only [Attempt.bare_ok, Except.bind]
            cases moreArguments false argument.rest <;> rfl

theorem moreArguments_bare (afterNamed : Bool)
    : (moreArguments afterNamed (t :: rest)).bare
      = if t.isSign .rparen then .ok (([], []), rest)
        else if t.isSign .comma then (arguments afterNamed rest).bare
        else failExpected (t :: rest) "',' or ')'" := by
  rw [moreArguments]
  split
  case isTrue => rfl
  case isFalse =>
    split
    case isTrue => cases arguments afterNamed rest <;> rfl
    case isFalse => rfl

end Bare

-----------------------------------------------------------------------------------------
-- Agreement at a seam
-----------------------------------------------------------------------------------------

namespace Seam

variable {seam : Seam α} {finished : List (Token α) → Prop}

theorem argumentName?_of_apart {t : Token α} {more : List (Token α)}
    (apart : atSign more .assign = false ∧ atSign more .eq = false)
    : argumentName? (t :: more) = none := by
  cases more with
  | nil => rfl
  | cons u others =>
      simp only [atSign] at apart
      simp [argumentName?, apart]

/-- Names of arguments in front of the seam stand in both rows. -/
theorem argumentName?_meets (t : Token α) {ts ts' : List (Token α)} (meets : seam.Meets ts ts')
    : argumentName? (t :: ts) = none ∧ argumentName? (t :: ts') = none
      ∨ ∃ name value value', argumentName? (t :: ts) = some (name, value)
          ∧ argumentName? (t :: ts') = some (name, value') ∧ seam.Meets value value' := by
  have apart : atSign ts' .assign = atSign ts .assign ∧ atSign ts' .eq = atSign ts .eq :=
    ⟨meets.atSign .assign nofun, meets.atSign .eq nofun⟩
  by_cases plain : atSign ts .assign = false ∧ atSign ts .eq = false
  case pos =>
    exact Or.inl ⟨argumentName?_of_apart plain, argumentName?_of_apart (by rwa [apart.1, apart.2])⟩
  case neg =>
    cases meets with
    | here =>
        have closing := seam.closing_delimits
        exact absurd ⟨closing.isSign _ nofun, closing.isSign _ nofun⟩ plain
    | @cons u more more' meets =>
        by_cases named : (t.isAnyWord && (u.isSign .assign || u.isSign .eq)) = true
        case pos =>
          exact Or.inr ⟨t.text, more, more', by rw [argumentName?, if_pos named],
            by rw [argumentName?, if_pos named], meets⟩
        case neg =>
          exact Or.inl ⟨by rw [argumentName?, if_neg named], by rw [argumentName?, if_neg named]⟩

mutual

theorem binary_agrees (level : Level) {ts ts' : List (Token α)} (meets : seam.Meets ts ts')
    : seam.Agrees never (binary level ts).bare (binary level ts').bare := by
  rw [binary_bare, binary_bare]
  refine (operand_agrees level meets).bind fun left rest rest' read meets => ?_
  have shorter := Attempt.length_lt_of_bare read
  exact chain_agrees level left meets
termination_by (ts.length, 2 * level.height + 3)
decreasing_by
  · exact Prod.Lex.right _ (by omega)
  · exact Prod.Lex.left _ _ shorter

theorem operand_agrees (level : Level) {ts ts' : List (Token α)} (meets : seam.Meets ts ts')
    : seam.Agrees never (operand level ts).bare (operand level ts').bare := by
  rw [operand, operand]
  cases next : level.next? with
  | none => exact unary_agrees meets
  | some stronger => exact binary_agrees stronger meets
termination_by (ts.length, 2 * level.height + 2)
decreasing_by
  · exact Prod.Lex.right _ (by cases level <;> simp [Level.height])
  · have stronger := Level.height_next? next
    exact Prod.Lex.right _ (by omega)

theorem chain_agrees (level : Level) (left : Expr α) {ts ts' : List (Token α)}
    (meets : seam.Meets ts ts')
    : seam.Agrees never (bare (chain level left ts)) (bare (chain level left ts')) := by
  cases meets with
  | here =>
      rw [chain_bare, chain_bare, seam.closing_delimits.operator?_eq_none,
        seam.delimits.operator?_eq_none]
      exact agrees_ok .here
  | @cons t us us' meets =>
      rw [chain_bare, chain_bare]
      cases operator? level t with
      | none => exact agrees_ok (.cons t meets)
      | some op =>
          refine (operand_agrees level meets).bind fun right rest rest' read meets => ?_
          have shorter := Attempt.length_lt_of_bare read
          exact chain_agrees level _ meets
termination_by (ts.length, 2 * level.height + 1)
decreasing_by
  · exact Prod.Lex.left _ _ (Nat.lt_succ_self _)
  · exact Prod.Lex.left _ _ (Nat.lt_succ_of_lt shorter)

theorem unary_agrees {ts ts' : List (Token α)} (meets : seam.Meets ts ts')
    : seam.Agrees never (unary ts).bare (unary ts').bare := by
  cases meets with
  | here =>
      rw [unary_bare, unary_bare, seam.closing_delimits.leadingOperator?_eq_none,
        seam.delimits.leadingOperator?_eq_none]
      exact power_agrees .here
  | @cons t us us' meets =>
      rw [unary_bare, unary_bare]
      cases leadingOperator? t with
      | none => exact power_agrees (.cons t meets)
      | some op => exact (unary_agrees meets).map fun e => Expr.unary op e (some t.span)
termination_by (ts.length, 3)
decreasing_by
  · exact Prod.Lex.right _ (by omega)
  · exact Prod.Lex.right _ (by omega)
  · exact Prod.Lex.left _ _ (Nat.lt_succ_self _)

theorem power_agrees {ts ts' : List (Token α)} (meets : seam.Meets ts ts')
    : seam.Agrees never (power ts).bare (power ts').bare := by
  rw [power_bare, power_bare]
  refine (primary_agrees meets).bind fun base rest rest' read meets => ?_
  have shorter := Attempt.length_lt_of_bare read
  cases meets with
  | here =>
      simp only [seam.closing_delimits.isSign .caret nofun,
        seam.delimits.isSign .caret nofun]
      exact agrees_ok .here
  | @cons t us us' meets =>
      dsimp only
      split
      case isTrue => exact (unary_agrees meets).map fun e => Expr.binary .pow base e (some t.span)
      case isFalse => exact agrees_ok (.cons t meets)
termination_by (ts.length, 2)
decreasing_by
  · exact Prod.Lex.right _ (by omega)
  · exact Prod.Lex.left _ _ (Nat.lt_of_succ_lt shorter)

theorem primary_agrees {ts ts' : List (Token α)} (meets : seam.Meets ts ts')
    : seam.Agrees never (primary ts).bare (primary ts').bare := by
  cases meets with
  | here =>
      rw [primary_bare, seam.closes]
      exact agrees_asked (by decide) _
  | @cons t us us' meets =>
      rw [primary_bare, primary_bare]
      split
      case h_1 | h_2 | h_3 | h_4 => exact agrees_ok meets
      case h_5 =>
        refine (binary_agrees .disjunction meets).bind fun inner _ _ _ meets => ?_
        exact (expectSign_agrees (by decide) _ meets).map fun _ => inner
      case h_6 =>
        split
        case isTrue => exact agrees_ok meets
        case isFalse =>
          split
          case isTrue => exact agrees_failHere
          case isFalse =>
            cases meets with
            | here =>
                simp only [seam.closing_delimits.isSign .lparen nofun,
                  seam.delimits.isSign .lparen nofun]
                exact (segments_agrees .here).map fun names =>
                  Expr.name ⟨t.text, names⟩ (some t.span)
            | @cons u more more' meets =>
                dsimp only
                split
                case isTrue =>
                  exact (arguments_agrees false meets).map fun r =>
                    Expr.call t.text r.1 r.2 (some t.span)
                case isFalse =>
                  exact (segments_agrees (.cons u meets)).map fun names =>
                    Expr.name ⟨t.text, names⟩ (some t.span)
      case h_7 => exact agrees_failHere
termination_by (ts.length, 1)
decreasing_by
  · exact Prod.Lex.left _ _ (Nat.lt_succ_self _)
  · exact Prod.Lex.left _ _ (by simp only [List.length_cons]; omega)

theorem arguments_agrees (afterNamed : Bool) {ts ts' : List (Token α)}
    (meets : seam.Meets ts ts')
    : seam.Agrees never (arguments afterNamed ts).bare (arguments afterNamed ts').bare := by
  have first := binary_agrees .disjunction meets
  have positional : seam.Agrees never
      (if afterNamed then failHere ts .positionalAfterNamed
        else (binary .disjunction ts).bare.bind fun r =>
          (moreArguments false r.2).bare.map fun s => ((r.1 :: s.1.1, s.1.2), s.2))
      (if afterNamed then failHere ts' .positionalAfterNamed
        else (binary .disjunction ts').bare.bind fun r =>
          (moreArguments false r.2).bare.map fun s => ((r.1 :: s.1.1, s.1.2), s.2)) := by
    split
    case isTrue => exact agrees_failHere
    case isFalse =>
      refine first.bind fun argument rest rest' read meets => ?_
      have shorter := Attempt.length_lt_of_bare read
      exact (moreArguments_agrees false meets).map fun r => (argument :: r.1, r.2)
  cases meets with
  | here =>
      rw [arguments_bare, arguments_bare]
      simp only [seam.closing_delimits.isSign .rparen nofun, seam.delimits.isSign .rparen nofun,
        Bool.false_eq_true, if_false]
      by_cases tolerant : ∃ l, seam.tolerates l
      case pos =>
        obtain ⟨l, tolerated⟩ := tolerant
        rw [argumentName?_of_apart (seam.apart l tolerated).2]
        exact positional
      case neg =>
        obtain ⟨e, is⟩ := first.error_here
        cases afterNamed with
        | true => exact agrees_of_intolerant tolerant _ _
        | false =>
            rw [is]
            exact agrees_of_intolerant tolerant e _
  | @cons t us us' meets =>
      rw [arguments_bare, arguments_bare]
      split
      case isTrue => exact agrees_ok meets
      case isFalse =>
        rcases argumentName?_meets t meets with
          ⟨none, none'⟩ | ⟨name, value, value', some, some', meets⟩
        · rw [none, none']
          exact positional
        · have behind := argumentName?_shorter some
          rw [some, some']
          refine (binary_agrees .disjunction meets).bind fun argument rest rest' read meets => ?_
          have shorter := Attempt.length_lt_of_bare read
          exact (moreArguments_agrees true meets).map fun r => (r.1, (name, argument) :: r.2)
termination_by (ts.length, 20)
decreasing_by
  · exact Prod.Lex.right _ (by simp [Level.height])
  · exact Prod.Lex.left _ _ shorter
  · exact Prod.Lex.left _ _ behind
  · exact Prod.Lex.left _ _ (Nat.lt_trans shorter behind)

theorem moreArguments_agrees (afterNamed : Bool) {ts ts' : List (Token α)}
    (meets : seam.Meets ts ts')
    : seam.Agrees never (moreArguments afterNamed ts).bare (moreArguments afterNamed ts').bare := by
  cases meets with
  | here =>
      rw [moreArguments_bare, moreArguments_bare]
      simp only [seam.closing_delimits.isSign .rparen nofun, seam.delimits.isSign .rparen nofun,
        seam.closing_delimits.isSign .comma nofun, seam.delimits.isSign .comma nofun]
      exact agrees_failHere
  | @cons t us us' meets =>
      rw [moreArguments_bare, moreArguments_bare]
      split
      case isTrue => exact agrees_ok meets
      case isFalse =>
        split
        case isTrue => exact arguments_agrees afterNamed meets
        case isFalse => exact agrees_failHere
termination_by (ts.length, 0)
decreasing_by
  exact Prod.Lex.left _ _ (Nat.lt_succ_self _)

end

theorem expression_repeats : seam.Repeats never (expression (α := α)) :=
  fun _ _ meets => binary_agrees .disjunction meets

end Seam

end Grammar

end Prognosis
