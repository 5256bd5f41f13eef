import Prognosis.Proofs.Grammar.Seam
import Prognosis.Proofs.Grammar.Seam.Expression
import Prognosis.Proofs.Syntax.Places

/-! Tokens that stand at other places. Readers look at what a token is and at its text; the place of
a token goes into what is read and into what is reported, but decides nothing as long as nothing is
reported. What is read from a row of tokens is therefore read, up to places, from the same tokens
wherever they stand.
-/

namespace Prognosis

-----------------------------------------------------------------------------------------
-- Tokens at other places
-----------------------------------------------------------------------------------------

namespace Token

variable {α : Type}

/-- The token at another place. -/
def movedTo (t : Token α) (span : Span) : Token α :=
  { t with span := span }

variable (t : Token α) (span : Span)

@[simp]
theorem kind_movedTo : (t.movedTo span).kind = t.kind := rfl

@[simp]
theorem text_movedTo : (t.movedTo span).text = t.text := rfl

@[simp]
theorem isSign_movedTo (sign : Sign) : (t.movedTo span).isSign sign = t.isSign sign := rfl

@[simp]
theorem isAnyWord_movedTo : (t.movedTo span).isAnyWord = t.isAnyWord := rfl

@[simp]
theorem isWord_movedTo (word : String) : (t.movedTo span).isWord word = t.isWord word := rfl

@[simp]
theorem isSeparator_movedTo : (t.movedTo span).isSeparator = t.isSeparator := rfl

end Token

namespace Grammar

variable {α β γ : Type} {ts ts' : List (Token α)}

/-- The second row holds the tokens of the first one, each at a place of its own. -/
inductive Moved : List (Token α) → List (Token α) → Prop
  | nil : Moved [] []
  | cons (t : Token α) (span : Span) {ts ts' : List (Token α)} (others : Moved ts ts')
    : Moved (t :: ts) (t.movedTo span :: ts')

namespace Moved

theorem refl (ts : List (Token α)) : Moved ts ts := by
  induction ts with
  | nil => exact .nil
  | cons t ts ih => exact .cons t t.span ih

theorem symm (moved : Moved ts ts') : Moved ts' ts := by
  induction moved with
  | nil => exact .nil
  | cons t span _ ih => exact .cons (t.movedTo span) t.span ih

theorem append {us us' : List (Token α)} (first : Moved ts ts') (second : Moved us us')
    : Moved (ts ++ us) (ts' ++ us') := by
  induction first with
  | nil => exact second
  | cons t span _ ih => exact .cons t span ih

theorem atSign (moved : Moved ts ts') (sign : Sign)
    : Grammar.atSign ts' sign = Grammar.atSign ts sign := by
  cases moved <;> rfl

theorem atWord (moved : Moved ts ts') (word : String)
    : Grammar.atWord ts' word = Grammar.atWord ts word := by
  cases moved <;> rfl

theorem skipSeparators (moved : Moved ts ts')
    : Moved (Grammar.skipSeparators ts) (Grammar.skipSeparators ts') := by
  induction moved with
  | nil => exact .nil
  | cons t span others ih =>
      rw [Grammar.skipSeparators, Grammar.skipSeparators, List.dropWhile_cons,
        List.dropWhile_cons, Token.isSeparator_movedTo]
      split
      case isTrue => exact ih
      case isFalse => exact .cons t span others

theorem skipSign (moved : Moved ts ts') (sign : Sign)
    : Moved (Grammar.skipSign sign ts).rest (Grammar.skipSign sign ts').rest := by
  cases moved with
  | nil => exact .nil
  | cons t span others =>
      rw [Grammar.skipSign, Grammar.skipSign, Token.isSign_movedTo]
      split
      case isTrue => exact others
      case isFalse => exact .cons t span others

end Moved

-----------------------------------------------------------------------------------------
-- Readings that carry over
-----------------------------------------------------------------------------------------

/-- The values are the same for the function. -/
def Alike (f : β → γ) (x x' : β) : Prop :=
  f x' = f x

/-- What the first reading takes, the second one takes as well: the same value up to what is told
apart, and the same tokens are left.
-/
def Carried (same : β → β → Prop) (a a' : Except Failure (β × List (Token α))) : Prop :=
  ∀ value rest, a = .ok (value, rest)
    → ∃ value' rest', a' = .ok (value', rest') ∧ same value value' ∧ Moved rest rest'

/-- The reader takes the same from tokens that stand at other places. -/
def Carries (same : β → β → Prop) (reader : (ts : List (Token α)) → Attempt α β ts) : Prop :=
  ∀ ts ts', Moved ts ts' → Carried same (reader ts).bare (reader ts').bare

namespace Carried

variable {same : β → β → Prop} {alike : γ → γ → Prop}
  {a a' : Except Failure (β × List (Token α))}

theorem ok {value value' : β} {rest rest' : List (Token α)} (is : same value value')
    (moved : Moved rest rest')
    : Carried same (.ok (value, rest)) (.ok (value', rest')) := by
  intro _ _ read
  cases read
  exact ⟨value', rest', rfl, is, moved⟩

/-- A reading that fails takes nothing. -/
theorem error {e : Failure} : Carried same (.error e) a' :=
  nofun

theorem mono {looser : β → β → Prop} (carried : Carried same a a')
    (weaker : ∀ value value', same value value' → looser value value')
    : Carried looser a a' := by
  intro value rest read
  obtain ⟨value', rest', read', is, moved⟩ := carried value rest read
  exact ⟨value', rest', read', weaker _ _ is, moved⟩

/-- Reads on after values that are the same. -/
theorem bind {k k' : β × List (Token α) → Except Failure (γ × List (Token α))}
    (first : Carried same a a')
    (second : ∀ value value' rest rest', a = .ok (value, rest) → same value value'
      → Moved rest rest' → Carried alike (k (value, rest)) (k' (value', rest')))
    : Carried alike (a.bind k) (a'.bind k') := by
  cases a with
  | error e => exact error
  | ok r =>
      obtain ⟨value', rest', rfl, is, moved⟩ := first r.1 r.2 rfl
      exact second r.1 value' r.2 rest' rfl is moved

theorem map (carried : Carried same a a') {f f' : β → γ}
    (kept : ∀ value value', same value value' → alike (f value) (f' value'))
    : Carried alike (a.map fun r => (f r.1, r.2)) (a'.map fun r => (f' r.1, r.2)) := by
  cases a with
  | error e => exact error
  | ok r =>
      obtain ⟨value', rest', rfl, is, moved⟩ := carried r.1 r.2 rfl
      exact ok (kept _ _ is) moved

theorem mapValue {a : Attempt α β ts} {a' : Attempt α β ts'} (carried : Carried same a.bare a'.bare)
    {f f' : β → γ} (kept : ∀ value value', same value value' → alike (f value) (f' value'))
    : Carried alike (a.mapValue f).bare (a'.mapValue f').bare := by
  rw [Attempt.bare_mapValue, Attempt.bare_mapValue]
  exact carried.map kept

end Carried

-----------------------------------------------------------------------------------------
-- Signs and names
-----------------------------------------------------------------------------------------

theorem expectSign_carries (sign : Sign) (what : String)
    : Carries (fun _ _ => True) (expectSign (α := α) sign what) := by
  intro ts ts' moved
  cases moved with
  | nil => exact .error
  | cons t span others =>
      rw [expectSign, expectSign, Token.isSign_movedTo]
      split
      case isTrue => exact .ok trivial others
      case isFalse => exact .error

/-- The place of a word is read along with it. -/
theorem expectWord_carries (word : String)
    : Carries (fun _ _ => True) (expectWord (α := α) word) := by
  intro ts ts' moved
  cases moved with
  | nil => exact .error
  | cons t span others =>
      rw [expectWord, expectWord, Token.isWord_movedTo]
      split
      case isTrue => exact .ok trivial others
      case isFalse => exact .error

theorem identifier_carries : Carries Eq (identifier (α := α)) := by
  intro ts ts' moved
  cases moved with
  | nil => exact .error
  | cons t span others =>
      rw [identifier, identifier, Token.isAnyWord_movedTo]
      split
      case isTrue => exact .ok rfl others
      case isFalse => exact .error

/-- By induction on the number of tokens. -/
theorem segments_carried {ts ts' : List (Token α)} (moved : Moved ts ts')
    : Carried Eq (bare (segments ts)) (bare (segments ts')) := by
  cases moved with
  | nil => exact .ok rfl .nil
  | @cons t span us us' others =>
      by_cases dot : t.isSign .dot = true
      case neg =>
        rw [Bool.not_eq_true] at dot
        rw [Seam.segments_other dot, Seam.segments_other (t := t.movedTo span) dot]
        exact .ok rfl (.cons t span others)
      case pos =>
        cases others with
        | nil =>
            rw [segments, if_pos dot]
            exact .error
        | @cons u place more more' others =>
            rw [Seam.segments_dot dot, Seam.segments_dot (t := t.movedTo span) dot,
              Token.isAnyWord_movedTo]
            split
            case isTrue => exact (segments_carried others).map fun _ _ same => same ▸ rfl
            case isFalse => exact .error
termination_by ts.length

theorem dottedName_carries : Carries Eq (dottedName (α := α)) := by
  intro ts ts' moved
  rw [Seam.dottedName_bare, Seam.dottedName_bare]
  refine (identifier_carries ts ts' moved).bind fun root _ _ _ _ is moved => ?_
  exact (segments_carried moved).map fun _ _ same => by rw [is, same]

end Grammar

end Prognosis

/-! Expressions at other places. -/

namespace Prognosis.Grammar

variable {α : Type}

-----------------------------------------------------------------------------------------
-- Operators and names of arguments
-----------------------------------------------------------------------------------------

@[simp]
theorem operator?_movedTo (level : Level) (t : Token α) (span : Span)
    : operator? level (t.movedTo span) = operator? level t := rfl

@[simp]
theorem leadingOperator?_movedTo (t : Token α) (span : Span)
    : leadingOperator? (t.movedTo span) = leadingOperator? t := rfl

/-- Named arguments start at the same tokens. -/
theorem Moved.argumentName? {ts ts' : List (Token α)} (moved : Moved ts ts')
    : Grammar.argumentName? ts = none ∧ Grammar.argumentName? ts' = none
      ∨ ∃ name value value', Grammar.argumentName? ts = some (name, value)
          ∧ Grammar.argumentName? ts' = some (name, value') ∧ Moved value value' := by
  cases moved with
  | nil => exact Or.inl ⟨rfl, rfl⟩
  | cons t span others =>
      cases others with
      | nil => exact Or.inl ⟨rfl, rfl⟩
      | @cons u place more more' others =>
          rw [Grammar.argumentName?, Grammar.argumentName?, Token.isAnyWord_movedTo,
            Token.isSign_movedTo, Token.isSign_movedTo, Token.text_movedTo]
          split
          case isTrue => exact Or.inr ⟨t.text, more, more', rfl, rfl, others⟩
          case isFalse => exact Or.inl ⟨rfl, rfl⟩

/-- The arguments of a call without places. -/
def Arguments.unplaced (args : Arguments α) : Arguments α :=
  (Expr.unplacedAll args.1, Expr.unplacedNamed args.2)

section Alike

variable {e e' f f' : Expr α} {place place' : Option Span}

theorem name_alike (root : String) {names names' : List String} (same : names = names')
    : Alike (Expr.unplaced (α := α)) (.name ⟨root, names⟩ place) (.name ⟨root, names'⟩ place') :=
  same ▸ rfl

theorem binary_alike (op : BinaryOp) (left : Alike Expr.unplaced e e')
    (right : Alike Expr.unplaced f f')
    : Alike Expr.unplaced (.binary op e f place) (.binary op e' f' place') := by
  simp only [Alike, Expr.unplaced] at left right ⊢
  rw [left, right]

theorem unary_alike (op : UnaryOp) (operand : Alike Expr.unplaced e e')
    : Alike Expr.unplaced (.unary op e place) (.unary op e' place') :=
  congrArg (Expr.unary op · none) operand

theorem call_alike (function : String) {args args' : Arguments α}
    (alike : Alike Arguments.unplaced args args')
    : Alike Expr.unplaced (.call function args.1 args.2 place)
        (.call function args'.1 args'.2 place') :=
  congrArg (fun all : Arguments α => Expr.call function all.1 all.2 none) alike

theorem positional_alike (first : Alike Expr.unplaced e e') {args args' : Arguments α}
    (others : Alike Arguments.unplaced args args')
    : Alike Arguments.unplaced (e :: args.1, args.2) (e' :: args'.1, args'.2) := by
  simp only [Alike, Arguments.unplaced, Prod.mk.injEq] at first others ⊢
  simp only [Expr.unplacedAll, first, others, and_self]

theorem named_alike (name : String) (first : Alike Expr.unplaced e e') {args args' : Arguments α}
    (others : Alike Arguments.unplaced args args')
    : Alike Arguments.unplaced (args.1, (name, e) :: args.2) (args'.1, (name, e') :: args'.2) := by
  simp only [Alike, Arguments.unplaced, Prod.mk.injEq] at first others ⊢
  simp only [Expr.unplacedNamed, Expr.unplacedEntry, first, others, and_self]

end Alike

-----------------------------------------------------------------------------------------
-- Expressions
-----------------------------------------------------------------------------------------

mutual

theorem binary_carried (level : Level) {ts ts' : List (Token α)} (moved : Moved ts ts')
    : Carried (Alike Expr.unplaced) (binary level ts).bare (binary level ts').bare := by
  rw [binary_bare, binary_bare]
  refine (operand_carried level moved).bind fun left left' rest rest' read is moved => ?_
  have shorter := Attempt.length_lt_of_bare read
  exact chain_carried level is moved
termination_by (ts.length, 2 * level.height + 3)
decreasing_by
  · exact Prod.Lex.right _ (by omega)
  · exact Prod.Lex.left _ _ shorter

theorem operand_carried (level : Level) {ts ts' : List (Token α)} (moved : Moved ts ts')
    : Carried (Alike Expr.unplaced) (operand level ts).bare (operand level ts').bare := by
  rw [operand, operand]
  cases next : level.next? with
  | none => exact unary_carried moved
  | some stronger => exact binary_carried stronger moved
termination_by (ts.length, 2 * level.height + 2)
decreasing_by
  · exact Prod.Lex.right _ (by cases level <;> simp [Level.height])
  · have stronger := Level.height_next? next
    exact Prod.Lex.right _ (by omega)

theorem chain_carried (level : Level) {left left' : Expr α} (is : Alike Expr.unplaced left left')
    {ts ts' : List (Token α)} (moved : Moved ts ts')
    : Carried (Alike Expr.unplaced) (bare (chain level left ts))
        (bare (chain level left' ts')) := by
  cases moved with
  | nil =>
      rw [chain, chain]
      exact .ok is .nil
  | @cons t span us us' others =>
      rw [chain_bare, chain_bare, operator?_movedTo]
      cases operator? level t with
      | none => exact .ok is (.cons t span others)
      | some op =>
          refine (operand_carried level others).bind
            fun right right' rest rest' read same moved => ?_
          have shorter := Attempt.length_lt_of_bare read
          exact chain_carried level (binary_alike op is same) moved
termination_by (ts.length, 2 * level.height + 1)
decreasing_by
  · exact Prod.Lex.left _ _ (Nat.lt_succ_self _)
  · exact Prod.Lex.left _ _ (Nat.lt_succ_of_lt shorter)

theorem unary_carried {ts ts' : List (Token α)} (moved : Moved ts ts')
    : Carried (Alike Expr.unplaced) (unary ts).bare (unary ts').bare := by
  cases moved with
  | nil =>
      rw [unary, primary]
      exact .error
  | @cons t span us us' others =>
      rw [unary_bare, unary_bare, leadingOperator?_movedTo]
      cases leadingOperator? t with
      | none => exact power_carried (.cons t span others)
      | some op => exact (unary_carried others).map fun _ _ is => unary_alike op is
termination_by (ts.length, 3)
decreasing_by
  · exact Prod.Lex.right _ (by omega)
  · exact Prod.Lex.left _ _ (Nat.lt_succ_self _)

theorem power_carried {ts ts' : List (Token α)} (moved : Moved ts ts')
    : Carried (Alike Expr.unplaced) (power ts).bare (power ts').bare := by
  rw [power_bare, power_bare]
  refine (primary_carried moved).bind fun base base' rest rest' read is moved => ?_
  have shorter := Attempt.length_lt_of_bare read
  cases moved with
  | nil => exact .ok is .nil
  | @cons t span us us' others =>
      dsimp only
      rw [Token.isSign_movedTo]
      split
      case isTrue => exact (unary_carried others).map fun _ _ same => binary_alike .pow is same
      case isFalse => exact .ok is (.cons t span others)
termination_by (ts.length, 2)
decreasing_by
  · exact Prod.Lex.right _ (by omega)
  · exact Prod.Lex.left _ _ (Nat.lt_of_succ_lt shorter)

theorem primary_carried {ts ts' : List (Token α)} (moved : Moved ts ts')
    : Carried (Alike Expr.unplaced) (primary ts).bare (primary ts').bare := by
  cases moved with
  | nil =>
      rw [primary]
      exact .error
  | @cons t span us us' others =>
      rw [primary_bare, primary_bare, Token.kind_movedTo, Token.text_movedTo]
      split
      case h_1 | h_2 | h_3 | h_4 => exact .ok rfl others
      case h_5 =>
        refine (binary_carried .disjunction others).bind
          fun inner inner' rest rest' _ is moved => ?_
        exact (expectSign_carries .rparen _ rest rest' moved).map fun _ _ _ => is
      case h_6 =>
        split
        case isTrue => exact .ok rfl others
        case isFalse =>
          split
          case isTrue => exact .error
          case isFalse =>
            cases others with
            | nil => exact .ok rfl .nil
            | @cons u place more more' others =>
                dsimp only
                rw [Token.isSign_movedTo]
                split
                case isTrue =>
                  exact (arguments_carried false others).map fun _ _ is => call_alike t.text is
                case isFalse =>
                  exact (segments_carried (.cons u place others)).map fun _ _ is =>
                    name_alike t.text is
      case h_7 => exact .error
termination_by (ts.length, 1)
decreasing_by
  · exact Prod.Lex.left _ _ (Nat.lt_succ_self _)
  · exact Prod.Lex.left _ _ (by simp only [List.length_cons]; omega)

theorem arguments_carried (afterNamed : Bool) {ts ts' : List (Token α)} (moved : Moved ts ts')
    : Carried (Alike Arguments.unplaced) (arguments afterNamed ts).bare
        (arguments afterNamed ts').bare := by
  cases moved with
  | nil =>
      rw [arguments]
      split <;> exact .error
  | @cons t span us us' others =>
      rw [arguments_bare, arguments_bare, Token.isSign_movedTo]
      split
      case isTrue => exact .ok rfl others
      case isFalse =>
        rcases (Moved.cons t span others).argumentName? with
          ⟨none, none'⟩ | ⟨name, value, value', some, some', moved⟩
        · rw [none, none']
          dsimp only
          split
          case isTrue => exact .error
          case isFalse =>
            refine (binary_carried .disjunction (.cons t span others)).bind
              fun first first' rest rest' read is moved => ?_
            have shorter := Attempt.length_lt_of_bare read
            exact (moreArguments_carried false moved).map fun _ _ same => positional_alike is same
        · have behind := argumentName?_shorter some
          rw [some, some']
          refine (binary_carried .disjunction moved).bind
            fun first first' rest rest' read is moved => ?_
          have shorter := Attempt.length_lt_of_bare read
          exact (moreArguments_carried true moved).map fun _ _ same => named_alike name is same
termination_by (ts.length, 20)
decreasing_by
  · exact Prod.Lex.right _ (by simp [Level.height])
  · exact Prod.Lex.left _ _ shorter
  · exact Prod.Lex.left _ _ behind
  · exact Prod.Lex.left _ _ (Nat.lt_trans shorter behind)

theorem moreArguments_carried (afterNamed : Bool) {ts ts' : List (Token α)}
    (moved : Moved ts ts')
    : Carried (Alike Arguments.unplaced) (moreArguments afterNamed ts).bare
        (moreArguments afterNamed ts').bare := by
  cases moved with
  | nil =>
      rw [moreArguments]
      exact .error
  | @cons t span us us' others =>
      rw [moreArguments_bare, moreArguments_bare, Token.isSign_movedTo, Token.isSign_movedTo]
      split
      case isTrue => exact .ok rfl others
      case isFalse =>
        split
        case isTrue => exact arguments_carried afterNamed others
        case isFalse => exact .error
termination_by (ts.length, 0)
decreasing_by
  exact Prod.Lex.left _ _ (Nat.lt_succ_self _)

end

/-- An expression is the same, up to places, wherever its tokens stand. -/
theorem expression_carries : Carries (Alike Expr.unplaced) (expression (α := α)) :=
  fun _ _ moved => binary_carried .disjunction moved

end Prognosis.Grammar
