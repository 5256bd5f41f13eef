import Prognosis.Grammar.Expression

/-! The grammar of expressions, apart from how they are read: which tokens write which expression.
Operators between two operands form five strata, weakest first, each of them associating to the
left; prefix operators stand over powers, and powers over literals, names, calls and parentheses.
-/

-----------------------------------------------------------------------------------------
-- Tokens
-----------------------------------------------------------------------------------------

namespace Prognosis

/-- The sign that writes an operator; none where a word does. -/
def BinaryOp.sign? : BinaryOp → Option Sign
  | or | and => none
  | eq => some .eq
  | ne => some .ne
  | lt => some .lt
  | le => some .le
  | gt => some .gt
  | ge => some .ge
  | add => some .plus
  | sub => some .minus
  | mul => some .star
  | div => some .slash
  | mod => some .percent
  | pow => some .caret

/-- The sign that writes an operator; none where a word does. -/
def UnaryOp.sign? : UnaryOp → Option Sign
  | minus => some .minus
  | plus => some .plus
  | plusMinus => some .plusMinus
  | not => none

namespace Token

variable {α : Type}

/-- The token is this word. -/
def Spells (t : Token α) (word : String) : Prop :=
  t.kind = .word ∧ t.text = word

/-- The token writes the operator between two operands. -/
def Writes (t : Token α) (op : BinaryOp) : Prop :=
  match op.sign? with
  | some sign => t.kind = .sign sign
  | none => t.Spells op.text

/-- The token writes the operator in front of an operand. -/
def Leads (t : Token α) (op : UnaryOp) : Prop :=
  match op.sign? with
  | some sign => t.kind = .sign sign
  | none => t.Spells op.text

/-- A token writes one operator at most. -/
theorem Writes.unique {t : Token α} {op op' : BinaryOp} (writes : t.Writes op)
    (writes' : t.Writes op')
    : op = op' := by
  cases op <;> cases op' <;>
    simp_all [Writes, BinaryOp.sign?, Spells, BinaryOp.text]

/-- The token can go on with an expression: a dot, an opening parenthesis, or an operator between
two operands.
-/
def Continues (t : Token α) : Prop :=
  t.kind = .sign .dot ∨ t.kind = .sign .lparen ∨ ∃ op, t.Writes op

/-- The literal that the token is. -/
def literal? (t : Token α) : Option (Expr α) :=
  match t.kind with
  | .number value => some (.number value (some t.span))
  | .percentage value => some (.percentage value (some t.span))
  | .currency amount currency magnitude =>
      some (.currency amount currency magnitude (some t.span))
  | .text value => some (.text value (some t.span))
  | .word =>
      if t.text = "true" then some (.boolean true (some t.span))
      else if t.text = "false" then some (.boolean false (some t.span))
      else none
  | _ => none

/-- The token can start a name or a call. -/
def Namable (t : Token α) : Prop :=
  t.kind = .word ∧ t.text ∉ Grammar.reservedWords

end Token

namespace Grammar

variable {α : Type}

-----------------------------------------------------------------------------------------
-- Strata
-----------------------------------------------------------------------------------------

/-- Strata of expressions. -/
inductive Stratum where
  | binary (level : Level)
  | unary
  | power
  | primary

/-- The stratum of the operands of a level. -/
def Level.operands (level : Level) : Stratum :=
  match level.next? with
  | some stronger => .binary stronger
  | none => .unary

/-- Strength of the operators of a level. -/
def Level.strength : Level → Nat
  | disjunction => 1
  | conjunction => 2
  | comparison => 3
  | additive => 4
  | multiplicative => 5

/-- Strength of the weakest operators that stand in expressions of the stratum outside
parentheses; beyond that of powers where there are none.
-/
def Stratum.strength : Stratum → Nat
  | binary level => level.strength
  | unary => 6
  | power => 7
  | primary => 8

theorem Stratum.strength_le (s : Stratum) : s.strength ≤ primary.strength := by
  cases s with
  | binary level => cases level <;> decide
  | unary | power | primary => decide

theorem Stratum.strength_injective {s s' : Stratum} (same : s.strength = s'.strength)
    : s = s' := by
  cases s <;> cases s' <;> simp [strength] at same ⊢
  case binary.binary level level' => cases level <;> cases level' <;> cases same <;> rfl
  all_goals rename_i level; cases level <;> cases same

theorem Level.strength_operands (level : Level)
    : level.operands.strength = level.strength + 1 := by
  cases level <;> rfl

/-- No token comes first that goes on with an expression of the strength: no dot, no opening
parenthesis, and no operator that is as strong.
-/
def Stops (strength : Nat) (ts : List (Token α)) : Prop :=
  ∀ t, ts.head? = some t → t.kind ≠ .sign .dot ∧ t.kind ≠ .sign .lparen
    ∧ ∀ op, t.Writes op → op.precedence < strength

/-- The tokens begin with a word and an equals sign, single or double. -/
def BeginsNamed (ts : List (Token α)) : Prop :=
  ∃ name sign value, ts = name :: sign :: value ∧ name.kind = .word
    ∧ (sign.kind = .sign .assign ∨ sign.kind = .sign .eq)

/-- The tokens write the segments of a dotted name after its first one. -/
inductive DerivesSegments : List (Token α) → List String → Prop
  | none : DerivesSegments [] []
  | dot {dot segment : Token α} {ts : List (Token α)} {names : List String}
      (isDot : dot.kind = .sign .dot) (word : segment.kind = .word)
      (others : DerivesSegments ts names)
    : DerivesSegments (dot :: segment :: ts) (segment.text :: names)

mutual

/-- The tokens write the expression, as one of the stratum. -/
inductive Derives : Stratum → List (Token α) → Expr α → Prop
  | operand {level : Level} {ts : List (Token α)} {e : Expr α}
      (inner : Derives level.operands ts e)
    : Derives (.binary level) ts e
  | joined {level : Level} {before after : List (Token α)} {t : Token α} {op : BinaryOp}
      {left right : Expr α}
      (first : Derives (.binary level) before left)
      (writes : t.Writes op) (strength : op.precedence = level.strength)
      (second : Derives level.operands after right)
    : Derives (.binary level) (before ++ t :: after) (.binary op left right (some t.span))
  | prefixed {ts : List (Token α)} {t : Token α} {op : UnaryOp} {e : Expr α}
      (leads : t.Leads op) (inner : Derives .unary ts e)
    : Derives .unary (t :: ts) (.unary op e (some t.span))
  | unprefixed {ts : List (Token α)} {e : Expr α} (inner : Derives .power ts e)
    : Derives .unary ts e
  | raised {before after : List (Token α)} {t : Token α} {base exponent : Expr α}
      (first : Derives .primary before base) (isCaret : t.kind = .sign .caret)
      (second : Derives .unary after exponent)
    : Derives .power (before ++ t :: after) (.binary .pow base exponent (some t.span))
  | unraised {ts : List (Token α)} {e : Expr α} (inner : Derives .primary ts e)
    : Derives .power ts e
  | literal {t : Token α} {e : Expr α} (is : t.literal? = some e)
    : Derives .primary [t] e
  | parentheses {opening closing : Token α} {ts : List (Token α)} {e : Expr α}
      (opens : opening.kind = .sign .lparen) (inner : Derives (.binary .disjunction) ts e)
      (closes : closing.kind = .sign .rparen)
    : Derives .primary (opening :: (ts ++ [closing])) e
  | name {t : Token α} {ts : List (Token α)} {names : List String}
      (namable : t.Namable) (dotted : DerivesSegments ts names)
    : Derives .primary (t :: ts) (.name ⟨t.text, names⟩ (some t.span))
  | call {t opening closing : Token α} {ts : List (Token α)} {positional : List (Expr α)}
      {named : List (String × Expr α)}
      (namable : t.Namable) (opens : opening.kind = .sign .lparen)
      (arguments : DerivesArguments ts positional named) (closes : closing.kind = .sign .rparen)
    : Derives .primary (t :: opening :: (ts ++ [closing]))
        (.call t.text positional named (some t.span))

/-- The tokens write the arguments of a call, the positional ones before the named ones. What
begins as a named argument is none of the positional ones.
-/
inductive DerivesArguments
    : List (Token α) → List (Expr α) → List (String × Expr α) → Prop
  | none : DerivesArguments [] [] []
  | positional {ts more : List (Token α)} {e : Expr α} {positional : List (Expr α)}
      {named : List (String × Expr α)}
      (unnamed : ¬BeginsNamed ts) (first : Derives (.binary .disjunction) ts e)
      (others : DerivesMore more positional named)
    : DerivesArguments (ts ++ more) (e :: positional) named
  | named {name sign : Token α} {ts more : List (Token α)} {e : Expr α}
      {named : List (String × Expr α)}
      (word : name.kind = .word) (equals : sign.kind = .sign .assign ∨ sign.kind = .sign .eq)
      (first : Derives (.binary .disjunction) ts e) (others : DerivesMore more [] named)
    : DerivesArguments (name :: sign :: (ts ++ more)) [] ((name.text, e) :: named)

/-- The tokens write what follows an argument: nothing, or a comma and what may be more
arguments.
-/
inductive DerivesMore : List (Token α) → List (Expr α) → List (String × Expr α) → Prop
  | none : DerivesMore [] [] []
  | comma {comma : Token α} {ts : List (Token α)} {positional : List (Expr α)}
      {named : List (String × Expr α)}
      (isComma : comma.kind = .sign .comma) (others : DerivesArguments ts positional named)
    : DerivesMore (comma :: ts) positional named

end

/-- Induction along the derivation of an expression, where nothing is asked of the arguments of
calls.
-/
@[elab_as_elim]
theorem Derives.induction
    {motive : (s : Stratum) → (ts : List (Token α)) → (e : Expr α) → Derives s ts e → Prop}
    (operand : ∀ {level : Level} {ts : List (Token α)} {e : Expr α}
      (inner : Derives level.operands ts e), motive _ _ _ inner → motive _ _ _ (.operand inner))
    (joined : ∀ {level : Level} {before after : List (Token α)} {t : Token α} {op : BinaryOp}
      {left right : Expr α} (first : Derives (.binary level) before left) (writes : t.Writes op)
      (strength : op.precedence = level.strength) (second : Derives level.operands after right),
      motive _ _ _ first → motive _ _ _ second →
      motive _ _ _ (.joined first writes strength second))
    (prefixed : ∀ {ts : List (Token α)} {t : Token α} {op : UnaryOp} {e : Expr α}
      (leads : t.Leads op) (inner : Derives .unary ts e), motive _ _ _ inner →
      motive _ _ _ (.prefixed leads inner))
    (unprefixed : ∀ {ts : List (Token α)} {e : Expr α} (inner : Derives .power ts e),
      motive _ _ _ inner → motive _ _ _ (.unprefixed inner))
    (raised : ∀ {before after : List (Token α)} {t : Token α} {base exponent : Expr α}
      (first : Derives .primary before base) (isCaret : t.kind = .sign .caret)
      (second : Derives .unary after exponent), motive _ _ _ first → motive _ _ _ second →
      motive _ _ _ (.raised first isCaret second))
    (unraised : ∀ {ts : List (Token α)} {e : Expr α} (inner : Derives .primary ts e),
      motive _ _ _ inner → motive _ _ _ (.unraised inner))
    (literal : ∀ {t : Token α} {e : Expr α} (is : t.literal? = some e),
      motive _ _ _ (.literal is))
    (parentheses : ∀ {opening closing : Token α} {ts : List (Token α)} {e : Expr α}
      (opens : opening.kind = .sign .lparen) (inner : Derives (.binary .disjunction) ts e)
      (closes : closing.kind = .sign .rparen), motive _ _ _ inner →
      motive _ _ _ (.parentheses opens inner closes))
    (name : ∀ {t : Token α} {ts : List (Token α)} {names : List String} (namable : t.Namable)
      (dotted : DerivesSegments ts names), motive _ _ _ (.name namable dotted))
    (call : ∀ {t opening closing : Token α} {ts : List (Token α)} {positional : List (Expr α)}
      {named : List (String × Expr α)} (namable : t.Namable)
      (opens : opening.kind = .sign .lparen) (arguments : DerivesArguments ts positional named)
      (closes : closing.kind = .sign .rparen),
      motive _ _ _ (.call namable opens arguments closes))
    {s : Stratum} {ts : List (Token α)} {e : Expr α} (derived : Derives s ts e)
    : motive s ts e derived :=
  @Derives.rec α motive (fun _ _ _ _ => True) (fun _ _ _ _ => True)
    operand joined prefixed unprefixed raised unraised literal parentheses name
    (fun namable opens arguments closes _ => call namable opens arguments closes)
    trivial (fun _ _ _ _ _ => trivial) (fun _ _ _ _ _ _ => trivial)
    trivial (fun _ _ _ => trivial) s ts e derived

/-- An expression of a stratum is one of every weaker stratum. -/
theorem Derives.weaken {s s' : Stratum} {ts : List (Token α)} {e : Expr α}
    (derived : Derives s ts e) (le : s'.strength ≤ s.strength)
    : Derives s' ts e := by
  by_cases same : s'.strength = s.strength
  case pos => exact Stratum.strength_injective same ▸ derived
  case neg =>
    have below : s'.strength < s.strength := by omega
    match s', below with
    | .binary level, below =>
        have next : level.operands.strength ≤ s.strength := level.strength_operands ▸ below
        exact .operand (derived.weaken next)
    | .unary, below => exact .unprefixed (derived.weaken (below : Stratum.power.strength ≤ _))
    | .power, below => exact .unraised (derived.weaken (below : Stratum.primary.strength ≤ _))
    | .primary, below => exact absurd s.strength_le (Nat.not_le_of_lt below)
termination_by s.strength - s'.strength
decreasing_by
  · exact Nat.sub_lt_sub_left below (level.strength_operands ▸ Nat.lt_succ_self _)
  · exact Nat.sub_lt_sub_left below (by decide)
  · exact Nat.sub_lt_sub_left below (by decide)

end Grammar

end Prognosis
