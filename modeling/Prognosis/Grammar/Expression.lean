import Prognosis.Grammar.Parsed

/-! Expressions read from tokens. The operators bind, weakest first, as "or", "and",
comparisons, sums, products, prefix operators, powers; all between two operands associate to
the left save powers.
-/

namespace Prognosis.Grammar

variable {α : Type}

/-- Strengths of the operators that associate to the left. -/
inductive Level where
  | disjunction | conjunction | comparison | additive | multiplicative
  deriving DecidableEq, Repr

namespace Level

/-- The next stronger level; none where prefix operators come next. -/
def next? : Level → Option Level
  | disjunction => some conjunction
  | conjunction => some comparison
  | comparison => some additive
  | additive => some multiplicative
  | multiplicative => none

/-- Number of levels from this one up. -/
def height : Level → Nat
  | disjunction => 5
  | conjunction => 4
  | comparison => 3
  | additive => 2
  | multiplicative => 1

theorem height_next? {level stronger : Level} (h : level.next? = some stronger)
    : stronger.height < level.height := by
  cases level <;> cases h <;> decide

end Level

/-- The operator of a level that the token is. -/
def operator? (level : Level) (t : Token α) : Option BinaryOp :=
  match level, t.kind with
  | .disjunction, .word => if t.text == "or" then some .or else none
  | .conjunction, .word => if t.text == "and" then some .and else none
  | .comparison, .sign .eq => some .eq
  | .comparison, .sign .ne => some .ne
  | .comparison, .sign .lt => some .lt
  | .comparison, .sign .le => some .le
  | .comparison, .sign .gt => some .gt
  | .comparison, .sign .ge => some .ge
  | .additive, .sign .plus => some .add
  | .additive, .sign .minus => some .sub
  | .multiplicative, .sign .star => some .mul
  | .multiplicative, .sign .slash => some .div
  | .multiplicative, .sign .percent => some .mod
  | _, _ => none

/-- The operator in front of an operand that the token is. -/
def leadingOperator? (t : Token α) : Option UnaryOp :=
  match t.kind with
  | .sign .minus => some .minus
  | .sign .plus => some .plus
  | .sign .plusMinus => some .plusMinus
  | .word => if t.text == "not" then some .not else none
  | _ => none

/-- Words that are no names in expressions. -/
def reservedWords : List String :=
  ["and", "or", "not", "true", "false"]

/-- The name of a named argument that starts here, with the tokens of its value. -/
def argumentName? : List (Token α) → Option (String × List (Token α))
  | t :: u :: rest =>
      if t.isAnyWord && (u.isSign .assign || u.isSign .eq) then some (t.text, rest) else none
  | _ => none

theorem argumentName?_shorter {ts rest : List (Token α)} {name : String}
    (h : argumentName? ts = some (name, rest))
    : rest.length < ts.length := by
  unfold argumentName? at h
  split at h
  · split at h
    · cases h
      simp only [List.length_cons]
      omega
    · cases h
  · cases h

/-- Arguments of a call: the positional ones and the named ones. -/
abbrev Arguments (α : Type) :=
  List (Expr α) × List (String × Expr α)

mutual

/-- Reads an expression whose outermost operators are of the level or stronger. -/
def binary (level : Level) (ts : List (Token α)) : Attempt α (Expr α) ts :=
  match operand level ts with
  | .error e => .error e
  | .ok left =>
      match chain level left.value left.rest with
      | .error e => .error e
      | .ok all => .ok (left.followed all)
termination_by (ts.length, 2 * level.height + 3)
decreasing_by
  · exact Prod.Lex.right _ (by omega)
  · exact Prod.Lex.left _ _ left.shorter

/-- Reads an operand of the operators of a level. -/
def operand (level : Level) (ts : List (Token α)) : Attempt α (Expr α) ts :=
  match _h : level.next? with
  | some stronger => binary stronger ts
  | none => unary ts
termination_by (ts.length, 2 * level.height + 2)
decreasing_by
  · have hlt := Level.height_next? _h
    exact Prod.Lex.right _ (by omega)
  · exact Prod.Lex.right _ (by cases level <;> simp [Level.height])

/-- Reads on with operators of a level after a first operand. -/
def chain (level : Level) (left : Expr α) (ts : List (Token α))
    : Except Failure (Continued α (Expr α) ts) :=
  match ts with
  | [] => .ok (.stay left)
  | t :: rest =>
      match operator? level t with
      | none => .ok (.stay left)
      | some op =>
          match operand level rest with
          | .error e => .error e
          | .ok right =>
              match chain level (.binary op left right.value (some t.span)) right.rest with
              | .error e => .error e
              | .ok all =>
                  .ok ⟨all.value, all.rest, by
                    have := all.notLonger
                    have := right.shorter
                    simp only [List.length_cons]
                    omega⟩
termination_by (ts.length, 2 * level.height + 1)
decreasing_by
  · exact Prod.Lex.left _ _ (Nat.lt_succ_self _)
  · exact Prod.Lex.left _ _ (Nat.lt_succ_of_lt right.shorter)

/-- Reads an expression with the operators in front of it. -/
def unary (ts : List (Token α)) : Attempt α (Expr α) ts :=
  match ts with
  | [] => primary []
  | t :: rest =>
      match leadingOperator? t with
      | some op =>
          match unary rest with
          | .error e => .error e
          | .ok operand =>
              .ok ((operand.map fun e => .unary op e (some t.span)).afterToken t)
      | none => power (t :: rest)
termination_by (ts.length, 3)
decreasing_by
  · exact Prod.Lex.right _ (by omega)
  · exact Prod.Lex.left _ _ (Nat.lt_succ_self _)
  · exact Prod.Lex.right _ (by omega)

/-- Reads an expression with its exponent. -/
def power (ts : List (Token α)) : Attempt α (Expr α) ts :=
  match primary ts with
  | .error e => .error e
  | .ok base =>
      match hrest : base.rest with
      | [] => .ok base
      | t :: rest =>
          if t.isSign .caret then
            match unary rest with
            | .error e => .error e
            | .ok exponent =>
                .ok ⟨.binary .pow base.value exponent.value (some t.span), exponent.rest, by
                  have hbase := base.shorter
                  have hexponent := exponent.shorter
                  simp only [hrest, List.length_cons] at hbase
                  omega⟩
          else .ok base
termination_by (ts.length, 2)
decreasing_by
  · exact Prod.Lex.right _ (by omega)
  · have hbase := base.shorter
    simp only [hrest, List.length_cons] at hbase
    exact Prod.Lex.left _ _ (by omega)

/-- Reads a literal, a name, a call or an expression in parentheses. -/
def primary (ts : List (Token α)) : Attempt α (Expr α) ts :=
  match ts with
  | [] => failAtEnd "an expression"
  | t :: rest =>
      match t.kind with
      | .number value => .ok (.single t (.number value (some t.span)))
      | .percentage value => .ok (.single t (.percentage value (some t.span)))
      | .currency amount currency magnitude =>
          .ok (.single t (.currency amount currency magnitude (some t.span)))
      | .text value => .ok (.single t (.text value (some t.span)))
      | .sign .lparen =>
          match binary .disjunction rest with
          | .error e => .error e
          | .ok inner =>
              match expectSign .rparen "')'" inner.rest with
              | .error e => .error e
              | .ok closed => .ok (((inner.after closed).map fun _ => inner.value).afterToken t)
      | .word =>
          if t.text == "true" || t.text == "false" then
            .ok (.single t (.boolean (t.text == "true") (some t.span)))
          else if reservedWords.contains t.text then
            failHere (t :: rest) (.keywordInExpression t.text)
          else
            match rest with
            | [] => .ok (.single t (.name ⟨t.text, []⟩ (some t.span)))
            | u :: more =>
                if u.isSign .lparen then
                  match arguments false more with
                  | .error e => .error e
                  | .ok args =>
                      .ok (((args.map fun (positional, named) =>
                        .call t.text positional named (some t.span)).afterToken u).afterToken t)
                else
                  match segments (u :: more) with
                  | .error e => .error e
                  | .ok s =>
                      .ok ⟨.name ⟨t.text, s.value⟩ (some t.span), s.rest,
                        Nat.lt_succ_of_le s.notLonger⟩
      | _ => failExpected (t :: rest) "an expression"
termination_by (ts.length, 1)
decreasing_by
  · exact Prod.Lex.left _ _ (Nat.lt_succ_self _)
  · exact Prod.Lex.left _ _ (by simp only [List.length_cons]; omega)

/-- Reads the arguments of a call up to its closing parenthesis. After a named argument no
positional one may follow, and a comma may stand after the last argument.
-/
def arguments (afterNamed : Bool) (ts : List (Token α)) : Attempt α (Arguments α) ts :=
  match ts with
  | [] => if afterNamed then .error (.finding ⟨.positionalAfterNamed, none⟩) else failAtEnd "an expression"
  | t :: rest =>
      if t.isSign .rparen then .ok (.single t ([], []))
      else
        match h : argumentName? (t :: rest) with
        | some (name, value) =>
            match binary .disjunction value with
            | .error e => .error e
            | .ok argument =>
                match moreArguments true argument.rest with
                | .error e => .error e
                | .ok others =>
                    .ok ⟨(others.value.1, (name, argument.value) :: others.value.2),
                      others.rest, by
                        have := argumentName?_shorter h
                        have := argument.shorter
                        have := others.shorter
                        omega⟩
        | none =>
            if afterNamed then failHere (t :: rest) .positionalAfterNamed
            else
              match binary .disjunction (t :: rest) with
              | .error e => .error e
              | .ok argument =>
                  match moreArguments false argument.rest with
                  | .error e => .error e
                  | .ok others =>
                      .ok ((argument.after others).map fun (positional, named) =>
                        (argument.value :: positional, named))
termination_by (ts.length, 20)
decreasing_by
  · exact Prod.Lex.left _ _ (argumentName?_shorter h)
  · have := argumentName?_shorter h
    have := argument.shorter
    exact Prod.Lex.left _ _ (by omega)
  · exact Prod.Lex.right _ (by simp [Level.height])
  · exact Prod.Lex.left _ _ argument.shorter

/-- Reads what follows an argument: the closing parenthesis, or a comma and more arguments. -/
def moreArguments (afterNamed : Bool) (ts : List (Token α)) : Attempt α (Arguments α) ts :=
  match ts with
  | [] => failAtEnd "',' or ')'"
  | t :: rest =>
      if t.isSign .rparen then .ok (.single t ([], []))
      else if t.isSign .comma then
        match arguments afterNamed rest with
        | .error e => .error e
        | .ok others => .ok (others.afterToken t)
      else failExpected (t :: rest) "',' or ')'"
termination_by (ts.length, 0)
decreasing_by
  · exact Prod.Lex.left _ _ (Nat.lt_succ_self _)

end

/-- Reads an expression. -/
def expression (ts : List (Token α)) : Attempt α (Expr α) ts :=
  binary .disjunction ts

end Prognosis.Grammar
