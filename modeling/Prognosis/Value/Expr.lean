import Prognosis.Value.Builtin

/-! Values of expressions. There are two readings: as arithmetic, where ten percent is a tenth,
and as a declared magnitude, where it stays ten.
-/

namespace Prognosis.Expr

variable {α : Type} [Scalar α]

/-- Value of an operator that reads both its operands. Comparisons give one or zero, and a
quotient or remainder by zero is zero.
-/
def applyStrict (op : BinaryOp) (left right : α) : Except Halt α :=
  match op with
  | .add => .ok (left + right)
  | .sub => .ok (left - right)
  | .mul => .ok (left * right)
  | .div => .ok (if Scalar.isTrue right then left / right else Scalar.zero)
  | .mod =>
      if !Scalar.isTrue right then .ok Scalar.zero
      else
        let rest := Scalar.remainder left right
        if Scalar.isUndefined rest && !Scalar.isUndefined left
            && !Scalar.isUndefined right then .error (.fault .domain)
        else .ok rest
  | .pow => .ok (power left right)
  | .eq => .ok (Scalar.ofBool (Scalar.eq left right))
  | .ne => .ok (Scalar.ofBool (!Scalar.eq left right))
  | .lt => .ok (Scalar.ofBool (Scalar.lt left right))
  | .le => .ok (Scalar.ofBool (Scalar.le left right))
  | .gt => .ok (Scalar.ofBool (Scalar.lt right left))
  | .ge => .ok (Scalar.ofBool (Scalar.le right left))
  | .and => .ok (Scalar.ofBool (Scalar.isTrue left && Scalar.isTrue right))
  | .or => .ok (Scalar.ofBool (Scalar.isTrue left || Scalar.isTrue right))

/-- The operand that alone decides an operator, with the value that it gives. -/
def shortcut (op : BinaryOp) (left : α) : Option α :=
  match op with
  | .and => if Scalar.isTrue left then none else some Scalar.zero
  | .or => if Scalar.isTrue left then some Scalar.one else none
  | _ => none

/-- Value of an operator in front of an operand. -/
def applyUnary (op : UnaryOp) (operand : α) : α :=
  match op with
  | .minus => -operand
  | .not => Scalar.ofBool (!Scalar.isTrue operand)
  | .plus => operand
  | .plusMinus => operand

mutual

/-- Value of an expression as arithmetic. A dotted name reads the value of its first segment,
and the arguments of a known function are read before it is applied.
-/
def value (env : Env α) : Expr α → Except Halt α
  | number x _ => .ok x
  | percentage x _ => .ok (x / Scalar.ofNat 100)
  | currency x _ _ _ => .ok x
  | boolean b _ => .ok (Scalar.ofBool b)
  | text s _ => .error (.error (.textAsNumber s))
  | name path _ =>
      match env.lookup path.root with
      | some x => .ok x
      | none => .error (.error (.unknownName path))
  | unary op operand _ =>
      match value env operand with
      | .error halt => .error halt
      | .ok x => .ok (applyUnary op x)
  | binary op left right _ =>
      match value env left with
      | .error halt => .error halt
      | .ok x =>
          match shortcut op x with
          | some result => .ok result
          | none =>
              match value env right with
              | .error halt => .error halt
              | .ok y => applyStrict op x y
  | call function positional named _ =>
      match Builtin.ofName? function with
      | none => .error (.error (.unknownFunction function))
      | some builtin =>
          match values env positional with
          | .error halt => .error halt
          | .ok xs =>
              match namedValues env named with
              | .error halt => .error halt
              | .ok ys => builtin.call xs ys
termination_by structural e => e

/-- Values of expressions, from left to right. -/
def values (env : Env α) : List (Expr α) → Except Halt (List α)
  | [] => .ok []
  | e :: rest =>
      match value env e with
      | .error halt => .error halt
      | .ok x =>
          match values env rest with
          | .error halt => .error halt
          | .ok xs => .ok (x :: xs)
termination_by structural es => es

/-- Values of named expressions, from left to right. -/
def namedValues (env : Env α) : List (String × Expr α) → Except Halt (List (String × α))
  | [] => .ok []
  | entry :: rest =>
      match entryValue env entry with
      | .error halt => .error halt
      | .ok x =>
          match namedValues env rest with
          | .error halt => .error halt
          | .ok xs => .ok (x :: xs)
termination_by structural es => es

/-- Value of a named expression. -/
def entryValue (env : Env α) : String × Expr α → Except Halt (String × α)
  | (key, e) =>
      match value env e with
      | .error halt => .error halt
      | .ok x => .ok (key, x)
termination_by structural e => e

end

/-- Declared magnitude of an expression: a percentage behind signs keeps its scale from 0 to
100, and everything else is read as arithmetic.
-/
def magnitude (env : Env α) : Expr α → Except Halt α
  | percentage x _ => .ok x
  | unary .plus operand _ => magnitude env operand
  | unary .plusMinus operand _ => magnitude env operand
  | unary .minus operand _ =>
      match magnitude env operand with
      | .error halt => .error halt
      | .ok x => .ok (-x)
  | e => value env e

/-- Declared magnitudes, from left to right. -/
def magnitudes (env : Env α) : List (Expr α) → Except Halt (List α)
  | [] => .ok []
  | e :: rest =>
      match magnitude env e with
      | .error halt => .error halt
      | .ok x =>
          match magnitudes env rest with
          | .error halt => .error halt
          | .ok xs => .ok (x :: xs)

/-- Value of an expression built from literals alone, as written; none for any other one and
for a quotient by zero.
-/
def literal? : Expr α → Option α
  | number x _ => some x
  | percentage x _ => some x
  | currency x _ _ _ => some x
  | unary op operand _ =>
      match op, literal? operand with
      | .minus, some x => some (-x)
      | .plus, some x => some x
      | .plusMinus, some x => some x
      | _, _ => none
  | binary op left right _ =>
      match op, literal? left, literal? right with
      | .add, some x, some y => some (x + y)
      | .sub, some x, some y => some (x - y)
      | .mul, some x, some y => some (x * y)
      | .div, some x, some y => if Scalar.isTrue y then some (x / y) else none
      | _, _, _ => none
  | _ => none

end Prognosis.Expr
