import Prognosis.Scalar
import Prognosis.Syntax.Expr
import Prognosis.Value.Halt

/-! The functions that expressions may call. Outside their domains they are undefined and do
not fail, because a sampled operand may stray there.
-/

namespace Prognosis

variable {α : Type} [Scalar α]

/-- Largest argument of the exponential function that is used, well inside its range. -/
def exponentLimit : α :=
  Scalar.ofNat 700

/-- Power of two numbers. Zero to a negative power is zero. A power of finite numbers whose size
is beyond all bounds is infinite; otherwise a negative number to a fractional power is
undefined.
-/
def power (base exponent : α) : α :=
  if Scalar.isFinite exponent && Scalar.eq base Scalar.zero
      && Scalar.lt exponent Scalar.zero then Scalar.zero
  else if Scalar.isFinite base && Scalar.isFinite exponent
      && !Scalar.isFinite (Scalar.pow (Scalar.abs base) exponent) then Scalar.infinity
  else Scalar.pow base exponent

/-- Logarithm, natural or to a base. -/
def logarithm (x : α) (base : Option α) : α :=
  let positive (y : α) : Bool := Scalar.lt Scalar.zero y
  match base with
  | none => if positive x then Scalar.log x else Scalar.undefined
  | some b =>
      if positive x && positive b && !Scalar.eq b Scalar.one then Scalar.log x / Scalar.log b
      else Scalar.undefined

/-- Square root. -/
def squareRoot (x : α) : α :=
  if Scalar.le Scalar.zero x then Scalar.sqrt x else Scalar.undefined

/-- The number rounded to a count of places, given as a number too. -/
def roundTo (x digits : α) : Except Halt α :=
  if Scalar.isUndefined digits then .error (.error (.badArguments "round"))
  else
    match Scalar.truncate? digits with
    | none => .error (.fault .overflow)
    | some places =>
        let rounded := Scalar.round x places
        if Scalar.isFinite x && !Scalar.isFinite rounded then .error (.fault .overflow)
        else .ok rounded

/-- Values of arguments in the order of the parameters: the positional ones first, then each
named one at its parameter, the last one counting. A name that is no parameter or whose
parameter has a positional value is refused, and so are too many values.
-/
def bindArguments (parameters : List String) (positional : List α)
    (named : List (String × α)) : Option (List (Option α)) :=
  let free := parameters.drop positional.length
  if parameters.length < positional.length then none
  else if named.any fun (key, _) => !free.contains key then none
  else
    some (positional.map some
      ++ free.map fun parameter =>
        (named.reverse.find? fun (key, _) => key == parameter).map (·.2))

namespace Expr.Builtin

/-- Names of the parameters; none for functions of any number of positional arguments. -/
def parameters? : Builtin → Option (List String)
  | sqrt => some ["x"]
  | exp => some ["x"]
  | pow => some ["x", "y"]
  | log => some ["x", "base"]
  | round => some ["x", "digits"]
  | clamp => some ["x", "low", "high"]
  | lerp => some ["a", "b", "t"]
  | abs | avg | max | min | sum => none

/-- Value of a function of positional arguments only. -/
def ofList? : Builtin → List α → Option α
  | abs, [x] => some (Scalar.abs x)
  | min, x :: xs => some (xs.foldl Scalar.least x)
  | max, x :: xs => some (xs.foldl Scalar.greatest x)
  | sum, xs => some (Scalar.sum xs)
  | avg, [] => some Scalar.zero
  | avg, x :: xs => some (Scalar.sum (x :: xs) / Scalar.ofNat (xs.length + 1))
  | _, _ => none

/-- Value of a function of parameters with names. -/
def ofSlots : Builtin → List (Option α) → Except Halt α
  | sqrt, [some x] => .ok (squareRoot x)
  | exp, [some x] => .ok (Scalar.exp (Scalar.least x exponentLimit))
  | pow, [some x, some y] => .ok (power x y)
  | log, [some x, base] => .ok (logarithm x base)
  | round, [some x, digits] => roundTo x (digits.getD Scalar.zero)
  | clamp, [some x, some low, some high] =>
      .ok (Scalar.least (Scalar.greatest x low) high)
  | lerp, [some a, some b, some t] => .ok (a + (b - a) * t)
  | function, _ => .error (.error (.badArguments function.name))

/-- Value of a function. -/
def call (function : Builtin) (positional : List α) (named : List (String × α))
    : Except Halt α :=
  let refused : Except Halt α := .error (.error (.badArguments function.name))
  match function.parameters? with
  | none =>
      if named.isEmpty then
        match function.ofList? positional with
        | some value => .ok value
        | none => refused
      else refused
  | some parameters =>
      match bindArguments parameters positional named with
      | some slots => function.ofSlots slots
      | none => refused

end Expr.Builtin

end Prognosis
