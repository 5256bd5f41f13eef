import Prognosis.Diagnostic
import Prognosis.Syntax.Path
import Prognosis.Token

/-! Expressions as they are written. -/

namespace Prognosis

/-- Operators between two operands. -/
inductive BinaryOp where
  | or | and
  | eq | ne | lt | le | gt | ge
  | add | sub
  | mul | div | mod
  | pow
  deriving DecidableEq, Repr

namespace BinaryOp

/-- How the operator is written. -/
def text : BinaryOp → String
  | or => "or"
  | and => "and"
  | eq => "=="
  | ne => "!="
  | lt => "<"
  | le => "<="
  | gt => ">"
  | ge => ">="
  | add => "+"
  | sub => "-"
  | mul => "*"
  | div => "/"
  | mod => "%"
  | pow => "^"

/-- Binding strength; a prefix operator has strength six. -/
def precedence : BinaryOp → Nat
  | or => 1
  | and => 2
  | eq | ne | lt | le | gt | ge => 3
  | add | sub => 4
  | mul | div | mod => 5
  | pow => 7

end BinaryOp

/-- Operators in front of an operand. -/
inductive UnaryOp where
  | minus | plus | not | plusMinus
  deriving DecidableEq, Repr

namespace UnaryOp

/-- How the operator is written. -/
def text : UnaryOp → String
  | minus => "-"
  | plus => "+"
  | not => "not"
  | plusMinus => "±"

end UnaryOp

/-- An expression. Percentages are kept on the scale from 0 to 100, and amounts of money with
their magnitude applied.
-/
inductive Expr (α : Type) where
  | number (value : α) (span : Option Span)
  | percentage (value : α) (span : Option Span)
  | currency (value : α) (currency : Currency) (magnitude : Option Magnitude)
      (span : Option Span)
  | text (value : String) (span : Option Span)
  | boolean (value : Bool) (span : Option Span)
  | name (path : Path) (span : Option Span)
  | binary (op : BinaryOp) (left right : Expr α) (span : Option Span)
  | unary (op : UnaryOp) (operand : Expr α) (span : Option Span)
  | call (function : String) (positional : List (Expr α)) (named : List (String × Expr α))
      (span : Option Span)
  deriving Repr

namespace Expr

variable {α : Type}

/-- Place of the expression. -/
def span : Expr α → Option Span
  | number _ span
  | percentage _ span
  | currency _ _ _ span
  | text _ span
  | boolean _ span
  | name _ span
  | binary _ _ _ span
  | unary _ _ span
  | call _ _ _ span => span

/-- The parts of an expression, from left to right. -/
def children : Expr α → List (Expr α)
  | binary _ left right _ => [left, right]
  | unary _ operand _ => [operand]
  | call _ positional named _ => positional ++ named.map (·.2)
  | _ => []

mutual

/-- Number of nodes of an expression. -/
def size : Expr α → Nat
  | binary _ left right _ => left.size + right.size + 1
  | unary _ operand _ => operand.size + 1
  | call _ positional named _ => sizeOfAll positional + sizeOfNamed named + 1
  | _ => 1
termination_by structural e => e

/-- Number of nodes of a list of expressions. -/
def sizeOfAll : List (Expr α) → Nat
  | [] => 0
  | e :: rest => e.size + sizeOfAll rest
termination_by structural es => es

/-- Number of nodes of named expressions. -/
def sizeOfNamed : List (String × Expr α) → Nat
  | [] => 0
  | entry :: rest => sizeOfEntry entry + sizeOfNamed rest
termination_by structural es => es

/-- Number of nodes of a named expression. -/
def sizeOfEntry : String × Expr α → Nat
  | (_, e) => e.size
termination_by structural e => e

end

theorem sizeOfAll_append (xs ys : List (Expr α))
    : sizeOfAll (xs ++ ys) = sizeOfAll xs + sizeOfAll ys := by
  induction xs with
  | nil => simp [sizeOfAll]
  | cons x xs ih =>
      simp only [List.cons_append, sizeOfAll, ih]
      omega

theorem sizeOfAll_map_snd (named : List (String × Expr α))
    : sizeOfAll (named.map (·.2)) = sizeOfNamed named := by
  induction named with
  | nil => simp [sizeOfAll, sizeOfNamed]
  | cons entry rest ih =>
      obtain ⟨key, e⟩ := entry
      simp only [List.map_cons, sizeOfAll, sizeOfNamed, sizeOfEntry, ih]

/-- The parts of an expression are all of it but its own node. -/
theorem sizeOfAll_children (e : Expr α)
    : sizeOfAll e.children + 1 = e.size := by
  cases e <;>
    simp [children, size, sizeOfAll, sizeOfAll_append, sizeOfAll_map_snd]

/-- The nodes below a stack of expressions, each before its parts. -/
def walk : List (Expr α) → List (Expr α)
  | [] => []
  | e :: stack => e :: walk (e.children ++ stack)
termination_by stack => sizeOfAll stack
decreasing_by
  have hsize := sizeOfAll_children e
  simp only [sizeOfAll_append, sizeOfAll]
  omega

/-- All nodes of an expression, each before its parts and the parts from left to right. -/
def nodes (e : Expr α) : List (Expr α) :=
  walk [e]

/-- The name that the node is, with its place. -/
def name? : Expr α → Option (Path × Option Span)
  | name path span => some (path, span)
  | _ => none

/-- The names that an expression reads, in the order of the text. -/
def names (e : Expr α) : List (Path × Option Span) :=
  e.nodes.filterMap name?

/-- The expression behind leading signs that do not change it. -/
def unsigned : Expr α → Expr α
  | unary .plus operand _ => operand.unsigned
  | unary .plusMinus operand _ => operand.unsigned
  | e => e

/-- The expression is a percentage. -/
def isPercentage : Expr α → Bool
  | percentage .. => true
  | _ => false

/-- Functions that expressions may call. -/
inductive Builtin where
  | abs | avg | clamp | exp | lerp | log | max | min | pow | round | sqrt | sum
  deriving DecidableEq, Repr

namespace Builtin

/-- All functions, by name in alphabetical order. -/
def all : List Builtin :=
  [abs, avg, clamp, exp, lerp, log, max, min, pow, round, sqrt, sum]

/-- Name of the function. -/
def name : Builtin → String
  | abs => "abs"
  | avg => "avg"
  | clamp => "clamp"
  | exp => "exp"
  | lerp => "lerp"
  | log => "log"
  | max => "max"
  | min => "min"
  | pow => "pow"
  | round => "round"
  | sqrt => "sqrt"
  | sum => "sum"

/-- The function with this name. -/
def ofName? (name : String) : Option Builtin :=
  all.find? (·.name == name)

end Builtin

end Expr

end Prognosis
