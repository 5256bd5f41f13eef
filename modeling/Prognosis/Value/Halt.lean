import Prognosis.Fault
import Prognosis.Syntax.Path

/-! Why an expression has no value, and values of names. -/

namespace Prognosis

/-- Faults of an expression that show when it is evaluated. -/
inductive EvalError where
  | unknownName (path : Path)
  | unknownFunction (name : String)
  | textAsNumber (value : String)
  | badArguments (function : String)
  deriving DecidableEq, Repr

/-- The error in words. -/
def EvalError.message : EvalError → String
  | unknownName path => "Unknown identifier '" ++ path.text ++ "'"
  | unknownFunction name => "Unknown function '" ++ name ++ "'"
  | textAsNumber value => "String \"" ++ value ++ "\" used as a number"
  | badArguments function => "Bad arguments to " ++ function ++ "()"

/-- Why a computation on a scenario stopped: an expression is at fault, or a computation with
numbers broke down.
-/
inductive Halt where
  | error (error : EvalError)
  | fault (fault : Fault)
  deriving DecidableEq, Repr

/-- A computation with numbers as a computation on a scenario. -/
def Halt.lift {β : Type} : Except Fault β → Except Halt β
  | .error f => .error (.fault f)
  | .ok v => .ok v

/-- Values of names. Of two values of a name the first one counts. -/
abbrev Env (α : Type) :=
  List (String × α)

end Prognosis
