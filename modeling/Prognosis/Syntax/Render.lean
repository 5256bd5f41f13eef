import Prognosis.Syntax.Distribution

/-! Expressions and distributions written back as text. -/

namespace Prognosis

namespace Expr

variable {α : Type} [Scalar α]

/-- A text between double quotes. -/
def quotedText (value : String) : String :=
  let escaped := value.toList.flatMap fun c =>
    if c == '\\' || c == '"' then ['\\', c] else [c]
  String.ofList ('"' :: escaped ++ ['"'])

mutual

/-- Text of an expression that stands where operators of the given strength bind: a weaker
operator between two operands is put in parentheses.
-/
def render (strength : Nat) : Expr α → String
  | number value _ => Scalar.general value
  | percentage value _ => Scalar.general value ++ "%"
  | currency value unit _ _ => Scalar.general value ++ " " ++ unit.code
  | text value _ => quotedText value
  | boolean value _ => if value then "true" else "false"
  | name path _ => path.text
  | unary op operand _ =>
      op.text ++ (if op == .not then " " else "") ++ render 6 operand
  | binary op left right _ =>
      let own := op.precedence
      let text := render own left ++ " " ++ op.text ++ " "
        ++ render (if op == .pow then own else own + 1) right
      if own < strength then "(" ++ text ++ ")" else text
  | call function positional named _ =>
      function ++ "(" ++ commaSeparated (renderAll positional ++ renderNamed named) ++ ")"
termination_by structural e => e

/-- Texts of a list of expressions. -/
def renderAll : List (Expr α) → List String
  | [] => []
  | e :: rest => render 0 e :: renderAll rest
termination_by structural es => es

/-- Texts of named arguments. -/
def renderNamed : List (String × Expr α) → List String
  | [] => []
  | entry :: rest => renderEntry entry :: renderNamed rest
termination_by structural es => es

/-- Text of a named argument. -/
def renderEntry : String × Expr α → String
  | (key, e) => key ++ "=" ++ render 0 e
termination_by structural e => e

end

/-- Text of an expression. -/
def toText (e : Expr α) : String :=
  render 0 e

end Expr

/-- Text of a distribution; a relative spread is written with its sign. -/
def Distribution.toText {α : Type} [Scalar α] (d : Distribution α) : String :=
  if d.isRelative then
    "normal(±" ++ "".intercalate (d.positional.map fun e => e.unsigned.toText) ++ ")"
  else
    d.kind.name ++ "("
      ++ commaSeparated (Expr.renderAll d.positional ++ Expr.renderNamed d.named) ++ ")"

end Prognosis
