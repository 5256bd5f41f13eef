import Prognosis.Json
import Prognosis.Text.Printable

/-! Text of a value on one line, by which places in answers are named. Texts inside of lists and
records stand between quotes, a text by itself does not.
-/

namespace Prognosis.Json

open Decimal

variable {α : Type} [Scalar α]

mutual

/-- The value as part of another one. -/
def inner : Json α → String
  | null => "None"
  | flag value => if value then "True" else "False"
  | whole value => signedText value
  | number value => Scalar.exactText value
  | text value => Text.quoted value
  | list values => "[" ++ ", ".intercalate (innerAll values) ++ "]"
  | record fields => "\x7b" ++ ", ".intercalate (innerFields fields) ++ "\x7d"
termination_by structural j => j

/-- The values of a list. -/
def innerAll : List (Json α) → List String
  | [] => []
  | value :: rest => inner value :: innerAll rest
termination_by structural js => js

/-- The fields of a record. -/
def innerFields : List (String × Json α) → List String
  | [] => []
  | entry :: rest => innerField entry :: innerFields rest
termination_by structural fs => fs

/-- A field of a record. -/
def innerField : String × Json α → String
  | (key, value) => Text.quoted key ++ ": " ++ inner value
termination_by structural f => f

end

/-- Text of a value. -/
def shown : Json α → String
  | text value => value
  | value => inner value

end Prognosis.Json
