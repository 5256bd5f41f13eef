import Prognosis.Decimal.Reading
import Prognosis.Fault
import Prognosis.Json

/-! Numbers from structured values: sources of data and settings may give them as numbers, as
flags or as text.
-/

namespace Prognosis.Json

variable {α : Type} [Scalar α]

/-- Number that a flag counts as. -/
def flagCount (value : Bool) : Int :=
  if value then 1 else 0

/-- A whole number that must not exceed the range of numbers. -/
def checkedOfInt (n : Int) : Except Fault α :=
  let x : α := Scalar.ofInt n
  if Scalar.isFinite x then .ok x else .error .overflow

/-- The number without its fraction, which undefined and infinite ones do not have. -/
def wholeOfNumber (x : α) : Except Fault Int :=
  match Scalar.truncate? x with
  | some n => .ok n
  | none => .error (if Scalar.isUndefined x then .domain else .overflow)

/-- Whole number that a value stands for. -/
def toWhole : Json α → Except Fault Int
  | whole n => .ok n
  | number x => wholeOfNumber x
  | flag value => .ok (flagCount value)
  | text value =>
      match Decimal.readWhole? value with
      | some n => .ok n
      | none => .error .domain
  | _ => .error .wrongKind

/-- Number that a value stands for. -/
def toNumber : Json α → Except Fault α
  | whole n => checkedOfInt n
  | number x => .ok x
  | flag value => .ok (Scalar.ofInt (flagCount value))
  | text value =>
      match Decimal.readNumber? value with
      | some reading => .ok (Scalar.ofReading reading)
      | none => .error .domain
  | _ => .error .wrongKind

/-- The value is neither empty nor null nor zero nor false. -/
def isPresent : Json α → Bool
  | null => false
  | flag value => value
  | whole n => n != 0
  | number x => Scalar.isTrue x
  | text value => value != ""
  | list values => !values.isEmpty
  | record fields => !fields.isEmpty

/-- The entries of a value that has any: values of a list, characters of a text, keys of a
record.
-/
def entries : Json α → Except Fault (List (Json α))
  | list values => .ok values
  | text value => .ok (value.toList.map fun c => text c.toString)
  | record fields => .ok (fields.map fun (key, _) => text key)
  | _ => .error .wrongKind

/-- The field of a record. Other values have no fields to ask for. -/
def field? (key : String) : Json α → Except Fault (Option (Json α))
  | record fields => .ok (lookup? key fields)
  | _ => .error .notARecord

end Prognosis.Json
