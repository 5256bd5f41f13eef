import Prognosis.Decimal.Written
import Prognosis.Scalar

/-! Structured values: what sources of data answer, what settings are read from, and what is
printed.
-/

namespace Prognosis

open Decimal

/-- A structured value. The fields of a record keep their order. -/
inductive Json (α : Type) where
  | null
  | flag (value : Bool)
  | whole (value : Int)
  | number (value : α)
  | text (value : String)
  | list (values : List (Json α))
  | record (fields : List (String × Json α))
  deriving Repr, Inhabited

namespace Json

variable {α : Type}

/-- A record of the fields that have a value. -/
def present (fields : List (String × Option (Json α))) : Json α :=
  record (fields.filterMap fun (key, value) => value.map fun v => (key, v))

/-- The last value that a record gives to a field. -/
def lookup? (key : String) (fields : List (String × Json α)) : Option (Json α) :=
  (fields.reverse.find? (·.1 == key)).map (·.2)

/-- Escape of a code unit of sixteen bits. -/
def unitEscape (unit : Nat) : List Char :=
  let digits := Nat.toDigits 16 unit
  '\\' :: 'u' :: List.replicate (4 - digits.length) '0' ++ digits

/-- A character of a text inside quotes. Beyond printable ASCII it is escaped, and beyond
sixteen bits as a pair of surrogates.
-/
def quotedChar (c : Char) : List Char :=
  match c with
  | '"' => ['\\', '"']
  | '\\' => ['\\', '\\']
  | '\n' => ['\\', 'n']
  | '\r' => ['\\', 'r']
  | '\t' => ['\\', 't']
  | '\x08' => ['\\', 'b']
  | '\x0c' => ['\\', 'f']
  | c =>
      let code := c.toNat
      if 0x20 ≤ code && code < 0x7f then [c]
      else if code < 0x10000 then unitEscape code
      else
        let above := code - 0x10000
        unitEscape (0xd800 + above / 0x400) ++ unitEscape (0xdc00 + above % 0x400)

/-- A text between quotes. -/
def quotedText (value : String) : String :=
  String.ofList ('"' :: value.toList.flatMap quotedChar ++ ['"'])

/-- Number as printed. -/
def numberText [Scalar α] (x : α) : String :=
  match Scalar.parts x with
  | .nan => "NaN"
  | .infinite negative => if negative then "-Infinity" else "Infinity"
  | _ => Scalar.exactText x

mutual

/-- The value printed over several lines, each level indented by two more columns. -/
def printed [Scalar α] (indent : String) : Json α → String
  | null => "null"
  | flag value => if value then "true" else "false"
  | whole value => signedText value
  | number value => numberText value
  | text value => quotedText value
  | list [] => "[]"
  | list (first :: rest) =>
      let inner := indent ++ "  "
      "[\n" ++ (",\n".intercalate (printedAll inner (first :: rest))) ++ "\n" ++ indent ++ "]"
  | record [] => "\x7b\x7d"
  | record (first :: rest) =>
      let inner := indent ++ "  "
      "\x7b\n" ++ (",\n".intercalate (printedFields inner (first :: rest))) ++ "\n" ++ indent
        ++ "\x7d"
termination_by structural j => j

/-- The values of a list, each on lines of its own. -/
def printedAll [Scalar α] (indent : String) : List (Json α) → List String
  | [] => []
  | value :: rest => (indent ++ printed indent value) :: printedAll indent rest
termination_by structural js => js

/-- The fields of a record, each on lines of its own. -/
def printedFields [Scalar α] (indent : String) : List (String × Json α) → List String
  | [] => []
  | entry :: rest => printedField indent entry :: printedFields indent rest
termination_by structural fs => fs

/-- A field of a record. -/
def printedField [Scalar α] (indent : String) : String × Json α → String
  | (key, value) => indent ++ quotedText key ++ ": " ++ printed indent value
termination_by structural f => f

end

end Json

end Prognosis
