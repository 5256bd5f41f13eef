import Prognosis.Decimal.Reading
import Prognosis.Entries
import Prognosis.Json

/-! Structured values read from text. Of two fields of a record with one key the later value
counts, at the place of the first.
-/

namespace Prognosis.Json

open Decimal

variable {α : Type} [Scalar α]

/-- Blanks between the parts of a value. -/
def isSpace (c : Char) : Bool :=
  c == ' ' || c == '\n' || c == '\t' || c == '\r'

/-- Value of a hexadecimal digit. -/
def hexDigit? (c : Char) : Option Nat :=
  if c.isDigit then some (c.toNat - 48)
  else
    let lower := c.toLower
    if 'a' ≤ lower && lower ≤ 'f' then some (lower.toNat - 87) else none

/-- Number written by hexadecimal digits. -/
def hexNumber? (cs : List Char) : Option Nat :=
  cs.foldlM (fun n c => (hexDigit? c).map (16 * n + ·)) 0

/-- Character that a letter after a backslash stands for. -/
def escaped : Char → Char
  | 'n' => '\n'
  | 't' => '\t'
  | 'r' => '\r'
  | 'b' => '\x08'
  | 'f' => '\x0c'
  | c => c

/-- Code units of a text up to its closing quote, and what follows it. -/
def unitsFrom : List Char → Option (List Nat × List Char)
  | [] => none
  | '"' :: rest => some ([], rest)
  | '\\' :: 'u' :: a :: b :: c :: d :: rest => do
      let unit ← hexNumber? [a, b, c, d]
      let (units, rest) ← unitsFrom rest
      return (unit :: units, rest)
  | '\\' :: c :: rest => (unitsFrom rest).map fun (units, rest) => ((escaped c).toNat :: units, rest)
  | c :: rest => (unitsFrom rest).map fun (units, rest) => (c.toNat :: units, rest)

/-- Characters of code units, where two halves of a pair of surrogates are one character. -/
def charsOf : List Nat → List Char
  | [] => []
  | [unit] => [Char.ofNat unit]
  | high :: low :: rest =>
      if 0xd800 ≤ high && high < 0xdc00 && 0xdc00 ≤ low && low < 0xe000 then
        Char.ofNat (0x10000 + (high - 0xd800) * 0x400 + (low - 0xdc00)) :: charsOf rest
      else Char.ofNat high :: charsOf (low :: rest)

/-- A text after its opening quote, and what follows it. -/
def textFrom (cs : List Char) : Option (String × List Char) :=
  (unitsFrom cs).map fun (units, rest) => (String.ofList (charsOf units), rest)

/-- A character of a number. -/
def isNumberChar (c : Char) : Bool :=
  c.isDigit || ['-', '+', '.', 'e', 'E'].contains c

/-- A number or a word, and what follows it. A number without a point and an exponent is a whole
one.
-/
def wordFrom (cs : List Char) : Option (Json α × List Char) :=
  let word := cs.takeWhile fun c => isNumberChar c || c.isAlpha
  let shown := String.ofList word
  let found : Option (Json α) :=
    match shown with
    | "null" => some null
    | "true" => some (flag true)
    | "false" => some (flag false)
    | "NaN" => some (number Scalar.undefined)
    | "Infinity" => some (number Scalar.infinity)
    | "-Infinity" => some (number (-Scalar.infinity))
    | _ =>
        if word.all fun c => c.isDigit || c == '-' then (readWhole? shown).map whole
        else if word.all isNumberChar then
          (readNumber? shown).map fun reading => number (Scalar.ofReading reading)
        else none
  found.map fun value => (value, cs.drop word.length)

mutual

/-- A value and what follows it; the depth bounds the search. -/
def valueFrom (depth : Nat) (cs : List Char) : Option (Json α × List Char) :=
  match depth with
  | 0 => none
  | depth + 1 =>
      match cs.dropWhile isSpace with
      | '"' :: rest => (textFrom rest).map fun (value, rest) => (text value, rest)
      | '[' :: rest => (valuesFrom depth rest).map fun (values, rest) => (list values, rest)
      | '\x7b' :: rest =>
          (fieldsFrom depth rest).map fun (fields, rest) =>
            (record (Entries.ofList fields), rest)
      | rest => wordFrom rest

/-- Values up to the closing bracket, and what follows it. -/
def valuesFrom (depth : Nat) (cs : List Char) : Option (List (Json α) × List Char) :=
  match depth with
  | 0 => none
  | depth + 1 =>
      match cs.dropWhile isSpace with
      | ']' :: rest => some ([], rest)
      | rest => do
          let (value, rest) ← valueFrom depth rest
          match rest.dropWhile isSpace with
          | ']' :: rest => return ([value], rest)
          | ',' :: rest =>
              let (values, rest) ← valuesFrom depth rest
              return (value :: values, rest)
          | _ => none

/-- Fields up to the closing brace, and what follows it. -/
def fieldsFrom (depth : Nat) (cs : List Char)
    : Option (List (String × Json α) × List Char) :=
  match depth with
  | 0 => none
  | depth + 1 =>
      match cs.dropWhile isSpace with
      | '\x7d' :: rest => some ([], rest)
      | '"' :: rest => do
          let (key, rest) ← textFrom rest
          match rest.dropWhile isSpace with
          | ':' :: rest =>
              let (value, rest) ← valueFrom depth rest
              match rest.dropWhile isSpace with
              | '\x7d' :: rest => return ([(key, value)], rest)
              | ',' :: rest =>
                  let (fields, rest) ← fieldsFrom depth rest
                  return ((key, value) :: fields, rest)
              | _ => none
          | _ => none
      | _ => none

end

/-- The value of a text that holds nothing else. -/
def read? (source : String) : Option (Json α) := do
  let cs := source.toList
  let (value, rest) ← valueFrom (2 * cs.length + 2) cs
  if (rest.dropWhile isSpace).isEmpty then some value else none

end Prognosis.Json
