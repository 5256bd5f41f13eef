import Prognosis.Text.Ranges

/-! Numbers read from text that stands alone: white space around it, a sign, digits of any
script grouped by single underscores, a point and an exponent.
-/

namespace Prognosis.Decimal

open Prognosis.Text

/-- A number as it is written: `± coefficient * 10 ^ exponent`, or a word for a value without
digits.
-/
inductive Reading where
  | decimal (negative : Bool) (coefficient : Nat) (exponent : Int)
  | infinite (negative : Bool)
  | undefined
  deriving DecidableEq, Repr

/-- A run of digits in which single underscores stand between digits, and the rest. The flag
says that a digit came just before.
-/
def digitRun (afterDigit : Bool) : List Char → List Char × List Char
  | [] => ([], [])
  | c :: rest =>
      if isDecimalDigit c then
        let (digits, remaining) := digitRun true rest
        (c :: digits, remaining)
      else if c == '_' && afterDigit then
        match rest with
        | d :: _ =>
            if isDecimalDigit d then digitRun false rest else ([], c :: rest)
        | [] => ([], c :: rest)
      else ([], c :: rest)

/-- The sign in front of a number. -/
def signed : List Char → Bool × List Char
  | '-' :: rest => (true, rest)
  | '+' :: rest => (false, rest)
  | rest => (false, rest)

/-- The text is the word, in letters of either case. -/
def isWord (word : String) (cs : List Char) : Bool :=
  cs.map Char.toLower == word.toList

/-- The exponent part of a number, which must end the text. -/
def exponent? : List Char → Option Int
  | [] => some 0
  | c :: rest =>
      if c == 'e' || c == 'E' then
        let (negative, rest) := signed rest
        match digitRun false rest with
        | ([], _) => none
        | (digits, []) =>
            let size : Int := digitsValue digits
            some (if negative then -size else size)
        | _ => none
      else none

/-- Reads a whole number. -/
def readWhole? (text : String) : Option Int :=
  let (negative, cs) := signed (trimmed text.toList)
  match digitRun false cs with
  | ([], _) => none
  | (digits, []) =>
      let size : Int := digitsValue digits
      some (if negative then -size else size)
  | _ => none

/-- Reads a number with or without a point and an exponent. -/
def readNumber? (text : String) : Option Reading :=
  let (negative, cs) := signed (trimmed text.toList)
  if isWord "inf" cs || isWord "infinity" cs then some (.infinite negative)
  else if isWord "nan" cs then some .undefined
  else
    let (whole, rest) := digitRun false cs
    let (fraction, rest) :=
      match rest with
      | '.' :: tail => digitRun false tail
      | _ => ([], rest)
    if whole.isEmpty && fraction.isEmpty then none
    else
      (exponent? rest).map fun exponent =>
        .decimal negative (digitsValue (whole ++ fraction)) (exponent - fraction.length)

end Prognosis.Decimal
