import Prognosis.Decimal.Reading
import Prognosis.Json

/-! Settings as they are written by hand: keys with values, one to a line, where deeper lines
belong to the key above them. A value is a plain or quoted word, or a list or record in
brackets on one line.
-/

namespace Prognosis.Settings

open Decimal

variable {α : Type} [Scalar α]

/-! ### Words -/

/-- Words for nothing. -/
def nullWords : List String :=
  ["", "~", "null", "Null", "NULL"]

/-- Words for true. -/
def trueWords : List String :=
  ["true", "True", "TRUE", "yes", "Yes", "YES", "on", "On", "ON"]

/-- Words for false. -/
def falseWords : List String :=
  ["false", "False", "FALSE", "no", "No", "NO", "off", "Off", "OFF"]

/-- Value of a digit of a base. -/
def digitIn? (base : Nat) (c : Char) : Option Nat :=
  let letter := c.toLower
  let value :=
    if c.isDigit then c.toNat - 48
    else if 'a' ≤ letter && letter ≤ 'f' then letter.toNat - 87
    else base
  if value < base then some value else none

/-- Number written by digits of a base, between which underscores say nothing. -/
def digitsIn? (base : Nat) (cs : List Char) : Option Nat :=
  (cs.filter (· != '_')).foldlM (fun n c => (digitIn? base c).map (n * base + ·)) 0

/-- A whole number without its sign. A zero in front tells the base by what follows it: two by
`b`, sixteen by `x`, and eight by a digit.
-/
def wholeDigits? : List Char → Option Nat
  | '0' :: 'b' :: d :: rest => digitsIn? 2 (d :: rest)
  | '0' :: 'x' :: d :: rest => digitsIn? 16 (d :: rest)
  | '0' :: d :: rest => digitsIn? 8 (d :: rest)
  | '_' :: _ => none
  | [] => none
  | cs => digitsIn? 10 cs

/-- A whole number with its sign. -/
def wholeWord? (cs : List Char) : Option Int :=
  let (negative, rest) := signed cs
  (wholeDigits? rest).map fun n => if negative then -(n : Int) else n

/-- A number begins with a digit, or without a sign with a point before one. -/
def startsNumber (cs : List Char) : Bool :=
  match cs with
  | '.' :: d :: _ => d.isDigit
  | _ => (signed cs).2.head?.any Char.isDigit

/-- An exponent is left out, or carries a sign and digits. -/
def isExponentPart : List Char → Bool
  | [] => true
  | _ :: sign :: d :: digits => (sign == '+' || sign == '-') && (d :: digits).all Char.isDigit
  | _ => false

/-- A number with a point. -/
def pointedWord? (cs : List Char) : Option α :=
  let (negative, rest) := signed cs
  if [".inf", ".Inf", ".INF"].contains (String.ofList rest) then
    some (Scalar.ofReading (.infinite negative))
  else if [".nan", ".NaN", ".NAN"].contains (String.ofList cs) then some Scalar.undefined
  else
    let size := rest.takeWhile fun c => c.isDigit || c == '_' || c == '.'
    if startsNumber cs && size.contains '.' && isExponentPart (rest.drop size.length) then
      (readNumber? (String.ofList (cs.filter (· != '_')))).map Scalar.ofReading
    else none

/-- Value of a plain word. -/
def plainValue (cs : List Char) : Json α :=
  let word := String.ofList cs
  if nullWords.contains word then .null
  else if trueWords.contains word then .flag true
  else if falseWords.contains word then .flag false
  else
    match wholeWord? cs with
    | some n => .whole n
    | none =>
        match pointedWord? cs with
        | some x => .number x
        | none => .text word

/-! ### Values on one line -/

/-- The characters without spaces and tabs in front. -/
def skipSpaces (cs : List Char) : List Char :=
  cs.dropWhile fun c => c == ' ' || c == '\t'

/-- The characters without spaces and tabs at both ends. -/
def trimSpaces (cs : List Char) : List Char :=
  (skipSpaces (skipSpaces cs).reverse).reverse

/-- Character that an escape in double quotes stands for. -/
def escaped (c : Char) : Char :=
  if c == 'n' then '\n' else if c == 't' then '\t' else c

/-- Text up to a closing quote, and what follows it. In single quotes a doubled quote stands
for one, and in double quotes a backslash starts an escape.
-/
def quotedWord? (quote : Char) : List Char → Option (List Char × List Char)
  | [] => none
  | [c] => if c == quote then some ([], []) else none
  | c :: d :: more =>
      if c == quote then
        if quote == '\'' && d == quote then
          (quotedWord? quote more).map fun (text, rest) => (quote :: text, rest)
        else some ([], d :: more)
      else if quote == '"' && c == '\\' then
        (quotedWord? quote more).map fun (text, rest) => (escaped d :: text, rest)
      else (quotedWord? quote (d :: more)).map fun (text, rest) => (c :: text, rest)

/-- A character ends a plain word inside brackets. -/
def endsWord (c : Char) : Bool :=
  [',', '[', ']', '\x7b', '\x7d', ':'].contains c

mutual

/-- A value inside brackets and what follows it. The bound counts the steps that are left. -/
def flowValue? : Nat → List Char → Option (Json α × List Char)
  | 0, _ => none
  | bound + 1, cs =>
      match skipSpaces cs with
      | [] => none
      | '[' :: rest => flowItems? bound [] (skipSpaces rest)
      | '\x7b' :: rest => flowFields? bound [] (skipSpaces rest)
      | '"' :: rest => (quotedWord? '"' rest).map fun (t, more) => (.text (String.ofList t), more)
      | '\'' :: rest =>
          (quotedWord? '\'' rest).map fun (t, more) => (.text (String.ofList t), more)
      | rest =>
          let word := rest.takeWhile (!endsWord ·)
          some (plainValue (trimSpaces word), rest.drop word.length)

/-- The rest of a list in brackets, after the values read so far, last one first. -/
def flowItems? : Nat → List (Json α) → List Char → Option (Json α × List Char)
  | 0, _, _ => none
  | _, done, ']' :: rest => some (.list done.reverse, rest)
  | _, _, ',' :: _ => none
  | bound + 1, done, cs =>
      match flowValue? bound cs with
      | none => none
      | some (value, more) =>
          match skipSpaces more with
          | ',' :: rest => flowItems? bound (value :: done) (skipSpaces rest)
          | ']' :: rest => some (.list (value :: done).reverse, rest)
          | _ => none

/-- The rest of a record in brackets, after the fields read so far, last one first. -/
def flowFields? : Nat → List (String × Json α) → List Char → Option (Json α × List Char)
  | 0, _, _ => none
  | _, done, '\x7d' :: rest => some (.record done.reverse, rest)
  | bound + 1, done, cs =>
      match flowKey? cs with
      | none => none
      | some (key, more) =>
          match flowValue? bound more with
          | none => none
          | some (value, more) =>
              match skipSpaces more with
              | ',' :: rest => flowFields? bound ((key, value) :: done) (skipSpaces rest)
              | '\x7d' :: rest => some (.record ((key, value) :: done).reverse, rest)
              | _ => none

/-- A key inside brackets and what follows its colon. -/
def flowKey? (cs : List Char) : Option (String × List Char) :=
  let found :=
    match cs with
    | '"' :: rest => quotedWord? '"' rest
    | '\'' :: rest => quotedWord? '\'' rest
    | _ =>
        let word := cs.takeWhile (!endsWord ·)
        some (trimSpaces word, cs.drop word.length)
  found.bind fun (key, rest) =>
    match skipSpaces rest with
    | ':' :: more => some (String.ofList key, more)
    | _ => none

end

/-- A key at the start of a line, and the value behind it. -/
def splitKey? (before : List Char) : List Char → Option (List Char × List Char)
  | [] => none
  | ':' :: [] => some (before.reverse, [])
  | ':' :: ' ' :: rest => some (before.reverse, trimSpaces rest)
  | c :: rest => splitKey? (c :: before) rest

/-- Marks that a plain word does not begin with. -/
def marks : List Char :=
  [',', '[', ']', '\x7b', '\x7d', '#', '&', '*', '!', '|', '>', '%', '@', '\x60']

/-- A plain word that fills the rest of a line has no key inside, and begins with no mark. -/
def isPlain (cs : List Char) : Bool :=
  (splitKey? [] cs).isNone &&
    match cs with
    | [] => true
    | c :: rest =>
        if c == '-' || c == '?' || c == ':' then rest.head?.any (· != ' ')
        else !marks.contains c

/-- A value that fills the rest of a line. -/
def lineValue? (cs : List Char) : Option (Json α) :=
  match cs with
  | c :: _ =>
      if c == '[' || c == '\x7b' || c == '"' || c == '\'' then
        match flowValue? (2 * cs.length + 2) cs with
        | some (value, rest) => if (skipSpaces rest).isEmpty then some value else none
        | none => none
      else if isPlain cs then some (plainValue cs)
      else none
  | [] => some .null

/-! ### Lines -/

/-- A line with the count of spaces in front. -/
structure Line where
  depth : Nat
  content : List Char

/-- The characters before a comment, which starts a line or follows a space outside quotes. -/
def withoutComment : (inQuote : Option Char) → (afterSpace : Bool) → List Char → List Char
  | _, _, [] => []
  | none, afterSpace, c :: rest =>
      if c == '#' && afterSpace then []
      else if (c == '"' || c == '\'') && afterSpace then
        c :: withoutComment (some c) false rest
      else c :: withoutComment none (c == ' ' || c == '\t') rest
  | some quote, _, c :: rest =>
      c :: withoutComment (if c == quote then none else some quote) false rest

/-- A line without its comment; none where nothing is left. -/
def Line.ofChars? (cs : List Char) : Option Line :=
  let depth := (cs.takeWhile (· == ' ')).length
  let content := trimSpaces (withoutComment none true (cs.drop depth))
  if content.isEmpty || content == ['-', '-', '-'] then none else some ⟨depth, content⟩

/-- The lines of a text that say something. -/
def linesOf (text : String) : List Line :=
  (text.splitOn "\n").filterMap fun line =>
    Line.ofChars? (line.toList.filter (· != '\r'))

/-- Key of a line with the value behind it. -/
def Line.key? (line : Line) : Option (String × List Char) :=
  match line.content with
  | '"' :: rest =>
      (quotedWord? '"' rest).bind fun (key, more) =>
        (splitKey? [] more).map fun (_, value) => (String.ofList key, value)
  | '\'' :: rest =>
      (quotedWord? '\'' rest).bind fun (key, more) =>
        (splitKey? [] more).map fun (_, value) => (String.ofList key, value)
  | '[' :: _ => none
  | '\x7b' :: _ => none
  | cs => (splitKey? [] cs).map fun (key, value) => (String.ofList (trimSpaces key), value)

/-- The fields whose keys stand at a depth, as far as lines stand there, and the other lines.
The bound counts the lines that are left.
-/
def fieldsAt? (depth : Nat)
    : Nat → List Line → Option (List (String × Json α) × List Line)
  | _, [] => some ([], [])
  | 0, _ => none
  | bound + 1, line :: rest =>
      if line.depth < depth then some ([], line :: rest)
      else if line.depth != depth then none
      else
        match line.key? with
        | none => none
        | some (key, []) =>
            match rest with
            | next :: _ =>
                if next.depth ≤ depth then
                  (fieldsAt? depth bound rest).map fun (fields, others) =>
                    ((key, .null) :: fields, others)
                else
                  match fieldsAt? next.depth bound rest with
                  | none => none
                  | some (inner, others) =>
                      (fieldsAt? depth bound others).map fun (fields, others) =>
                        ((key, .record inner) :: fields, others)
            | [] => some ([(key, .null)], [])
        | some (key, value) =>
            match lineValue? value with
            | none => none
            | some v =>
                (fieldsAt? depth bound rest).map fun (fields, others) =>
                  ((key, v) :: fields, others)

/-- Reads a text of settings; none where it is malformed. -/
def readDocument? (text : String) : Option (Json α) :=
  match linesOf text with
  | [] => some .null
  | first :: rest =>
      match first.key? with
      | some _ =>
          match fieldsAt? first.depth (rest.length + 1) (first :: rest) with
          | some (fields, []) => some (.record fields)
          | _ => none
      | none => lineValue? (" ".toList.intercalate ((first :: rest).map (·.content)))

end Prognosis.Settings
