import Prognosis.Text.Printable
import Prognosis.Text.Ranges
import Prognosis.Token

/-! A scenario text cut into tokens. The text is taken apart from its start into pieces of at
least one character, each of them blank, a comment, a token or a stray character.
-/

namespace Prognosis

open Text

namespace LexicalFinding

/-- The finding in words. -/
def message : LexicalFinding → String
  | unexpectedCharacter c => "Unexpected character " ++ quoted c.toString
  | unterminatedComment => "Unterminated block comment"
  | unterminatedText => "Unterminated string literal"
  | invalidDate text => "Invalid date " ++ quoted text

/-- What may help. -/
def hint? : LexicalFinding → Option String
  | unterminatedText => some "Close the string with a double quote (\") on the same line."
  | _ => none

end LexicalFinding

/-- A lexical finding as it is shown. -/
def Located.ofText (l : Located LexicalFinding) : Diagnostic :=
  ⟨.error 1, l.finding.message, l.span, l.finding.hint?⟩

namespace Token

variable {α : Type} [Scalar α]

/-- What stands at the start of a text: how many characters it takes, the token it makes, and
what is wrong with it.
-/
structure Reading (α : Type) where
  width : Nat
  width_pos : 0 < width
  kind : Option (TokenKind α)
  finding : Option LexicalFinding

/-- A piece without a token. -/
def Reading.skip (width : Nat) (h : 0 < width) : Reading α :=
  ⟨width, h, none, none⟩

/-- A piece that is a token. -/
def Reading.token (width : Nat) (h : 0 < width) (kind : TokenKind α) : Reading α :=
  ⟨width, h, some kind, none⟩

/-- The character may start a name. -/
def isNameStart (c : Char) : Bool :=
  c.isAlpha || c == '_'

/-- The character may continue a name. -/
def isNameChar (c : Char) : Bool :=
  c.isAlphanum || c == '_'

/-- No name continues here. -/
def atBoundary : List Char → Bool
  | [] => true
  | c :: _ => !isNameChar c

/-- The text starts with these characters. -/
def startsWith (word : List Char) (cs : List Char) : Bool :=
  word.isPrefixOf cs

/-- Signs by the characters that write them; of two that fit, the earlier one is taken. -/
def signs : List (List Char × Sign) := [
  (['+', '/', '-'], .plusMinus),
  (['-', '>'], .arrow),
  (['→'], .arrow),
  (['=', '='], .eq),
  (['!', '='], .ne),
  (['<', '='], .le),
  (['>', '='], .ge),
  (['±'], .plusMinus),
  (['\x7b'], .lbrace),
  (['\x7d'], .rbrace),
  (['['], .lbracket),
  ([']'], .rbracket),
  (['('], .lparen),
  ([')'], .rparen),
  ([':'], .colon),
  ([';'], .semicolon),
  ([','], .comma),
  (['.'], .dot),
  (['+'], .plus),
  (['-'], .minus),
  (['*'], .star),
  (['/'], .slash),
  (['^'], .caret),
  (['%'], .percent),
  (['='], .assign),
  (['<'], .lt),
  (['>'], .gt)
]

/-- Number of characters up to the end of a block comment whose opening is behind. -/
def commentWidth? : List Char → Option Nat
  | '*' :: '/' :: _ => some 2
  | _ :: rest => (commentWidth? rest).map (· + 1)
  | [] => none

/-- Number of characters of a line, its end included. -/
def lineWidth : List Char → Nat
  | [] => 0
  | '\n' :: _ => 1
  | _ :: rest => lineWidth rest + 1

/-- The character that an escape stands for. -/
def unescaped : Char → Char
  | 'n' => '\n'
  | 't' => '\t'
  | c => c

/-- A quoted text after its opening quote: the characters it stands for, how many it takes up
to and with the closing quote, and whether that quote is there. A line end closes it as well,
unless a backslash stands before it.
-/
def quotedText : List Char → List Char × Nat × Bool
  | [] => ([], 0, false)
  | '"' :: _ => ([], 1, true)
  | '\n' :: _ => ([], 0, false)
  | '\\' :: c :: rest =>
      let (chars, width, closed) := quotedText rest
      (unescaped c :: chars, width + 2, closed)
  | c :: rest =>
      let (chars, width, closed) := quotedText rest
      (c :: chars, width + 1, closed)

/-- A date as digits: four for the year, two for the month and perhaps two for the day. -/
structure WrittenDate where
  year : List Char
  month : List Char
  day : List Char

/-- Two digits after a hyphen. -/
def hyphenPair? : List Char → Option (List Char × List Char)
  | '-' :: a :: b :: rest =>
      if isDecimalDigit a && isDecimalDigit b then some ([a, b], rest) else none
  | _ => none

/-- Nothing follows that would make another number of a date. -/
def endsDate : List Char → Bool
  | [] => true
  | c :: _ => !isDecimalDigit c && c != '.'

/-- A date at the start of a text. The day belongs to it only where the date can end after it,
and otherwise the date must be able to end after the month.
-/
def writtenDate? (cs : List Char) : Option WrittenDate :=
  let year := cs.take 4
  if year.length == 4 && year.all isDecimalDigit then
    match hyphenPair? (cs.drop 4) with
    | none => none
    | some (month, rest) =>
        let withDay :=
          match hyphenPair? rest with
          | some (day, after) => if endsDate after then some ⟨year, month, day⟩ else none
          | none => none
        match withDay with
        | some date => some date
        | none => if endsDate rest then some ⟨year, month, []⟩ else none
  else none

namespace WrittenDate

/-- Number of characters of the date. -/
def width (d : WrittenDate) : Nat :=
  if d.day.isEmpty then 7 else 10

/-- The numbers of the date. -/
def value (d : WrittenDate) : PartialDate :=
  ⟨digitsValue d.year, some (digitsValue d.month),
    if d.day.isEmpty then none else some (digitsValue d.day)⟩

theorem width_pos (d : WrittenDate) : 0 < d.width := by
  unfold width
  split <;> omega

end WrittenDate

/-- An unsigned number at the start of a text that starts with a digit. -/
structure WrittenNumber where
  whole : List Char
  fraction : List Char
  exponentNegative : Bool
  exponent : List Char
  width : Nat

/-- Digits in front. -/
def leadingDigits (cs : List Char) : List Char :=
  cs.takeWhile isDecimalDigit

/-- The number at the start of a text: digits, perhaps a point and digits, perhaps an exponent.
-/
def writtenNumber (cs : List Char) : WrittenNumber :=
  let whole := leadingDigits cs
  let afterWhole := cs.drop whole.length
  let fraction :=
    match afterWhole with
    | '.' :: rest => leadingDigits rest
    | _ => []
  let fractionWidth := if fraction.isEmpty then 0 else fraction.length + 1
  let afterFraction := afterWhole.drop fractionWidth
  let (negative, signWidth, digits) :=
    match afterFraction with
    | e :: rest =>
        if e == 'e' || e == 'E' then
          match rest with
          | '-' :: more => (true, 2, leadingDigits more)
          | '+' :: more => (false, 2, leadingDigits more)
          | more => (false, 1, leadingDigits more)
        else (false, 0, [])
    | [] => (false, 0, [])
  let exponentWidth := if digits.isEmpty then 0 else signWidth + digits.length
  ⟨whole, fraction, negative, digits, whole.length + fractionWidth + exponentWidth⟩

/-- The number that is written. -/
def WrittenNumber.value (n : WrittenNumber) : α :=
  let size : Int := digitsValue n.exponent
  let exponent := (if n.exponentNegative then -size else size) - n.fraction.length
  Scalar.ofDecimal false (digitsValue (n.whole ++ n.fraction)) exponent

/-- A currency code after blanks and tabs: how many characters it takes and the currency. -/
def currencyAfter? (cs : List Char) : Option (Nat × Currency) :=
  let blanks := (cs.takeWhile fun c => c == ' ' || c == '\t').length
  let rest := cs.drop blanks
  if atBoundary (rest.drop 3) then
    (Currency.ofCode? (String.ofList (rest.take 3))).map fun currency => (blanks + 3, currency)
  else none

/-- A number with what belongs to it: a percent sign, a unit of time, or a magnitude and a
currency.
-/
def readNumber (cs : List Char) : Reading α :=
  let number := writtenNumber cs
  let amount : α := number.value
  -- the text starts with a digit, so the width is positive already
  let width := number.width - 1
  let rest := cs.drop (width + 1)
  let plain : Reading α :=
    let letter :=
      match rest with
      | c :: after => if atBoundary after then Magnitude.ofLetter? c else none
      | [] => none
    let (scaled, width) :=
      match letter with
      | none => (amount, width)
      | some m => (amount * m.factor, width + 1)
    match currencyAfter? (cs.drop (width + 1)) with
    | some (extra, currency) =>
        .token (width + 1 + extra) (by omega) (.currency scaled currency letter)
    | none => .token (width + 1) (by omega) (.number scaled)
  match rest with
  | '%' :: _ => .token (width + 2) (by omega) (.percentage amount)
  | c :: after =>
      match TimeUnit.ofLetter? c with
      | some unit =>
          if atBoundary after then
            .token (width + 2) (by omega) (.duration ⟨amount, unit⟩)
          else plain
      | none => plain
  | [] => plain

/-- A date, or a number where no date stands. A date that is in no calendar is read as its
year.
-/
def readDigits (cs : List Char) : Reading α :=
  match writtenDate? cs with
  | some date =>
      match date.value.start with
      | .ok _ => .token date.width date.width_pos (.date date.value)
      | .error _ =>
          ⟨date.width, date.width_pos, some (.date (.ofYear (digitsValue date.year))),
            some (.invalidDate (String.ofList (cs.take date.width)))⟩
  | none => readNumber cs

/-- What stands at the start of the text `c :: cs`. -/
def read (c : Char) (cs : List Char) : Reading α :=
  if isBlank c then .skip 1 Nat.one_pos
  else if startsWith ['/', '/'] (c :: cs) then .skip (lineWidth cs + 1) (Nat.succ_pos _)
  else if startsWith ['/', '*'] (c :: cs) then
    match commentWidth? (cs.drop 1) with
    | some width => .skip (width + 2) (Nat.succ_pos _)
    | none => ⟨cs.length + 1, Nat.succ_pos _, none, some .unterminatedComment⟩
  else if c.isDigit then readDigits (c :: cs)
  else if c == '"' then
    let (chars, width, closed) := quotedText cs
    ⟨width + 1, Nat.succ_pos _, some (.text (String.ofList chars)),
      if closed then none else some .unterminatedText⟩
  else if isNameStart c then
    .token ((cs.takeWhile isNameChar).length + 1) (Nat.succ_pos _) .word
  else
    match signs.find? fun (chars, _) => startsWith chars (c :: cs) with
    | some (chars, sign) => .token (chars.length - 1 + 1) (Nat.succ_pos _) (.sign sign)
    | none => ⟨1, Nat.one_pos, none, some (.unexpectedCharacter c)⟩

/-- A piece of the text with its place. -/
structure Piece (α : Type) where
  span : Span
  chars : List Char
  kind : Option (TokenKind α)
  finding : Option LexicalFinding

/-- The pieces of a text that starts at the given place. -/
def pieces (span : Span) : List Char → List (Piece α)
  | [] => []
  | c :: cs =>
      let reading : Reading α := read c cs
      let chars := (c :: cs).take reading.width
      ⟨span, chars, reading.kind, reading.finding⟩
        :: pieces (span.past chars) ((c :: cs).drop reading.width)
termination_by cs => cs.length
decreasing_by
  have hpos := (read c cs : Reading α).width_pos
  simp only [List.length_drop, List.length_cons]
  omega

/-- The token that the piece makes. -/
def Piece.token? (p : Piece α) : Option (Token α) :=
  p.kind.map fun kind => ⟨kind, String.ofList p.chars, p.span⟩

/-- The finding that the piece makes. -/
def Piece.located? (p : Piece α) : Option (Located LexicalFinding) :=
  p.finding.map fun finding => ⟨finding, some p.span⟩

end Token

/-- A text as tokens, with the place where it ends and what is wrong with it. -/
structure TokenText (α : Type) where
  tokens : List (Token α)
  stop : Span
  findings : List (Located LexicalFinding)

/-- Cuts a text into tokens. -/
def TokenText.scan {α : Type} [Scalar α] (source : String) : TokenText α :=
  let cs := source.toList
  let pieces : List (Token.Piece α) := Token.pieces ⟨1, 1⟩ cs
  ⟨pieces.filterMap (·.token?), Span.past ⟨1, 1⟩ cs, pieces.filterMap (·.located?)⟩

end Prognosis
