import Prognosis.Calendar.PartialDate
import Prognosis.Diagnostic

/-! The words, literals and signs that a scenario text consists of. -/

namespace Prognosis

/-- Currencies of amounts. -/
inductive Currency where
  | eur | usd | gbp | chf | jpy | cny
  deriving DecidableEq, Repr

namespace Currency

/-- All currencies. -/
def all : List Currency :=
  [eur, usd, gbp, chf, jpy, cny]

/-- Code of the currency. -/
def code : Currency → String
  | eur => "EUR"
  | usd => "USD"
  | gbp => "GBP"
  | chf => "CHF"
  | jpy => "JPY"
  | cny => "CNY"

/-- The currency with this code. -/
def ofCode? (code : String) : Option Currency :=
  all.find? (·.code == code)

end Currency

/-- Letters that multiply the number before them. -/
inductive Magnitude where
  | thousand | million | billion | trillion
  deriving DecidableEq, Repr

namespace Magnitude

/-- Letter of the magnitude. -/
def letter : Magnitude → Char
  | thousand => 'K'
  | million => 'M'
  | billion => 'B'
  | trillion => 'T'

/-- The magnitude with this letter. -/
def ofLetter? : Char → Option Magnitude
  | 'K' => some thousand
  | 'M' => some million
  | 'B' => some billion
  | 'T' => some trillion
  | _ => none

/-- Factor of the magnitude. -/
def factor {α : Type} [Scalar α] : Magnitude → α
  | thousand => Scalar.ofNat 1000
  | million => Scalar.ofNat 1000000
  | billion => Scalar.ofNat 1000000000
  | trillion => Scalar.ofNat 1000000000000

end Magnitude

/-- Signs of the language. -/
inductive Sign where
  | lbrace | rbrace | lbracket | rbracket | lparen | rparen
  | colon | semicolon | comma | dot | arrow | plusMinus
  | plus | minus | star | slash | caret | percent
  | assign | eq | ne | lt | le | gt | ge
  deriving DecidableEq, Repr

namespace Sign

/-- How the sign is named in messages. -/
def text : Sign → String
  | lbrace => "\x7b"
  | rbrace => "\x7d"
  | lbracket => "["
  | rbracket => "]"
  | lparen => "("
  | rparen => ")"
  | colon => ":"
  | semicolon => ";"
  | comma => ","
  | dot => "."
  | arrow => "->"
  | plusMinus => "±"
  | plus => "+"
  | minus => "-"
  | star => "*"
  | slash => "/"
  | caret => "^"
  | percent => "%"
  | assign => "="
  | eq => "=="
  | ne => "!="
  | lt => "<"
  | le => "<="
  | gt => ">"
  | ge => ">="

end Sign

/-- What a token is, with the value that a literal stands for. -/
inductive TokenKind (α : Type) where
  | number (value : α)
  | percentage (value : α)
  | currency (amount : α) (currency : Currency) (magnitude : Option Magnitude)
  | text (value : String)
  | date (value : PartialDate)
  | duration (value : Duration α)
  | word
  | sign (sign : Sign)
  deriving DecidableEq, Repr

/-- A piece of a scenario text with a meaning. -/
structure Token (α : Type) where
  kind : TokenKind α
  text : String
  span : Span
  deriving DecidableEq, Repr

/-- Faults of a text that no token can be made of. -/
inductive LexicalFinding where
  | unexpectedCharacter (c : Char)
  | unterminatedComment
  | unterminatedText
  | invalidDate (text : String)
  deriving DecidableEq, Repr

end Prognosis
