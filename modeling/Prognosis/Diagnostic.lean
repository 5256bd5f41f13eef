import Prognosis.Decimal.Written

/-! Findings about a scenario text as they are shown to its author. -/

namespace Prognosis

open Decimal

/-- Place of a character: line and column, both counted from one. -/
structure Span where
  line : Nat
  column : Nat
  deriving DecidableEq, Repr

/-- Place after one character. -/
def Span.after (span : Span) (c : Char) : Span :=
  if c == '\n' then ⟨span.line + 1, 1⟩ else ⟨span.line, span.column + 1⟩

/-- Place after a row of characters. -/
def Span.past (span : Span) (cs : List Char) : Span :=
  cs.foldl Span.after span

/-- Whether a finding forbids simulation. -/
inductive Severity where
  | error | warning
  deriving DecidableEq, Repr

/-- Word for the severity. -/
def Severity.word : Severity → String
  | .error => "error"
  | .warning => "warning"

/-- Number of a finding among the errors or among the warnings. -/
inductive Code where
  | error (number : Nat)
  | warning (number : Nat)
  deriving DecidableEq, Repr

namespace Code

/-- Errors and warnings are told apart by their codes. -/
def severity : Code → Severity
  | error _ => .error
  | warning _ => .warning

/-- The code as shown. -/
def text : Code → String
  | error number => "SDL-E" ++ paddedText 3 number
  | warning number => "SDL-W" ++ paddedText 3 number

end Code

/-- One finding as shown: what it is, in words, where, and what may help. -/
structure Diagnostic where
  code : Code
  message : String
  span : Option Span
  hint : Option String
  deriving DecidableEq, Repr

namespace Diagnostic

/-- The finding forbids simulation. -/
def isError (d : Diagnostic) : Bool :=
  d.code.severity == .error

/-- The hint, where there is one to show. -/
def shownHint? (d : Diagnostic) : Option String :=
  d.hint.filter (· != "")

/-- The finding on one line, with the name of the text it is about. -/
def line (d : Diagnostic) (fileName : String) : String :=
  let place :=
    match d.span with
    | none => fileName
    | some span => fileName ++ ":" ++ wholeText span.line ++ ":" ++ wholeText span.column
  place ++ ": " ++ d.code.severity.word ++ " [" ++ d.code.text ++ "] " ++ d.message

end Diagnostic

/-- A finding at a place. -/
structure Located (φ : Type) where
  finding : φ
  span : Option Span
  deriving DecidableEq, Repr

/-- Words separated by a comma and a space. -/
def commaSeparated (words : List String) : String :=
  ", ".intercalate words

end Prognosis
