import Prognosis.Adapter
import Prognosis.Calendar.PartialDate
import Prognosis.Json.Number
import Prognosis.Text.Lowercase

/-! Datasets that are at hand without a network, found by patterns of locators: characters in either
case, a point for any character of a line, a star for any count of what comes before it, and bars
between alternatives.
-/

namespace Prognosis

open Text

/-- One piece of a pattern: a character, or any one where none is given, once or any number of
times.
-/
structure PatternPiece where
  letter : Option Char
  repeated : Bool
  deriving DecidableEq, Repr

/-- The piece accepts a character. -/
def PatternPiece.accepts (piece : PatternPiece) (c : Char) : Bool :=
  match piece.letter with
  | some letter => sameLetter letter c
  | none => c != '\n'

/-- A pattern as its alternatives, each a row of pieces. -/
structure Pattern where
  alternatives : List (List PatternPiece)
  deriving DecidableEq, Repr

namespace Pattern

/-- Puts a piece in front of the first alternative. -/
def extend (piece : PatternPiece) : List (List PatternPiece) → List (List PatternPiece)
  | [] => [[piece]]
  | first :: others => (piece :: first) :: others

/-- Alternatives as written. A backslash takes its meaning from the character after it. -/
def alternativesOf : List Char → List (List PatternPiece)
  | [] => [[]]
  | '|' :: rest => [] :: alternativesOf rest
  | '\\' :: c :: '*' :: rest => extend ⟨some c, true⟩ (alternativesOf rest)
  | '\\' :: c :: rest => extend ⟨some c, false⟩ (alternativesOf rest)
  | '.' :: '*' :: rest => extend ⟨none, true⟩ (alternativesOf rest)
  | '.' :: rest => extend ⟨none, false⟩ (alternativesOf rest)
  | c :: '*' :: rest => extend ⟨some c, true⟩ (alternativesOf rest)
  | c :: rest => extend ⟨some c, false⟩ (alternativesOf rest)

/-- The pattern as written. -/
def ofText (text : String) : Pattern :=
  ⟨alternativesOf text.toList⟩

/-- After any count of accepted characters the rest holds. -/
def holdsAfterMany (accepts : Char → Bool) (rest : List Char → Bool) : List Char → Bool
  | [] => rest []
  | c :: text => rest (c :: text) || (accepts c && holdsAfterMany accepts rest text)

/-- After one accepted character the rest holds. -/
def holdsAfterOne (accepts : Char → Bool) (rest : List Char → Bool) : List Char → Bool
  | [] => false
  | c :: text => accepts c && rest text

/-- The text begins with a row of pieces. -/
def beginsWith : List PatternPiece → List Char → Bool
  | [] => fun _ => true
  | piece :: rest =>
      if piece.repeated then holdsAfterMany piece.accepts (beginsWith rest)
      else holdsAfterOne piece.accepts (beginsWith rest)

/-- The row of pieces stands somewhere in the text. -/
def standsIn (pieces : List PatternPiece) : List Char → Bool
  | [] => beginsWith pieces []
  | c :: text => beginsWith pieces (c :: text) || standsIn pieces text

/-- One of the alternatives stands somewhere in the locator. -/
def occursIn (p : Pattern) (locator : String) : Bool :=
  p.alternatives.any fun pieces => standsIn pieces locator.toList

end Pattern

/-! ### Datasets -/

variable {α : Type} [Scalar α]

/-- Yearly values for the locators that a pattern matches. -/
structure Dataset (α : Type) where
  pattern : Pattern
  source : String
  entries : List (Json α)

/-- Datasets in order. -/
abbrev Registry (α : Type) :=
  List (Dataset α)

namespace Dataset

/-- A field that an entry must have. -/
def needed (key : String) (entry : Json α) : Except Fault (Json α) :=
  match entry with
  | .record fields =>
      match Json.lookup? key fields with
      | some value => .ok value
      | none => .error .missingEntry
  | _ => .error .wrongKind

/-- The observation that an entry describes. -/
def point (source : String) (entry : Json α) : Except Fault (ObservedPoint α) := do
  let year ← (← needed "year" entry).toWhole
  let date ← PartialDate.resolve year 1 1
  let value ← (← needed "value" entry).toNumber
  let provisional ← entry.field? "provisional"
  return ⟨date, value, source, provisional.any (·.isPresent)⟩

/-- The observations of a dataset, oldest first. -/
def points (d : Dataset α) : Except Fault (List (ObservedPoint α)) :=
  (d.entries.mapM (point d.source)).map ObservedPoint.chronological

end Dataset

namespace Registry

/-- Adds a dataset after all others. -/
def register (registry : Registry α) (pattern source : String) (data : Json α)
    : Except Fault (Registry α) :=
  data.entries.map fun entries => registry ++ [⟨.ofText pattern, source, entries⟩]

/-- The first dataset whose pattern matches a locator. -/
def find? (registry : Registry α) (locator : String) : Option (Dataset α) :=
  List.find? (fun d => d.pattern.occursIn locator) registry

/-- What comes of a request. -/
def attempt (registry : Registry α) (request : DataRequest) : Attempt α :=
  match registry.find? request.locator with
  | none => .delivered []
  | some dataset =>
      match dataset.points with
      | .ok points => .delivered points
      | .error fault => .broken fault

/-- The adapter to the datasets. -/
def adapter (registry : Registry α) (retry : RetryPolicy α) : Adapter α :=
  ⟨"fallback", fun locator => (registry.find? locator).isSome,
    fun request _ => registry.attempt request, retry⟩

/-- The datasets of a file, if it can be read. -/
def ofFile (name : String) (content : Option (Registry α)) : Registry α × List (Notice α) :=
  match content with
  | some registry => (registry, [])
  | none => ([], [.noDatasets name])

end Registry

end Prognosis
