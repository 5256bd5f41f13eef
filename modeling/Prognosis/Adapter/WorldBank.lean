import Prognosis.Adapter.Locator
import Prognosis.Adapter.Web

/-! The World Bank as a source: yearly values of an indicator for a country. -/

namespace Prognosis.WorldBank

open Decimal

variable {α : Type} [Scalar α]

/-- Year in which the range of years asked for begins. -/
def firstYear : Nat := 2000

/-- The range of years up to today. -/
def yearRange (today : Date) : String :=
  wholeText firstYear ++ ":" ++ wholeText today.year

/-- The query for a locator that names an indicator. -/
def query? (today : Date) (locator : String) : Option (Query α) :=
  (indicator? locator).map fun indicator => {
    address := "https://api.worldbank.org/v2/country/" ++ country locator ++ "/indicator/"
      ++ indicator
    parameters :=
      [("format", .text "json"), ("per_page", .whole 100), ("date", .text (yearRange today))]
  }

/-- The observation of an entry. Entries without a year or a value are passed over. -/
def point? (source : String) (entry : Json α) : Except Fault (Option (ObservedPoint α)) := do
  let value ← entry.field? "value"
  let date ← entry.field? "date"
  match (date.map (·.shown)).bind Web.leadingYear? with
  | none => return none
  | some year =>
      match value.getD .null with
      | .null => return none
      | value => (Web.yearlyPoint source year value Scalar.one).map some

/-- The observations of an answer: a list whose second value lists entries. Any other answer has
none.
-/
def points (source : String) (answer : Json α) : Except Fault (List (ObservedPoint α)) :=
  match answer with
  | .list (_ :: .list entries :: _) => (entries.mapM (point? source)).map fun found => found.filterMap id
  | _ => .ok []

/-- What comes of a request. -/
def attempt (web : Web α) (today : Date) (request : DataRequest) : Attempt α :=
  let source := "World Bank " ++ (indicator? request.locator).getD ""
  web.attempt "worldbank" "World Bank" (query? today request.locator) (points source)

/-- The adapter. -/
def adapter (web : Web α) (today : Date) (retry : RetryPolicy α) : Adapter α :=
  ⟨"worldbank", handles, fun request _ => attempt web today request, retry⟩

end Prognosis.WorldBank
