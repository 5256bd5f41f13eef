import Prognosis.Adapter
import Prognosis.Calendar.PartialDate
import Prognosis.Json.Number
import Prognosis.Json.Shown

/-! Sources that answer queries over the network with structured values. -/

namespace Prognosis

/-- A query: an address and its parameters. -/
structure Query (α : Type) where
  address : String
  parameters : List (String × Json α)

/-- Answer to a query: a value, or the reason in words why there is none. -/
inductive Reply (α : Type) where
  | payload (value : Json α)
  | failed (reason : String)

/-- Answers to queries. -/
abbrev Web (α : Type) :=
  Query α → Reply α

namespace Web

variable {α : Type} [Scalar α]

/-- The year at the beginning of a period as written. -/
def leadingYear? (period : String) : Option Int :=
  Decimal.readWhole? (String.ofList (period.toList.take 4))

/-- The observation of a year. -/
def yearlyPoint (source : String) (year : Int) (value : Json α) (scale : α)
    : Except Fault (ObservedPoint α) := do
  let date ← PartialDate.resolve year 1 1
  let x ← value.toNumber
  return ⟨date, x * scale, source, false⟩

/-- An attempt at a source by its query, if the locator gives one, and its way to read answers.
Failures are told with the name of the adapter and of the source.
-/
def attempt (web : Web α) (adapter source : String) (query : Option (Query α))
    (read : Json α → Except Fault (List (ObservedPoint α))) : Attempt α :=
  match query with
  | none => .delivered []
  | some query =>
      match web query with
      | .failed reason => .failed (adapter ++ ": " ++ source ++ " request failed: " ++ reason)
      | .payload value =>
          match read value with
          | .ok points => .delivered (ObservedPoint.chronological points)
          | .error fault => .broken fault

end Web

end Prognosis
