import Prognosis.Calendar.PartialDate
import Prognosis.Entries
import Prognosis.Json

/-! Observations of a quantity over time. -/

namespace Prognosis

variable {α : Type}

/-- One observation: what was measured at a day, and by whom. -/
structure ObservedPoint (α : Type) where
  date : Date
  value : α
  source : String
  provisional : Bool

/-- The observations of a target, oldest first, and how they were obtained. -/
structure ObservedSeries (α : Type) where
  target : String
  points : List (ObservedPoint α)
  locator : String
  adapter : Option String

/-- The latest observation. -/
def ObservedSeries.latest? (s : ObservedSeries α) : Option (ObservedPoint α) :=
  s.points.getLast?

/-- Observations by the names of their targets. -/
abbrev Observations (α : Type) :=
  Entries (ObservedSeries α)

/-- Points in the order of their days; those of one day keep their order. -/
def ObservedPoint.chronological (points : List (ObservedPoint α)) : List (ObservedPoint α) :=
  points.mergeSort fun p q => p.date.notAfter q.date

/-- View of an observation. -/
def ObservedPoint.view (p : ObservedPoint α) : Json α :=
  .present [
    ("date", some (.text p.date.text)),
    ("value", some (.number p.value)),
    ("source", some (.text p.source)),
    ("provisional", if p.provisional then some (.flag true) else none)
  ]

/-- View of a series. -/
def ObservedSeries.view (s : ObservedSeries α) : Json α :=
  .record [
    ("target", .text s.target),
    ("source_url", .text s.locator),
    ("adapter", (s.adapter.map Json.text).getD .null),
    ("points", .list (s.points.map (·.view)))
  ]

end Prognosis
