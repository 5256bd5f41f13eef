/-! Failures of a computation that are no findings about a scenario. -/

namespace Prognosis

/-- Why a computation stopped without an answer. -/
inductive Fault where
  /-- A value lies outside the domain of an operation, or a text is no number. -/
  | domain
  /-- A result or a conversion exceeds the range of its type. -/
  | overflow
  /-- A quotient of numbers by zero. -/
  | divisionByZero
  /-- A calendar has no such month. -/
  | noSuchMonth
  /-- A record lacks a field, or a collection an entry. -/
  | missingEntry
  /-- A value has the wrong kind for an operation. -/
  | wrongKind
  /-- Fields are looked up in a value that has none. -/
  | notARecord
  /-- A source of data broke down in a way that is not handled. -/
  | broken
  /-- A table does not fit into memory. -/
  | outOfMemory
  deriving DecidableEq, Repr

end Prognosis
