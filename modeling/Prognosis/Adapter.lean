import Prognosis.Notice
import Prognosis.Observation.Series
import Prognosis.Settings

/-! Adapters: ways to observe a quantity at a source of data. What fails is repeated after
pauses that grow, up to a count of attempts.
-/

namespace Prognosis

variable {α : Type}

/-- What is asked of a source: its locator, what the data is for, and which part of it. -/
structure DataRequest where
  locator : String
  target : String
  field : Option String
  deriving DecidableEq, Repr

/-- What comes of asking a source once. -/
inductive Attempt (α : Type) where
  /-- Observations, oldest first; there may be none. -/
  | delivered (points : List (ObservedPoint α))
  /-- Nothing, for a reason in words. -/
  | failed (reason : String)
  /-- The source broke down. -/
  | broken (fault : Fault)
  /-- No answer comes in any time. -/
  | silent

/-- How often a failed attempt is repeated, and after which pauses: the first one in seconds,
and by what each next one is longer.
-/
structure RetryPolicy (α : Type) where
  repeats : Nat
  firstPause : α
  growth : α

/-- What came of asking a source as often as its policy allows. -/
structure Fetched (α : Type) where
  last : Attempt α
  calls : Nat
  pauses : List α
  notices : List (Notice α)

namespace RetryPolicy

/-- Count of attempts, at least one. -/
def attempts (p : RetryPolicy α) : Nat :=
  p.repeats + 1

/-- The policy of the settings, where each part that is given takes its place. At least one
attempt is made.
-/
def ofSettings [Scalar α] (settings : Settings.Retry α)
    (attempts firstPause growth : Option (Json α)) : Except Fault (RetryPolicy α) := do
  let attempts ← (attempts.getD settings.attempts).toWhole
  let firstPause ← (firstPause.getD settings.firstPause).toNumber
  let growth ← (growth.getD settings.growth).toNumber
  return ⟨(attempts - 1).toNat, firstPause, growth⟩

/-- Asks a source by its attempts until one does not fail or none is left; some were made
already, and the next pause is given.
-/
def askAgain [Mul α] (p : RetryPolicy α) (adapter : String) (attempt : Nat → Attempt α)
    (made : Nat) (pause : α) : (repeats : Nat) → Fetched α
  | 0 =>
      match attempt made with
      | .failed reason => ⟨.failed reason, 1, [], [.gaveUp adapter p.attempts reason]⟩
      | last => ⟨last, 1, [], []⟩
  | repeats + 1 =>
      match attempt made with
      | .failed reason =>
          let rest := askAgain p adapter attempt (made + 1) (pause * p.growth) repeats
          ⟨rest.last, rest.calls + 1, pause :: rest.pauses,
            .retrying adapter (made + 1) p.attempts pause reason :: rest.notices⟩
      | last => ⟨last, 1, [], []⟩

/-- Asks a source by its attempts until one does not fail or none is left. -/
def ask [Mul α] (p : RetryPolicy α) (adapter : String) (attempt : Nat → Attempt α) : Fetched α :=
  p.askAgain adapter attempt 0 p.firstPause p.repeats

end RetryPolicy

/-- A way to observe quantities: its name, the locators that it serves, what comes of an attempt
after a count of earlier ones, and how failed attempts are repeated.
-/
structure Adapter (α : Type) where
  name : String
  handles : String → Bool
  attempt : DataRequest → Nat → Attempt α
  retry : RetryPolicy α

/-- Asks an adapter for data, after a count of earlier attempts. -/
def Adapter.fetch [Mul α] (a : Adapter α) (request : DataRequest) (earlier : Nat) : Fetched α :=
  a.retry.ask a.name fun made => a.attempt request (earlier + made)

end Prognosis
