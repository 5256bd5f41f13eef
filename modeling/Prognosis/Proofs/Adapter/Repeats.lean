import Mathlib.Data.ENat.Lattice
import Prognosis.Adapter.Supplied
import Prognosis.Proofs.Observation.Search

/-! Repetition of failed attempts. A source is asked until an attempt succeeds or none is left, and
what it is asked last is what comes of it. Between two attempts there are a warning and a pause, and
the pauses grow by one factor; only a source that is given up is an error. Pauses are told as they
are asked for, whatever a clock makes of them.
-/

namespace Prognosis

variable {α : Type}

-----------------------------------------------------------------------------------------
-- Rows of attempts
-----------------------------------------------------------------------------------------

namespace Attempt

/-- The attempt delivers points, be they none. -/
def Succeeds (attempt : Attempt α) : Prop :=
  ∃ points, attempt = .delivered points

/-- The points and no error, or no points and the error in words; none where nothing comes back. -/
def answer? : Attempt α → Option (List (ObservedPoint α) × Option String)
  | delivered points => some (points, none)
  | failed reason => some ([], some reason)
  | broken _ | silent => none

/-- Place of the first attempt that succeeds, counted from one; infinite where none does. -/
noncomputable def firstSuccess (attempts : Nat → Attempt α) : ℕ∞ :=
  ⨅ (i : Nat) (_ : (attempts i).Succeeds), ((i + 1 : Nat) : ℕ∞)

variable {attempts : Nat → Attempt α}

end Attempt

-----------------------------------------------------------------------------------------
-- Asking again
-----------------------------------------------------------------------------------------

/-- The pause after so many others: the first one as it is, and each other one longer by the factor
than the one before it.
-/
def pauseAfter [Mul α] (first growth : α) : (others : Nat) → α
  | 0 => first
  | others + 1 => pauseAfter first growth others * growth

namespace RetryPolicy

variable [Mul α] {p : RetryPolicy α} {adapter : String} {attempts : Nat → Attempt α}
variable {reasons : Nat → String} {pause : α}

/-- The warnings about failed attempts and the pauses after them. -/
def warnings (p : RetryPolicy α) (adapter : String) (reasons : Nat → String) (pause : α)
    (failures : Nat)
    : List (Notice α) :=
  (List.range failures).map fun i =>
    .retrying adapter (i + 1) p.attempts (pauseAfter pause p.growth i) (reasons i)

end RetryPolicy

-----------------------------------------------------------------------------------------
-- What a fetch comes to
-----------------------------------------------------------------------------------------

/-- The notice warns of the failure of an attempt and tells the pause after it. -/
def Warns (adapter : String) (allowed : Nat) (pause : Nat → α) (attempts : Nat → Attempt α)
    (i : Nat) (notice : Notice α)
    : Prop :=
  ∃ reason, attempts i = .failed reason
    ∧ notice = .retrying adapter (i + 1) allowed (pause i) reason

variable [Scalar α]

open Attempt in
/-- Attempts are made until one succeeds or none is left, and the last one that is made is the
answer. There is a pause between two attempts, each after a warning of its own, and an error at the
end exactly where no attempt succeeds.
-/
structure Fetched.Repeats (visit : Fetched α) (adapter : String) (allowed : Nat)
    (pause : Nat → α) (attempts : Nat → Attempt α)
    : Prop where
  calls : (visit.calls : ℕ∞) = min (firstSuccess attempts) allowed
  success : firstSuccess attempts ≤ allowed →
    ∃ points, attempts (visit.calls - 1) = .delivered points
      ∧ visit.last.answer? = some (points, none)
      ∧ visit.notices.drop (visit.calls - 1) = []
  failure : allowed < firstSuccess attempts →
    ∃ reason, attempts (allowed - 1) = .failed reason
      ∧ visit.last.answer? = some ([], some reason)
      ∧ visit.notices.drop (visit.calls - 1) = [.gaveUp adapter allowed reason]
  pauses : visit.pauses = (List.range (visit.calls - 1)).map pause
  warnings : List.Forall₂ (Warns adapter allowed pause attempts) (List.range (visit.calls - 1))
    (visit.notices.take (visit.calls - 1))
  levels : visit.notices.map (·.level)
    = List.replicate (visit.calls - 1) .warning
      ++ if allowed < firstSuccess attempts then [.error] else []

namespace RetryPolicy

variable {p : RetryPolicy α} {adapter : String} {attempts : Nat → Attempt α}
variable {reasons : Nat → String} {pause : α}

end RetryPolicy

namespace Outage

/-- Three attempts, the first pause as long as a second, and the next one twice as long. -/
def settings : Settings.Retry Int :=
  ⟨.whole 3, .whole 1, .whole 2⟩

/-- What is asked for. -/
def request : DataRequest :=
  ⟨"feed", "price", none⟩

/-- An adapter whose source cannot be reached at first. -/
def feed : Adapter Int :=
  .supplied "feed" (fun _ => true)
    (fun _ made => if made < 2 then .unusable "no connection" else .points []) ⟨2, 1, 2⟩

end Outage

end Prognosis
