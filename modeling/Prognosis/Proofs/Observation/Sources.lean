import Prognosis.Proofs.Adapter.Legible
import Prognosis.Proofs.Observation.Pool
import Prognosis.Proofs.Observation.Search
import Prognosis.Pulse

/-! Observation by the public sources and the datasets at hand. Whatever they are asked and however
often, the sources deliver something or say why they do not, as long as their answers are legible;
failed requests are among their answers. So targets that can be computed are always reported on.
-/

namespace Prognosis

variable {α : Type} [Scalar α]

-----------------------------------------------------------------------------------------
-- Attempts that settle
-----------------------------------------------------------------------------------------

omit [Scalar α] in
theorem Attempt.Settles.ne_broken {attempt : Attempt α} (settles : attempt.Settles) (fault : Fault)
    : attempt ≠ .broken fault := by
  rcases settles with ⟨_, rfl⟩ | ⟨_, rfl⟩ <;> exact nofun

/-- The years of a series are in the calendar. -/
def YearlySeries.InCalendar (s : YearlySeries) : Prop :=
  1 ≤ s.firstYear ∧ s.firstYear + s.values.length ≤ 10000

instance (s : YearlySeries) : Decidable s.InCalendar :=
  inferInstanceAs (Decidable (_ ∧ _))

/-- A yearly series can be read. -/
theorem YearlySeries.isOk_points {s : YearlySeries} (inside : s.InCalendar)
    : (s.dataset : Dataset α).points.isOk = true := by
  unfold Dataset.points
  rw [isOk_map, isOk_mapM]
  intro entry member
  obtain ⟨⟨value, index⟩, place, rfl⟩ := List.mem_map.mp member
  obtain ⟨-, below, -⟩ := List.mem_zipIdx place
  have year : IsCalendarYear ((s.firstYear + index : Nat) : Int) := by
    unfold InCalendar at inside
    unfold IsCalendarYear
    omega
  obtain ⟨date, is⟩ := isOk_iff.mp ((isOk_resolve _).mpr year)
  have written : Dataset.needed "year" (s.entry value index : Json α)
      = .ok (.whole (s.firstYear + index : Nat)) := rfl
  have given : Dataset.needed "value" (s.entry value index : Json α)
      = .ok (.number (Scalar.ofDecimal false value (-s.places))) := rfl
  have marked : (s.entry value index : Json α).field? "provisional"
      = .ok (some (.flag (s.values.length ≤ index + s.provisional))) := rfl
  dsimp only [Dataset.point]
  rw [written, given, marked]
  simp only [bind, Except.bind, Json.toWhole, Json.toNumber, is]
  rfl

/-- Eurostat, where each attempt may be answered differently. -/
def Eurostat.answeredBy (webs : Nat → Web α) (retry : RetryPolicy α) : Adapter α :=
  { adapter (webs 0) retry with attempt := fun request made => attempt (webs made) request }

/-- The World Bank, where each attempt may be answered differently. -/
def WorldBank.answeredBy (webs : Nat → Web α) (today : Date) (retry : RetryPolicy α)
    : Adapter α :=
  { adapter (webs 0) today retry with
    attempt := fun request made => attempt (webs made) today request }

/-- The public sources by what they answer, and the datasets at hand. -/
def publicAdapters (today : Date) (eurostat worldBank : Nat → Web α)
    (first second third : RetryPolicy α) : List (Adapter α) :=
  [Eurostat.answeredBy eurostat first, WorldBank.answeredBy worldBank today second,
    Registry.bundled.adapter third]

/-- The live phase asks the public sources, after the adapters that are given. -/
theorem PulseContext.liveAdapters_eq (c : PulseContext α) (given : List (Adapter α))
    : c.liveAdapters given = (c.retry none).map fun retry =>
        given ++ publicAdapters c.today (fun _ => c.web) (fun _ => c.web) retry retry retry := by
  unfold liveAdapters
  cases c.retry none <;> rfl

namespace Prices

/-- A source that cannot be reached. -/
def unreachable (_ : Nat) : Web Int :=
  fun _ => .failed "no connection"

/-- A source that answers when it is asked again: a price for one year and none for the next. -/
def late (made : Nat) : Web Int :=
  fun _ =>
    if made == 0 then .failed "no connection"
    else .payload (.list [.record [], .list [
      .record [("date", .text "2020"), ("value", .number 3)],
      .record [("date", .text "2021"), ("value", .null)]]])

/-- Asks twice. -/
def twice : RetryPolicy Int :=
  ⟨1, 1, 2⟩

end Prices

end Prognosis
