import Prognosis.Adapter.Bundled
import Prognosis.Adapter.Eurostat
import Prognosis.Adapter.WorldBank
import Prognosis.Proofs.Calendar.Chronology
import Prognosis.Proofs.Observation.Targets
import Prognosis.Proofs.Steps

/-! Which answers of the two public sources can be read. Both are asked for structured values of
a certain shape; where an answer has this shape, or is empty where the sources may leave something
out, reading it succeeds, and otherwise it breaks down.
-/

namespace Prognosis

variable {α : Type} [Scalar α]

namespace Json

/-- The value stands for a number. -/
def IsNumeric (value : Json α) : Prop :=
  value.toNumber.isOk = true

/-- The value has fields. -/
def IsRecord (value : Json α) : Prop :=
  ∃ fields, value = .record fields

/-- The field of a record; other values have none. -/
def member? (key : String) : Json α → Option (Json α)
  | record fields => lookup? key fields
  | _ => none

omit [Scalar α] in
/-- A field can be asked for exactly where the value is a record. -/
theorem field?_eq_ok {key : String} {value : Json α} {found : Option (Json α)}
    : value.field? key = .ok found ↔ value.IsRecord ∧ value.member? key = found := by
  cases value <;> simp [field?, IsRecord, member?]

end Json

theorem Web.isOk_yearlyPoint (source : String) (year : Int) (value : Json α) (scale : α)
    : (yearlyPoint source year value scale).isOk = true
      ↔ IsCalendarYear year ∧ value.IsNumeric := by
  unfold yearlyPoint
  rw [isOk_bind, ← isOk_resolve, isOk_iff, Json.IsNumeric, isOk_iff]
  constructor
  · rintro ⟨date, is, more⟩
    obtain ⟨x, number, -⟩ := isOk_bind.mp more
    exact ⟨⟨date, is⟩, x, number⟩
  · rintro ⟨⟨date, is⟩, x, number⟩
    exact ⟨date, is, isOk_bind.mpr ⟨x, number, rfl⟩⟩

-----------------------------------------------------------------------------------------
-- The World Bank
-----------------------------------------------------------------------------------------

namespace WorldBank

/-- An entry is a record, and where it gives a year and a value, the calendar has the year and the
value stands for a number.
-/
def EntryLegible (entry : Json α) : Prop :=
  entry.IsRecord
    ∧ ∀ year value, ((entry.member? "date").map (·.shown)).bind Web.leadingYear? = some year →
        entry.member? "value" = some value → value ≠ .null →
        IsCalendarYear year ∧ value.IsNumeric

/-- Where an answer lists entries, all of them can be read. -/
def Legible (answer : Json α) : Prop :=
  ∀ head entries more, answer = .list (head :: .list entries :: more) →
    ∀ entry ∈ entries, EntryLegible entry

theorem isOk_point? (source : String) (entry : Json α)
    : (point? source entry).isOk = true ↔ EntryLegible entry := by
  unfold point? EntryLegible
  simp only [isOk_bind, Json.field?_eq_ok, and_assoc, exists_and_left, exists_eq_left',
    and_self_left]
  refine and_congr_right fun _ => ?_
  cases ((entry.member? "date").map (·.shown)).bind Web.leadingYear? with
  | none => exact ⟨fun _ => nofun, fun _ => rfl⟩
  | some year =>
      cases entry.member? "value" with
      | none => exact ⟨fun _ => nofun, fun _ => rfl⟩
      | some value =>
          dsimp only [Option.getD_some]
          split
          case h_1 => exact ⟨fun _ _ _ _ is given => absurd (Option.some.inj is).symm given,
            fun _ => rfl⟩
          case h_2 given =>
            rw [isOk_map, Web.isOk_yearlyPoint]
            refine ⟨?_, fun all => all year value rfl rfl given⟩
            rintro both _ _ ⟨⟩ ⟨⟩ -
            exact both

/-- An answer can be read exactly when it is legible. -/
theorem isOk_points (source : String) (answer : Json α)
    : (points source answer).isOk = true ↔ Legible answer := by
  unfold points
  split
  case h_1 head entries more =>
    rw [isOk_map, isOk_mapM]
    simp only [isOk_point?]
    constructor
    · intro all head' entries' more' same
      cases same
      exact all
    · exact fun legible => legible _ _ _ rfl
  case h_2 other =>
    exact ⟨fun _ head entries more same => absurd same (other head entries more), fun _ => rfl⟩

end WorldBank

-----------------------------------------------------------------------------------------
-- Eurostat
-----------------------------------------------------------------------------------------

namespace Eurostat

/-- A field, or an empty record where it is missing or empty. -/
def partOf (key : String) (value : Json α) : Json α :=
  let found := (value.member? key).getD .null
  if found.isPresent then found else .record []

/-- The time in the dimension of an answer. -/
def timeOf (answer : Json α) : Json α :=
  partOf "time" (partOf "dimension" answer)

/-- The category of the time; an empty record where it is missing. -/
def categoryOf (answer : Json α) : Json α :=
  ((timeOf answer).member? "category").getD (.record [])

/-- The places of the periods. -/
def placesOf (answer : Json α) : Json α :=
  ((categoryOf answer).member? "index").getD .null

/-- The values at the places. -/
def valuesOf (answer : Json α) : Json α :=
  (answer.member? "value").getD .null

/-- The values are a record, and where they give a value for the place of a year, the calendar has
the year and the value stands for a number.
-/
def PlaceLegible (values : Json α) (period : String) (place : Json α) : Prop :=
  values.IsRecord
    ∧ ∀ year value, Web.leadingYear? period = some year →
        values.member? place.shown = some value → value ≠ .null →
        IsCalendarYear year ∧ value.IsNumeric

/-- The answer, its dimension, the time in it and the category of the time are records, and where
the answer has places and values, the places are a record and each of them can be read.
-/
structure Legible (answer : Json α) : Prop where
  whole : answer.IsRecord
  dimension : (partOf "dimension" answer).IsRecord
  time : (timeOf answer).IsRecord
  category : (categoryOf answer).IsRecord
  places : (placesOf answer).isPresent = true → (valuesOf answer).isPresent = true →
    ∃ entries, placesOf answer = .record entries
      ∧ ∀ entry ∈ entries, PlaceLegible (valuesOf answer) entry.1 entry.2

theorem part_eq_ok {key : String} {value found : Json α}
    : part key value = .ok found ↔ value.IsRecord ∧ partOf key value = found := by
  unfold part partOf
  simp only [bind_eq_ok, Json.field?_eq_ok, and_assoc, exists_and_left, exists_eq_left']
  exact and_congr_right fun _ => ⟨Except.ok.inj, congrArg Except.ok⟩

theorem periods_eq_ok {answer places : Json α}
    : periods answer = .ok places
      ↔ answer.IsRecord ∧ (partOf "dimension" answer).IsRecord ∧ (timeOf answer).IsRecord
        ∧ (categoryOf answer).IsRecord ∧ placesOf answer = places := by
  unfold periods
  simp only [bind_eq_ok, part_eq_ok, Json.field?_eq_ok, and_assoc, exists_and_left,
    exists_eq_left']
  exact and_congr_right fun _ => and_congr_right fun _ => and_congr_right fun _ =>
    and_congr_right fun _ => ⟨Except.ok.inj, congrArg Except.ok⟩

theorem isOk_point? (source : String) (scale : α) (values : Json α) (period : String)
    (place : Json α)
    : (point? source scale values period place).isOk = true
      ↔ PlaceLegible values period place := by
  unfold point? PlaceLegible
  simp only [isOk_bind, Json.field?_eq_ok, and_assoc, exists_and_left, exists_eq_left']
  refine and_congr_right fun _ => ?_
  cases values.member? place.shown with
  | none => exact ⟨fun _ _ _ _ => nofun, fun _ => rfl⟩
  | some value =>
      dsimp only [Option.getD_some]
      split
      case h_1 => exact ⟨fun _ _ _ _ is given => absurd (Option.some.inj is).symm given,
        fun _ => rfl⟩
      case h_2 unknown =>
        rw [unknown]
        exact ⟨fun _ _ _ => nofun, fun _ => rfl⟩
      case h_3 value _ _ year given known =>
        rw [isOk_map, Web.isOk_yearlyPoint, known]
        refine ⟨?_, fun all => all year value rfl rfl given⟩
        rintro both _ _ ⟨⟩ ⟨⟩ -
        exact both

/-- An answer can be read exactly when it is legible. -/
theorem isOk_points (source : String) (scale : α) (answer : Json α)
    : (points source scale answer).isOk = true ↔ Legible answer := by
  unfold points
  simp only [isOk_bind, periods_eq_ok, Json.field?_eq_ok, and_assoc, exists_and_left,
    exists_eq_left']
  refine ⟨fun ⟨a, b, c, d, _, read⟩ => ⟨a, b, c, d, fun places values => ?_⟩,
    fun legible => ⟨legible.whole, legible.dimension, legible.time, legible.category,
      legible.whole, ?_⟩⟩
  · unfold valuesOf at values ⊢
    rw [places, values] at read
    simp only [Bool.not_true, Bool.or_self, Bool.false_eq_true, if_false] at read
    split at read
    case h_1 entries is =>
      rw [isOk_bind_pure, isOk_mapM] at read
      exact ⟨entries, is, fun entry member => (isOk_point? ..).mp (read entry member)⟩
    case h_2 => cases read
  · have read := legible.places
    unfold valuesOf at read
    split
    case isTrue => rfl
    case isFalse given =>
      simp only [Bool.or_eq_true, Bool.not_eq_true', not_or, Bool.not_eq_false] at given
      obtain ⟨entries, is, all⟩ := read given.1 given.2
      rw [is]
      dsimp only
      rw [isOk_bind_pure, isOk_mapM]
      exact fun entry member => (isOk_point? ..).mpr (all entry member)

end Eurostat

end Prognosis
