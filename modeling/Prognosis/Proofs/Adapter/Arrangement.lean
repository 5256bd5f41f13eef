import Prognosis.Proofs.Adapter.Legible
import Prognosis.Proofs.Entries
import Prognosis.Proofs.Observation.Order

/-! Answers with their keys in another order. Periods are cut to their years, and points of one year
keep the order in which the answer lists them. So what is delivered depends on that order exactly
where different observations share a year, as the halves of a year do.
-/

namespace Prognosis

variable {α : Type}

-----------------------------------------------------------------------------------------
-- Records with their fields in another order
-----------------------------------------------------------------------------------------

namespace Json

variable {fields others : List (String × Json α)} {key other : String} {path : List String}
  {change : Json α → Json α} {value : Json α}

/-- No two fields have the same key. -/
def DistinctKeys (fields : List (String × Json α)) : Prop :=
  (fields.map (·.1)).Nodup

theorem lookup?_eq_lookup (key : String) (fields : List (String × Json α))
    : lookup? key fields = fields.reverse.lookup key := by
  rw [lookup?]
  induction fields.reverse with
  | nil => rfl
  | cons field rest ih =>
      rw [List.find?_cons, List.lookup_cons, BEq.comm]
      split <;> simp_all

/-- With distinct keys a field is found in whatever order they come. -/
theorem lookup?_eq_of_perm (distinct : DistinctKeys fields) (perm : fields.Perm others)
    (key : String)
    : lookup? key fields = lookup? key others := by
  rw [lookup?_eq_lookup, lookup?_eq_lookup]
  refine Entries.lookup_eq_of_perm ?_
    (fields.reverse_perm.trans (perm.trans others.reverse_perm.symm)) key
  rw [List.map_reverse]
  exact List.nodup_reverse.mpr distinct

/-- A record with another order of its fields. -/
def reordered (order : List (String × Json α) → List (String × Json α)) : Json α → Json α
  | record fields => record (order fields)
  | value => value

/-- Changes what is found under a path of fields. -/
def inside (change : Json α → Json α) : List String → Json α → Json α
  | [], value => change value
  | key :: path, record fields =>
      record (fields.map fun (k, v) => (k, if k == key then inside change path v else v))
  | _ :: _, value => value

theorem lookup?_map (f : Json α → Json α) (other key : String)
    (fields : List (String × Json α))
    : lookup? other (fields.map fun (k, v) => (k, if k == key then f v else v))
      = (lookup? other fields).map fun v => if other == key then f v else v := by
  rw [lookup?, lookup?, ← List.map_reverse, List.find?_map, Option.map_map, Option.map_map]
  refine Option.map_congr fun field found => ?_
  have named : field.1 = other := by simpa using List.find?_some found
  simp [named]

theorem member?_inside_self
    : (inside change (key :: path) value).member? key
      = (value.member? key).map (inside change path) := by
  cases value with
  | record fields => simpa [inside, member?] using lookup?_map (inside change path) key key fields
  | null | flag _ | whole _ | number _ | text _ | list _ => rfl

theorem member?_inside_of_ne (different : other ≠ key)
    : (inside change (key :: path) value).member? other = value.member? other := by
  cases value with
  | record fields =>
      simpa [inside, member?, different] using lookup?_map (inside change path) other key fields
  | null | flag _ | whole _ | number _ | text _ | list _ => rfl

theorem isRecord_inside
    : (inside change (key :: path) value).IsRecord ↔ value.IsRecord := by
  cases value <;> simp [inside, IsRecord]

theorem isPresent_inside [Scalar α] : (inside change (key :: path) value).isPresent
    = value.isPresent := by
  cases value <;> simp [inside, isPresent]

theorem isPresent_reordered [Scalar α] {order : List (String × Json α) → List (String × Json α)}
    (permutes : ∀ fields, (order fields).Perm fields)
    : (reordered order value).isPresent = value.isPresent := by
  cases value with
  | record fields => exact congrArg (!·) (permutes fields).isEmpty_eq
  | null | flag _ | whole _ | number _ | text _ | list _ => rfl

end Json

namespace Eurostat

variable [Scalar α] {answer : Json α} {key : String} {path : List String}
  {change : Json α → Json α}

-----------------------------------------------------------------------------------------
-- Answers with their keys in another order
-----------------------------------------------------------------------------------------

theorem partOf_inside {first : String} {value : Json α}
    : partOf key (Json.inside change (key :: first :: path) value)
      = Json.inside change (first :: path) (partOf key value) := by
  unfold partOf
  rw [Json.member?_inside_self]
  cases value.member? key with
  | none => rfl
  | some found =>
      simp only [Option.map_some, Option.getD_some, Json.isPresent_inside]
      split <;> rfl

/-- The answer with the keys of its time index and of its values in another order. -/
def rearranged (places values : List (String × Json α) → List (String × Json α))
    (answer : Json α) : Json α :=
  Json.inside (.reordered places) ["dimension", "time", "category", "index"]
    (Json.inside (.reordered values) ["value"] answer)

variable {places values : List (String × Json α) → List (String × Json α)}

theorem partOf_inside_value {other : String} (different : other ≠ key) (value : Json α)
    : partOf other (Json.inside change (key :: path) value) = partOf other value := by
  rw [partOf, Json.member?_inside_of_ne different, partOf]

theorem timeOf_rearranged
    : timeOf (rearranged places values answer)
      = Json.inside (.reordered places) ["category", "index"] (timeOf answer) := by
  rw [timeOf, rearranged, partOf_inside, partOf_inside, partOf_inside_value (by decide), timeOf]

theorem categoryOf_rearranged
    : categoryOf (rearranged places values answer)
      = Json.inside (.reordered places) ["index"] (categoryOf answer) := by
  rw [categoryOf, timeOf_rearranged, Json.member?_inside_self, categoryOf]
  cases (timeOf answer).member? "category" <;> rfl

theorem placesOf_rearranged
    : placesOf (rearranged places values answer) = .reordered places (placesOf answer) := by
  rw [placesOf, categoryOf_rearranged, Json.member?_inside_self, placesOf]
  cases (categoryOf answer).member? "index" <;> rfl

omit [Scalar α] in
theorem valuesOf_rearranged
    : valuesOf (rearranged places values answer) = .reordered values (valuesOf answer) := by
  rw [valuesOf, rearranged, Json.member?_inside_of_ne (by decide), Json.member?_inside_self,
    valuesOf]
  cases answer.member? "value" <;> rfl

-----------------------------------------------------------------------------------------
-- What an answer says
-----------------------------------------------------------------------------------------

variable {source : String} {scale : α} {entries others : List (String × Json α)}
  {found : List (ObservedPoint α)}

/-- The observation of a period at a place, if there is one that can be read. -/
def observation? (source : String) (scale : α) (values : Json α) (entry : String × Json α)
    : Option (ObservedPoint α) :=
  (point? source scale values entry.1 entry.2).toOption.join

/-- The observations of an answer that can be read, in the order of its keys. -/
def observations (source : String) (scale : α) (answer : Json α) : List (ObservedPoint α) :=
  match placesOf answer with
  | .record entries =>
      if (valuesOf answer).isPresent then
        entries.filterMap (observation? source scale (valuesOf answer))
      else []
  | _ => []

/-- What is read of all entries is what is read of each. By induction along the entries. -/
theorem filterMap_observation?_of_mapM {values : Json α} {read : List (Option (ObservedPoint α))}
    (all : entries.mapM (fun (period, place) => point? source scale values period place) = .ok read)
    : read.filterMap id = entries.filterMap (observation? source scale values) := by
  have each := mapM_eq_ok_iff.mp all
  clear all
  induction each with
  | nil => rfl
  | @cons entry one entries read is _ ih =>
      have here : observation? source scale values entry = one := by
        rw [observation?]
        exact congrArg (·.toOption.join) is
      cases one with
      | none => simpa [here] using ih
      | some point => simpa [here] using ih

theorem observations_of_points (read : points source scale answer = .ok found)
    : observations source scale answer = found := by
  unfold points at read
  obtain ⟨places, is, read⟩ := bind_eq_ok.mp read
  obtain ⟨value, given, read⟩ := bind_eq_ok.mp read
  obtain ⟨-, -, -, -, rfl⟩ := periods_eq_ok.mp is
  obtain ⟨-, rfl⟩ := Json.field?_eq_ok.mp given
  change (if !(placesOf answer).isPresent || !(valuesOf answer).isPresent then _ else _) = _ at read
  unfold observations
  cases listed : (placesOf answer).isPresent with
  | false =>
      rw [listed] at read
      cases read
      split
      case h_1 entries is =>
        rw [is, Json.isPresent, Bool.not_eq_false', List.isEmpty_iff] at listed
        simp [listed]
      case h_2 => rfl
  | true =>
      cases valued : (valuesOf answer).isPresent with
      | false =>
          rw [listed, valued] at read
          cases read
          split <;> rfl
      | true =>
          rw [listed, valued] at read
          split
          case h_1 entries is =>
            rw [is] at read
            obtain ⟨all, each, same⟩ := bind_eq_ok.mp read
            cases same
            exact (filterMap_observation?_of_mapM each).symm
          case h_2 other =>
            simp only [Bool.not_true, Bool.or_self, Bool.false_eq_true, if_false] at read
            cases read

/-- An answer that can be read is read as its observations. -/
theorem points_eq_ok
    : points source scale answer = .ok found
      ↔ Legible answer ∧ observations source scale answer = found := by
  rw [← isOk_points source scale, isOk_iff]
  constructor
  · exact fun read => ⟨⟨found, read⟩, observations_of_points read⟩
  · rintro ⟨⟨other, read⟩, rfl⟩
    rw [read, observations_of_points read]

-----------------------------------------------------------------------------------------
-- Answers in another order say the same
-----------------------------------------------------------------------------------------

/-- The order of fields that a function gives them is an order of the same fields. -/
def Permutes (order : List (String × Json α) → List (String × Json α)) : Prop :=
  ∀ fields, (order fields).Perm fields

/-- The keys of the time index and of the values are distinct, as in every answer that is read from
a text.
-/
structure DistinctKeys (answer : Json α) : Prop where
  places : ∀ entries, placesOf answer = .record entries → Json.DistinctKeys entries
  values : ∀ fields, valuesOf answer = .record fields → Json.DistinctKeys fields

variable (distinct : DistinctKeys answer) (permutesPlaces : Permutes places)
  (permutesValues : Permutes values)

include distinct permutesValues in
/-- The values are found under the same keys. -/
theorem member?_valuesOf_rearranged (key : String)
    : (valuesOf (rearranged places values answer)).member? key = (valuesOf answer).member? key := by
  rw [valuesOf_rearranged]
  cases given : valuesOf answer with
  | record fields =>
      exact (Json.lookup?_eq_of_perm (distinct.values fields given) (permutesValues fields).symm
        key).symm
  | null | flag _ | whole _ | number _ | text _ | list _ => rfl

include distinct permutesValues in
theorem point?_rearranged (source : String) (scale : α) (period : String) (place : Json α)
    : point? source scale (valuesOf (rearranged places values answer)) period place
      = point? source scale (valuesOf answer) period place := by
  have same : (valuesOf (rearranged places values answer)).member? place.shown
      = (valuesOf answer).member? place.shown :=
    member?_valuesOf_rearranged distinct permutesValues place.shown
  rw [valuesOf_rearranged] at same ⊢
  unfold point?
  cases given : valuesOf answer with
  | record fields =>
      rw [given] at same
      have here : Json.lookup? place.shown (values fields) = Json.lookup? place.shown fields := same
      simp only [Json.reordered, Json.field?, here]
  | null | flag _ | whole _ | number _ | text _ | list _ => rfl

include distinct permutesValues in
/-- The observations are the same ones, in the order of the keys. -/
theorem observations_rearranged
    : observations source scale (rearranged places values answer)
      = match placesOf answer with
        | .record entries =>
            if (valuesOf answer).isPresent then
              (places entries).filterMap (observation? source scale (valuesOf answer))
            else []
        | _ => [] := by
  have same : observation? source scale (valuesOf (rearranged places values answer))
      = observation? source scale (valuesOf answer) := by
    funext entry
    rw [observation?, point?_rearranged distinct permutesValues, observation?]
  unfold observations
  rw [same, placesOf_rearranged, valuesOf_rearranged, Json.isPresent_reordered permutesValues]
  cases placesOf answer <;> rfl

include distinct permutesPlaces permutesValues in
theorem observations_rearranged_perm
    : (observations source scale (rearranged places values answer)).Perm
        (observations source scale answer) := by
  rw [observations_rearranged distinct permutesValues]
  unfold observations
  split
  case h_1 entries _ =>
    split
    case isTrue => exact (permutesPlaces entries).filterMap _
    case isFalse => rfl
  case h_2 => rfl

include distinct permutesPlaces permutesValues in
/-- What can be read can be read in every order. -/
theorem Legible.rearranged (legible : Legible answer)
    : Legible (rearranged places values answer) where
  whole := by
    rw [Eurostat.rearranged, Json.isRecord_inside, Json.isRecord_inside]
    exact legible.whole
  dimension := by
    rw [Eurostat.rearranged, partOf_inside, Json.isRecord_inside, partOf_inside_value (by decide)]
    exact legible.dimension
  time := by
    rw [timeOf_rearranged, Json.isRecord_inside]
    exact legible.time
  category := by
    rw [categoryOf_rearranged, Json.isRecord_inside]
    exact legible.category
  places := by
    rw [placesOf_rearranged, Json.isPresent_reordered permutesPlaces]
    intro listed valued
    rw [valuesOf_rearranged, Json.isPresent_reordered permutesValues] at valued
    obtain ⟨entries, is, all⟩ := legible.places listed valued
    refine ⟨places entries, by rw [is]; rfl, fun entry member => ?_⟩
    have read := all entry ((permutesPlaces entries).subset member)
    rw [← isOk_point? "" Scalar.one] at read ⊢
    rwa [point?_rearranged distinct permutesValues]

-----------------------------------------------------------------------------------------
-- Periods
-----------------------------------------------------------------------------------------

/-- A half of a year. -/
inductive Half where
  | first | second
  deriving DecidableEq, Repr

/-- A period as the source labels it: a year with four digits, or one of its halves. -/
structure Period where
  year : Nat
  half : Option Half
  year_lt : year < 10000
  deriving DecidableEq, Repr

/-- The four digits of a year. -/
def yearDigits (year : Nat) : List Char :=
  [year / 1000, year / 100 % 10, year / 10 % 10, year % 10].map Nat.digitChar

/-- The mark of a half. -/
def halfMark : Option Half → List Char
  | none => []
  | some .first => ['-', 'S', '1']
  | some .second => ['-', 'S', '2']

/-- The label of a period. -/
def Period.label (p : Period) : String :=
  String.ofList (yearDigits p.year ++ halfMark p.half)

/-- The character is read as a digit, and neither as white space nor as a sign. -/
structure ReadsAs (c : Char) (digit : Nat) : Prop where
  isDigit : Text.isDecimalDigit c = true
  value : Text.digitValue? c = some digit
  solid : Text.isBlank c = false
  plus : c ≠ '+'
  minus : c ≠ '-'

theorem digitChar_readsAs {digit : Nat} (short : digit < 10)
    : ReadsAs (Nat.digitChar digit) digit := by
  have all
      : ∀ d : Fin 10, Text.isDecimalDigit (Nat.digitChar d) = true
          ∧ Text.digitValue? (Nat.digitChar d) = some d.val
          ∧ Text.isBlank (Nat.digitChar d) = false
          ∧ Nat.digitChar d ≠ '+' ∧ Nat.digitChar d ≠ '-' := by decide
  obtain ⟨isDigit, value, solid, plus, minus⟩ := all ⟨digit, short⟩
  exact ⟨isDigit, value, solid, plus, minus⟩

/-- Of a period only its year is read. -/
theorem leadingYear?_label (p : Period) : Web.leadingYear? p.label = some p.year := by
  have four : p.label.toList.take 4 = yearDigits p.year := by
    rw [Period.label, String.toList_ofList]
    rfl
  have year_lt := p.year_lt
  have thousands := @digitChar_readsAs (p.year / 1000) (by omega)
  have hundreds := @digitChar_readsAs (p.year / 100 % 10) (by omega)
  have tens := @digitChar_readsAs (p.year / 10 % 10) (by omega)
  have ones := @digitChar_readsAs (p.year % 10) (by omega)
  have trimmed : Text.trimmed (yearDigits p.year) = yearDigits p.year := by
    simp [Text.trimmed, yearDigits, thousands.solid, ones.solid]
  have unsigned : Decimal.signed (yearDigits p.year) = (false, yearDigits p.year) := by
    have plus := thousands.plus
    have minus := thousands.minus
    unfold Decimal.signed yearDigits
    split <;> simp_all
  rw [Web.leadingYear?, four, Decimal.readWhole?, String.toList_ofList, trimmed, unsigned]
  simp only [yearDigits, List.map, Decimal.digitRun, Text.digitsValue, List.foldl,
    thousands.isDigit, hundreds.isDigit, tens.isDigit, ones.isDigit, thousands.value,
    hundreds.value, tens.value, ones.value, if_true, Option.getD_some, Bool.false_eq_true, if_false]
  exact congrArg some (by omega)

/-- The observation of a period is of the first day of its year. -/
theorem date_of_point? {values place : Json α} {period : Period} {x : ObservedPoint α}
    (is : point? source scale values period.label place = .ok (some x))
    : x.date.year = period.year ∧ x.date.month = 1 ∧ x.date.day = 1 := by
  unfold point? at is
  obtain ⟨value, -, is⟩ := bind_eq_ok.mp is
  rw [leadingYear?_label] at is
  split at is
  case h_1 => cases is
  case h_2 => simp_all
  case h_3 year given known =>
    obtain rfl : (period.year : Int) = year := by simp_all
    cases made : Web.yearlyPoint source period.year (value.getD .null) scale with
    | error fault =>
        rw [made] at is
        cases is
    | ok y =>
        rw [made] at is
        cases is
        unfold Web.yearlyPoint at made
        obtain ⟨date, resolves, made⟩ := bind_eq_ok.mp made
        obtain ⟨number, -, made⟩ := bind_eq_ok.mp made
        cases made
        have numbers := PartialDate.numbers_of_resolve resolves
        dsimp only
        omega

theorem ordinal_lt_of_year_lt {d e : Date} (less : d.year < e.year) : d.ordinal < e.ordinal := by
  have short := Nat.le_trans d.day_le (Timeline.daysInMonth_le d.year d.month)
  have pos := d.day_pos
  have month := And.intro d.month_pos d.month_le
  refine Date.ordinal_lt_of_key_lt ?_
  unfold Date.key
  omega

-----------------------------------------------------------------------------------------
-- Attempts on rearranged answers
-----------------------------------------------------------------------------------------

variable {request : DataRequest} {query : Query α} {points : List (ObservedPoint α)}
  {period : Period} {x y : ObservedPoint α}

/-- The observations of an answer to a request, in the order of its keys. -/
def observationsOf (request : DataRequest) (answer : Json α) : List (ObservedPoint α) :=
  let dataset := (dataset? request.locator).getD ""
  observations ("Eurostat " ++ dataset) (Eurostat.scale dataset request.field) answer

/-- An answer to a request has this observation for a period. -/
def Observes (request : DataRequest) (answer : Json α) (period : Period) (x : ObservedPoint α)
    : Prop :=
  let dataset := (dataset? request.locator).getD ""
  ∃ entries place, placesOf answer = .record entries ∧ (period.label, place) ∈ entries
    ∧ point? ("Eurostat " ++ dataset) (Eurostat.scale dataset request.field) (valuesOf answer)
        period.label place = .ok (some x)

/-- Every key of the time index is the label of a period. -/
def Labelled (answer : Json α) : Prop :=
  ∀ entries, placesOf answer = .record entries
    → ∀ entry ∈ entries, ∃ period : Period, entry.1 = period.label

/-- What an attempt delivers of an answer that can be read. -/
theorem attempt_eq_delivered (asks : query? request.locator = some query)
    : attempt (fun _ => .payload answer) request = .delivered points
      ↔ Legible answer
        ∧ ObservedPoint.chronological (observationsOf request answer) = points := by
  unfold attempt Web.attempt observationsOf
  rw [asks]
  dsimp only
  constructor
  · intro delivers
    split at delivers
    case h_1 found read =>
      obtain ⟨legible, rfl⟩ := points_eq_ok.mp read
      exact ⟨legible, Attempt.delivered.inj delivers⟩
    case h_2 => cases delivers
  · rintro ⟨legible, rfl⟩
    rw [points_eq_ok.mpr ⟨legible, rfl⟩]

/-- A place without a value has no observation. -/
theorem isPresent_of_point? {values place : Json α} {label : String}
    (is : point? source scale values label place = .ok (some x))
    : values.isPresent = true := by
  unfold point? at is
  obtain ⟨value, given, is⟩ := bind_eq_ok.mp is
  obtain ⟨⟨fields, rfl⟩, found⟩ := Json.field?_eq_ok.mp given
  cases fields with
  | nil =>
      cases found
      cases is
  | cons _ _ => rfl

theorem observation?_eq_some {values : Json α} {entry : String × Json α}
    : observation? source scale values entry = some x
      ↔ point? source scale values entry.1 entry.2 = .ok (some x) := by
  unfold observation?
  rcases point? source scale values entry.1 entry.2 with _ | _ | _ <;>
    simp [Except.toOption]

theorem mem_observationsOf (labelled : Labelled answer)
    : x ∈ observationsOf request answer ↔ ∃ period, Observes request answer period x := by
  unfold observationsOf Observes observations
  constructor
  · intro member
    split at member
    case h_1 entries is =>
      split at member
      case isTrue =>
        obtain ⟨entry, inside, observed⟩ := List.mem_filterMap.mp member
        obtain ⟨period, named⟩ := labelled entries is entry inside
        refine ⟨period, entries, entry.2, is, named ▸ inside, ?_⟩
        rw [← named]
        exact observation?_eq_some.mp observed
      case isFalse => cases member
    case h_2 => cases member
  · rintro ⟨period, entries, place, is, inside, observed⟩
    rw [is]
    dsimp only
    rw [if_pos (isPresent_of_point? observed)]
    exact List.mem_filterMap.mpr ⟨_, inside, observation?_eq_some.mpr observed⟩

/-- With distinct keys a period has one observation at most. -/
theorem Observes.unique (distinct : DistinctKeys answer) (one : Observes request answer period x)
    (other : Observes request answer period y)
    : x = y := by
  obtain ⟨entries, place, is, inside, observed⟩ := one
  obtain ⟨entriesToo, placeToo, isToo, insideToo, observedToo⟩ := other
  cases is.symm.trans isToo
  have same := List.inj_on_of_nodup_map (distinct.places entries is) inside insideToo rfl
  cases same
  cases observed.symm.trans observedToo
  rfl

theorem Observes.ordinal_lt {other : Period} (one : Observes request answer period x)
    (two : Observes request answer other y) (less : period.year < other.year)
    : x.date.ordinal < y.date.ordinal := by
  obtain ⟨_, _, -, -, observed⟩ := one
  obtain ⟨_, _, -, -, observedToo⟩ := two
  refine ordinal_lt_of_year_lt ?_
  rw [(date_of_point? observed).1, (date_of_point? observedToo).1]
  exact less

omit [Scalar α] in
theorem permutes_id : Permutes (id : List (String × Json α) → List (String × Json α)) :=
  fun fields => .refl fields

open Classical in
/-- The order of one record, and all others as they are. -/
noncomputable def orderOf (entries others : List (String × Json α))
    (fields : List (String × Json α)) : List (String × Json α) :=
  if fields = entries then others else fields

omit [Scalar α] in
theorem permutes_orderOf (perm : others.Perm entries) : Permutes (orderOf entries others) := by
  intro fields
  unfold orderOf
  split
  case isTrue same => exact same ▸ perm
  case isFalse => exact .refl fields

omit [Scalar α] in
/-- Two items that come to different things can be put in front of all others. -/
theorem exists_perm_front {β γ : Type} {f : β → Option γ} {items : List β} {x y : γ}
    (left : x ∈ items.filterMap f) (right : y ∈ items.filterMap f) (apart : x ≠ y)
    : ∃ one two rest, (one :: two :: rest).Perm items ∧ f one = some x ∧ f two = some y := by
  obtain ⟨one, inside, is⟩ := List.mem_filterMap.mp left
  obtain ⟨two, insideToo, isToo⟩ := List.mem_filterMap.mp right
  obtain ⟨front, back, rfl⟩ := List.append_of_mem inside
  have other : two ∈ front ++ back := by
    have different : two ≠ one := by
      rintro rfl
      exact apart (Option.some.inj (is.symm.trans isToo))
    simpa [different] using insideToo
  obtain ⟨before, after, split⟩ := List.append_of_mem other
  refine ⟨one, two, before ++ after, .trans (.cons one ?_) List.perm_middle.symm, is, isToo⟩
  rw [split]
  exact List.perm_middle.symm

/-- Of two observations either one can come first. -/
theorem exists_orders (distinct : DistinctKeys answer) (left : x ∈ observations source scale answer)
    (right : y ∈ observations source scale answer) (apart : x ≠ y)
    : ∃ order orderToo more, Permutes order ∧ Permutes orderToo
        ∧ observations source scale (rearranged order id answer) = x :: y :: more
        ∧ observations source scale (rearranged orderToo id answer) = y :: x :: more := by
  simp only [observations_rearranged distinct permutes_id]
  unfold observations at left right
  split at left
  case h_2 => cases left
  case h_1 entries is =>
    split at left
    case isFalse => cases left
    case isTrue valued =>
      rw [is] at right
      dsimp only at right
      rw [if_pos valued] at right
      obtain ⟨one, two, rest, perm, first, second⟩ := exists_perm_front left right apart
      refine ⟨orderOf entries (one :: two :: rest), orderOf entries (two :: one :: rest),
        rest.filterMap (observation? source scale (valuesOf answer)), permutes_orderOf perm,
        permutes_orderOf ((List.Perm.swap ..).trans perm), ?_, ?_⟩
      all_goals
        rw [if_pos valued, orderOf, if_pos rfl]
        simp only [List.filterMap_cons, first, second]

section Orders

variable (distinct : DistinctKeys answer) (permutesPlaces : Permutes places)
  (permutesValues : Permutes values)

include distinct permutesPlaces permutesValues

theorem observationsOf_rearranged_perm
    : (observationsOf request (rearranged places values answer)).Perm
        (observationsOf request answer) :=
  observations_rearranged_perm distinct permutesPlaces permutesValues

theorem attempt_of_legible (asks : query? request.locator = some query) (legible : Legible answer)
    : attempt (fun _ => .payload (rearranged places values answer)) request
      = .delivered (ObservedPoint.chronological
        (observationsOf request (rearranged places values answer))) :=
  (attempt_eq_delivered asks).mpr ⟨legible.rearranged distinct permutesPlaces permutesValues, rfl⟩

/-- In every order the observation of the period with the latest year comes last. -/
theorem Observes.getLast? (labelled : Labelled answer) (observed : Observes request answer period x)
    (latest
      : ∀ other y, Observes request answer other y → other ≠ period → other.year < period.year)
    : (ObservedPoint.chronological
        (observationsOf request (rearranged places values answer))).getLast? = some x := by
  have same : (observationsOf request (rearranged places values answer)).Perm
      (observationsOf request answer) :=
    observationsOf_rearranged_perm distinct permutesPlaces permutesValues
  refine (ObservedPoint.chronological_inOrder _).getLast?_eq_some ?_ fun y member => ?_
  · rw [ObservedPoint.mem_chronological, same.mem_iff]
    exact (mem_observationsOf labelled).mpr ⟨period, observed⟩
  · rw [ObservedPoint.mem_chronological, same.mem_iff] at member
    obtain ⟨other, observedToo⟩ := (mem_observationsOf labelled).mp member
    by_cases one : other = period
    · exact Or.inl (observedToo.unique distinct (one ▸ observed))
    · exact Or.inr (observedToo.ordinal_lt observed (latest other y observedToo one))

/-- Observations of which no two different ones are of one day come out the same in every order. -/
theorem chronological_rearranged
    (apart
      : ∀ p ∈ observationsOf request answer, ∀ q ∈ observationsOf request answer,
          p.date = q.date → p = q)
    : ObservedPoint.chronological (observationsOf request (rearranged places values answer))
      = ObservedPoint.chronological (observationsOf request answer) :=
  (ObservedPoint.chronological_eq_of_perm
    (observationsOf_rearranged_perm distinct permutesPlaces permutesValues).symm apart).symm

end Orders

/-- Two different observations of one day come out in the order of their keys, so that some order
brings them the other way round.
-/
theorem eq_of_date_eq (distinct : DistinctKeys answer) (left : x ∈ observationsOf request answer)
    (right : y ∈ observationsOf request answer) (day : x.date = y.date)
    (all
      : ∀ order : List (String × Json α) → List (String × Json α), Permutes order
        → ObservedPoint.chronological (observationsOf request (rearranged order id answer))
          = points)
    : x = y := by
  by_contra apart
  obtain ⟨order, orderToo, more, permutes, permutesToo, first, second⟩ :=
    exists_orders distinct left right apart
  have one := all order permutes
  have two := all orderToo permutesToo
  rw [observationsOf, first] at one
  rw [observationsOf, second] at two
  exact apart (ObservedPoint.eq_of_chronological_eq day (one.trans two.symm))

/-- Periods with years of their own have no observations of one day. -/
theorem eq_of_years_apart (distinct : DistinctKeys answer) (labelled : Labelled answer)
    (apart
      : ∀ one x other y, Observes request answer one x → Observes request answer other y
        → one ≠ other → one.year ≠ other.year)
    : ∀ p ∈ observationsOf request answer, ∀ q ∈ observationsOf request answer,
        p.date = q.date → p = q := by
  simp only [mem_observationsOf labelled]
  rintro p ⟨one, observed⟩ q ⟨other, observedToo⟩ day
  by_cases same : one = other
  · exact observed.unique distinct (same ▸ observedToo)
  · rcases Nat.lt_or_gt_of_ne (apart one p other q observed observedToo same) with less | more
    · have := observed.ordinal_lt observedToo less
      rw [day] at this
      omega
    · have := observedToo.ordinal_lt observed more
      rw [day] at this
      omega

/-- What an attempt delivers depends on the order of keys only as far as different observations
share a year. Where an answer is labelled by years and halves of years and comes to be delivered, it
is delivered in every other order of its keys, with the same observations in the order of their
days, and the one of a period that is later than all other observed ones by its year comes last. The
list itself is the same for all orders exactly when no two different observations are of one day,
and so it is when the observed periods have years of their own. Witness:
`Energy.years_rearranged`.
-/
theorem attempt_rearranged (asks : (query? request.locator : Option (Query α)) = some query)
    (distinct : DistinctKeys answer) (labelled : Labelled answer)
    (delivers : attempt (fun _ => .payload answer) request = .delivered points)
    : (∀ places values, Permutes places → Permutes values
        → ∃ others,
            attempt (fun _ => .payload (rearranged places values answer)) request
              = .delivered others
            ∧ others.Perm points ∧ InOrder others
            ∧ ∀ period x, Observes request answer period x
              → (∀ other y, Observes request answer other y → other ≠ period
                → other.year < period.year)
              → others.getLast? = some x)
      ∧ ((∀ places values, Permutes places → Permutes values
            → attempt (fun _ => .payload (rearranged places values answer)) request
              = .delivered points)
          ↔ ∀ p ∈ points, ∀ q ∈ points, p.date = q.date → p = q)
      ∧ ((∀ one x other y, Observes request answer one x → Observes request answer other y
            → one ≠ other → one.year ≠ other.year)
          → ∀ places values, Permutes places → Permutes values
            → attempt (fun _ => .payload (rearranged places values answer)) request
              = .delivered points) := by
  obtain ⟨legible, rfl⟩ := (attempt_eq_delivered asks).mp delivers
  have again {places values} (permutesPlaces : Permutes places) (permutesValues : Permutes values)
      : attempt (fun _ => .payload (rearranged places values answer)) request
        = .delivered (ObservedPoint.chronological
          (observationsOf request (rearranged places values answer))) :=
    attempt_of_legible distinct permutesPlaces permutesValues asks legible
  simp only [ObservedPoint.mem_chronological]
  refine ⟨?_, ⟨?_, ?_⟩, ?_⟩
  · intro places values permutesPlaces permutesValues
    have same : (observationsOf request (rearranged places values answer)).Perm
        (observationsOf request answer) :=
      observationsOf_rearranged_perm distinct permutesPlaces permutesValues
    exact ⟨_, again permutesPlaces permutesValues,
      (ObservedPoint.chronological_perm _).trans
        (same.trans (ObservedPoint.chronological_perm _).symm),
      ObservedPoint.chronological_inOrder _, fun period x observed latest =>
        observed.getLast? distinct permutesPlaces permutesValues labelled latest⟩
  · intro all p left q right day
    have same order (permutes : Permutes order) := Attempt.delivered.inj
      ((again permutes permutes_id).symm.trans (all order id permutes permutes_id))
    exact eq_of_date_eq distinct left right day same
  · intro same places values permutesPlaces permutesValues
    rw [again permutesPlaces permutesValues,
      chronological_rearranged distinct permutesPlaces permutesValues same]
  · intro apart places values permutesPlaces permutesValues
    rw [again permutesPlaces permutesValues, chronological_rearranged distinct permutesPlaces
      permutesValues (eq_of_years_apart distinct labelled apart)]

end Eurostat

namespace Energy

open Eurostat

/-- The price of electricity is published for halves of years. -/
def price : DataRequest :=
  ⟨"https://ec.europa.eu/eurostat/databrowser/view/nrg_pc_204", "price", none⟩

/-- An answer with the places of its periods. -/
def answer (places : List (String × Json Int)) : Json Int :=
  .record [
    ("dimension",
      .record [("time", .record [("category", .record [("index", .record places)])])]),
    ("value", .record [("0", .number 20), ("1", .number 30)])
  ]

/-- An observation of a year of the calendar. -/
def observed (year : Nat) (begins : (Date.ofNumbers? year 1 1).isSome) (value : Int)
    : ObservedPoint Int :=
  ⟨(Date.ofNumbers? year 1 1).get begins, value, "Eurostat nrg_pc_204", false⟩

/-- Two years, the later one first. -/
def years : Json Int :=
  answer [("2023", .whole 1), ("2022", .whole 0)]

/-- What is delivered of two years. -/
def delivered : List (ObservedPoint Int) :=
  [observed 2022 (by decide) 20, observed 2023 (by decide) 30]

theorem placesOf_answer (places : List (String × Json Int))
    : placesOf (answer places) = .record places := by
  rfl

theorem valuesOf_answer (places : List (String × Json Int))
    : valuesOf (answer places) = .record [("0", .number 20), ("1", .number 30)] := by
  rfl

theorem years_distinct : DistinctKeys years where
  places entries is := by
    rw [years, placesOf_answer] at is
    cases is
    show List.Nodup ["2023", "2022"]
    decide
  values fields is := by
    rw [years, valuesOf_answer] at is
    cases is
    show List.Nodup ["0", "1"]
    decide

theorem years_labelled : Labelled years := by
  intro entries is
  rw [years, placesOf_answer] at is
  cases is
  simp only [List.forall_mem_cons, List.not_mem_nil, false_implies, implies_true, and_true]
  exact ⟨⟨⟨2023, none, by decide⟩, by decide⟩, ⟨2022, none, by decide⟩, by decide⟩

theorem dataset?_price : dataset? price.locator = some "nrg_pc_204" := by
  cbv

theorem attempt_price (answer : Json Int)
    : attempt (fun _ => .payload answer) price
      = match points "Eurostat nrg_pc_204" 1 answer with
        | .ok found => .delivered (ObservedPoint.chronological found)
        | .error fault => .broken fault := by
  have named : "Eurostat " ++ "nrg_pc_204" = "Eurostat nrg_pc_204" := by decide
  have unscaled : (scale "nrg_pc_204" price.field : Int) = 1 := rfl
  unfold attempt query?
  rw [dataset?_price]
  dsimp only [Option.getD_some]
  rw [named, unscaled]
  cases read : points "Eurostat nrg_pc_204" 1 answer <;> simp [Web.attempt, read]

theorem asks_price : ∃ query, (query? price.locator : Option (Query Int)) = some query := by
  rw [query?, dataset?_price]
  exact ⟨_, rfl⟩

theorem years_delivered : attempt (fun _ => .payload years) price = .delivered delivered := by
  rw [attempt_price]
  cbv

theorem years_apart : ∀ p ∈ delivered, ∀ q ∈ delivered, p.date = q.date → p = q := by
  simp only [delivered, List.forall_mem_cons, List.not_mem_nil, false_implies, implies_true,
    and_true, true_and]
  exact ⟨fun day => absurd day (by decide), fun day => absurd day (by decide)⟩

theorem years_rearranged
    : attempt (fun _ => .payload (rearranged List.reverse List.reverse years)) price
      = .delivered delivered := by
  obtain ⟨query, asks⟩ := asks_price
  obtain ⟨-, settled, -⟩ :=
    attempt_rearranged asks years_distinct years_labelled years_delivered
  exact settled.mpr years_apart List.reverse List.reverse List.reverse_perm List.reverse_perm

/-- The halves of a year are delivered in the order of their keys, so that the last observation may
be that of the first half.
-/
theorem halves_keep_order
    : attempt (fun _ => .payload (answer [("2022-S1", .whole 0), ("2022-S2", .whole 1)])) price
        = .delivered [observed 2022 (by decide) 20, observed 2022 (by decide) 30]
      ∧ attempt (fun _ => .payload (answer [("2022-S2", .whole 1), ("2022-S1", .whole 0)])) price
        = .delivered [observed 2022 (by decide) 30, observed 2022 (by decide) 20] := by
  constructor <;> rw [attempt_price] <;> cbv

end Energy

end Prognosis
