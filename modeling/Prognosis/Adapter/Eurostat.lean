import Prognosis.Adapter.Locator
import Prognosis.Adapter.Web

/-! Eurostat as a source: values of a dataset by period, for a place. -/

namespace Prognosis.Eurostat

variable {α : Type} [Scalar α]

/-- Filters by which a dataset is narrowed to one row of values. -/
def datasetFilters : List (String × List (String × String)) := [
  ("demo_frate", [("indic_de", "TOTFERRT"), ("freq", "A")]),
  ("demo_pjan", [("age", "TOTAL"), ("sex", "T"), ("freq", "A")]),
  ("demo_pjanind", [("indic_de", "DEPRATIO1"), ("freq", "A")]),
  ("nrg_ind_ren", [("freq", "A"), ("unit", "PC"), ("nrg_bal", "REN")]),
  ("env_air_gge",
    [("airpol", "GHG"), ("src_crf", "TOTX4_MEMO"), ("unit", "MIO_T"), ("freq", "A")]),
  ("nrg_bal_c", [("freq", "A"), ("unit", "KTOE"), ("nrg_bal", "NRGSUP")]),
  ("nrg_pc_204",
    [("freq", "S"), ("product", "6000"), ("consom", "4161903"), ("tax", "I_TAX"),
      ("currency", "EUR")]),
  ("lfsi_emp_a",
    [("indic_em", "EMP_LFS"), ("age", "Y20-64"), ("sex", "T"), ("unit", "PC_POP"),
      ("freq", "A")]),
  ("une_rt_a", [("age", "Y_GE15"), ("sex", "T"), ("unit", "PC_ACT"), ("freq", "A")]),
  ("nama_10_gdp", [("na_item", "B1GQ"), ("unit", "CP_MEUR"), ("freq", "A")]),
  ("isoc_ci_ifp_iu", [("indic_is", "I_IUBK"), ("unit", "PC_IND"), ("freq", "A")]),
  ("isoc_cicce_use",
    [("indic_is", "E_CC"), ("sizen_r2", "10_C10_S951_XK"), ("unit", "PC_ENT"), ("freq", "A")]),
  ("isoc_ci_in_h", [("indic_is", "I_DSK_AB"), ("unit", "PC_IND"), ("freq", "A")])
]

/-- The filters of a dataset; where none are known, yearly values are asked for. -/
def filters (dataset : String) : List (String × String) :=
  (datasetFilters.lookup dataset).getD [("freq", "A")]

/-- The query for a locator that names a dataset. -/
def query? (locator : String) : Option (Query α) :=
  (dataset? locator).map fun dataset => {
    address := "https://ec.europa.eu/eurostat/api/dissemination/statistics/1.0/data/" ++ dataset
    parameters :=
      (("geo", place locator) :: filters dataset).map fun (key, value) => (key, .text value)
  }

/-- By what values are multiplied: a field in millions of tonnes is wanted where the dataset has
thousands.
-/
def scale (dataset : String) (field : Option String) : α :=
  let wanted := field.any fun field => Text.contains "mtoe" (field.toList.map Char.toLower)
  if wanted && (filters dataset).lookup "unit" == some "KTOE" then Scalar.ofDecimal false 1 (-3)
  else Scalar.one

/-- A field of a record, or an empty record where it is missing or empty. -/
def part (key : String) (value : Json α) : Except Fault (Json α) := do
  let found := (← value.field? key).getD .null
  return if found.isPresent then found else .record []

/-- Where an answer lists the places of its periods. -/
def periods (answer : Json α) : Except Fault (Json α) := do
  let dimension ← part "dimension" answer
  let time ← part "time" dimension
  let category := (← time.field? "category").getD (.record [])
  return (← category.field? "index").getD .null

/-- The observation of a period, whose value is found under the text of its place. Periods
without a value or a year are passed over.
-/
def point? (source : String) (scale : α) (values : Json α) (period : String) (place : Json α)
    : Except Fault (Option (ObservedPoint α)) := do
  let value ← values.field? place.shown
  match value.getD .null, Web.leadingYear? period with
  | .null, _ => return none
  | _, none => return none
  | value, some year => (Web.yearlyPoint source year value scale).map some

/-- The observations of an answer. -/
def points (source : String) (scale : α) (answer : Json α)
    : Except Fault (List (ObservedPoint α)) := do
  let places ← periods answer
  let values := (← answer.field? "value").getD .null
  if !places.isPresent || !values.isPresent then return []
  match places with
  | .record entries =>
      let found ← entries.mapM fun (period, place) => point? source scale values period place
      return found.filterMap id
  | _ => .error .notARecord

/-- What comes of a request. -/
def attempt (web : Web α) (request : DataRequest) : Attempt α :=
  let dataset := (dataset? request.locator).getD ""
  web.attempt "eurostat" "Eurostat" (query? request.locator)
    (points ("Eurostat " ++ dataset) (scale dataset request.field))

/-- The adapter. -/
def adapter (web : Web α) (retry : RetryPolicy α) : Adapter α :=
  ⟨"eurostat", handles, fun request _ => attempt web request, retry⟩

end Prognosis.Eurostat
