import Prognosis.Adapter.Dataset

/-! The datasets that come with the library: yearly series from public reports, for when no
source on the network has an answer.
-/

namespace Prognosis

/-- A yearly series as it is kept: the years follow each other, values are counted in units of a
decimal place, and the last ones are provisional.
-/
structure YearlySeries where
  pattern : String
  source : String
  firstYear : Nat
  places : Nat
  values : List Nat
  provisional : Nat

namespace YearlySeries

variable {α : Type} [Scalar α]

/-- The entry of a year at a place in the series. -/
def entry (s : YearlySeries) (value index : Nat) : Json α :=
  .record [
    ("year", .whole (s.firstYear + index : Nat)),
    ("value", .number (Scalar.ofDecimal false value (-s.places))),
    ("provisional", .flag (s.values.length ≤ index + s.provisional))
  ]

/-- The series as a dataset. -/
def dataset (s : YearlySeries) : Dataset α :=
  ⟨.ofText s.pattern, s.source, s.values.zipIdx.map fun (value, index) => s.entry value index⟩

end YearlySeries

namespace Bundled

/-- Price of an emission allowance, in euros per tonne. -/
def carbonPrice : YearlySeries where
  pattern := "carbon-pricing|eu-ets|eu_ets"
  source := "EU ETS (EMBER/ICAP)"
  firstYear := 2012
  places := 0
  values := [
    7, 4, 6, 8, 5, 6, 16, 25, 25, 53, 81, 85, 68, 72
  ]
  provisional := 2

/-- Share of renewable energy in Italy, in percent. -/
def renewableShare : YearlySeries where
  pattern := "irena.*capacity.*italy|nrg_ind_ren.*italy"
  source := "IRENA / Eurostat (Renewable share IT)"
  firstYear := 2010
  places := 1
  values := [
    130, 129, 154, 167, 171, 175, 174, 183, 178, 182, 204, 190, 191, 208
  ]
  provisional := 1

/-- Greenhouse gas emissions of Italy, in millions of tonnes. -/
def greenhouseGas : YearlySeries where
  pattern := "eea.*ghg.*italy|eea.*unfccc|ispra"
  source := "ISPRA/EEA (GHG Italy)"
  firstYear := 2010
  places := 0
  values := [
    417, 405, 383, 360, 344, 348, 339, 339, 335, 328, 286, 315, 316, 306
  ]
  provisional := 1

/-- Energy use of data centres, in terawatt hours. -/
def dataCentreEnergy : YearlySeries where
  pattern := "datacenter-energy|data-centres.*energy|iea.*data.cent"
  source := "IEA Data Centres & Networks"
  firstYear := 2018
  places := 0
  values := [
    210, 220, 240, 260, 340, 415, 510, 650
  ]
  provisional := 2

/-- Carbon intensity of electricity, in grams per kilowatt hour. -/
def carbonIntensity : YearlySeries where
  pattern := "carbon.intensity|ember.*gco2"
  source := "Ember Global Electricity Review"
  firstYear := 2016
  places := 0
  values := [
    491, 489, 484, 475, 459, 463, 461, 455, 440
  ]
  provisional := 1

/-- Share of electric cars among those newly registered in the European Union, in percent. -/
def electricCarShare : YearlySeries where
  pattern := "ev-share|electric.vehicle.*registrat|acea.*ev"
  source := "ACEA (EV share EU)"
  firstYear := 2017
  places := 1
  values := [
    15, 20, 30, 105, 178, 216, 230, 243
  ]
  provisional := 1

/-- Count of novel drugs that were approved. -/
def drugApprovals : YearlySeries where
  pattern := "fda.*approv|fda.*novel"
  source := "FDA CDER (Novel Drug Approvals)"
  firstYear := 2016
  places := 0
  values := [
    22, 46, 59, 48, 53, 50, 37, 55, 50
  ]
  provisional := 1

/-- Military expenditure in the European Union, in percent of the gross domestic product. -/
def militaryExpenditure : YearlySeries where
  pattern := "MS\\.MIL\\.XPND|military.*expenditure.*gdp"
  source := "World Bank / SIPRI (Military expenditure % GDP, EU avg)"
  firstYear := 2014
  places := 2
  values := [
    135, 134, 136, 137, 140, 145, 155, 152, 160, 180
  ]
  provisional := 1

/-- Share of people in Africa who live in towns, in percent. -/
def urbanisation : YearlySeries where
  pattern := "SP\\.URB\\.TOTL\\.IN\\.ZS|urbanization.*rate"
  source := "World Bank SP.URB.TOTL.IN.ZS (Africa urbanization rate)"
  firstYear := 2010
  places := 1
  values := [
    389, 393, 396, 400, 404, 407, 411, 414, 418, 422, 425, 428, 431, 435, 438
  ]
  provisional := 1

/-- Total fertility rate of Italy. -/
def fertility : YearlySeries where
  pattern := "demo_frate|fertility.*rate"
  source := "Eurostat demo_frate (Total fertility rate IT)"
  firstYear := 2013
  places := 2
  values := [
    139, 137, 135, 134, 132, 129, 127, 124, 125, 124, 120
  ]
  provisional := 1

/-- All series, in the order in which they are searched. -/
def series : List YearlySeries := [
  carbonPrice, renewableShare, greenhouseGas, dataCentreEnergy,
  carbonIntensity, electricCarShare, drugApprovals, militaryExpenditure,
  urbanisation, fertility
]

end Bundled

/-- The datasets that come with the library. -/
def Registry.bundled {α : Type} [Scalar α] : Registry α :=
  Bundled.series.map (·.dataset)

end Prognosis
