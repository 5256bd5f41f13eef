import Prognosis.Adapter
import Prognosis.Syntax.Declaration
import Prognosis.Syntax.View
import Prognosis.Value.Expr

/-! Targets of observation: what a scenario wants to be observed, and where. The adapters that serve
the locator of a target are asked in order, and the first one that delivers is taken.
-/

namespace Prognosis

variable {α : Type}

/-- A quantity to observe: where its data is, which part of it, what is made of each value, and
what stands for the data when there is none.
-/
structure DataTarget (α : Type) where
  name : String
  locator : String
  field : Option String
  transform : Option (Expr α)
  fallback : Option (Expr α)

namespace DataTarget

/-- What is asked of a source. -/
def request (t : DataTarget α) : DataRequest :=
  ⟨t.locator, t.name, t.field⟩

/-- A text that says something. -/
def filled? (text : Option String) : Option String :=
  text.filter (· != "")

/-- The target of an assumption that is bound to a source. -/
def ofBinding? : Quantity α → Option (DataTarget α)
  | .assumption a =>
      a.binding.bind fun b => (filled? b.source).map fun source =>
        ⟨a.name, source, b.field, b.transform, b.fallback⟩
  | _ => none

/-- The target of a calibration by the history of a source. -/
def ofCalibration? : Declaration α → Option (DataTarget α)
  | .calibrate c => (filled? c.historical).map fun source => ⟨c.target.text, source, none, none, none⟩
  | _ => none

/-- The targets of the bound assumptions of a scenario. -/
def bound (s : Scenario α) : List (DataTarget α) :=
  s.quantities.filterMap ofBinding?

/-- The targets of the calibrations of a scenario. -/
def calibrated (s : Scenario α) : List (DataTarget α) :=
  s.declarations.filterMap ofCalibration?

/-- The first target of each name; names that are known are passed over. -/
def firstOfName (known : List String) : List (DataTarget α) → List (DataTarget α)
  | [] => []
  | t :: rest =>
      if known.contains t.name then firstOfName known rest
      else t :: firstOfName (t.name :: known) rest

/-- The targets of a scenario: bound assumptions come before calibrations, and the first target
of a name counts.
-/
def ofScenario (s : Scenario α) : List (DataTarget α) :=
  firstOfName [] (bound s ++ calibrated s)

/-- View of a target. -/
def view (t : DataTarget α) : Json α :=
  .record [
    ("target", .text t.name),
    ("url", .text t.locator),
    ("field", (t.field.map Json.text).getD .null),
    ("transform", (t.transform.map Expr.view).getD .null),
    ("fallback", (t.fallback.map Expr.view).getD .null)
  ]

end DataTarget

/-! ### Observation of one target -/

variable [Scalar α]

/-- Why one adapter did not serve a target. -/
inductive Problem where
  | failed (adapter reason : String)
  | nothingFinite (adapter : String)
  deriving DecidableEq, Repr

/-- The problem in words. -/
def Problem.message : Problem → String
  | failed adapter reason => adapter ++ ": " ++ reason
  | nothingFinite adapter => adapter ++ ": transform left no finite values"

/-- Why a target has no observations. -/
inductive FetchError (α : Type) where
  | transformFailed (target : String) (error : EvalError)
  | fallbackNotNumber (target : String) (error : EvalError)
  /-- No adapter serves the locator. -/
  | noAdapter (locator : String)
  /-- Adapters serve it, and none has data. -/
  | noData (locator : String) (problems : List Problem)
  | timedOut (seconds : α)
  deriving Repr

/-- The error in words. -/
def FetchError.message : FetchError α → String
  | transformFailed target error =>
      "transform of '" ++ target ++ "' failed: " ++ error.message
  | fallbackNotNumber target error =>
      "fallback of '" ++ target ++ "' is not a number: " ++ error.message
  | noAdapter locator => "No adapter found for " ++ locator
  | noData locator [] => "No data for " ++ locator ++ " (all adapters returned no data)"
  | noData locator (first :: rest) =>
      "No data for " ++ locator ++ " (" ++ "; ".intercalate ((first :: rest).map (·.message))
        ++ ")"
  | timedOut seconds => "Timed out after " ++ Scalar.general seconds ++ "s"

/-- What comes of the observation of a target. -/
inductive FetchOutcome (α : Type) where
  | observed (series : ObservedSeries α)
  | failed (error : FetchError α)
  /-- An adapter broke down. -/
  | broken (fault : Fault)
  /-- An adapter does not answer. -/
  | silent

/-- The values of points with a transform applied, where those that are not finite drop out. -/
def transformed (transform : Option (Expr α)) (points : List (ObservedPoint α))
    : Except Halt (List (ObservedPoint α)) :=
  match transform with
  | none => .ok points
  | some e => do
      let changed ← points.mapM fun p => do
        return { p with value := ← e.value [("value", p.value)] }
      return changed.filter fun p => Scalar.isFinite p.value

/-- What asking the adapters in order came to: what ended it, if anything did before the last
one, the problems on the way, what came of each adapter that was asked, and what is worth
noting.
-/
structure Survey (α : Type) where
  ended : Option (FetchOutcome α)
  problems : List Problem
  visits : List (Option (Fetched α))
  notices : List (Notice α)

namespace Survey

/-- Nothing was asked of these adapters. -/
def ofUnasked (count : Nat) : Survey α :=
  ⟨none, [], List.replicate count none, []⟩

/-- An adapter was passed over. -/
def passing (s : Survey α) : Survey α :=
  { s with visits := none :: s.visits }

/-- An adapter was asked in vain before the others. -/
def after (s : Survey α) (visit : Fetched α) (problems : List Problem)
    (notices : List (Notice α)) : Survey α :=
  ⟨s.ended, problems ++ s.problems, some visit :: s.visits, visit.notices ++ notices ++ s.notices⟩

/-- An adapter ended the search, and so many others are not asked. -/
def endedBy (outcome : FetchOutcome α) (visit : Fetched α) (others : Nat) : Survey α :=
  ⟨some outcome, [], some visit :: List.replicate others none, visit.notices⟩

end Survey

namespace DataTarget

/-- Asks adapters in order, each after a count of earlier attempts. -/
def survey (t : DataTarget α) : List (Adapter α × Nat) → Survey α
  | [] => .ofUnasked 0
  | (adapter, earlier) :: rest =>
      if adapter.handles t.locator then
        let visit := adapter.fetch t.request earlier
        match visit.last with
        | .failed reason =>
            (survey t rest).after visit [.failed adapter.name reason]
              [.adapterFailed adapter.name t.name reason]
        | .broken fault => .endedBy (.broken fault) visit rest.length
        | .silent => .endedBy .silent visit rest.length
        | .delivered [] => (survey t rest).after visit [] []
        | .delivered points =>
            match transformed t.transform points with
            | .error (.error e) =>
                .endedBy (.failed (.transformFailed t.name e)) visit rest.length
            | .error (.fault fault) => .endedBy (.broken fault) visit rest.length
            | .ok [] => (survey t rest).after visit [.nothingFinite adapter.name] []
            | .ok kept =>
                .endedBy (.observed ⟨t.name, kept, t.locator, some adapter.name⟩) visit rest.length
      else (survey t rest).passing

/-- What stands for the data of a target when no adapter has any: one point of today. -/
def declared? (t : DataTarget α) (today : Date) : Option (FetchOutcome α) :=
  t.fallback.map fun e =>
    match e.magnitude [] with
    | .error (.error e) => .failed (.fallbackNotNumber t.name e)
    | .error (.fault fault) => .broken fault
    | .ok value =>
        .observed ⟨t.name, [⟨today, value, "declared fallback", true⟩], t.locator,
          some "declared-fallback"⟩

/-- What comes of a target after all adapters were asked in vain. -/
def withoutData (t : DataTarget α) (today : Date) (adapters : List (Adapter α))
    (problems : List Problem) : FetchOutcome α :=
  match t.declared? today with
  | some outcome => outcome
  | none =>
      if adapters.any fun a => a.handles t.locator then .failed (.noData t.locator problems)
      else .failed (.noAdapter t.locator)

end DataTarget

/-- What came of the observation of a target, and of each adapter that was asked. -/
structure FetchReport (α : Type) where
  outcome : FetchOutcome α
  visits : List (Option (Fetched α))
  notices : List (Notice α)

/-- Observes a target by adapters, each after a count of earlier attempts. -/
def DataTarget.fetch (t : DataTarget α) (today : Date) (adapters : List (Adapter α × Nat))
    : FetchReport α :=
  let survey := t.survey adapters
  let outcome :=
    survey.ended.getD (t.withoutData today (adapters.map (·.1)) survey.problems)
  ⟨outcome, survey.visits, survey.notices⟩

namespace FetchReport

/-- Adapters with their counts of attempts after these visits. -/
def counted (r : FetchReport α) (adapters : List (Adapter α × Nat)) : List (Adapter α × Nat) :=
  (adapters.zip r.visits).map fun ((adapter, earlier), visit) =>
    (adapter, earlier + (visit.map (·.calls)).getD 0)

/-- The pauses that were made. -/
def pauses (r : FetchReport α) : List α :=
  r.visits.flatMap fun visit => (visit.map (·.pauses)).getD []

end FetchReport

end Prognosis
