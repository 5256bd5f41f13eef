import Mathlib.Data.List.Forall2
import Prognosis.Observation.Collect

/-! Targets of an observation: which ones a scenario has, where the observation of one can break
down, and how all of them are reported by their outcomes.
-/

namespace Prognosis

variable {α : Type}

-----------------------------------------------------------------------------------------
-- Targets of a scenario
-----------------------------------------------------------------------------------------

namespace DataTarget

/-- Passing over known names keeps the order. By induction along the targets. -/
theorem firstOfName_sublist (known : List String) (ts : List (DataTarget α))
    : (firstOfName known ts).Sublist ts := by
  induction ts generalizing known with
  | nil => exact .slnil
  | cons t rest ih =>
      unfold firstOfName
      split
      case isTrue => exact (ih known).cons t
      case isFalse => exact (ih _).cons_cons t

/-- Names that are known are passed over. -/
theorem name_notMem_known {known : List String} {ts : List (DataTarget α)} {t : DataTarget α}
    (member : t ∈ firstOfName known ts)
    : t.name ∉ known := by
  induction ts generalizing known with
  | nil => cases member
  | cons u rest ih =>
      unfold firstOfName at member
      split at member
      case isTrue => exact ih member
      case isFalse fresh =>
        rcases List.mem_cons.mp member with rfl | later
        · simpa using fresh
        · exact fun inside => ih later (List.mem_cons_of_mem _ inside)

theorem nodup_firstOfName (known : List String) (ts : List (DataTarget α))
    : ((firstOfName known ts).map (·.name)).Nodup := by
  induction ts generalizing known with
  | nil => exact .nil
  | cons t rest ih =>
      unfold firstOfName
      split
      case isTrue => exact ih known
      case isFalse =>
        refine List.nodup_cons.mpr ⟨fun member => ?_, ih _⟩
        obtain ⟨other, inside, same⟩ := List.mem_map.mp member
        exact name_notMem_known inside (same ▸ List.mem_cons_self)

/-- Under a name that is not known the first target is found. By induction along the targets. -/
theorem find?_firstOfName {known : List String} {name : String} (unknown : name ∉ known)
    (ts : List (DataTarget α))
    : (firstOfName known ts).find? (·.name == name) = ts.find? (·.name == name) := by
  induction ts generalizing known with
  | nil => rfl
  | cons t rest ih =>
      unfold firstOfName
      by_cases here : t.name = name
      · subst here
        simp [unknown]
      · have other : (t.name == name) = false := by simpa using here
        rw [List.find?_cons, other]
        split
        case isTrue => exact ih unknown
        case isFalse =>
          rw [List.find?_cons, other]
          exact ih (List.not_mem_cons_of_ne_of_not_mem (Ne.symm here) unknown)

/-- The targets of a scenario are some of what it binds and calibrates, in that order. -/
theorem ofScenario_sublist (s : Scenario α) : (ofScenario s).Sublist (bound s ++ calibrated s) :=
  firstOfName_sublist [] _

/-- No two targets of a scenario have the same name. -/
theorem nodup_ofScenario (s : Scenario α) : ((ofScenario s).map (·.name)).Nodup :=
  nodup_firstOfName [] _

/-- Under each name the first of what is bound and calibrated counts, so a binding shadows a
calibration and an earlier declaration a later one.
-/
theorem find?_ofScenario (s : Scenario α) (name : String)
    : (ofScenario s).find? (·.name == name)
      = (bound s ++ calibrated s).find? (·.name == name) :=
  find?_firstOfName List.not_mem_nil _

end DataTarget

section Breakdowns

variable [Scalar α]

-----------------------------------------------------------------------------------------
-- Attempts of adapters
-----------------------------------------------------------------------------------------

/-- What is asked for again and again comes to one of the attempts. By induction on the repeats.
-/
theorem RetryPolicy.askAgain_last (p : RetryPolicy α) (adapter : String)
    (attempt : Nat → Attempt α) (made : Nat) (pause : α) (repeats : Nat)
    : ∃ n, (p.askAgain adapter attempt made pause repeats).last = attempt n := by
  induction repeats generalizing made pause with
  | zero =>
      refine ⟨made, ?_⟩
      unfold askAgain
      split
      case h_1 reason failed => exact failed.symm
      case h_2 => rfl
  | succ repeats ih =>
      unfold askAgain
      split
      case h_1 => exact ih (made + 1) (pause * p.growth)
      case h_2 => exact ⟨made, rfl⟩

namespace Adapter

theorem fetch_last (a : Adapter α) (request : DataRequest) (earlier : Nat)
    : ∃ n, (a.fetch request earlier).last = a.attempt request n := by
  obtain ⟨n, last⟩ := a.retry.askAgain_last a.name (fun made => a.attempt request (earlier + made))
    0 a.retry.firstPause a.retry.repeats
  exact ⟨earlier + n, last⟩

/-- Whatever is asked of the adapter and whenever, it does not break down. -/
def Reliable (a : Adapter α) : Prop :=
  ∀ request earlier fault, (a.fetch request earlier).last ≠ .broken fault

/-- An adapter is reliable when none of its attempts breaks down, as each of them may be the first
one that is made.
-/
theorem reliable_iff {a : Adapter α}
    : a.Reliable ↔ ∀ request n fault, a.attempt request n ≠ .broken fault := by
  constructor
  · intro reliable request n fault breaks
    refine reliable request n fault ?_
    unfold fetch RetryPolicy.ask
    cases a.retry.repeats <;> simp [RetryPolicy.askAgain, breaks]
  · intro sound request earlier fault broken
    obtain ⟨n, last⟩ := a.fetch_last request earlier
    exact sound request n fault (last.symm.trans broken)

end Adapter

-----------------------------------------------------------------------------------------
-- Breakdowns of targets
-----------------------------------------------------------------------------------------

namespace DataTarget

/-- Computations of the target do not leave the range of numbers: neither the transform of what
the adapters can deliver nor the fallback. Either may fail in another way.
-/
structure Computes (t : DataTarget α) (adapters : List (Adapter α)) : Prop where
  transform : ∀ a ∈ adapters, ∀ n points fault, a.attempt t.request n = .delivered points →
    transformed t.transform points ≠ .error (.fault fault)
  fallback : ∀ e, t.fallback = some e → ∀ fault, e.magnitude [] ≠ .error (.fault fault)

/-- A search that breaks down does so at an attempt of an adapter, or at the transform of what
one delivered. By induction along the adapters.
-/
theorem survey_broken {t : DataTarget α} {asked : List (Adapter α × Nat)} {fault : Fault}
    (ended : (t.survey asked).ended = some (.broken fault))
    : ∃ a ∈ asked, ∃ n, a.1.attempt t.request n = .broken fault
      ∨ ∃ points, a.1.attempt t.request n = .delivered points
        ∧ transformed t.transform points = .error (.fault fault) := by
  induction asked with
  | nil => cases ended
  | cons a rest ih =>
      obtain ⟨adapter, earlier⟩ := a
      have later (ended : (t.survey rest).ended = some (.broken fault)) :=
        (ih ended).imp fun b => And.imp_left (List.mem_cons_of_mem (adapter, earlier))
      obtain ⟨n, attempt⟩ := adapter.fetch_last t.request earlier
      unfold survey at ended
      split at ended
      case isFalse => exact later ended
      case isTrue =>
        dsimp only at ended
        split at ended
        case h_1 | h_4 => exact later ended
        case h_2 other last =>
          obtain rfl : other = fault := by simpa [Survey.endedBy] using ended
          exact ⟨_, List.mem_cons_self, n, Or.inl (attempt.symm.trans last)⟩
        case h_3 => simp [Survey.endedBy] at ended
        case h_5 points some last =>
          split at ended
          case h_1 | h_4 => simp [Survey.endedBy] at ended
          case h_2 other faults =>
            obtain rfl : other = fault := by simpa [Survey.endedBy] using ended
            exact ⟨_, List.mem_cons_self, n,
              Or.inr ⟨points, attempt.symm.trans last, faults⟩⟩
          case h_3 => exact later ended

/-- Without data a target breaks down only at its fallback. -/
theorem withoutData_broken {t : DataTarget α} {today : Date} {adapters : List (Adapter α)}
    {problems : List Problem} {fault : Fault}
    (broken : t.withoutData today adapters problems = .broken fault)
    : ∃ e, t.fallback = some e ∧ e.magnitude [] = .error (.fault fault) := by
  unfold withoutData declared? at broken
  cases declared : t.fallback with
  | none =>
      simp only [declared, Option.map_none] at broken
      split at broken <;> cases broken
  | some e =>
      refine ⟨e, rfl, ?_⟩
      simp only [declared, Option.map_some] at broken
      split at broken
      case h_1 | h_3 => cases broken
      case h_2 faults =>
        cases broken
        exact faults

end DataTarget

end Breakdowns

-----------------------------------------------------------------------------------------
-- Reports
-----------------------------------------------------------------------------------------

namespace Collection

/-- The series that is reported of a target with this outcome, if any. -/
def series? : Option (FetchOutcome α) → Option (ObservedSeries α)
  | some (.observed series) => some series
  | _ => none

/-- The error that is reported of a target with this outcome, if any. A target without an outcome
has run out of its time.
-/
def error? (timeout : α) : Option (FetchOutcome α) → Option (FetchError α)
  | some (.observed _) => none
  | some (.failed error) => some error
  | _ => some (.timedOut timeout)

/-- An outcome has an error exactly where it has no series. -/
theorem isSome_error? (timeout : α) (outcome : Option (FetchOutcome α))
    : (error? timeout outcome).isSome = !(series? outcome).isSome := by
  cases outcome with
  | none => rfl
  | some outcome => cases outcome <;> rfl

/-- What a report says: the series of the observed targets and the errors of all others, both in
the order of the targets.
-/
structure Reports (timeout : α) (done : List (String × FetchOutcome α)) (ts : List (DataTarget α))
    (c : Collection α) : Prop where
  observed : c.observed = ts.filterMap fun t => (series? (done.lookup t.name)).map (t.name, ·)
  failures : c.failures
    = ts.filterMap fun t =>
        (error? timeout (done.lookup t.name)).map (⟨t.name, t.locator, ·⟩)

variable {timeout : α} {done other : List (String × FetchOutcome α)} {ts : List (DataTarget α)}
variable {c : Collection α}

/-- Outcomes that are no breakdown are reported. By induction along the targets. -/
theorem ofOutcomes_reports
    (intact : ∀ t ∈ ts, ∀ fault, done.lookup t.name ≠ some (.broken fault))
    : ∃ c, ofOutcomes timeout done ts = .ok c ∧ c.Reports timeout done ts := by
  induction ts with
  | nil => exact ⟨empty, rfl, rfl, rfl⟩
  | cons t rest ih =>
      obtain ⟨c, is, observed, failures⟩ :=
        ih fun u member => intact u (List.mem_cons_of_mem _ member)
      have here := intact t List.mem_cons_self
      unfold ofOutcomes
      rw [is]
      cases found : done.lookup t.name with
      | none =>
          refine ⟨_, rfl, ?_, ?_⟩ <;> simp [series?, error?, addFailure, *]
      | some outcome =>
          cases outcome with
          | broken fault => exact absurd found (here fault)
          | observed _ | failed _ | silent =>
              refine ⟨_, rfl, ?_, ?_⟩ <;>
                simp [series?, error?, addFailure, addSeries, *]

/-- Where a report is made, no outcome is a breakdown. By induction along the targets. -/
theorem ne_broken_of_ofOutcomes (is : ofOutcomes timeout done ts = .ok c)
    : ∀ t ∈ ts, ∀ fault, done.lookup t.name ≠ some (.broken fault) := by
  induction ts generalizing c with
  | nil => exact nofun
  | cons t rest ih =>
      have later : ∃ others, ofOutcomes timeout done rest = .ok others := by
        cases others : ofOutcomes timeout done rest with
        | ok made => exact ⟨made, rfl⟩
        | error fault =>
            unfold ofOutcomes at is
            rw [others] at is
            split at is <;> cases is
      obtain ⟨others, made⟩ := later
      refine List.forall_mem_cons.mpr ⟨fun fault broken => ?_, ih made⟩
      simp [ofOutcomes, broken] at is

/-- Whatever report is made, it says of the targets what they came to. -/
theorem reports_of_ofOutcomes (is : ofOutcomes timeout done ts = .ok c)
    : c.Reports timeout done ts := by
  obtain ⟨_, made, reports⟩ := ofOutcomes_reports (ne_broken_of_ofOutcomes is)
  cases is.symm.trans made
  exact reports

/-- Of outcomes only those of the targets count. By induction along the targets. -/
theorem ofOutcomes_congr (same : ∀ t ∈ ts, done.lookup t.name = other.lookup t.name)
    : ofOutcomes timeout done ts = ofOutcomes timeout other ts := by
  induction ts with
  | nil => rfl
  | cons t rest ih =>
      unfold ofOutcomes
      rw [same t List.mem_cons_self, ih fun u member => same u (List.mem_cons_of_mem _ member)]

/-- What is made of those targets that have something is called by their names. -/
theorem map_filterMap_eq {β γ : Type} {value : DataTarget α → Option β}
    {make : DataTarget α → β → γ} (key : γ → String) (ts : List (DataTarget α))
    (named : ∀ t b, key (make t b) = t.name)
    : (ts.filterMap fun t => (value t).map (make t)).map key
      = (ts.filter fun t => (value t).isSome).map (·.name) := by
  induction ts with
  | nil => rfl
  | cons t rest ih => cases found : value t <;> simp [found, named, ih]

/-- The names of the observed targets and those of the failures. -/
theorem Reports.names (reports : c.Reports timeout done ts)
    : c.observed.map (·.1)
        = (ts.filter fun t => (series? (done.lookup t.name)).isSome).map (·.name)
      ∧ c.failures.map (·.target)
        = (ts.filter fun t => !(series? (done.lookup t.name)).isSome).map (·.name) := by
  rw [reports.observed, reports.failures]
  simp only [← isSome_error? timeout]
  constructor <;> exact map_filterMap_eq _ ts fun _ _ => rfl

/-- The observed targets are in the order of the targets. -/
theorem Reports.observed_sublist (reports : c.Reports timeout done ts)
    : (c.observed.map (·.1)).Sublist (ts.map (·.name)) := by
  rw [reports.names.1]
  exact List.filter_sublist.map _

/-- The failures are in the order of the targets. -/
theorem Reports.failures_sublist (reports : c.Reports timeout done ts)
    : (c.failures.map (·.target)).Sublist (ts.map (·.name)) := by
  rw [reports.names.2]
  exact List.filter_sublist.map _

/-- Every target is either observed or a failure, once. -/
theorem Reports.perm (reports : c.Reports timeout done ts)
    : (c.observed.map (·.1) ++ c.failures.map (·.target)).Perm (ts.map (·.name)) := by
  rw [reports.names.1, reports.names.2, ← List.map_append]
  exact (List.filter_append_perm _ ts).map _

end Collection

end Prognosis
