import Mathlib.Data.List.Nodup
import Mathlib.Logic.Relation
import Prognosis.Adapter.Supplied
import Prognosis.Grammar.Scenario
import Prognosis.Proofs.Entries
import Prognosis.Proofs.Observation.Targets
import Prognosis.Proofs.Scalar.Exact

/-! Targets that are observed side by side. A crew of limited size takes them in order; they are
done in any order, at any time or never, and what one of them sees of an adapter depends on what
the others ask of it. Whatever happens and whenever the report is made, every target is accounted
for once.
-/

namespace Prognosis

variable {α : Type} [Scalar α]

-----------------------------------------------------------------------------------------
-- Outcomes of targets that share adapters
-----------------------------------------------------------------------------------------

/-- The second adapter is what a target may see of the first one while others ask it as well:
each of its attempts is an attempt of the first one, after any number of earlier ones.
-/
structure Adapter.Shows (a b : Adapter α) : Prop where
  name : b.name = a.name
  handles : b.handles = a.handles
  retry : b.retry = a.retry
  attempts : ∀ request made, ∃ n, b.attempt request made = a.attempt request n

omit [Scalar α] in
theorem Adapter.Shows.refl (a : Adapter α) : a.Shows a :=
  ⟨rfl, rfl, rfl, fun _ made => ⟨made, rfl⟩⟩

omit [Scalar α] in
theorem Adapter.exists_shown {adapters : List (Adapter α)} {seen : List (Adapter α × Nat)}
    (shows : adapters.Forall₂ (fun a b => a.Shows b.1) seen) {b : Adapter α × Nat}
    (member : b ∈ seen)
    : ∃ a ∈ adapters, a.Shows b.1 := by
  induction shows with
  | nil => cases member
  | cons head _ ih =>
      rcases List.mem_cons.mp member with rfl | later
      · exact ⟨_, List.mem_cons_self, head⟩
      · obtain ⟨a, inside, shows⟩ := ih later
        exact ⟨a, List.mem_cons_of_mem _ inside, shows⟩

/-- What may come of a target, if anything does, when others ask the adapters at the same time. -/
def DataTarget.Fetches (t : DataTarget α) (today : Date) (adapters : List (Adapter α))
    (outcome : FetchOutcome α) : Prop :=
  outcome ≠ .silent
    ∧ ∃ seen : List (Adapter α × Nat), adapters.Forall₂ (fun a b => a.Shows b.1) seen
      ∧ (t.fetch today seen).outcome = outcome

/-- A target that can be computed does not break down while the adapters are reliable. -/
theorem DataTarget.Fetches.ne_broken {t : DataTarget α} {today : Date}
    {adapters : List (Adapter α)} {outcome : FetchOutcome α}
    (fetches : t.Fetches today adapters outcome) (reliable : ∀ a ∈ adapters, a.Reliable)
    (computes : t.Computes adapters) (fault : Fault)
    : outcome ≠ .broken fault := by
  rintro rfl
  obtain ⟨-, seen, shows, is⟩ := fetches
  unfold DataTarget.fetch at is
  dsimp only at is
  cases ended : (t.survey seen).ended with
  | none =>
      rw [ended] at is
      obtain ⟨e, declared, faults⟩ := DataTarget.withoutData_broken is
      exact computes.fallback e declared fault faults
  | some outcome =>
      rw [ended, Option.getD_some] at is
      subst is
      obtain ⟨b, member, n, broken⟩ := DataTarget.survey_broken ended
      obtain ⟨a, inside, shows⟩ := Adapter.exists_shown shows member
      obtain ⟨k, same⟩ := shows.attempts t.request n
      rw [same] at broken
      rcases broken with breaks | ⟨points, delivered, faults⟩
      · exact Adapter.reliable_iff.mp (reliable a inside) t.request k fault breaks
      · exact computes.transform a inside k points fault delivered faults

-----------------------------------------------------------------------------------------
-- The crew at work
-----------------------------------------------------------------------------------------

/-- Targets that wait, targets that are being observed, and the outcomes of those that are done,
in the order in which they came.
-/
structure Pool (α : Type) where
  waiting : List (DataTarget α)
  running : List (DataTarget α)
  done : List (String × FetchOutcome α)

namespace Pool

/-- Nothing has begun. -/
def start (ts : List (DataTarget α)) : Pool α :=
  ⟨ts, [], []⟩

/-- What may happen next: while one of the crew is free, the next target begins; and any of those
that have begun may be done.
-/
inductive Step (today : Date) (adapters : List (Adapter α)) : Pool α → Pool α → Prop
  | begins {t waiting running done} (free : running.length < Collection.crew)
    : Step today adapters ⟨t :: waiting, running, done⟩ ⟨waiting, t :: running, done⟩
  | finishes {waiting before t after done outcome} (fetches : t.Fetches today adapters outcome)
    : Step today adapters ⟨waiting, before ++ t :: after, done⟩
        ⟨waiting, before ++ after, done ++ [(t.name, outcome)]⟩

/-- The pool may come to be while the targets are observed. -/
def Reaches (today : Date) (adapters : List (Adapter α)) (ts : List (DataTarget α))
    (pool : Pool α) : Prop :=
  Relation.ReflTransGen (Step today adapters) (start ts) pool

variable {today : Date} {adapters : List (Adapter α)} {ts : List (DataTarget α)}
variable {pool next other : Pool α}

/-- The targets that are done, being observed and waiting are all targets, and each outcome came
of its target.
-/
def Accounts (today : Date) (adapters : List (Adapter α)) (ts : List (DataTarget α))
    (pool : Pool α) : Prop :=
  ∃ finished : List (DataTarget α × FetchOutcome α),
    (finished.map (·.1) ++ pool.running ++ pool.waiting).Perm ts
      ∧ pool.done = finished.map (fun (t, outcome) => (t.name, outcome))
      ∧ ∀ entry ∈ finished, entry.1.Fetches today adapters entry.2

/-- No target gets lost in a step and none is doubled. -/
theorem Step.accounts (step : Step today adapters pool next)
    (accounts : pool.Accounts today adapters ts)
    : next.Accounts today adapters ts := by
  obtain ⟨finished, perm, known, came⟩ := accounts
  cases step with
  | begins free =>
      refine ⟨finished, List.Perm.trans ?_ perm, known, came⟩
      simp only [List.append_assoc, List.cons_append]
      exact (List.perm_middle.symm).append_left _
  | @finishes waiting before t after done outcome fetches =>
      refine ⟨finished ++ [(t, outcome)], List.Perm.trans ?_ perm, ?_, ?_⟩
      · simp only [List.map_append, List.map_cons, List.map_nil, List.append_assoc,
          List.cons_append, List.nil_append]
        exact (List.perm_middle.symm).append_left _
      · rw [List.map_append]
        exact congrArg (· ++ [(t.name, outcome)]) known
      · intro entry member
        rcases List.mem_append.mp member with earlier | last
        · exact came entry earlier
        · rw [List.mem_singleton.mp last]
          exact fetches

/-- Every pool that is reached accounts for the targets. By induction along its steps. -/
theorem Reaches.accounts (reaches : pool.Reaches today adapters ts)
    : pool.Accounts today adapters ts := by
  induction reaches with
  | refl => exact ⟨[], .refl ts, rfl, nofun⟩
  | tail _ step ih => exact step.accounts ih

/-- No name is done twice. -/
theorem Accounts.nodup (accounts : pool.Accounts today adapters ts)
    (distinct : (ts.map (·.name)).Nodup)
    : (pool.done.map (·.1)).Nodup := by
  obtain ⟨finished, perm, known, -⟩ := accounts
  have all := (perm.map (·.name)).nodup_iff.mpr distinct
  rw [List.append_assoc, List.map_append, List.map_map] at all
  rw [known, List.map_map]
  exact (List.nodup_append.mp all).1

/-- The outcome under the name of a target came of that target. -/
theorem Accounts.fetches (accounts : pool.Accounts today adapters ts)
    (distinct : (ts.map (·.name)).Nodup) {t : DataTarget α} (member : t ∈ ts)
    {outcome : FetchOutcome α} (found : pool.done.lookup t.name = some outcome)
    : t.Fetches today adapters outcome := by
  obtain ⟨finished, perm, known, came⟩ := accounts
  have inside := Entries.mem_of_lookup found
  rw [known] at inside
  obtain ⟨⟨u, _⟩, among, same⟩ := List.mem_map.mp inside
  obtain ⟨sameName, rfl⟩ := Prod.mk.inj same
  have other : u ∈ ts := perm.subset
    (List.mem_append_left _ (List.mem_append_left _ (List.mem_map_of_mem among)))
  obtain rfl : u = t := List.inj_on_of_nodup_map distinct other member sameName
  exact came _ among

/-- A report is made of every pool that is reached: with reliable adapters and targets that can
be computed, no outcome is a breakdown.
-/
theorem Accounts.reports (accounts : pool.Accounts today adapters ts)
    (distinct : (ts.map (·.name)).Nodup) (reliable : ∀ a ∈ adapters, a.Reliable)
    (computes : ∀ t ∈ ts, t.Computes adapters) (timeout : α)
    : ∃ c, Collection.ofOutcomes timeout pool.done ts = .ok c
      ∧ c.Reports timeout pool.done ts := by
  refine Collection.ofOutcomes_reports fun t member fault found => ?_
  exact (accounts.fetches distinct member found).ne_broken reliable (computes t member) fault rfl

end Pool

-----------------------------------------------------------------------------------------
-- Observation as a run of the pool
-----------------------------------------------------------------------------------------

/-- A search says of every adapter whether it was asked. -/
theorem DataTarget.length_visits (t : DataTarget α) (asked : List (Adapter α × Nat))
    : (t.survey asked).visits.length = asked.length := by
  induction asked with
  | nil => rfl
  | cons a rest ih =>
      unfold survey
      dsimp only
      repeat' split
      all_goals simp [Survey.after, Survey.passing, Survey.endedBy, ih]

/-- Counting attempts leaves the adapters alone. -/
theorem FetchReport.map_counted (t : DataTarget α) (today : Date) (asked : List (Adapter α × Nat))
    : ((t.fetch today asked).counted asked).map (·.1) = asked.map (·.1) := by
  have adapters : (asked.zip (t.fetch today asked).visits).map (·.1) = asked :=
    List.map_fst_zip (Nat.le_of_eq (t.length_visits asked).symm)
  unfold counted
  rw [List.map_map]
  conv_rhs => rw [← adapters, List.map_map]
  rfl

namespace Collection

/-- Targets that are observed one after the other, a silent one leaving its place to nobody, are a
run of the pool. By induction along the targets.
-/
theorem outcomes_reaches {today : Date} {adapters : List (Adapter α)} (ts : List (DataTarget α))
    (free : Nat) {asked : List (Adapter α × Nat)} (running : List (DataTarget α))
    (done : List (String × FetchOutcome α))
    (shows : adapters.Forall₂ Adapter.Shows (asked.map (·.1)))
    (places : running.length + free = crew)
    : ∃ pool, Relation.ReflTransGen (Pool.Step today adapters) ⟨ts, running, done⟩ pool
      ∧ pool.done = done ++ (outcomes today free asked ts).1 := by
  induction ts generalizing free asked running done with
  | nil => exact ⟨_, .refl, (List.append_nil done).symm⟩
  | cons t rest ih =>
      unfold outcomes
      split
      case isTrue => exact ⟨_, .refl, (List.append_nil done).symm⟩
      case isFalse some =>
        have some : free ≠ 0 := by simpa using some
        have begins : Pool.Step today adapters ⟨t :: rest, running, done⟩
            ⟨rest, [] ++ t :: running, done⟩ := .begins (by omega)
        have counted := (FetchReport.map_counted t today asked).symm ▸ shows
        dsimp only
        split
        case h_1 silent =>
          obtain ⟨pool, reaches, is⟩ := ih (free - 1) (t :: running) done counted
            (by rw [List.length_cons]; omega)
          exact ⟨pool, .head begins reaches, is⟩
        case h_2 settled =>
          have finishes : Pool.Step today adapters ⟨rest, [] ++ t :: running, done⟩
              ⟨rest, [] ++ running, done ++ [(t.name, (t.fetch today asked).outcome)]⟩ :=
            .finishes ⟨settled, asked, List.forall₂_map_right_iff.mp shows, rfl⟩
          obtain ⟨pool, reaches, is⟩ := ih free running
            (done ++ [(t.name, (t.fetch today asked).outcome)]) counted places
          refine ⟨pool, .head begins (.head finishes reaches), ?_⟩
          rw [is, List.append_assoc]
          rfl

end Collection

namespace Scenario

/-- Observation of a scenario reports on a pool that its targets may reach. -/
theorem observe_reaches (s : Scenario α) (today : Date) (adapters : List (Adapter α)) (timeout : α)
    : ∃ (pool : Pool α) (notices : List (Notice α)),
      pool.Reaches today adapters (DataTarget.ofScenario s)
      ∧ s.observe today adapters timeout
        = (Collection.ofOutcomes timeout pool.done (DataTarget.ofScenario s)).map
            fun c => { c with notices := notices ++ c.notices } := by
  have shows : adapters.Forall₂ Adapter.Shows ((adapters.map fun a => (a, 0)).map (·.1)) := by
    rw [List.map_map, List.forall₂_map_right_iff]
    exact List.forall₂_same.mpr fun a _ => .refl a
  obtain ⟨pool, reaches, is⟩ := Collection.outcomes_reaches
    (DataTarget.ofScenario s) Collection.crew [] [] shows (Nat.zero_add _)
  rw [List.nil_append] at is
  refine ⟨pool, (Collection.outcomes today Collection.crew (adapters.map fun a => (a, 0))
    (DataTarget.ofScenario s)).2, reaches, ?_⟩
  rw [is]
  rfl

-----------------------------------------------------------------------------------------
-- Every target once
-----------------------------------------------------------------------------------------

open DataTarget in
/-- Every target has exactly one outcome. The targets of a scenario are the first ones of their
names among what it binds and then calibrates. Whatever order they are done in and whenever the
report is made, with reliable adapters and targets that can be computed there is a report. It says
of each target what came of it, or that its time has run out; those that are observed and those
that are failures are both in the order of the targets, and together they are all targets, each
once. Which of them are done decides the report, not in which order. Witness:
`prices_account_once`.
-/
theorem observe_accounts_once (s : Scenario α) (today : Date) (adapters : List (Adapter α))
    (timeout : α) (reliable : ∀ a ∈ adapters, a.Reliable)
    (computes : ∀ t ∈ ofScenario s, t.Computes adapters)
    : (ofScenario s).Sublist (bound s ++ calibrated s)
      ∧ ((ofScenario s).map (·.name)).Nodup
      ∧ (∀ name, (ofScenario s).find? (·.name == name)
          = (bound s ++ calibrated s).find? (·.name == name))
      ∧ (∀ pool : Pool α, pool.Reaches today adapters (ofScenario s) →
          ∃ c, Collection.ofOutcomes timeout pool.done (ofScenario s) = .ok c
            ∧ c.Reports timeout pool.done (ofScenario s)
            ∧ (∀ t ∈ ofScenario s, ∀ outcome, pool.done.lookup t.name = some outcome →
                t.Fetches today adapters outcome)
            ∧ (c.observed.map (·.1)).Sublist ((ofScenario s).map (·.name))
            ∧ (c.failures.map (·.target)).Sublist ((ofScenario s).map (·.name))
            ∧ (c.observed.map (·.1) ++ c.failures.map (·.target)).Perm
                ((ofScenario s).map (·.name))
            ∧ ∀ others, pool.done.Perm others →
                Collection.ofOutcomes timeout others (ofScenario s) = .ok c)
      ∧ ∃ (pool : Pool α) (notices : List (Notice α)),
          pool.Reaches today adapters (ofScenario s)
          ∧ s.observe today adapters timeout
            = (Collection.ofOutcomes timeout pool.done (ofScenario s)).map
                fun c => { c with notices := notices ++ c.notices } := by
  have distinct := nodup_ofScenario s
  refine ⟨ofScenario_sublist s, distinct, find?_ofScenario s, fun pool reaches => ?_,
    observe_reaches s today adapters timeout⟩
  obtain ⟨c, is, reports⟩ := reaches.accounts.reports distinct reliable computes timeout
  refine ⟨c, is, reports, fun t member outcome => reaches.accounts.fetches distinct member,
    reports.observed_sublist, reports.failures_sublist, reports.perm, fun others perm => ?_⟩
  rw [← is]
  refine Collection.ofOutcomes_congr fun t _ => ?_
  exact (Entries.lookup_eq_of_perm (reaches.accounts.nodup distinct) perm t.name).symm

end Scenario

namespace Prices

/-- Where everything of the example stands. -/
def place : Span := ⟨1, 1⟩

/-- The day of the example. -/
def today : Date := ⟨2026, 6, 15, by decide, by decide, by decide, by decide, by decide, by decide⟩

/-- A price that is bound to a source. -/
def price (source : String) : Declaration Int :=
  .quantity (.assumption {
    name := "price"
    value := none
    byDate := none
    source := none
    confidence := none
    uncertainty := none
    binding := some ⟨some source, none, none, none, none, place⟩
    watch := none
    span := place
  })

/-- A calibration by the history of a source. -/
def correction (target source : String) : Declaration Int :=
  .calibrate {
    target := .ofRoot target
    historical := some source
    method := none
    window := none
    prior := none
    updateFrequency := none
    span := place
  }

/-- A price that is calibrated and bound twice, and a share that is calibrated. -/
def scenario : Scenario Int :=
  ⟨"prices", .empty,
    [correction "price" "feed", price "list", price "feed", correction "share" "feed"], place⟩

/-- An adapter that delivers one observation of the feed. -/
def feed : Adapter Int :=
  .supplied "feed" (· == "feed") (fun _ _ => .points [⟨today, 3, "feed", false⟩]) ⟨0, 1, 1⟩

theorem feed_reliable : feed.Reliable :=
  Adapter.reliable_iff.mpr fun _ _ _ => nofun

/-- The list counts for the price, which it shadows in all other places. -/
theorem targets
    : DataTarget.ofScenario scenario
      = [⟨"price", "list", none, none, none⟩, ⟨"share", "feed", none, none, none⟩] :=
  rfl

theorem computes : ∀ t ∈ DataTarget.ofScenario scenario, t.Computes [feed] := by
  rw [targets]
  intro t member
  simp only [List.mem_cons, List.not_mem_nil, or_false] at member
  rcases member with rfl | rfl <;> exact ⟨fun _ _ _ _ _ _ => nofun, nofun⟩

/-- However the feed is asked, the price and the share are accounted for once. -/
theorem prices_account_once
    : (∀ a ∈ [feed], a.Reliable) ∧ (∀ t ∈ DataTarget.ofScenario scenario, t.Computes [feed])
      ∧ ∀ pool : Pool Int, pool.Reaches today [feed] (DataTarget.ofScenario scenario) →
        ∃ c, Collection.ofOutcomes 10 pool.done (DataTarget.ofScenario scenario) = .ok c
          ∧ (c.observed.map (·.1) ++ c.failures.map (·.target)).Perm ["price", "share"] := by
  have reliable : ∀ a ∈ [feed], a.Reliable := List.forall_mem_singleton.mpr feed_reliable
  refine ⟨reliable, computes, fun pool reaches => ?_⟩
  obtain ⟨-, -, -, reports, -⟩ :=
    Scenario.observe_accounts_once scenario today [feed] 10 reliable computes
  obtain ⟨c, is, -, -, -, -, once, -⟩ := reports pool reaches
  exact ⟨c, is, once⟩

end Prices

/-- A fallback that is the remainder of an infinite number is no error of its target but breaks
down the whole observation.
-/
theorem infinite_remainder_breaks_observation
    : ((SourceText.read ("scenario \"S\" \x7b assumption a \x7b bind \x7b "
        ++ "source: \"x\"; fallback: 1e999 % 2 \x7d \x7d \x7d")
          : Except Fault (SourceText Extended)).toOption.bind (·.scenario)).map
        (·.observe Prices.today [] (.whole 10))
      = some (.error .domain) := by
  cbv

end Prognosis
