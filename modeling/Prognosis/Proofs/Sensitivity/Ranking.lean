import Prognosis.Proofs.Entries
import Prognosis.Proofs.Run.Whole
import Prognosis.Proofs.Scalar.Sizes
import Prognosis.Proofs.Steps
import Prognosis.Sensitivity

/-! The ranking of knobs by their influence. In whatever order the simulations are carried out,
each knob is told of once, by the reports on its own two ends and on the defaults of all, and the
knobs come by what they move, the greatest first.
-/

namespace Prognosis.Sensitivity

variable {σ α : Type}

-----------------------------------------------------------------------------------------
-- Jobs in any order
-----------------------------------------------------------------------------------------

/-- A simulation with values of parameters. -/
abbrev Simulation (α : Type) :=
  Env α → Except SimulationFailure (SimulationResult α)

/-- What came out of the jobs, each under its number, as far as they were carried out. -/
abbrev Desk (α : Type) :=
  List (Option (Except SimulationFailure (SimulationResult α)))

/-- Carries out the job with a number and puts down what came out of it. -/
def carryOut (run : Simulation α) (jobs : List (Env α)) (desk : Desk α) (number : Nat) : Desk α :=
  desk.set number (jobs[number]?.map run)

/-- What lies on the desk once jobs were carried out in an order. -/
def carriedOut (run : Simulation α) (jobs : List (Env α)) (order : List Nat) : Desk α :=
  order.foldl (carryOut run jobs) (List.replicate jobs.length none)

/-- The reports in the order of their numbers. Of several failures that of the first job counts. -/
def gather (desk : Desk α) : Except SimulationFailure (List (SimulationResult α)) :=
  desk.mapM fun report => report.getD (.error (.stopped (.fault .broken)))

/-- A job that is carried out changes what lies under its number. -/
theorem carryOut_getElem? (run : Simulation α) (jobs : List (Env α)) (desk : Desk α)
    (number i : Nat)
    : (carryOut run jobs desk number)[i]?
      = desk[i]?.map fun old => if i = number then jobs[i]?.map run else old := by
  rw [carryOut, List.getElem?_set]
  by_cases here : number = i
  · subst here
    cases found : desk[number]? with
    | none => simp [List.getElem?_eq_none_iff.mp found]
    | some old => simp [(List.getElem?_eq_some_iff.mp found).1]
  · simp [here, Ne.symm here]

/-- Jobs that are carried out change what lies under their numbers. By induction along the order.
-/
theorem foldl_carryOut_getElem? (run : Simulation α) (jobs : List (Env α)) (order : List Nat)
    (desk : Desk α) (i : Nat)
    : (order.foldl (carryOut run jobs) desk)[i]?
      = desk[i]?.map fun old => if i ∈ order then jobs[i]?.map run else old := by
  induction order generalizing desk with
  | nil => simp
  | cons number rest ih =>
      rw [List.foldl_cons, ih, carryOut_getElem?, Option.map_map]
      congr 1
      funext old
      by_cases here : i = number
      · by_cases later : i ∈ rest <;> simp [here]
      · simp [here]

/-- Once all jobs were carried out, in whatever order, each report lies under its number. -/
theorem carriedOut_eq (run : Simulation α) (jobs : List (Env α)) {order : List Nat}
    (perm : order.Perm (List.range jobs.length))
    : carriedOut run jobs order = jobs.map fun pins => some (run pins) := by
  refine List.ext_getElem? fun i => ?_
  rw [carriedOut, foldl_carryOut_getElem?, List.getElem?_map, List.getElem?_replicate]
  have among : i ∈ order ↔ i < jobs.length := perm.mem_iff.trans List.mem_range
  by_cases inside : i < jobs.length
  · simp [among, inside]
  · simp [inside]

/-- So the order makes no difference to what is gathered. -/
theorem gather_carriedOut (run : Simulation α) (jobs : List (Env α)) {order : List Nat}
    (perm : order.Perm (List.range jobs.length))
    : gather (carriedOut run jobs order) = jobs.mapM run := by
  rw [carriedOut_eq run jobs perm, gather, List.mapM_map]
  rfl

-----------------------------------------------------------------------------------------
-- Values of knobs
-----------------------------------------------------------------------------------------

/-- All knobs with their values. -/
def setTo (knobs : List (Knob α)) (value : Knob α → α) : Env α :=
  knobs.map fun k => (k.name, value k)

/-- One knob at a value, and all others at their defaults. -/
def only (k : Knob α) (x : α) (other : Knob α) : α :=
  if other.name == k.name then x else other.default

section Pins

variable {knobs : List (Knob α)}

theorem defaultPins_eq (distinct : (knobs.map (·.name)).Nodup)
    : defaultPins knobs = setTo knobs Knob.default := by
  refine Entries.ofList_eq ?_
  rw [List.map_map]
  exact distinct

/-- A new value of one knob takes the place of its default. By induction along the knobs. -/
theorem put_setTo (distinct : (knobs.map (·.name)).Nodup) {k : Knob α} (among : k ∈ knobs) (x : α)
    : Entries.put k.name x (setTo knobs Knob.default) = setTo knobs (only k x) := by
  induction knobs with
  | nil => cases among
  | cons other rest ih =>
      obtain ⟨fresh, later⟩ := List.nodup_cons.mp distinct
      by_cases here : other.name = k.name
      · have others : rest.map (fun o => (o.name, o.default))
            = rest.map fun o => (o.name, only k x o) := by
          refine List.map_congr_left fun o member => ?_
          have different : (o.name == k.name) = false := by
            rw [beq_eq_false_iff_ne, ← here]
            exact fun same => fresh (List.mem_map.mpr ⟨o, member, same⟩)
          rw [only, different]
          rfl
        simp only [setTo, List.map_cons, Entries.put, here, beq_self_eq_true, if_true, others,
          only]
      · have different : (other.name == k.name) = false := by simpa using here
        have tail : k ∈ rest := by
          rcases List.mem_cons.mp among with rfl | later
          · exact absurd rfl here
          · exact later
        simp only [setTo, List.map_cons, Entries.put, different, Bool.false_eq_true, if_false,
          only] at ih ⊢
        rw [ih later tail]

theorem allPins_eq (distinct : (knobs.map (·.name)).Nodup)
    : allPins knobs
      = setTo knobs Knob.default
        :: knobs.flatMap fun k => [setTo knobs (only k k.low), setTo knobs (only k k.high)] := by
  rw [allPins, defaultPins_eq distinct, List.flatMap_def, List.flatMap_def]
  refine congrArg (_ :: List.flatten ·) (List.map_congr_left fun k among => ?_)
  rw [put_setTo distinct among, put_setTo distinct among]

theorem allPins_length (knobs : List (Knob α)) : (allPins knobs).length = 2 * knobs.length + 1 := by
  rw [allPins, List.length_cons, List.length_flatMap]
  simp [Nat.mul_comm]

end Pins

-----------------------------------------------------------------------------------------
-- Reports
-----------------------------------------------------------------------------------------

section Ends

variable {run : Simulation α} {knobs : List (Knob α)}

/-- There is a report at the defaults of all knobs, and one at each end of each knob. -/
structure Reports (report : (Knob α → α) → Except SimulationFailure (SimulationResult α))
    (knobs : List (Knob α)) : Prop where
  base : ∃ base, report Knob.default = .ok base
  low : ∀ k ∈ knobs, ∃ low, report (only k k.low) = .ok low
  high : ∀ k ∈ knobs, ∃ high, report (only k k.high) = .ok high

/-- All reports are there where all simulations come to an end. -/
theorem reports_of_mapM (distinct : (knobs.map (·.name)).Nodup)
    (ran : ((allPins knobs).mapM run).isOk = true)
    : Reports (fun value => run (setTo knobs value)) knobs := by
  rw [allPins_eq distinct, isOk_mapM] at ran
  obtain ⟨base, ends⟩ := List.forall_mem_cons.mp ran
  have each (k : Knob α) (among : k ∈ knobs) (pins : Env α)
      (one : pins ∈ [setTo knobs (only k k.low), setTo knobs (only k k.high)])
      : ∃ report, run pins = .ok report :=
    isOk_iff.mp (ends pins (List.mem_flatMap.mpr ⟨k, among, one⟩))
  exact {
    base := isOk_iff.mp base
    low := fun k among => each k among _ (by simp)
    high := fun k among => each k among _ (by simp)
  }

/-- The reports on both ends of all knobs come knob by knob. By induction along the knobs. -/
theorem mapM_ends {low high : Knob α → Env α}
    {lowReport highReport : Knob α → SimulationResult α}
    (ran : ∀ k ∈ knobs, run (low k) = .ok (lowReport k) ∧ run (high k) = .ok (highReport k))
    : (knobs.flatMap fun k => [low k, high k]).mapM run
      = .ok (knobs.flatMap fun k => [lowReport k, highReport k]) := by
  rw [mapM_eq_ok_iff]
  induction knobs with
  | nil => exact .nil
  | cons k rest ih =>
      obtain ⟨⟨isLow, isHigh⟩, others⟩ := List.forall_mem_cons.mp ran
      exact .cons isLow (.cons isHigh (ih others))

end Ends

-----------------------------------------------------------------------------------------
-- Rankings
-----------------------------------------------------------------------------------------

section Ranks

variable [Scalar α]

/-- The entries, each of them once, with the greatest total first and equal ones in their order. -/
structure Ranks (entries ranking : List (Influence α)) : Prop where
  perm : ranking.Perm entries
  defined : ∀ i ∈ ranking, Scalar.isUndefined i.total = false
  descending : ranking.Pairwise fun i j => Scalar.lt i.total j.total = false
  stable
    : ∀ i j, [i, j].Sublist entries → Scalar.lt i.total j.total = false
        → [i, j].Sublist ranking

/-- One entry may stand before another one. For undefined totals, which comparisons leave open, this
completes the order.
-/
def mayPrecede (i j : Influence α) : Bool :=
  Scalar.isUndefined i.total
    || (!Scalar.isUndefined j.total && !Scalar.lt i.total j.total)

variable [Scalar.OrderRules α]

open Scalar (OrderRules)

theorem mayPrecede_total (i j : Influence α) : (mayPrecede i j || mayPrecede j i) = true := by
  unfold mayPrecede
  cases Scalar.isUndefined i.total with
  | true => rfl
  | false =>
      cases Scalar.isUndefined j.total with
      | true => rfl
      | false =>
          cases less : Scalar.lt i.total j.total with
          | false => rfl
          | true => rw [OrderRules.lt_asymm less]; rfl

theorem mayPrecede_trans {i j k : Influence α} (first : mayPrecede i j = true)
    (second : mayPrecede j k = true)
    : mayPrecede i k = true := by
  simp only [mayPrecede, Bool.or_eq_true, Bool.and_eq_true, Bool.not_eq_true'] at *
  rcases first with undefined | ⟨defined, notLess⟩
  · exact Or.inl undefined
  rcases second with undefined | ⟨last, notLess'⟩
  · rw [defined] at undefined
    cases undefined
  cases di : Scalar.isUndefined i.total with
  | true => exact Or.inl rfl
  | false =>
      refine Or.inr ⟨last, ?_⟩
      rw [← Bool.not_eq_true]
      intro less
      have atMost := (OrderRules.le_iff j.total i.total).mpr ⟨defined, di, notLess⟩
      rw [OrderRules.lt_of_le_of_lt atMost less] at notLess'
      cases notLess'

/-- Entries with defined totals are ranked. -/
theorem ranked_ranks {entries : List (Influence α)}
    (defined : ∀ i ∈ entries, Scalar.isUndefined i.total = false)
    : Ranks entries (Influence.ranked entries) := by
  have agree : ∀ i ∈ entries, ∀ j ∈ entries,
      Scalar.le j.total i.total = mayPrecede (id i) (id j) := by
    intro i first j second
    rw [Bool.eq_iff_iff, OrderRules.le_iff]
    simp [mayPrecede, defined i first, defined j second]
  have sorted : Influence.ranked entries = entries.mergeSort mayPrecede := by
    have mapped := List.map_mergeSort agree
    rwa [List.map_id, List.map_id] at mapped
  have trans : ∀ i j k : Influence α, mayPrecede i j → mayPrecede j k → mayPrecede i k :=
    fun _ _ _ => mayPrecede_trans
  have known {i j : Influence α} (di : Scalar.isUndefined i.total = false)
      (dj : Scalar.isUndefined j.total = false)
      : mayPrecede i j = true ↔ Scalar.lt i.total j.total = false := by
    simp [mayPrecede, di, dj]
  have perm : (Influence.ranked entries).Perm entries := List.mergeSort_perm _ _
  have ranked : ∀ i ∈ Influence.ranked entries, Scalar.isUndefined i.total = false :=
    fun i member => defined i (perm.subset member)
  constructor
  case perm => exact perm
  case defined => exact ranked
  case descending =>
    have pairwise := List.pairwise_mergeSort trans mayPrecede_total entries
    rw [← sorted] at pairwise
    exact pairwise.imp_of_mem fun {i j} first second may =>
      (known (ranked i first) (ranked j second)).mp may
  case stable =>
    intro i j before notLess
    rw [sorted]
    have di := defined i (before.subset (by simp))
    have dj := defined j (before.subset (by simp))
    exact List.pair_sublist_mergeSort trans mayPrecede_total ((known di dj).mpr notLess) before

end Ranks

-----------------------------------------------------------------------------------------
-- Entries
-----------------------------------------------------------------------------------------

section Swings

variable [Scalar α]

/-- A report has a final median of a quantity, and it is finite. -/
def isKnown (report : SimulationResult α) (name : String) : Bool :=
  (report.finalMedian? name).any Scalar.isFinite

/-- What an entry tells of a knob by the report on all defaults and those on its low and its high
end. Quantities that are finite in all three come in the order in which they were asked for, and one
whose baseline is zero adds nothing to the total.
-/
structure Tells (observables : List String) (k : Knob α) (base low high : SimulationResult α)
    (entry : Influence α) : Prop where
  parameter : entry.parameter = k.name
  label : entry.label = k.label
  observables
    : entry.swings.map (·.observable)
      = observables.filter fun name => isKnown base name && isKnown low name && isKnown high name
  medians
    : ∀ swing ∈ entry.swings,
        base.finalMedian? swing.observable = some swing.baseline
        ∧ low.finalMedian? swing.observable = some swing.low
        ∧ high.finalMedian? swing.observable = some swing.high
  extent : ∀ swing ∈ entry.swings, swing.extent = Scalar.abs (swing.high - swing.low)
  relative
    : ∀ swing ∈ entry.swings, swing.relative
        = if Scalar.eq swing.baseline Scalar.zero then Scalar.zero
          else swing.extent / Scalar.abs swing.baseline * Scalar.ofNat 100
  total : entry.total = Scalar.sum (entry.swings.map (·.relative))

/-- The swing of a quantity, where it is finite in all three reports. -/
def swingOf (base low high : SimulationResult α) (name : String) : Option (Swing α) :=
  match base.finalMedian? name, low.finalMedian? name, high.finalMedian? name with
  | some b, some l, some h =>
      if Scalar.isFinite b && Scalar.isFinite l && Scalar.isFinite h then
        some (Swing.ofValues name b l h)
      else none
  | _, _, _ => none

variable {observables : List String} {k : Knob α} {base low high : SimulationResult α}

theorem ofResults_swings
    : (Influence.ofResults observables k base low high).swings
      = observables.filterMap (swingOf base low high) := rfl

theorem swingOf_observable (name : String)
    : (swingOf base low high name).map (·.observable)
      = if isKnown base name && isKnown low name && isKnown high name then some name
        else none := by
  unfold swingOf isKnown
  cases base.finalMedian? name with
  | none => rfl
  | some b =>
      cases low.finalMedian? name with
      | none => simp
      | some l =>
          cases high.finalMedian? name with
          | none => simp
          | some h =>
              simp only [Option.any_some]
              split <;> rfl

/-- A swing of an entry is made of three medians, which are finite. -/
theorem mem_swings {swing : Swing α}
    (member : swing ∈ (Influence.ofResults observables k base low high).swings)
    : ∃ name b l h, base.finalMedian? name = some b ∧ low.finalMedian? name = some l
        ∧ high.finalMedian? name = some h
        ∧ (Scalar.isFinite b && Scalar.isFinite l && Scalar.isFinite h) = true
        ∧ swing = Swing.ofValues name b l h := by
  rw [ofResults_swings] at member
  obtain ⟨name, -, made⟩ := List.mem_filterMap.mp member
  unfold swingOf at made
  split at made
  case h_1 b l h isBase isLow isHigh =>
    split at made
    case isTrue finite =>
      cases made
      exact ⟨name, b, l, h, isBase, isLow, isHigh, finite, rfl⟩
    case isFalse => cases made
  case h_2 => cases made

/-- The entry of a knob tells of its three reports. -/
theorem ofResults_tells
    : Tells observables k base low high (Influence.ofResults observables k base low high) where
  parameter := rfl
  label := rfl
  observables := by
    rw [ofResults_swings, List.map_filterMap, ← List.filterMap_eq_filter]
    refine List.filterMap_congr fun name _ => ?_
    rw [swingOf_observable, Option.guard]
  medians swing member := by
    obtain ⟨name, b, l, h, isBase, isLow, isHigh, -, rfl⟩ := mem_swings member
    exact ⟨isBase, isLow, isHigh⟩
  extent swing member := by
    obtain ⟨name, b, l, h, -, -, -, -, rfl⟩ := mem_swings member
    rfl
  relative swing member := by
    obtain ⟨name, b, l, h, -, -, -, -, rfl⟩ := mem_swings member
    simp only [Swing.ofValues, Scalar.isTrue, Bool.not_eq_true']
    cases Scalar.eq b Scalar.zero <;> rfl
  total := rfl

/-- The total of an entry is a size, since all that it sums up are. -/
theorem ofResults_isSize [Scalar.SizeRules α]
    : Scalar.IsSize (Influence.ofResults observables k base low high).total := by
  refine Scalar.isSize_sum fun x member => ?_
  obtain ⟨swing, among, rfl⟩ := List.mem_map.mp member
  obtain ⟨name, b, l, h, -, -, -, finite, rfl⟩ := mem_swings (k := k) among
  simp only [Bool.and_eq_true] at finite
  obtain ⟨⟨finiteBase, finiteLow⟩, finiteHigh⟩ := finite
  simp only [Swing.ofValues]
  split
  case isTrue some =>
    exact Scalar.SizeRules.percent
      (Scalar.SizeRules.share (Scalar.SizeRules.distance finiteHigh finiteLow) finiteBase some)
  case isFalse => exact Scalar.SizeRules.zero

end Swings

-----------------------------------------------------------------------------------------
-- Analyses
-----------------------------------------------------------------------------------------

section Analyses

variable [Scalar α]

/-- The seed that all simulations of an analysis share. -/
def sharedSeed (settings : Json α) (request : Request α) (s : Scenario α)
    : Except SimulationFailure Int :=
  match request.seed.or (s.simulate?.bind (·.seed)) with
  | some seed => .ok seed
  | none => (SimulationFailure.lift (Settings.engine settings)).map (·.seed)

/-- A simulation of an analysis. -/
def simulation (source : RandomSource σ α) (settings : Json α) (request : Request α)
    (s : Scenario α) (seed : Int)
    : Simulation α :=
  fun pins =>
    (simulateChecked source settings ⟨request.runs, some seed, none, some 1, pins⟩ s s.check).map
      (·.1)

/-- The report on a scenario with its knobs at values. -/
def reportAt (source : RandomSource σ α) (settings : Json α) (request : Request α)
    (s : Scenario α) (seed : Int) (value : Knob α → α)
    : Except SimulationFailure (SimulationResult α) :=
  simulation source settings request s seed (setTo request.knobs value)

/-- The ranking that reports on the defaults and both ends of knobs give. -/
def tabulate (observables : List String) (knobs : List (Knob α))
    : List (SimulationResult α) → List (Influence α)
  | [] => []
  | base :: others => Influence.ranked (influences observables base knobs others)

/-- An analysis whose simulations are carried out in an order of their numbers. -/
def analyseIn (order : List Nat) (source : RandomSource σ α) (settings : Json α)
    (request : Request α) (s : Scenario α)
    : Except SimulationFailure (List (Influence α)) :=
  if request.knobs.isEmpty then .ok []
  else do
    let seed ← sharedSeed settings request s
    let results ←
      gather (carriedOut (simulation source settings request s seed) (allPins request.knobs) order)
    return tabulate (request.observables.getD (allObservables s)) request.knobs results

variable {source : RandomSource σ α} {settings : Json α} {request : Request α} {s : Scenario α}

theorem analyse_eq (any : request.knobs ≠ [])
    : analyse source settings request s s.check
      = do
        let seed ← sharedSeed settings request s
        let results ← (allPins request.knobs).mapM (simulation source settings request s seed)
        return tabulate (request.observables.getD (allObservables s)) request.knobs results := by
  have nonempty : request.knobs.isEmpty = false := by simpa using any
  unfold analyse sharedSeed
  rw [nonempty, if_neg (by decide)]
  cases request.seed.or (s.simulate?.bind (·.seed))
  all_goals
    -- from the seed on both sides take the same two steps
    dsimp only
    congr 1
    funext seed
    congr 1
    funext results
    cases results <;> rfl

/-- The order in which the simulations are carried out makes no difference. -/
theorem analyseIn_eq {order : List Nat}
    (perm : order.Perm (List.range (2 * request.knobs.length + 1)))
    : analyseIn order source settings request s = analyse source settings request s s.check := by
  rw [← allPins_length] at perm
  by_cases any : request.knobs = []
  · simp [analyseIn, analyse, any]
  · have nonempty : request.knobs.isEmpty = false := by simpa using any
    rw [analyse_eq any, analyseIn, nonempty, if_neg (by decide)]
    simp only [gather_carriedOut _ _ perm]

/-- Each knob is told of by the reports on its own ends. By induction along the knobs. -/
theorem influences_eq (observables : List String) (base : SimulationResult α)
    (low high : Knob α → SimulationResult α) (knobs : List (Knob α))
    : influences observables base knobs (knobs.flatMap fun k => [low k, high k])
      = knobs.map fun k => Influence.ofResults observables k base (low k) (high k) := by
  induction knobs with
  | nil => rfl
  | cons k rest ih => exact congrArg (_ :: ·) ih

/-- The ranking is made of the reports at the defaults of all knobs and, for each knob, those where
it alone is at its low or its high end.
-/
def RanksBy (report : (Knob α → α) → Except SimulationFailure (SimulationResult α))
    (observables : List String) (knobs : List (Knob α)) (ranking : List (Influence α)) : Prop :=
  ∃ base, report Knob.default = .ok base
    ∧ ∃ entry : Knob α → Influence α,
        (∀ k ∈ knobs, ∃ low high,
          report (only k k.low) = .ok low ∧ report (only k k.high) = .ok high
          ∧ Tells observables k base low high (entry k))
        ∧ Ranks (knobs.map entry) ranking

variable [Scalar.OrderRules α] [Scalar.SizeRules α]

/-- Where all reports are there, they make a ranking. -/
theorem Reports.ranking {run : Simulation α} {knobs : List (Knob α)}
    (distinct : (knobs.map (·.name)).Nodup)
    (reports : Reports (fun value => run (setTo knobs value)) knobs) (observables : List String)
    : ∃ results, (allPins knobs).mapM run = .ok results
        ∧ RanksBy (fun value => run (setTo knobs value)) observables knobs
            (tabulate observables knobs results) := by
  obtain ⟨base, isBase⟩ := reports.base
  have : Nonempty (SimulationResult α) := ⟨base⟩
  choose! low isLow using reports.low
  choose! high isHigh using reports.high
  refine ⟨base :: knobs.flatMap fun k => [low k, high k], ?_, base, isBase,
    fun k => Influence.ofResults observables k base (low k) (high k), ?_, ?_⟩
  · rw [allPins_eq distinct, List.mapM_cons, isBase,
      mapM_ends fun k among => ⟨isLow k among, isHigh k among⟩]
    rfl
  · exact fun k among => ⟨low k, high k, isLow k among, isHigh k among, ofResults_tells⟩
  · rw [tabulate, influences_eq]
    refine ranked_ranks fun i member => ?_
    obtain ⟨k, -, rfl⟩ := List.mem_map.mp member
    exact ofResults_isSize.1

/-- The ranking of knobs with distinct names is faithful. It does not depend on the order in which
the simulations are carried out, and is there just when each of them has a report and the seed that
they share is known. It has one entry for each knob, which tells of this knob by the reports on it
alone and on all defaults. Witness: the reports, knob by knob, and that totals are sizes, so that
they can be compared.
-/
theorem analysis_ranks (source : RandomSource σ α) (settings : Json α) (request : Request α)
    (s : Scenario α) (distinct : (request.knobs.map (·.name)).Nodup)
    : (∀ order : List Nat, order.Perm (List.range (2 * request.knobs.length + 1))
          → analyseIn order source settings request s
            = analyse source settings request s s.check)
      ∧ (request.knobs = [] → analyse source settings request s s.check = .ok [])
      ∧ (request.knobs ≠ []
          → ((∃ ranking, analyse source settings request s s.check = .ok ranking)
              ↔ ∃ seed, sharedSeed settings request s = .ok seed
                  ∧ Reports (reportAt source settings request s seed) request.knobs)
            ∧ ∀ ranking, analyse source settings request s s.check = .ok ranking
                → ∃ seed, sharedSeed settings request s = .ok seed
                    ∧ RanksBy (reportAt source settings request s seed)
                        (request.observables.getD (allObservables s)) request.knobs ranking) := by
  refine ⟨fun order perm => analyseIn_eq perm, fun none => ?_, fun any => ?_⟩
  · simp [analyse, none]
  have ended {ranking : List (Influence α)}
      (is : analyse source settings request s s.check = .ok ranking)
      : ∃ seed, sharedSeed settings request s = .ok seed
          ∧ Reports (reportAt source settings request s seed) request.knobs
          ∧ RanksBy (reportAt source settings request s seed)
              (request.observables.getD (allObservables s)) request.knobs ranking := by
    rw [analyse_eq any] at is
    obtain ⟨seed, known, rest⟩ := bind_eq_ok.mp is
    obtain ⟨results, ran, table⟩ := bind_eq_ok.mp rest
    have reports := reports_of_mapM distinct (isOk_iff.mpr ⟨results, ran⟩)
    obtain ⟨results', ran', ranks⟩ :=
      reports.ranking distinct (request.observables.getD (allObservables s))
    rw [ran] at ran'
    cases ran'
    cases table
    exact ⟨seed, known, reports, ranks⟩
  constructor
  · constructor
    · rintro ⟨ranking, is⟩
      obtain ⟨seed, known, reports, -⟩ := ended is
      exact ⟨seed, known, reports⟩
    · rintro ⟨seed, known, reports⟩
      obtain ⟨results, ran, -⟩ := reports.ranking distinct []
      refine ⟨tabulate (request.observables.getD (allObservables s)) request.knobs results, ?_⟩
      rw [analyse_eq any]
      exact bind_eq_ok.mpr ⟨seed, known, bind_eq_ok.mpr ⟨results, ran, rfl⟩⟩
  · intro ranking is
    obtain ⟨seed, known, -, ranks⟩ := ended is
    exact ⟨seed, known, ranks⟩

end Analyses

/-- Two parameters of the harvest, of which nothing reads the first one, and three quantities, of
which there are two.
-/
def asked : Request Int := {
  knobs := [⟨"spare", "Spare", 9, 1, 20⟩, ⟨"price", "Price", 2, 1, 40⟩]
  observables := some ["income", "yield", "crop"]
  runs := some 1
  seed := some 7
}

theorem asked_totals
    : (analyse .counting Settings.standard asked Harvest.harvest Harvest.harvest.check).map
          (·.map fun entry => (entry.parameter, entry.total))
        = .ok [("price", 1100), ("spare", 0)] := by
  cbv

/-- The price moves the income elevenfold, so it comes before the spare parameter. -/
theorem asked_ranks
    : (asked.knobs.map (·.name)).Nodup
      ∧ ∃ ranking seed,
          analyse .counting Settings.standard asked Harvest.harvest Harvest.harvest.check
              = .ok ranking
          ∧ ranking.map (fun entry => (entry.parameter, entry.total))
              = [("price", 1100), ("spare", 0)]
          ∧ RanksBy (reportAt .counting Settings.standard asked Harvest.harvest seed)
              ["income", "yield", "crop"] asked.knobs ranking := by
  have distinct : (asked.knobs.map (·.name)).Nodup := by decide
  have totals := asked_totals
  cases is : analyse .counting Settings.standard asked Harvest.harvest Harvest.harvest.check with
  | error failure =>
      rw [is] at totals
      cases totals
  | ok ranking =>
      rw [is] at totals
      obtain ⟨-, -, ranks⟩ :=
        analysis_ranks .counting Settings.standard asked Harvest.harvest distinct
      obtain ⟨seed, -, ranked⟩ := (ranks nofun).2 ranking is
      exact ⟨distinct, ranking, seed, rfl, Except.ok.inj totals, ranked⟩

end Prognosis.Sensitivity
