import Prognosis.Proofs.Observation.Pool
import Prognosis.Proofs.Steps

/-! The search of data for a target: the first adapter that serves the locator and delivers
something that its transform does not use up ends it, and only without such an adapter the fallback
counts.
-/

namespace Prognosis

variable {α : Type} [Scalar α]

-----------------------------------------------------------------------------------------
-- Transforms
-----------------------------------------------------------------------------------------

/-- A transform has a value for that of the point, which takes its place. -/
def Changes (e : Expr α) (p q : ObservedPoint α) : Prop :=
  ∃ x, e.value [("value", p.value)] = .ok x ∧ q = { p with value := x }

/-- What a transform makes of points. It changes each of them, and those whose values are not finite
drop out; it stops at the first point for which it has no value.
-/
inductive Transforms
    : Option (Expr α) → List (ObservedPoint α) → Except Halt (List (ObservedPoint α)) → Prop
  | untouched {points} : Transforms none points (.ok points)
  | changed {e points made} (changes : List.Forall₂ (Changes e) points made)
    : Transforms (some e) points (.ok (made.filter (Scalar.isFinite ·.value)))
  | stops {e front p rest halt} (before : ∀ q ∈ front, ∃ made, Changes e q made)
    (here : e.value [("value", p.value)] = .error halt)
    : Transforms (some e) (front ++ p :: rest) (.error halt)

/-- A point with the value of an expression for its own. -/
def changed (e : Expr α) (p : ObservedPoint α) : Except Halt (ObservedPoint α) := do
  return { p with value := ← e.value [("value", p.value)] }

theorem changed_eq_ok_iff {e : Expr α} {p q : ObservedPoint α}
    : changed e p = .ok q ↔ Changes e p q := by
  unfold changed
  rw [bind_eq_ok]
  exact exists_congr fun x =>
    and_congr_right fun _ => ⟨fun same => (Except.ok.inj same).symm, fun same => same ▸ rfl⟩

theorem changed_eq_error_iff {e : Expr α} {p : ObservedPoint α} {halt : Halt}
    : changed e p = .error halt ↔ e.value [("value", p.value)] = .error halt := by
  unfold changed
  cases e.value [("value", p.value)] <;> simp [bind, Except.bind, pure, Except.pure]

theorem transformed_some (e : Expr α) (points : List (ObservedPoint α))
    : transformed (some e) points
      = (points.mapM (changed e)).map (List.filter (Scalar.isFinite ·.value)) := by
  change (points.mapM (changed e)).bind (fun made => .ok (made.filter _)) = _
  cases points.mapM (changed e) <;> rfl

/-- The computation of a transform makes of points what the transform does, and nothing else. -/
theorem transforms_iff {transform : Option (Expr α)} {points : List (ObservedPoint α)}
    {result : Except Halt (List (ObservedPoint α))}
    : Transforms transform points result ↔ transformed transform points = result := by
  constructor
  · rintro (_ | changes | @⟨e, front, p, rest, halt, before, here⟩)
    · rfl
    · have all := changes.imp fun _ _ => changed_eq_ok_iff.mpr
      rw [transformed_some, mapM_eq_ok_iff.mpr all]
      rfl
    · have done : ∀ q ∈ front, ∃ made, changed e q = .ok made :=
        fun q early => (before q early).imp fun _ => changed_eq_ok_iff.mpr
      have stopped := mapM_eq_error_iff.mpr
        ⟨front, p, rest, rfl, done, changed_eq_error_iff.mpr here⟩
      rw [transformed_some, stopped]
      rfl
  · rintro rfl
    cases transform with
    | none => exact .untouched
    | some e =>
        rw [transformed_some]
        cases found : points.mapM (changed e) with
        | ok made =>
            exact .changed ((mapM_eq_ok_iff.mp found).imp fun _ _ => changed_eq_ok_iff.mp)
        | error halt =>
            obtain ⟨front, p, rest, rfl, before, here⟩ := mapM_eq_error_iff.mp found
            exact .stops (fun q early => (before q early).imp fun _ => changed_eq_ok_iff.mp)
              (changed_eq_error_iff.mp here)

-----------------------------------------------------------------------------------------
-- What one adapter comes to
-----------------------------------------------------------------------------------------

/-- Something is delivered, or there is a reason why not. -/
def Attempt.Settles (attempt : Attempt α) : Prop :=
  (∃ points, attempt = .delivered points) ∨ ∃ reason, attempt = .failed reason

namespace DataTarget

/-- What comes of asking an adapter once, if it serves the locator of the target. -/
def visit? (t : DataTarget α) (a : Adapter α × Nat) : Option (Fetched α) :=
  if a.1.handles t.locator then some (a.1.fetch t.request a.2) else none

/-- Where the adapter is asked, it delivers points or fails for a reason. -/
def Returns (t : DataTarget α) (a : Adapter α × Nat) : Prop :=
  ∀ visit ∈ t.visit? a, visit.last.Settles

/-- The adapter is asked and delivers some points. -/
def Delivers (t : DataTarget α) (a : Adapter α × Nat) (points : List (ObservedPoint α)) : Prop :=
  points ≠ [] ∧ ∃ visit, t.visit? a = some visit ∧ visit.last = .delivered points

/-- An adapter ends the search: the transform leaves something of the points that it delivers, or
fails on them, or breaks down.
-/
inductive Ends (t : DataTarget α) (a : Adapter α × Nat) : FetchOutcome α → Prop
  | observed {points kept} (delivers : t.Delivers a points)
    (transforms : Transforms t.transform points (.ok kept)) (left : kept ≠ [])
    : Ends t a (.observed ⟨t.name, kept, t.locator, some a.1.name⟩)
  | failed {points error} (delivers : t.Delivers a points)
    (transforms : Transforms t.transform points (.error (.error error)))
    : Ends t a (.failed (.transformFailed t.name error))
  | broken {points fault} (delivers : t.Delivers a points)
    (transforms : Transforms t.transform points (.error (.fault fault)))
    : Ends t a (.broken fault)

/-- The adapter does not end the search. -/
def Passes (t : DataTarget α) (a : Adapter α × Nat) : Prop :=
  ∀ outcome, ¬ t.Ends a outcome

/-- What is kept in mind of an adapter that does not end the search: that it failed, or that the
transform left nothing.
-/
def problem? (t : DataTarget α) (a : Adapter α × Nat) : Option Problem :=
  (t.visit? a).bind fun visit =>
    match visit.last with
    | .failed reason => some (.failed a.1.name reason)
    | .delivered (_ :: _) => some (.nothingFinite a.1.name)
    | _ => none

variable {t : DataTarget α} {a : Adapter α × Nat} {rest : List (Adapter α × Nat)}

theorem visit?_eq_some {visit : Fetched α}
    : t.visit? a = some visit
      ↔ a.1.handles t.locator = true ∧ a.1.fetch t.request a.2 = visit := by
  simp [visit?]

/-- The search at an adapter that delivers points. -/
theorem survey_of_delivered {visit : Fetched α} {points : List (ObservedPoint α)}
    (asked : t.visit? a = some visit) (last : visit.last = .delivered points)
    (given : points ≠ [])
    : t.survey (a :: rest)
      = match transformed t.transform points with
        | .error (.error e) => .endedBy (.failed (.transformFailed t.name e)) visit rest.length
        | .error (.fault fault) => .endedBy (.broken fault) visit rest.length
        | .ok [] => (t.survey rest).after visit [.nothingFinite a.1.name] []
        | .ok kept =>
            .endedBy (.observed ⟨t.name, kept, t.locator, some a.1.name⟩) visit rest.length := by
  obtain ⟨adapter, earlier⟩ := a
  obtain ⟨serves, rfl⟩ := visit?_eq_some.mp asked
  have handles : adapter.handles t.locator = true := serves
  cases points with
  | nil => exact absurd rfl given
  | cons p others =>
      cases made : transformed t.transform (p :: others) with
      | error halt => cases halt <;> simp [survey, handles, last, made]
      | ok kept => cases kept <;> simp [survey, handles, last, made]

/-- The search ends at an adapter that ends it, and no later one is asked. -/
theorem survey_of_ends {outcome : FetchOutcome α} (rest : List (Adapter α × Nat))
    (ends : t.Ends a outcome)
    : (t.survey (a :: rest)).ended = some outcome
      ∧ (t.survey (a :: rest)).visits = t.visit? a :: List.replicate rest.length none := by
  cases ends with
  | @observed _ kept delivers transforms left =>
      obtain ⟨given, visit, asked, last⟩ := delivers
      rw [survey_of_delivered asked last given, asked, transforms_iff.mp transforms]
      cases kept with
      | nil => exact absurd rfl left
      | cons q more => exact ⟨rfl, rfl⟩
  | failed delivers transforms =>
      obtain ⟨given, visit, asked, last⟩ := delivers
      rw [survey_of_delivered asked last given, asked, transforms_iff.mp transforms]
      exact ⟨rfl, rfl⟩
  | broken delivers transforms =>
      obtain ⟨given, visit, asked, last⟩ := delivers
      rw [survey_of_delivered asked last given, asked, transforms_iff.mp transforms]
      exact ⟨rfl, rfl⟩

/-- The search goes on after an adapter that does not end it. The cases are the ways to pass: it is
not asked, it fails, it delivers nothing, or the transform leaves nothing.
-/
theorem survey_of_passes (rest : List (Adapter α × Nat)) (returns : t.Returns a)
    (passes : t.Passes a)
    : (t.survey (a :: rest)).ended = (t.survey rest).ended
      ∧ (t.survey (a :: rest)).visits = t.visit? a :: (t.survey rest).visits
      ∧ (t.survey (a :: rest)).problems = (t.problem? a).toList ++ (t.survey rest).problems := by
  cases asked : t.visit? a with
  | none =>
      have unserved : a.1.handles t.locator = false := by simpa [visit?] using asked
      simp [survey, unserved, problem?, asked, Survey.passing]
  | some visit =>
      obtain ⟨handles, same⟩ := visit?_eq_some.mp asked
      rcases returns visit asked with ⟨points, last⟩ | ⟨reason, last⟩
      · cases points with
        | nil => simp [survey, handles, same, last, problem?, asked, Survey.after]
        | cons p others =>
            have given : p :: others ≠ [] := List.cons_ne_nil _ _
            have delivers : t.Delivers a (p :: others) := ⟨given, visit, asked, last⟩
            have transforms := transforms_iff.mpr (rfl : transformed t.transform (p :: others) = _)
            rw [survey_of_delivered asked last given]
            cases made : transformed t.transform (p :: others) with
            | error halt =>
                rw [made] at transforms
                cases halt with
                | error error => exact absurd (.failed delivers transforms) (passes _)
                | fault fault => exact absurd (.broken delivers transforms) (passes _)
            | ok kept =>
                rw [made] at transforms
                cases kept with
                | nil => simp [problem?, asked, last, Survey.after]
                | cons q more =>
                    exact absurd (.observed delivers transforms (List.cons_ne_nil _ _)) (passes _)
      · simp [survey, handles, same, last, problem?, asked, Survey.after]

-----------------------------------------------------------------------------------------
-- The whole search
-----------------------------------------------------------------------------------------

variable {front : List (Adapter α × Nat)}

/-- Adapters that do not end the search are asked, and it goes on behind them. By induction along
them.
-/
theorem survey_behind (rest : List (Adapter α × Nat)) (returns : ∀ b ∈ front, t.Returns b)
    (passes : ∀ b ∈ front, t.Passes b)
    : (t.survey (front ++ rest)).ended = (t.survey rest).ended
      ∧ (t.survey (front ++ rest)).visits = front.map t.visit? ++ (t.survey rest).visits
      ∧ (t.survey (front ++ rest)).problems
        = front.filterMap t.problem? ++ (t.survey rest).problems := by
  induction front with
  | nil => exact ⟨rfl, rfl, rfl⟩
  | cons b front ih =>
      have returns' := List.forall_mem_cons.mp returns
      have passes' := List.forall_mem_cons.mp passes
      obtain ⟨ended, visits, problems⟩ := ih returns'.2 passes'.2
      obtain ⟨first, visit, problem⟩ :=
        survey_of_passes (front ++ rest) returns'.1 passes'.1
      refine ⟨first.trans ended, ?_, ?_⟩
      · rw [List.cons_append, visit, visits, List.map_cons, List.cons_append]
      · rw [List.cons_append, problem, problems, ← List.append_assoc]
        cases found : t.problem? b <;> simp [found]

/-- What stands for the data of a target that no adapter has: what its fallback declares, or else
that no adapter serves its locator, or what was kept in mind of those that do.
-/
inductive Remains (t : DataTarget α) (today : Date) (asked : List (Adapter α × Nat))
    : FetchOutcome α → Prop
  | declared {e value} (fallback : t.fallback = some e) (number : e.magnitude [] = .ok value)
    : Remains t today asked
        (.observed ⟨t.name, [⟨today, value, "declared fallback", true⟩], t.locator,
          some "declared-fallback"⟩)
  | notNumber {e error} (fallback : t.fallback = some e)
    (fails : e.magnitude [] = .error (.error error))
    : Remains t today asked (.failed (.fallbackNotNumber t.name error))
  | broken {e fault} (fallback : t.fallback = some e)
    (breaks : e.magnitude [] = .error (.fault fault))
    : Remains t today asked (.broken fault)
  | noAdapter (fallback : t.fallback = none)
    (unserved : ∀ a ∈ asked, a.1.handles t.locator = false)
    : Remains t today asked (.failed (.noAdapter t.locator))
  | noData {b} (fallback : t.fallback = none) (listed : b ∈ asked)
    (serves : b.1.handles t.locator = true)
    : Remains t today asked (.failed (.noData t.locator (asked.filterMap t.problem?)))

theorem withoutData_remains (t : DataTarget α) (today : Date) (asked : List (Adapter α × Nat))
    : t.Remains today asked
        (t.withoutData today (asked.map (·.1)) (asked.filterMap t.problem?)) := by
  unfold withoutData declared?
  cases fallback : t.fallback with
  | some e =>
      simp only [Option.map_some]
      cases number : e.magnitude [] with
      | ok value => exact .declared fallback number
      | error halt =>
          cases halt with
          | error error => exact .notNumber fallback number
          | fault fault => exact .broken fallback number
  | none =>
      simp only [Option.map_none, List.any_map]
      by_cases served : ∃ b ∈ asked, b.1.handles t.locator = true
      · obtain ⟨b, listed, serves⟩ := served
        rw [if_pos (List.any_eq_true.mpr ⟨b, listed, serves⟩)]
        exact .noData fallback listed serves
      · have unserved : ∀ b ∈ asked, b.1.handles t.locator = false := by
          simpa using served
        rw [if_neg (by simpa using unserved)]
        exact .noAdapter fallback unserved

/-- The search ends at the first adapter that ends it, which stands behind those in front. -/
structure EndsFirst (t : DataTarget α) (asked front : List (Adapter α × Nat))
    (a : Adapter α × Nat) (rest : List (Adapter α × Nat)) (outcome : FetchOutcome α) : Prop where
  split : asked = front ++ a :: rest
  passes : ∀ b ∈ front, t.Passes b
  ends : t.Ends a outcome

theorem fetch_of_endsFirst {asked : List (Adapter α × Nat)} {today : Date}
    {outcome : FetchOutcome α} (returns : ∀ b ∈ asked, t.Returns b)
    (endsFirst : t.EndsFirst asked front a rest outcome)
    : (t.fetch today asked).outcome = outcome
      ∧ (t.fetch today asked).visits
        = front.map t.visit? ++ t.visit? a :: List.replicate rest.length none := by
  obtain ⟨rfl, passes, ends⟩ := endsFirst
  have behind := survey_behind (a :: rest)
    (fun b listed => returns b (List.mem_append_left _ listed)) passes
  obtain ⟨ended, visits⟩ := survey_of_ends rest ends
  constructor
  · rw [fetch, behind.1, ended]
    rfl
  · rw [fetch, behind.2.1, visits]

/-- Where no adapter ends the search, each of them is asked once and the fallback decides. -/
theorem fetch_of_passes {asked : List (Adapter α × Nat)} {today : Date}
    (returns : ∀ b ∈ asked, t.Returns b) (passes : ∀ b ∈ asked, t.Passes b)
    : t.Remains today asked (t.fetch today asked).outcome
      ∧ (t.fetch today asked).visits = asked.map t.visit? := by
  obtain ⟨ended, visits, problems⟩ := survey_behind [] returns passes
  have nothing : t.survey [] = .ofUnasked 0 := rfl
  simp only [List.append_nil, nothing, Survey.ofUnasked, List.replicate_zero]
    at ended visits problems
  refine ⟨?_, visits⟩
  rw [fetch, ended, problems]
  exact t.withoutData_remains today asked

/-- Either an adapter is the first one that ends the search, or all pass. By induction along them.
-/
theorem endsFirst_or_passes (t : DataTarget α) (asked : List (Adapter α × Nat))
    : (∃ front a rest outcome, t.EndsFirst asked front a rest outcome)
      ∨ ∀ a ∈ asked, t.Passes a := by
  induction asked with
  | nil => exact Or.inr nofun
  | cons b asked ih =>
      by_cases passes : t.Passes b
      · rcases ih with ⟨front, a, rest, outcome, split, before, ends⟩ | others
        · refine Or.inl ⟨b :: front, a, rest, outcome, by rw [split, List.cons_append], ?_, ends⟩
          exact List.forall_mem_cons.mpr ⟨passes, before⟩
        · exact Or.inr (List.forall_mem_cons.mpr ⟨passes, others⟩)
      · obtain ⟨outcome, ends⟩ := not_forall_not.mp passes
        exact Or.inl ⟨[], b, asked, outcome, rfl, nofun, ends⟩

theorem Ends.points_ne_nil {series : ObservedSeries α} (ends : t.Ends a (.observed series))
    : series.points ≠ [] := by
  cases ends with
  | observed _ _ left => exact left

theorem Remains.points_ne_nil {today : Date} {asked : List (Adapter α × Nat)}
    {series : ObservedSeries α} (remains : t.Remains today asked (.observed series))
    : series.points ≠ [] := by
  cases remains with
  | declared => exact List.cons_ne_nil _ _

/-- The first adapter that ends the search decides. It is asked once, each one in front of it that
serves the locator is asked once, and no one behind it is asked. Without such an adapter all that
serve the locator are asked once, and the fallback decides, or else there is an error. One of the
two is the case, and no series is empty. Witness: `second_adapter_decides`.
-/
theorem fetch_takes_first (t : DataTarget α) (today : Date) (asked : List (Adapter α × Nat))
    (returns : ∀ a ∈ asked, t.Returns a)
    : (∀ front a rest outcome, t.EndsFirst asked front a rest outcome →
        (t.fetch today asked).outcome = outcome
          ∧ (t.fetch today asked).visits
            = front.map t.visit? ++ t.visit? a :: List.replicate rest.length none)
      ∧ ((∀ a ∈ asked, t.Passes a) →
          t.Remains today asked (t.fetch today asked).outcome
            ∧ (t.fetch today asked).visits = asked.map t.visit?)
      ∧ ((∃ front a rest outcome, t.EndsFirst asked front a rest outcome)
          ∨ ∀ a ∈ asked, t.Passes a)
      ∧ ∀ series, (t.fetch today asked).outcome = .observed series → series.points ≠ [] := by
  refine ⟨fun _ _ _ _ => fetch_of_endsFirst returns, fetch_of_passes returns,
    t.endsFirst_or_passes asked, fun series is => ?_⟩
  rcases t.endsFirst_or_passes asked with ⟨front, a, rest, outcome, endsFirst⟩ | passes
  · obtain rfl : outcome = .observed series :=
      (fetch_of_endsFirst returns endsFirst).1.symm.trans is
    exact endsFirst.ends.points_ne_nil
  · exact (is ▸ (fetch_of_passes returns passes).1 : t.Remains today asked _).points_ne_nil

/-- An adapter passes where the transform leaves nothing of what it delivers. -/
theorem passes_of_dropped {visit : Fetched α} {points : List (ObservedPoint α)}
    (asked : t.visit? a = some visit) (last : visit.last = .delivered points)
    (dropped : transformed t.transform points = .ok [])
    : t.Passes a := by
  have unique {kept made} (delivers : t.Delivers a kept)
      (transforms : Transforms t.transform kept made)
      : made = .ok [] := by
    obtain ⟨-, again, same, delivered⟩ := delivers
    obtain rfl : visit = again := Option.some.inj (asked.symm.trans same)
    obtain rfl : points = kept := Attempt.delivered.inj (last.symm.trans delivered)
    exact (transforms_iff.mp transforms).symm.trans dropped
  rintro outcome (⟨delivers, transforms, left⟩ | ⟨delivers, transforms⟩ | ⟨delivers, transforms⟩)
  · exact left (Except.ok.inj (unique delivers transforms))
  · cases unique delivers transforms
  · cases unique delivers transforms

end DataTarget

namespace Roots

open Prices (place today)

/-- The value that a transform changes. -/
def here : Expr Extended :=
  .name (.ofRoot "value") place

/-- The root of the value. -/
def root : Expr Extended :=
  .call "sqrt" [here] [] place

/-- What is left of an infinite number by the value. -/
def remainder : Expr Extended :=
  .binary .mod (.number (.infinite false) place) here place

/-- A target with a transform. -/
def target (transform : Expr Extended) : DataTarget Extended :=
  ⟨"x", "list", none, some transform, none⟩

/-- One observation. -/
def point (n : Int) : ObservedPoint Extended :=
  ⟨today, .whole n, "list", false⟩

/-- An adapter that delivers one observation. -/
def source (name : String) (n : Int) : Adapter Extended :=
  .supplied name (fun _ => true) (fun _ _ => .points [point n]) ⟨0, .whole 1, .whole 1⟩

/-- The first value has no root, so the second one counts and the third one is not asked for. -/
def asked : List (Adapter Extended × Nat) :=
  [(source "first" (-1), 0), (source "second" 1, 0), (source "third" 4, 0)]

theorem visit?_source (transform : Expr Extended) (name : String) (n : Int)
    : (target transform).visit? (source name n, 0) = some ⟨.delivered [point n], 1, [], []⟩ := by
  cbv

theorem asked_returns (transform : Expr Extended)
    : ∀ a ∈ asked, (target transform).Returns a := by
  intro a listed visit visited
  simp only [asked, List.mem_cons, List.not_mem_nil, or_false] at listed
  rcases listed with rfl | rfl | rfl <;> rw [visit?_source] at visited <;> cases visited
    <;> exact Or.inl ⟨_, rfl⟩

/-- The first adapter passes, and the second one ends the search. -/
theorem second_ends_first
    : (target root).EndsFirst asked [(source "first" (-1), 0)] (source "second" 1, 0)
        [(source "third" 4, 0)] (.observed ⟨"x", [point 1], "list", some "second"⟩) where
  split := rfl
  passes := List.forall_mem_singleton.mpr
    (DataTarget.passes_of_dropped (visit?_source root "first" (-1)) rfl (by cbv))
  ends :=
    .observed ⟨List.cons_ne_nil _ _, _, visit?_source root "second" 1, rfl⟩
      (transforms_iff.mpr (by cbv)) (List.cons_ne_nil _ _)

/-- The second adapter decides, behind one of which the transform leaves nothing, and the third one
is not asked.
-/
theorem second_adapter_decides
    : (∀ a ∈ asked, (target root).Returns a)
      ∧ ((target root).fetch today asked).outcome
          = .observed ⟨"x", [point 1], "list", some "second"⟩
      ∧ ((target root).fetch today asked).visits
          = [(target root).visit? (source "first" (-1), 0),
              (target root).visit? (source "second" 1, 0), none] :=
  ⟨asked_returns root,
    ((target root).fetch_takes_first today asked (asked_returns root)).1 _ _ _ _ second_ends_first⟩

/-- A remainder of an infinite number on the first adapter breaks the search down, although it is no
error of the transform, and the transform has a value on the second one.
-/
theorem infinite_remainder_ends_search
    : (∀ error, transformed (some remainder) [point 1] ≠ .error (.error error))
      ∧ (∀ kept, transformed (some remainder) [point 1] ≠ .ok kept)
      ∧ transformed (some remainder) [point 0] = .ok [point 0]
      ∧ ((target remainder).fetch today [(source "first" 1, 0), (source "second" 0, 0)]).outcome
          = .broken .domain := by
  have first : transformed (some remainder) [point 1] = .error (.fault .domain) := by cbv
  refine ⟨fun error => ?_, fun kept => ?_, by cbv, by cbv⟩
  · simp [first]
  · simp [first]

end Roots

end Prognosis
