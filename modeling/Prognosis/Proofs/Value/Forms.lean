import Mathlib.Data.List.DropRight
import Mathlib.Data.List.Nodup
import Prognosis.Calibration
import Prognosis.Proofs.Check.Reports
import Prognosis.Proofs.Entries
import Prognosis.Proofs.Scalar.Exact
import Prognosis.Proofs.Simulation.Places

/-! Parameters in order and parameters by name. A distribution may be given in many forms; what it
means rests on the expressions that its form assigns to the names of its parameters.

One form has to be set apart. A normal distribution with a mean given by name and nothing else is
left with one parameter, and one parameter is a spread: the mean is taken for the spread, and the
checks find nothing.
-/

namespace Prognosis.Distribution

variable {α : Type} {d d' : Distribution α}

theorem nodup_parameters (kind : DistributionKind) : kind.parameters.Nodup := by
  cases kind <;> decide

-----------------------------------------------------------------------------------------
-- Forms
-----------------------------------------------------------------------------------------

/-- The expression that the form assigns to the parameter of a name: the one at its position, or
else the one given by its name.
-/
def assigned? (d : Distribution α) (name : String) : Option (Expr α) :=
  d.positional[d.kind.parameters.idxOf name]?.or (d.named.lookup name)

/-- Some first parameters are given in order, and any of the others by name, each of them once and
in any order.
-/
structure WellGiven (d : Distribution α) : Prop where
  fits : d.positional.length ≤ d.kind.parameters.length
  free : ∀ entry ∈ d.named, entry.1 ∈ d.kind.parameters.drop d.positional.length
  once : (d.named.map (·.1)).Nodup

/-- The mean of a normal distribution is given by name, and it is all that is given. -/
def NamesMeanAlone (d : Distribution α) : Prop :=
  d.kind = .normal ∧ d.positional = [] ∧ ∃ mean, d.named = [("mean", mean)]

-----------------------------------------------------------------------------------------
-- Slots
-----------------------------------------------------------------------------------------

/-- Setting the slot of a name sets it, and leaves all slots of other names. -/
theorem slotted_eq_zipWith {names : List String} {slots : List (Option (Expr α))}
    (distinct : names.Nodup) (long : slots.length = names.length) (key : String) (e : Expr α)
    : slotted names slots (key, e)
      = List.zipWith (fun name slot => if name = key then some e else slot) names slots := by
  induction names generalizing slots with
  | nil =>
      rw [List.length_eq_zero_iff.mp long]
      rfl
  | cons name rest ih =>
      obtain ⟨fresh, distinct⟩ := List.nodup_cons.mp distinct
      match slots, long with
      | slot :: slots, long =>
          have long : slots.length = rest.length := Nat.succ.inj long
          by_cases here : name = key
          · have kept
                : List.zipWith (fun name slot => if name = key then some e else slot) rest slots
                  = slots := by
              refine List.ext_getElem (by simp [long]) fun place inRest inSlots => ?_
              have inside : place < rest.length := long ▸ inSlots
              have apart : rest[place] ≠ key := fun same =>
                fresh (here ▸ same ▸ List.getElem_mem inside)
              simp [apart]
            simp [slotted, List.idxOf?_cons, here, kept]
          · have later := ih distinct long
            simp only [slotted] at later
            simp only [slotted, List.idxOf?_cons, beq_iff_eq, here, if_false,
              List.zipWith_cons_cons, ← later]
            cases rest.idxOf? key <;> rfl

/-- A slot is left with what its name is given, by induction on the parameters given by name. -/
theorem foldl_slotted {names : List String} (distinct : names.Nodup)
    {named : List (String × Expr α)} (once : (named.map (·.1)).Nodup)
    {slots : List (Option (Expr α))} (long : slots.length = names.length)
    : named.foldl (slotted names) slots
      = List.zipWith (fun name slot => (named.lookup name).or slot) names slots := by
  induction named generalizing slots with
  | nil =>
      refine List.ext_getElem (by simp [long]) fun place inSlots inBoth => ?_
      simp
  | cons entry rest ih =>
      obtain ⟨key, e⟩ := entry
      obtain ⟨fresh, once⟩ := List.nodup_cons.mp once
      rw [List.foldl_cons, slotted_eq_zipWith distinct long, ih once (by simp [long])]
      refine List.ext_getElem (by simp) fun place inside _ => ?_
      have bound : place < names.length := by
        simp only [List.length_zipWith] at inside
        omega
      simp only [List.getElem_zipWith, List.lookup_cons]
      by_cases same : names[place] = key
      · have unnamed : rest.lookup key = none := List.lookup_eq_none_iff.mpr
          fun entry member => by
            have : entry.1 ≠ key := fun same => fresh (List.mem_map.mpr ⟨entry, member, same⟩)
            simpa using this.symm
        simp [same, unnamed]
      · simp [same, beq_eq_false_iff_ne.mpr same]

/-- Parameters by position are what the form assigns to the names, without those missing at the end.
-/
theorem WellGiven.arguments (given : d.WellGiven)
    : d.arguments = dropMissing (d.kind.parameters.map d.assigned?) := by
  have distinct := nodup_parameters d.kind
  have long : (d.positional.map some
      ++ List.replicate (d.kind.parameters.length - d.positional.length) none).length
        = d.kind.parameters.length := by
    have := given.fits
    simp
    omega
  change dropMissing (d.named.foldl (slotted d.kind.parameters) _) = _
  rw [foldl_slotted distinct given.once long]
  congr 1
  refine List.ext_getElem (by simp; omega) fun place inSlots inNames => ?_
  have bound : place < d.kind.parameters.length := by simpa using inNames
  rw [List.getElem_zipWith, List.getElem_map, assigned?, distinct.idxOf_getElem]
  by_cases first : place < d.positional.length
  · have unnamed : d.named.lookup d.kind.parameters[place] = none :=
      List.lookup_eq_none_iff.mpr fun entry member => by
        obtain ⟨offset, inside, same⟩ := List.mem_iff_getElem.mp (given.free entry member)
        rw [List.getElem_drop] at same
        have apart : entry.1 ≠ d.kind.parameters[place] := fun equal => by
          have := (distinct.getElem_inj_iff).mp (same.trans equal)
          omega
        simpa using apart.symm
    simp [unnamed, List.getElem_append_left, first]
  · simp [List.getElem_append_right, first, Nat.le_of_not_lt first]

theorem dropMissing_prefix {β : Type} (slots : List (Option β)) : dropMissing slots <+: slots :=
  List.rdropWhile_prefix _ slots

/-- A parameter that is not assigned is missing from the parameters by position: there is a gap, or
there are too few of them.
-/
theorem WellGiven.incomplete (given : d.WellGiven) {name : String}
    (parameter : name ∈ d.kind.parameters) (missing : d.assigned? name = none)
    (complete : d.arguments.all Option.isSome = true)
    : d.arguments.length < d.kind.parameters.length := by
  have short : d.arguments <+: d.kind.parameters.map d.assigned? :=
    given.arguments ▸ dropMissing_prefix _
  refine Nat.lt_of_le_of_ne (by simpa using short.length_le) fun full => ?_
  have whole : d.arguments = d.kind.parameters.map d.assigned? :=
    short.eq_of_length (by simpa using full)
  have assigned : (d.assigned? name).isSome = true :=
    List.all_eq_true.mp complete _ (whole ▸ List.mem_map.mpr ⟨name, parameter, rfl⟩)
  rw [missing] at assigned
  cases assigned

-----------------------------------------------------------------------------------------
-- Normal distributions
-----------------------------------------------------------------------------------------

/-- Parameters of a normal distribution by position. -/
theorem WellGiven.arguments_normal (given : d.WellGiven) (normal : d.kind = .normal)
    : d.arguments = dropMissing [d.assigned? "mean", d.assigned? "std"] := by
  rw [given.arguments, normal]
  rfl

theorem assigned?_mean (normal : d.kind = .normal)
    : d.assigned? "mean" = d.positional[0]?.or (d.named.lookup "mean") := by
  rw [assigned?, normal]
  rfl

theorem assigned?_std (normal : d.kind = .normal)
    : d.assigned? "std" = d.positional[1]?.or (d.named.lookup "std") := by
  rw [assigned?, normal]
  rfl

/-- Without a deviation, the only form is one parameter that is not named. -/
theorem WellGiven.sole (given : d.WellGiven) (apart : ¬ d.NamesMeanAlone)
    (normal : d.kind = .normal) {e : Expr α} (mean : d.assigned? "mean" = some e)
    (std : d.assigned? "std" = none)
    : d.positional = [e] ∧ d.named = [] := by
  rw [assigned?_mean normal] at mean
  rw [assigned?_std normal] at std
  obtain ⟨unplaced, unnamed⟩ := Option.or_eq_none_iff.mp std
  -- Whatever is given by name is given as the mean.
  have means : ∀ entry ∈ d.named, d.positional = [] ∧ entry.1 = "mean" := by
    intro entry member
    have other : entry.1 ≠ "std" := fun same => by
      have found : d.named.lookup "std" = some entry.2 :=
        Entries.lookup_of_mem given.once (same ▸ member)
      rw [unnamed] at found
      cases found
    have free := given.free entry member
    rw [normal] at free
    match positional : d.positional with
    | [] =>
        rw [positional] at free
        simpa [DistributionKind.parameters, other] using free
    | [_] =>
        rw [positional] at free
        simp [DistributionKind.parameters, other] at free
    | _ :: _ :: _ => simp [positional] at unplaced
  match named : d.named with
  | [] =>
      match positional : d.positional with
      | [] => simp [positional, named] at mean
      | [_] =>
          simp only [positional, named] at mean
          cases mean
          exact ⟨rfl, rfl⟩
      | _ :: _ :: _ => simp [positional] at unplaced
  | [(key, first)] =>
      obtain ⟨none, rfl⟩ := means (key, first) (by simp [named])
      exact absurd ⟨normal, none, first, named⟩ apart
  | first :: second :: _ =>
      have once := given.once
      rw [named] at once
      have same : first.1 = second.1 :=
        (means first (by simp [named])).2.trans (means second (by simp [named])).2.symm
      simp [same] at once

/-- Whether the spread is a share rests on what the form assigns. -/
theorem WellGiven.isRelative_iff (given : d.WellGiven) (apart : ¬ d.NamesMeanAlone)
    : d.isRelative = true
      ↔ d.kind = .normal ∧ d.assigned? "std" = none
        ∧ ∃ e, d.assigned? "mean" = some e ∧ e.unsigned.isPercentage = true := by
  constructor
  · intro relative
    unfold isRelative at relative
    split at relative
    · rename_i spread normal positional named
      refine ⟨normal, ?_, spread, ?_, relative⟩
      · simp [assigned?_std normal, positional, named]
      · simp [assigned?_mean normal, positional]
    · cases relative
  · rintro ⟨normal, std, e, mean, percentage⟩
    obtain ⟨positional, named⟩ := given.sole apart normal mean std
    simp [isRelative, normal, positional, named, percentage]

/-- Where the mean is given by name, so is the deviation, or else the mean is all that is given. -/
theorem WellGiven.exists_std (given : d.WellGiven) (apart : ¬ d.NamesMeanAlone) {mean : Expr α}
    (named : ("mean", mean) ∈ d.named)
    : d.kind = .normal ∧ ∃ std, d.arguments = [some mean, some std]
        ∧ d.assigned? "std" = some std := by
  have free := List.mem_of_mem_drop (given.free _ named)
  have normal : d.kind = .normal := by
    cases kind : d.kind with
    | normal => rfl
    | uniform | beta | triangular | lognormal =>
        simp [kind, DistributionKind.parameters] at free
  have positional : d.positional = [] := by
    have free := given.free _ named
    rw [normal] at free
    match positional : d.positional with
    | [] => rfl
    | [_] | _ :: _ :: _ => simp [positional, DistributionKind.parameters] at free
  have mean : d.assigned? "mean" = some mean := by
    rw [assigned?_mean normal, positional]
    exact Entries.lookup_of_mem given.once named
  cases std : d.assigned? "std" with
  | none =>
      rw [(given.sole apart normal mean std).2] at named
      cases named
  | some e => exact ⟨normal, e, by rw [given.arguments_normal normal, mean, std]; rfl, rfl⟩

-----------------------------------------------------------------------------------------
-- Draws and moments
-----------------------------------------------------------------------------------------

/-- Two forms assign the same expressions to the same parameters of one family, up to the places at
which these are written.
-/
structure AssignsAlike (d d' : Distribution α) : Prop where
  kind : d.kind = d'.kind
  assigned : ∀ name ∈ d.kind.parameters,
    (d.assigned? name).map Expr.unplaced = (d'.assigned? name).map Expr.unplaced

theorem AssignsAlike.arguments (alike : d.AssignsAlike d') (given : d.WellGiven)
    (given' : d'.WellGiven)
    : d.arguments.map (Option.map Expr.unplaced) = d'.arguments.map (Option.map Expr.unplaced) := by
  rw [given.arguments, given'.arguments, ← dropMissing_map, ← dropMissing_map, ← alike.kind,
    List.map_map, List.map_map]
  exact congrArg dropMissing (List.map_congr_left alike.assigned)

/-- An expression assigned by one form is assigned by the other one. -/
theorem AssignsAlike.exists_mean (alike : d.AssignsAlike d') (normal : d.kind = .normal)
    (std : d.assigned? "std" = none) {e : Expr α} (mean : d.assigned? "mean" = some e)
    : d'.assigned? "std" = none
      ∧ ∃ e', d'.assigned? "mean" = some e' ∧ e'.unplaced = e.unplaced := by
  have means := alike.assigned "mean" (by rw [normal]; decide)
  have stds := alike.assigned "std" (by rw [normal]; decide)
  rw [mean, Option.map_some, eq_comm, Option.map_eq_some_iff] at means
  rw [std, Option.map_none, eq_comm, Option.map_eq_none_iff] at stds
  exact ⟨stds, means⟩

theorem AssignsAlike.symm (alike : d.AssignsAlike d') : d'.AssignsAlike d :=
  ⟨alike.kind.symm, fun name parameter => (alike.assigned name (alike.kind ▸ parameter)).symm⟩

/-- A spread that is a share in one form is one in the other. -/
theorem AssignsAlike.isRelative_of (alike : d.AssignsAlike d') (given : d.WellGiven)
    (given' : d'.WellGiven) (apart : ¬ d.NamesMeanAlone) (apart' : ¬ d'.NamesMeanAlone)
    (relative : d.isRelative = true)
    : d'.isRelative = true := by
  obtain ⟨normal, std, e, mean, percentage⟩ := (given.isRelative_iff apart).mp relative
  obtain ⟨std', e', mean', same⟩ := alike.exists_mean normal std mean
  refine (given'.isRelative_iff apart').mpr ⟨alike.kind ▸ normal, std', e', mean', ?_⟩
  rw [← Expr.isPercentage_unsigned_unplaced, same, Expr.isPercentage_unsigned_unplaced,
    percentage]

theorem AssignsAlike.isRelative (alike : d.AssignsAlike d') (given : d.WellGiven)
    (given' : d'.WellGiven) (apart : ¬ d.NamesMeanAlone) (apart' : ¬ d'.NamesMeanAlone)
    : d.isRelative = d'.isRelative :=
  Bool.eq_iff_iff.mpr ⟨alike.isRelative_of given given' apart apart',
    alike.symm.isRelative_of given' given apart' apart⟩

section Values

variable {σ : Type} [Scalar α]

/-- What parameters are worth does not depend on where they are written. -/
theorem parameterValues_eq_of_arguments (env : Env α)
    (same : d.arguments.map (Option.map Expr.unplaced)
      = d'.arguments.map (Option.map Expr.unplaced))
    : d.parameterValues env = d'.parameterValues env := by
  have unplaced (d : Distribution α)
      : d.parameterValues env
        = ((d.arguments.map (Option.map Expr.unplaced)).mapM id).map (Expr.magnitudes env) := by
    rw [mapM_id_map, Option.map_map, parameterValues]
    congr 1
    funext parameters
    exact (Expr.magnitudes_unplaced parameters).symm
  rw [unplaced d, unplaced d', same]

theorem AssignsAlike.draw (alike : d.AssignsAlike d') (given : d.WellGiven)
    (given' : d'.WellGiven) (apart : ¬ d.NamesMeanAlone) (apart' : ¬ d'.NamesMeanAlone)
    (source : RandomSource σ α) (base : α) (env : Env α) (s : σ)
    : d.draw source base env s = d'.draw source base env s := by
  have parameters := parameterValues_eq_of_arguments env (alike.arguments given given')
  have relative := alike.isRelative given given' apart apart'
  simp only [Distribution.draw, parameters, drawWith, alike.kind, relative]

theorem AssignsAlike.moments (alike : d.AssignsAlike d') (given : d.WellGiven)
    (given' : d'.WellGiven) (apart : ¬ d.NamesMeanAlone) (apart' : ¬ d'.NamesMeanAlone)
    (base : α) (env : Env α)
    : d.moments base env = d'.moments base env := by
  have parameters := parameterValues_eq_of_arguments env (alike.arguments given given')
  have relative := alike.isRelative given given' apart apart'
  simp only [Distribution.moments, parameters, momentsWith, alike.kind, relative]

/-- Two parameters by position are evaluated one after the other. -/
theorem parameterValues_pair {first second : Expr α}
    (arguments : d.arguments = [some first, some second]) (env : Env α)
    : d.parameterValues env = some (do
        let x ← first.magnitude env
        let y ← second.magnitude env
        return [x, y]) := by
  rw [parameterValues, arguments]
  change some (Expr.magnitudes env [first, second]) = _
  cases left : first.magnitude env with
  | error halt => simp only [Expr.magnitudes, left]; rfl
  | ok x =>
      cases right : second.magnitude env with
      | error halt => simp only [Expr.magnitudes, left, right]; rfl
      | ok y => simp only [Expr.magnitudes, left, right]; rfl

theorem draw_normal (normal : d.kind = .normal) {mean std : Expr α}
    (arguments : d.arguments = [some mean, some std]) (source : RandomSource σ α) (base : α)
    (env : Env α) (s : σ)
    : d.draw source base env s = (do
        let centre ← mean.magnitude env
        let spread ← std.magnitude env
        Halt.lift (source.normal centre (Scalar.abs spread) s)) := by
  rw [Distribution.draw, parameterValues_pair arguments]
  cases mean.magnitude env with
  | error halt => rfl
  | ok x =>
      cases std.magnitude env with
      | error halt => rfl
      | ok y =>
          change Halt.lift (d.drawWith source [x, y] base s) = _
          simp only [drawWith, normal]
          rfl

theorem moments_normal (normal : d.kind = .normal) {mean std : Expr α}
    (arguments : d.arguments = [some mean, some std]) (base : α) (env : Env α)
    : d.moments base env = (do
        let centre ← mean.magnitude env
        let spread ← std.magnitude env
        return some (centre, Scalar.abs spread)) := by
  rw [Distribution.moments, parameterValues_pair arguments]
  cases mean.magnitude env with
  | error halt => rfl
  | ok x =>
      cases std.magnitude env with
      | error halt => rfl
      | ok y =>
          change Halt.lift (d.momentsWith [x, y] base) = _
          simp only [momentsWith, normal]
          rfl

end Values

-----------------------------------------------------------------------------------------
-- Findings
-----------------------------------------------------------------------------------------

section Findings

variable [Scalar α]

/-- A form that names parameters and leaves one unset is found to be at fault. -/
theorem WellGiven.checkArguments_code (given : d.WellGiven) (apart : ¬ d.NamesMeanAlone)
    (names : d.named ≠ []) {name : String} (parameter : name ∈ d.kind.parameters)
    (missing : d.assigned? name = none) (owner : Owner)
    : ∃ finding, Check.checkArguments d owner = some finding ∧ finding.code = .error 7 := by
  have short := given.incomplete parameter missing
  unfold Check.checkArguments
  cases kind : d.kind with
  | normal =>
      refine ⟨.normalCount owner d.arguments.length, if_pos ?_, rfl⟩
      simp only [Bool.or_eq_true, Bool.not_eq_true', Bool.or_eq_false_iff, beq_eq_false_iff_ne]
      by_cases complete : d.arguments.all Option.isSome = true
      · refine .inr ⟨fun single => ?_, fun pair => ?_⟩
        -- One parameter alone is not named.
        · obtain ⟨e, mean, std⟩
              : ∃ e, d.assigned? "mean" = some e ∧ d.assigned? "std" = none := by
            rw [given.arguments_normal kind] at single complete
            cases mean : d.assigned? "mean" with
            | none =>
                cases std : d.assigned? "std" <;>
                  simp [mean, std, dropMissing] at single complete
            | some e =>
                cases std : d.assigned? "std" with
                | none => exact ⟨e, rfl, rfl⟩
                | some _ => simp [mean, std, dropMissing] at single
          exact names (given.sole apart kind mean std).2
        · have := short complete
          simp [kind, DistributionKind.parameters, pair] at this
      · exact .inl (by simpa using complete)
  | uniform | beta | triangular | lognormal =>
      refine ⟨.parameterCount _ owner d.arguments.length, if_pos ?_, rfl⟩
      simp only [Bool.or_eq_true, Bool.not_eq_true', bne_iff_ne]
      by_cases complete : d.arguments.all Option.isSome = true
      · exact .inr (Nat.ne_of_lt (kind ▸ short complete))
      · exact .inl (by simpa using complete)

end Findings

end Prognosis.Distribution

namespace Prognosis

variable {α : Type} [Scalar α]

/-- A scenario uses a distribution: as the uncertainty of a declaration, or of one inside a branch
that replaces a declaration outside, or as a prior.
-/
inductive Scenario.Uses (s : Scenario α) : Distribution α → Prop
  | declared {q d} (member : .quantity q ∈ s.declarations) (has : q.uncertainty? = some d)
    : Uses s d
  | nested {b q d} (branch : .branch b ∈ s.declarations) (member : q ∈ b.overrides)
    (replaces : (Symbols.ofScenario s).isOverride q = true) (has : q.uncertainty? = some d)
    : Uses s d
  | prior {c d} (member : .calibrate c ∈ s.declarations) (has : c.prior = some d) : Uses s d

namespace Check

/-- The uncertainty of a declaration is checked with it. -/
theorem exists_checkDistribution_subset {q : Quantity α} {d : Distribution α}
    (has : q.uncertainty? = some d) (symbols : Symbols α) (index : Nat) (nested : Bool)
    : ∃ scope owner,
        checkDistribution symbols scope owner d ⊆ checkQuantity symbols index nested q := by
  cases q with
  | assumption a =>
      refine ⟨.constantsBefore index, .quantity .assumption a.name, fun l found => ?_⟩
      have uncertainty : a.uncertainty = some d := has
      simp [checkQuantity, checkAssumption, uncertainty, found]
  | parameter p =>
      refine ⟨.constantsBefore index, .quantity .parameter p.name, fun l found => ?_⟩
      have uncertainty : p.uncertainty = some d := has
      simp [checkQuantity, checkParameter, uncertainty, found]
  | varying v =>
      refine ⟨.declared, .quantity .varying v.name, fun l found => ?_⟩
      have uncertainty : v.uncertainty = some d := has
      simp [checkQuantity, checkVariable, uncertainty, found]
  | impact i => cases has

end Check

namespace Scenario

variable {s : Scenario α} {d : Distribution α}

/-- A distribution that is used is checked. -/
theorem Uses.exists_checkDistribution_subset (uses : s.Uses d)
    : ∃ scope owner,
        Check.checkDistribution (Symbols.ofScenario s) scope owner d ⊆ s.check.findings := by
  cases uses with
  | declared member has =>
      obtain ⟨index, nested, checked⟩ := (InUse.declared member).exists_checkQuantity_subset
      obtain ⟨scope, owner, own⟩ :=
        Check.exists_checkDistribution_subset has (Symbols.ofScenario s) index nested
      exact ⟨scope, owner, List.Subset.trans own checked⟩
  | nested branch member replaces has =>
      obtain ⟨index, nested, checked⟩ :=
        (InUse.nested branch member replaces).exists_checkQuantity_subset
      obtain ⟨scope, owner, own⟩ :=
        Check.exists_checkDistribution_subset has (Symbols.ofScenario s) index nested
      exact ⟨scope, owner, List.Subset.trans own checked⟩
  | @prior c d member has =>
      obtain ⟨index, declared⟩ := checkDeclaration_subset member
      refine ⟨.declared, .calibrate c.target.text, fun l found => declared ?_⟩
      exact List.mem_append_right _ (by simpa [has] using found)

end Scenario

-----------------------------------------------------------------------------------------
-- Agreement of forms
-----------------------------------------------------------------------------------------

namespace Distribution

/-- Parameters in order and parameters by name agree, apart from normal distributions of which only
the mean is named. Forms that assign the same expressions have the same draws and moments; a mean
given by name is the mean, and the deviation is another parameter; and a form that names parameters
but not all that are left is found to be at fault wherever it is used.
-/
theorem forms_agree {d : Distribution α} (given : d.WellGiven) (apart : ¬ d.NamesMeanAlone)
    : (∀ d' : Distribution α, d'.WellGiven → ¬ d'.NamesMeanAlone → d.AssignsAlike d'
        → (∀ {σ : Type} (source : RandomSource σ α) (base : α) (env : Env α) (s : σ),
            d.draw source base env s = d'.draw source base env s)
          ∧ ∀ (base : α) (env : Env α), d.moments base env = d'.moments base env)
      ∧ (∀ mean, ("mean", mean) ∈ d.named
        → ∃ std, d.assigned? "std" = some std
          ∧ (∀ {σ : Type} (source : RandomSource σ α) (base : α) (env : Env α) (s : σ),
              d.draw source base env s = (do
                let centre ← mean.magnitude env
                let spread ← std.magnitude env
                Halt.lift (source.normal centre (Scalar.abs spread) s)))
          ∧ ∀ (base : α) (env : Env α),
              d.moments base env = (do
                let centre ← mean.magnitude env
                let spread ← std.magnitude env
                return some (centre, Scalar.abs spread)))
      ∧ (d.named ≠ [] → (∃ name ∈ d.kind.parameters, d.assigned? name = none)
        → ∀ s : Scenario α, s.Uses d
          → ∃ l ∈ s.check.findings, l.finding.code = .error 7 ∧ l.span = some d.span) := by
  refine ⟨fun d' given' apart' alike => ⟨?_, ?_⟩, fun mean named => ?_, ?_⟩
  · intro σ source base env s
    exact alike.draw given given' apart apart' source base env s
  · exact alike.moments given given' apart apart'
  · obtain ⟨normal, std, arguments, assigned⟩ := given.exists_std apart named
    exact ⟨std, assigned, draw_normal normal arguments, moments_normal normal arguments⟩
  · rintro names ⟨name, parameter, missing⟩ s uses
    obtain ⟨scope, owner, checked⟩ := uses.exists_checkDistribution_subset
    obtain ⟨finding, found, code⟩ :=
      given.checkArguments_code apart names parameter missing owner
    exact ⟨⟨finding, some d.span⟩,
      checked (List.mem_append_right _ (by simp [found])), code, rfl⟩

section Samples

/-- A distribution with literals, in order and by name. -/
def ofLiterals (kind : DistributionKind) (positional : List (Expr ℝ))
    (named : List (String × Expr ℝ)) : Distribution ℝ :=
  ⟨kind, positional, named, ⟨1, 1⟩⟩

/-- Witness: ten as the mean and two as the deviation, in order and by name; and an upper bound
alone, by its name.
-/
theorem forms_agree_of_ten_and_two
    : let ten := Expr.number (10 : ℝ) none
      let two := Expr.number (2 : ℝ) none
      let ordered := ofLiterals .normal [ten, two] []
      let byName := ofLiterals .normal [] [("std", two), ("mean", ten)]
      let half := ofLiterals .uniform [] [("max", two)]
      (∀ base env, byName.moments base env = ordered.moments base env)
        ∧ ∀ s : Scenario ℝ, s.Uses half
          → ∃ l ∈ s.check.findings, l.finding.code = .error 7 := by
  intro ten two ordered byName half
  have given : byName.WellGiven := ⟨by decide, by simp [byName, ofLiterals,
    DistributionKind.parameters], by simp [byName, ofLiterals]⟩
  have apart : ¬ byName.NamesMeanAlone := by
    rintro ⟨-, -, mean, named⟩
    simp [byName, ofLiterals] at named
  have given' : ordered.WellGiven := ⟨by decide, by simp [ordered, ofLiterals], by
    simp [ordered, ofLiterals]⟩
  have apart' : ¬ ordered.NamesMeanAlone := by
    rintro ⟨-, positional, -⟩
    simp [ordered, ofLiterals] at positional
  have alike : byName.AssignsAlike ordered := by
    refine ⟨rfl, fun name parameter => ?_⟩
    have either : name = "mean" ∨ name = "std" := by
      simpa [byName, ofLiterals, DistributionKind.parameters] using parameter
    rcases either with rfl | rfl <;> rfl
  have givenHalf : half.WellGiven := ⟨by decide, by simp [half, ofLiterals,
    DistributionKind.parameters], by simp [half, ofLiterals]⟩
  have apartHalf : ¬ half.NamesMeanAlone := fun alone => by cases alone.1
  refine ⟨((forms_agree given apart).1 ordered given' apart' alike).2, fun s uses => ?_⟩
  obtain ⟨l, found, code, -⟩ := (forms_agree givenHalf apartHalf).2.2
    (by simp [half, ofLiterals]) ⟨"min", by decide, rfl⟩ s uses
  exact ⟨l, found, code⟩

/-- A share given as the mean by name is taken for a spread, and not for a share; and the checks
find nothing.
-/
theorem mean_alone_taken_for_spread
    : let five := Expr.percentage (5 : ℝ) none
      let byName := ofLiterals .normal [] [("mean", five)]
      let ordered := ofLiterals .normal [five] []
      byName.WellGiven ∧ ordered.WellGiven ∧ byName.AssignsAlike ordered
        ∧ byName.moments 200 [] = .ok (some (200, 5))
        ∧ ordered.moments 200 [] = .ok (some (200, 10))
        ∧ byName.assigned? "std" = none
        ∧ ∀ symbols scope owner, Check.checkDistribution symbols scope owner byName = [] := by
  intro five byName ordered
  have alike : byName.AssignsAlike ordered := by
    refine ⟨rfl, fun name parameter => ?_⟩
    have either : name = "mean" ∨ name = "std" := by
      simpa [byName, ofLiterals, DistributionKind.parameters] using parameter
    rcases either with rfl | rfl <;> rfl
  have share : ordered.moments 200 [] = .ok (some (200, 10)) := by
    change Except.ok (some ((200 : ℝ), |200| * |5| / ((100 : ℕ) : ℝ))) = _
    norm_num
  have spread : byName.moments 200 [] = .ok (some (200, 5)) := by
    change Except.ok (some ((200 : ℝ), |5|)) = _
    norm_num
  refine ⟨⟨by decide, by simp [byName, ofLiterals, DistributionKind.parameters], by
    simp [byName, ofLiterals]⟩, ⟨by decide, by simp [ordered, ofLiterals], by
    simp [ordered, ofLiterals]⟩, alike, spread, share, rfl, fun symbols scope owner => ?_⟩
  have fits : Check.checkArguments byName owner = none := by
    change (if Decidable.decide ((5 : ℝ) < ((0 : ℤ) : ℝ)) then _ else none) = none
    norm_num
  have expression : Check.checkExpression symbols scope owner (some byName.span) five = [] := by
    simp [Check.checkExpression, Check.checkCall, Expr.names, Expr.name?, Expr.nodes, Expr.walk,
      Expr.children, five]
  rw [Check.checkDistribution, fits]
  change [] ++ (Check.checkExpression symbols scope owner (some byName.span) five ++ []) ++ [] = []
  rw [expression]
  rfl

end Samples

end Distribution

end Prognosis
