import Prognosis.Proofs.Simulation.Moments
import Prognosis.Proofs.Simulation.Scope

/-! Branches of plans that share a scope. What belongs to the scope is done alike in both runs,
and what does not leaves the scope as it is.
-/

namespace Prognosis

variable {σ α : Type} [Scalar α]

namespace RunState

variable {opened : String → σ} {scope : Scope} {plan other : Plan α} {a b : RunState σ α}

-----------------------------------------------------------------------------------------
-- Declarations of branches
-----------------------------------------------------------------------------------------

omit [Scalar α] in
/-- Replacing a name outside the scope, and drawing it anew, leaves the scope as it is. -/
theorem Agree.replacing_outside {branch : String} {nested : Quantity α}
    (outside : ¬scope.names nested.name) (interpolants : Entries (Interpolant α))
    : Agree opened scope a (a.replacing branch nested interpolants) := by
  refine ⟨fun _ _ => rfl, fun name inside => ?_, fun _ _ => rfl, fun _ _ => .rfl,
    fun _ _ => .rfl⟩
  have different : name ≠ nested.name := by
    rintro rfl
    exact outside inside
  simp only [replacing, Entries.lookup_put_of_ne _ _ different]

omit [Scalar α] in
theorem Agree.redraw_outside {stream name : String} (apart : ¬scope.streams stream)
    (outside : ¬scope.names name) (s : σ) (x : α)
    : Agree opened scope a
        { a with streams := a.streams.put stream s, constants := (name, x) :: a.constants } := by
  have moved : streamAt opened
        { a with streams := a.streams.put stream s, constants := (name, x) :: a.constants }
      = Function.update (a.streamAt opened) stream s :=
    streamAt_put a stream s
  refine ⟨?_, fun _ _ => rfl, ?_, fun _ _ => .rfl, fun _ _ => .rfl⟩
  · intro other inside
    have different : other ≠ stream := by
      rintro rfl
      exact apart inside
    rw [moved, Function.update_of_ne different]
  · intro other inside
    have different : other ≠ name := by
      rintro rfl
      exact outside inside
    rw [Entries.lookup_cons_of_ne different]

/-- A declaration of a branch outside the scope leaves the scope as it is. -/
theorem override_outside (separate : scope.Separate plan) (valid : Valid plan a)
    {source : RandomSource σ α} {pins : Env α} {br : Branch α} (branch : br ∈ plan.branches)
    {nested : Quantity α} (member : nested ∈ br.overrides)
    (outside : plan.Replaces nested → ¬scope.names nested.name)
    (done : override source opened pins br.name a nested = .ok b)
    : Agree opened scope a b := by
  rcases override_cases source opened pins br.name a nested with
    ⟨-, same⟩ | ⟨current, found, kind, cases⟩
  · rw [same] at done
    cases done
    exact .refl a
  · have replaces := valid.replaces found kind
    have out := outside replaces
    rcases cases with ⟨-, same⟩ | ⟨-, same⟩
    · rw [same] at done
      cases done
      exact .replacing_outside out _
    · have held := Plan.MayHold.override branch member replaces
      have apart : ¬scope.streams (overrideStream br.name nested.name) :=
        fun inside => out ((separate.streams _ held).mp inside)
      rw [same] at done
      obtain ⟨⟨x, s⟩, -, rfl⟩ := exists_of_map_eq_ok done
      exact (Agree.replacing_outside out []).trans (.redraw_outside apart out s x)

/-- So do several of them, by induction along the declarations. -/
theorem overrideAll_outside (separate : scope.Separate plan) (sound : plan.Sound)
    {source : RandomSource σ α} {br : Branch α} (branch : br ∈ plan.branches)
    {nested : List (Quantity α)} (included : ∀ q ∈ nested, q ∈ br.overrides)
    (outside : ∀ q ∈ nested, plan.Replaces q → ¬scope.names q.name) (valid : Valid plan a)
    (done : overrideAll source opened plan.pins br.name a nested = .ok b)
    : Agree opened scope a b := by
  induction nested generalizing a with
  | nil =>
      cases done
      exact .refl _
  | cons q rest ih =>
      obtain ⟨middle, first, later⟩ := overrideAll_cons_ok done
      have member := included q List.mem_cons_self
      have validNext := (override_resolves valid sound source opened branch member).holds first
      have kept := override_outside separate valid branch member
        (outside q List.mem_cons_self) first
      exact kept.trans (ih (fun other member => included other (List.mem_cons_of_mem _ member))
        (fun other member => outside other (List.mem_cons_of_mem _ member)) validNext later)

omit [Scalar α] in
/-- Replacing a name in both states keeps agreement. -/
theorem Agree.replacing (agree : Agree opened scope a b) (branch : String)
    {nested nested' : Quantity α} (equal : nested'.unplaced = nested.unplaced)
    (interpolants interpolants' : Entries (Interpolant α))
    : Agree opened scope (a.replacing branch nested interpolants)
        (b.replacing branch nested' interpolants') := by
  refine ⟨agree.streams, fun name inside => ?_, agree.constants, agree.decided,
    agree.activated⟩
  have named := Quantity.name_eq_of_unplaced equal
  simp only [RunState.replacing, named]
  by_cases same : name = nested.name
  · subst same
    simp only [Entries.lookup_put_self, Option.map_some, InForce.unplaced, equal]
  · simp only [Entries.lookup_put_of_ne _ _ same]
    exact agree.inForce name inside

omit [Scalar α] in
theorem Agree.redraw (agree : Agree opened scope a b) (stream name : String) (s : σ) (x : α)
    : Agree opened scope
        { a with streams := a.streams.put stream s, constants := (name, x) :: a.constants }
        { b with streams := b.streams.put stream s, constants := (name, x) :: b.constants } := by
  refine ⟨?_, agree.inForce, ?_, agree.decided, agree.activated⟩
  · intro other inside
    refine (congrFun (streamAt_put a stream s) other).trans
      (Eq.trans ?_ (congrFun (streamAt_put b stream s) other).symm)
    by_cases same : other = stream
    · simp [same]
    · rw [Function.update_of_ne same, Function.update_of_ne same]
      exact agree.streams other inside
  · intro other inside
    cases same : other == name with
    | true => simp only [List.lookup_cons, same]
    | false =>
        simp only [List.lookup_cons, same]
        exact agree.constants other inside

/-- A declaration of a branch does alike in states that agree on its name. -/
theorem override_inside (share : plan.Share scope other) (valid : Valid plan a)
    (agree : Agree opened scope a b) (source : RandomSource σ α) {br : Branch α}
    (branch : br ∈ plan.branches) {nested nested' : Quantity α}
    (member : nested ∈ br.overrides) (inside : scope.names nested.name)
    (equal : nested'.unplaced = nested.unplaced) {ended ended' : RunState σ α}
    (done : override source opened plan.pins br.name a nested = .ok ended)
    (doneOther : override source opened other.pins br.name b nested' = .ok ended')
    : Agree opened scope ended ended' := by
  have named := Quantity.name_eq_of_unplaced equal
  have kinds := Quantity.kind_eq_of_unplaced equal
  have fixed := Quantity.isConstant_eq_of_unplaced equal
  rcases override_cases source opened plan.pins br.name a nested with
    ⟨ignored, same⟩ | ⟨current, found, kind, cases⟩
  · rcases override_cases source opened other.pins br.name b nested' with
      ⟨-, same'⟩ | ⟨current', found', kind', -⟩
    · rw [same] at done
      rw [same'] at doneOther
      cases done
      cases doneOther
      exact agree
    · rw [named] at found'
      obtain ⟨back, held, alike, -⟩ := agree.symm.of_lookup inside found'
      exact absurd ((Quantity.kind_eq_of_unplaced alike).trans (kind'.trans kinds))
        (ignored back held)
  · obtain ⟨there, held, alike, -⟩ := agree.of_lookup inside found
    have kindThere := (Quantity.kind_eq_of_unplaced alike).trans (kind.trans kinds.symm)
    rcases override_cases source opened other.pins br.name b nested' with
      ⟨ignored, -⟩ | ⟨current', -, -, cases'⟩
    · exact absurd kindThere (ignored there (named ▸ held))
    · rcases cases with ⟨varying, same⟩ | ⟨constant, same⟩
      · rcases cases' with ⟨-, same'⟩ | ⟨constant', -⟩
        · rw [same] at done
          rw [same'] at doneOther
          cases done
          cases doneOther
          exact agree.replacing br.name equal _ _
        · rw [fixed, varying] at constant'
          cases constant'
      · rcases cases' with ⟨varying', -⟩ | ⟨-, same'⟩
        · rw [fixed, constant] at varying'
          cases varying'
        · have may := Plan.MayHold.override branch member (valid.replaces found kind)
          have reads := share.closed.reads _ may inside
          have stream := agree.streams _ ((share.separate.streams _ may).mpr inside)
          have drawn := (congrFun (Quantity.drawConstant_eq_of_unplaced source other.pins equal)
            b.constants).trans
              (nested.drawConstant_congr source (share.alike.pins nested.name inside).symm
                fun root read =>
                  (agree.constants root (reads root
                    (List.mem_append_left _ (List.mem_append_left _ read)))).symm)
          rw [same] at done
          rw [same', drawn, named, ← stream] at doneOther
          obtain ⟨⟨x, s⟩, result, rfl⟩ := exists_of_map_eq_ok done
          rw [result] at doneOther
          cases doneOther
          exact (agree.replacing br.name equal [] []).redraw _ _ s x

/-- Declarations of a branch that are the same up to places keep agreement, by induction along
them.
-/
theorem overrideAll_agree (share : plan.Share scope other) (source : RandomSource σ α)
    {br br' : Branch α} (branch : br ∈ plan.branches) (branchOther : br' ∈ other.branches)
    (sameName : br'.name = br.name) {nested nested' : List (Quantity α)}
    (equal : nested'.map Quantity.unplaced = nested.map Quantity.unplaced)
    (included : ∀ q ∈ nested, q ∈ br.overrides)
    (includedOther : ∀ q ∈ nested', q ∈ br'.overrides) (valid : Valid plan a)
    (validOther : Valid other b) (agree : Agree opened scope a b) {ended ended' : RunState σ α}
    (done : overrideAll source opened plan.pins br.name a nested = .ok ended)
    (doneOther : overrideAll source opened other.pins br'.name b nested' = .ok ended')
    : Agree opened scope ended ended' := by
  induction nested generalizing nested' a b with
  | nil =>
      obtain rfl := List.map_eq_nil_iff.mp equal
      cases done
      cases doneOther
      exact agree
  | cons q rest ih =>
      obtain ⟨q', rest', rfl, head, tail⟩ := List.map_eq_cons_iff.mp equal
      obtain ⟨middle, first, later⟩ := overrideAll_cons_ok done
      obtain ⟨middle', firstOther, laterOther⟩ := overrideAll_cons_ok doneOther
      have member := included q List.mem_cons_self
      have memberOther := includedOther q' List.mem_cons_self
      have validNext := (override_resolves valid share.sound source opened branch member).holds
        first
      have validNextOther := (override_resolves validOther share.soundOther source opened
        branchOther memberOther).holds firstOther
      have between : Agree opened scope middle middle' := by
        by_cases inside : scope.names q.name
        · rw [sameName] at firstOther
          exact override_inside share valid agree source branch member inside head first
            firstOther
        · have outside : ¬scope.names q'.name := by
            rwa [Quantity.name_eq_of_unplaced head]
          have left := override_outside share.separate valid branch member (fun _ => inside)
            first
          have right := override_outside share.separateOther validOther branchOther memberOther
            (fun _ => outside) firstOther
          exact left.symm.trans (agree.trans right)
      exact ih tail (fun other member => included other (List.mem_cons_of_mem _ member))
        (fun other member => includedOther other (List.mem_cons_of_mem _ member)) validNext
        validNextOther between later laterOther

-----------------------------------------------------------------------------------------
-- Branches
-----------------------------------------------------------------------------------------

omit [Scalar α] in
/-- The draw for a branch outside the scope leaves the scope as it is. -/
theorem Agree.gated_outside (source : RandomSource σ α) {branch : String}
    (outside : ¬scope.branches branch) (gate : ¬scope.streams (gateStream branch))
    : Agree opened scope a (a.gated source opened branch) := by
  refine ⟨?_, fun _ _ => rfl, fun _ _ => rfl, ?_, fun _ _ => .rfl⟩
  · intro stream inside
    have different : stream ≠ gateStream branch := by
      rintro rfl
      exact gate inside
    exact (Function.update_of_ne different _ _).symm.trans
      (congrFun (streamAt_put a (gateStream branch) _) stream).symm
  · intro other inside
    have different : other ≠ branch := by
      rintro rfl
      exact outside inside
    simp [gated, different]

omit [Scalar α] in
theorem Agree.taking_outside {branch : String} (outside : ¬scope.branches branch)
    : Agree opened scope a (a.taking branch) := by
  refine ⟨fun _ _ => rfl, fun _ _ => rfl, fun _ _ => rfl, fun _ _ => .rfl, ?_⟩
  intro other inside
  have different : other ≠ branch := by
    rintro rfl
    exact outside inside
  simp [taking, different]

omit [Scalar α] in
/-- The draw for a branch of the scope does alike. -/
theorem Agree.gated (agree : Agree opened scope a b) (source : RandomSource σ α)
    {branch : String} (gate : scope.streams (gateStream branch))
    : Agree opened scope (a.gated source opened branch) (b.gated source opened branch) := by
  refine ⟨?_, agree.inForce, agree.constants, ?_, agree.activated⟩
  · intro stream inside
    refine (congrFun (streamAt_put a (gateStream branch) _) stream).trans
      (Eq.trans ?_ (congrFun (streamAt_put b (gateStream branch) _) stream).symm)
    by_cases same : stream = gateStream branch
    · simp only [same, Function.update_self, agree.streams _ gate]
    · rw [Function.update_of_ne same, Function.update_of_ne same]
      exact agree.streams stream inside
  · intro other inside
    simp only [RunState.gated, List.mem_cons, agree.decided other inside]

omit [Scalar α] in
theorem Agree.taking (agree : Agree opened scope a b) (branch : String)
    : Agree opened scope (a.taking branch) (b.taking branch) := by
  refine ⟨agree.streams, agree.inForce, agree.constants, agree.decided, ?_⟩
  intro other inside
  simp only [RunState.taking, List.mem_cons, agree.activated other inside]

/-- A branch outside the scope leaves the scope as it is, whether or not it is taken. -/
theorem decide_outside (separate : scope.Separate plan) (sound : plan.Sound)
    (valid : Valid plan a) {source : RandomSource σ α} {env : Env α} {br : Branch α}
    (branch : br ∈ plan.branches) (outside : ¬scope.branches br.name)
    (done : decide source opened plan.pins env a br = .ok b)
    : Agree opened scope a b := by
  have gate : ¬scope.streams (gateStream br.name) :=
    fun inside => outside ((separate.gates br branch).mp inside)
  have gated : Agree opened scope a (a.gated source opened br.name) :=
    .gated_outside source outside gate
  rw [decide_eq] at done
  split at done
  · cases done
    exact .refl _
  · cases held : br.condition.value env with
    | error halt => simp [held] at done
    | ok holds =>
        simp only [held] at done
        split at done
        · cases done
          exact .refl _
        · split at done
          · cases done
            exact gated
          · have taken : Agree opened scope a
                ((a.gated source opened br.name).taking br.name) :=
              gated.trans (.taking_outside outside)
            refine taken.trans (overrideAll_outside separate sound branch
              (fun _ member => member) (fun q member replaces inside => ?_)
              ((valid.gated source opened br.name).taking br.name) done)
            exact outside (separate.overrides br branch q member replaces inside)

/-- A branch of the scope is decided alike in states that agree, where the values that its
condition reads agree.
-/
theorem decide_inside (share : plan.Share scope other) (valid : Valid plan a)
    (validOther : Valid other b) (agree : Agree opened scope a b) (source : RandomSource σ α)
    {env env' : Env α} (values : ∀ name, scope.names name → env.lookup name = env'.lookup name)
    {br br' : Branch α} (branch : br ∈ plan.branches) (branchOther : br' ∈ other.branches)
    (equal : br'.unplaced = br.unplaced) (inside : scope.branches br.name)
    {ended ended' : RunState σ α}
    (done : decide source opened plan.pins env a br = .ok ended)
    (doneOther : decide source opened other.pins env' b br' = .ok ended')
    : Agree opened scope ended ended' := by
  obtain ⟨named, probability, written, nested⟩ := Branch.parts_eq_of_unplaced equal
  have condition : br'.condition.value env' = br.condition.value env := by
    rw [← Expr.value_unplaced, written, Expr.value_unplaced]
    exact (Expr.value_congr br.condition fun root read =>
      values root (share.closed.conditions br branch inside root read)).symm
  have gate := (share.separate.gates br branch).mpr inside
  have gated := agree.gated source gate
  rw [decide_eq] at done
  rw [decide_eq, named, probability, condition, ← agree.streams _ gate,
    if_congr (agree.decided br.name inside).symm rfl rfl] at doneOther
  split at done
  case isTrue known =>
    rw [if_pos known] at doneOther
    cases done
    cases doneOther
    exact agree
  case isFalse fresh =>
    rw [if_neg fresh] at doneOther
    cases held : br.condition.value env with
    | error halt => simp [held] at done
    | ok holds =>
        simp only [held] at done doneOther
        split at done
        case isTrue fails =>
          rw [if_pos fails] at doneOther
          cases done
          cases doneOther
          exact agree
        case isFalse holds =>
          rw [if_neg holds] at doneOther
          split at done
          case isTrue refused =>
            rw [if_pos refused] at doneOther
            cases done
            cases doneOther
            exact gated
          case isFalse drawn =>
            rw [if_neg drawn] at doneOther
            refine overrideAll_agree share source branch branchOther named nested
              (fun _ member => member) (fun _ member => member)
              ((valid.gated source opened br.name).taking br.name)
              ((validOther.gated source opened br.name).taking br.name)
              (gated.taking br.name) done ?_
            rw [named]
            exact doneOther

/-- Branches that are the same up to places are decided alike, by induction along them. -/
theorem decideAll_agree (share : plan.Share scope other) (source : RandomSource σ α)
    {env env' : Env α} (values : ∀ name, scope.names name → env.lookup name = env'.lookup name)
    (owned : ∀ q ∈ plan.owners, env.lookup q.name ≠ none)
    (ownedOther : ∀ q ∈ other.owners, env'.lookup q.name ≠ none)
    {branches branches' : List (Branch α)}
    (equal : branches'.map Branch.unplaced = branches.map Branch.unplaced)
    (included : ∀ br ∈ branches, br ∈ plan.branches)
    (includedOther : ∀ br ∈ branches', br ∈ other.branches) (valid : Valid plan a)
    (validOther : Valid other b) (agree : Agree opened scope a b) {ended ended' : RunState σ α}
    (done : decideAll source opened plan.pins env a branches = .ok ended)
    (doneOther : decideAll source opened other.pins env' b branches' = .ok ended')
    : Agree opened scope ended ended' := by
  induction branches generalizing branches' a b with
  | nil =>
      obtain rfl := List.map_eq_nil_iff.mp equal
      cases done
      cases doneOther
      exact agree
  | cons br rest ih =>
      obtain ⟨br', rest', rfl, head, tail⟩ := List.map_eq_cons_iff.mp equal
      obtain ⟨middle, first, later⟩ := decideAll_cons_ok done
      obtain ⟨middle', firstOther, laterOther⟩ := decideAll_cons_ok doneOther
      have branch := included br List.mem_cons_self
      have branchOther := includedOther br' List.mem_cons_self
      have validNext := (decide_resolves valid share.sound source opened owned branch).holds
        first
      have validNextOther := (decide_resolves validOther share.soundOther source opened
        ownedOther branchOther).holds firstOther
      have between : Agree opened scope middle middle' := by
        by_cases inside : scope.branches br.name
        · exact decide_inside share valid validOther agree source values branch branchOther head
            inside first firstOther
        · have outside : ¬scope.branches br'.name := by
            rwa [(Branch.parts_eq_of_unplaced head).1]
          have left := decide_outside share.separate share.sound valid branch inside first
          have right := decide_outside share.separateOther share.soundOther validOther
            branchOther outside firstOther
          exact left.symm.trans (agree.trans right)
      exact ih tail (fun other member => included other (List.mem_cons_of_mem _ member))
        (fun other member => includedOther other (List.mem_cons_of_mem _ member)) validNext
        validNextOther between later laterOther

end RunState

end Prognosis
