import Prognosis.Proofs.Simulation.Places
import Prognosis.Proofs.Simulation.Validity
import Prognosis.Proofs.Token.Word

/-! Parts of what runs compute. When two plans are alike on a part that reads nothing else, their
runs agree on that part: neither the order of computation nor anything outside shows in it. Names of
values are words, so that the streams of values, of declarations inside branches and of branches are
told apart by the signs in their names.
-/

namespace Prognosis

open RunState

section Scopes

variable {σ α : Type} [Scalar α]

-----------------------------------------------------------------------------------------
-- Scopes of plans
-----------------------------------------------------------------------------------------

/-- A part of what runs compute: names of values, names of branches, and the streams that both
draw from.
-/
structure Scope where
  names : String → Prop
  branches : String → Prop
  streams : String → Prop

/-- The scope holds owned names only, and with a name all that is read by whatever may be in
force for it. With a branch it holds what the condition reads.
-/
structure Scope.Closed (scope : Scope) (plan : Plan α) : Prop where
  declared : ∀ name, scope.names name → ∃ q ∈ plan.owners, q.name = name
  reads
    : ∀ current, plan.MayHold current → scope.names current.declaration.name
        → ∀ root ∈ current.declaration.reads, scope.names root
  conditions
    : ∀ b ∈ plan.branches, scope.branches b.name
        → ∀ root ∈ b.condition.roots, scope.names root

/-- The streams of the scope are those of its names and branches, and different names never
share one. A branch that replaces a declaration of the scope belongs to the scope.
-/
structure Scope.Separate (scope : Scope) (plan : Plan α) : Prop where
  apart
    : ∀ current other, plan.MayHold current → plan.MayHold other
        → current.stream = other.stream → current.declaration.name = other.declaration.name
  streams
    : ∀ current, plan.MayHold current
        → (scope.streams current.stream ↔ scope.names current.declaration.name)
  gates
    : ∀ b ∈ plan.branches, scope.streams (gateStream b.name) ↔ scope.branches b.name
  overrides
    : ∀ b ∈ plan.branches, ∀ q ∈ b.overrides, plan.Replaces q
        → scope.names q.name → scope.branches b.name

/-- On the scope the plans have the same declarations and pins, and they have the same branches
and points in time, all up to places. Nothing is said about the order of computation.
-/
structure Plan.Alike (plan : Plan α) (scope : Scope) (other : Plan α) : Prop where
  owners
    : ∀ q ∈ plan.owners, scope.names q.name
        → ∃ same ∈ other.owners, same.unplaced = q.unplaced
  branches : plan.branches.map Branch.unplaced = other.branches.map Branch.unplaced
  times : plan.times = other.times
  seed : plan.seed = other.seed
  pins : ∀ name, scope.names name → plan.pins.lookup name = other.pins.lookup name

namespace Plan.Alike

variable {scope : Scope} {plan other : Plan α}

omit [Scalar α] in
/-- Owners of a name of the scope are the same in both plans, up to places. -/
theorem unplaced_eq (alike : plan.Alike scope other) (sound : other.Sound) {q : Quantity α}
    (member : q ∈ plan.owners) (inside : scope.names q.name) {same : Quantity α}
    (found : same ∈ other.owners) (named : same.name = q.name)
    : same.unplaced = q.unplaced := by
  obtain ⟨owner, owns, equal⟩ := alike.owners q member inside
  have identical := sound.owner_unique found owns
    (named.trans (Quantity.name_eq_of_unplaced equal).symm)
  rw [identical, equal]

theorem origin_eq (alike : plan.Alike scope other) : plan.origin = other.origin := by
  simp only [Plan.origin, alike.times]

end Plan.Alike

/-- Sound plans that are alike on a scope which is closed and separate from the rest. -/
structure Plan.Share (plan : Plan α) (scope : Scope) (other : Plan α) : Prop where
  alike : plan.Alike scope other
  closed : scope.Closed plan
  separate : scope.Separate plan
  separateOther : scope.Separate other
  sound : plan.Sound
  soundOther : other.Sound

namespace Plan.Share

variable {scope : Scope} {plan other : Plan α}

omit [Scalar α] in
/-- Owners of a name of the scope correspond, up to places. -/
theorem owner_of_other (share : plan.Share scope other) {same : Quantity α}
    (found : same ∈ other.owners) (inside : scope.names same.name)
    : ∃ q ∈ plan.owners, same.unplaced = q.unplaced := by
  obtain ⟨q, member, named⟩ := share.closed.declared same.name inside
  exact ⟨q, member, share.alike.unplaced_eq share.soundOther member (named ▸ inside) found
    named.symm⟩

omit [Scalar α] in
/-- Names of the scope are computed in order in both plans or in neither. -/
theorem order_iff (share : plan.Share scope other) {name : String} (inside : scope.names name)
    : name ∈ plan.order ↔ name ∈ other.order := by
  simp only [share.sound.order, share.soundOther.order]
  constructor
  · rintro ⟨q, member, named, varying⟩
    obtain ⟨same, found, equal⟩ := share.alike.owners q member (named ▸ inside)
    exact ⟨same, found, (Quantity.name_eq_of_unplaced equal).trans named,
      (Quantity.isConstant_eq_of_unplaced equal).trans varying⟩
  · rintro ⟨same, found, named, varying⟩
    obtain ⟨q, member, equal⟩ := share.owner_of_other found (named ▸ inside)
    exact ⟨q, member, (Quantity.name_eq_of_unplaced equal).symm.trans named,
      (Quantity.isConstant_eq_of_unplaced equal).symm.trans varying⟩

end Plan.Share

-----------------------------------------------------------------------------------------
-- States that agree on a scope
-----------------------------------------------------------------------------------------

/-- What is in force without places. -/
def InForce.unplaced (current : InForce α) : InForce α :=
  ⟨current.declaration.unplaced, current.stream⟩

namespace RunState

/-- The states have in common what belongs to the scope. -/
structure Agree (opened : String → σ) (scope : Scope) (a b : RunState σ α) : Prop where
  streams : ∀ stream, scope.streams stream → a.streamAt opened stream = b.streamAt opened stream
  inForce
    : ∀ name, scope.names name
        → (a.inForce.lookup name).map InForce.unplaced
          = (b.inForce.lookup name).map InForce.unplaced
  constants : ∀ name, scope.names name → a.constants.lookup name = b.constants.lookup name
  decided : ∀ branch, scope.branches branch → (branch ∈ a.decided ↔ branch ∈ b.decided)
  activated : ∀ branch, scope.branches branch → (branch ∈ a.activated ↔ branch ∈ b.activated)

namespace Agree

variable {opened : String → σ} {scope : Scope} {a b c : RunState σ α}

omit [Scalar α] in
theorem refl (a : RunState σ α) : Agree opened scope a a :=
  ⟨fun _ _ => rfl, fun _ _ => rfl, fun _ _ => rfl, fun _ _ => .rfl, fun _ _ => .rfl⟩

omit [Scalar α] in
theorem symm (agree : Agree opened scope a b) : Agree opened scope b a := {
  streams := fun stream inside => (agree.streams stream inside).symm
  inForce := fun name inside => (agree.inForce name inside).symm
  constants := fun name inside => (agree.constants name inside).symm
  decided := fun branch inside => (agree.decided branch inside).symm
  activated := fun branch inside => (agree.activated branch inside).symm
}

omit [Scalar α] in
theorem trans (first : Agree opened scope a b) (second : Agree opened scope b c)
    : Agree opened scope a c := {
  streams := fun stream inside =>
    (first.streams stream inside).trans (second.streams stream inside)
  inForce := fun name inside => (first.inForce name inside).trans (second.inForce name inside)
  constants := fun name inside =>
    (first.constants name inside).trans (second.constants name inside)
  decided := fun branch inside =>
    (first.decided branch inside).trans (second.decided branch inside)
  activated := fun branch inside =>
    (first.activated branch inside).trans (second.activated branch inside)
}

omit [Scalar α] in
/-- What is in force for a name of the scope is the same in both states, up to places. -/
theorem of_lookup (agree : Agree opened scope a b) {name : String} (inside : scope.names name)
    {current : InForce α} (found : a.inForce.lookup name = some current)
    : ∃ same, b.inForce.lookup name = some same
        ∧ same.declaration.unplaced = current.declaration.unplaced
        ∧ same.stream = current.stream := by
  have equal := agree.inForce name inside
  rw [found, Option.map_some] at equal
  obtain ⟨same, found', equal'⟩ := Option.map_eq_some_iff.mp equal.symm
  have stream : same.unplaced.stream = current.unplaced.stream := by rw [equal']
  exact ⟨same, found', congrArg InForce.declaration equal', stream⟩

end Agree

end RunState

end Scopes

variable {α : Type}

-----------------------------------------------------------------------------------------
-- Words
-----------------------------------------------------------------------------------------

/-- The name of the branch holds no slash. -/
def HasNoSlash (branch : String) : Prop :=
  '/' ∉ branch.toList

instance (branch : String) : Decidable (HasNoSlash branch) :=
  inferInstanceAs (Decidable ('/' ∉ branch.toList))

theorem IsWord.no_slash {name : String} (word : IsWord name) : '/' ∉ name.toList :=
  word.not_mem (by decide)

theorem IsWord.no_colon {name : String} (word : IsWord name) : ':' ∉ name.toList :=
  word.not_mem (by decide)

theorem toList_overrideStream (branch name : String)
    : (overrideStream branch name).toList = branch.toList ++ '/' :: name.toList := by
  simp [overrideStream]

theorem toList_gateStream (branch : String)
    : (gateStream branch).toList = "branch:".toList ++ branch.toList := by
  simp [gateStream]

/-- What stands after the last slash is determined. -/
theorem after_slash_inj {front front' back back' : List Char}
    (plain : '/' ∉ back) (plain' : '/' ∉ back')
    (same : front ++ '/' :: back = front' ++ '/' :: back')
    : back = back' := by
  have reversed := congrArg List.reverse same
  simp only [List.reverse_append, List.reverse_cons, List.append_assoc,
    List.singleton_append] at reversed
  exact List.reverse_inj.mp (before_sign_inj (by simpa using plain) (by simpa using plain')
    reversed).1

-----------------------------------------------------------------------------------------
-- Streams that never meet
-----------------------------------------------------------------------------------------

section Apart

variable {name other branch branch' : String}

theorem own_ne_override (word : IsWord name) : name ≠ overrideStream branch other := by
  rintro rfl
  exact word.no_slash (by simp [toList_overrideStream])

theorem own_ne_gate (word : IsWord name) : name ≠ gateStream branch := by
  rintro rfl
  exact word.no_colon (by simp [toList_gateStream])

theorem override_ne_gate (plain : HasNoSlash branch')
    : overrideStream branch name ≠ gateStream branch' := by
  intro same
  have slash : '/' ∈ (gateStream branch').toList := by
    rw [← same]
    simp [toList_overrideStream]
  rw [toList_gateStream, List.mem_append] at slash
  exact plain (slash.resolve_left (by decide))

theorem name_eq_of_override (word : IsWord name) (word' : IsWord other)
    (same : overrideStream branch name = overrideStream branch' other)
    : name = other := by
  have lists := congrArg String.toList same
  rw [toList_overrideStream, toList_overrideStream] at lists
  exact String.toList_inj.mp (after_slash_inj word.no_slash word'.no_slash lists)

theorem branch_eq_of_gate (same : gateStream branch = gateStream branch') : branch = branch' := by
  have lists := congrArg String.toList same
  rw [toList_gateStream, toList_gateStream] at lists
  exact String.toList_inj.mp (List.append_cancel_left lists)

end Apart

-----------------------------------------------------------------------------------------
-- Streams of a scope
-----------------------------------------------------------------------------------------

/-- The streams of names, of their declarations inside branches, and of branches. -/
inductive StreamOf (names branches : String → Prop) : String → Prop
  | own {name} (inside : names name) : StreamOf names branches name
  | override {branch name} (inside : names name)
    : StreamOf names branches (overrideStream branch name)
  | gate {branch} (inside : branches branch) : StreamOf names branches (gateStream branch)

/-- The scope of names and branches with all their streams. -/
def Scope.of (names branches : String → Prop) : Scope :=
  ⟨names, branches, StreamOf names branches⟩

namespace Plan

variable {plan : Plan α} {names branches : String → Prop}

/-- All owned names are words. -/
def WordNames (plan : Plan α) : Prop :=
  ∀ q ∈ plan.owners, IsWord q.name

theorem WordNames.of_held (words : plan.WordNames) {current : InForce α}
    (held : plan.MayHold current)
    : IsWord current.declaration.name := by
  obtain ⟨owner, owns, named, -⟩ := held.replaces
  exact named ▸ words owner owns

/-- Values of different names never share a stream. -/
theorem WordNames.apart (words : plan.WordNames) {current other : InForce α}
    (held : plan.MayHold current) (heldOther : plan.MayHold other)
    (same : current.stream = other.stream)
    : current.declaration.name = other.declaration.name := by
  have word := words.of_held held
  have word' := words.of_held heldOther
  cases held with
  | owner member =>
      cases heldOther with
      | owner => exact same
      | override => exact absurd same (own_ne_override word)
  | override branch member replaces =>
      cases heldOther with
      | owner => exact absurd same.symm (own_ne_override word')
      | override => exact name_eq_of_override word word' same

/-- A scope of words and of branches without slashes is separate from the rest. -/
theorem separate_of (words : plan.WordNames) (inside : ∀ name, names name → IsWord name)
    (plain : ∀ branch, branches branch → HasNoSlash branch)
    (plainAll : ∀ b ∈ plan.branches, HasNoSlash b.name)
    (overrides
      : ∀ b ∈ plan.branches, ∀ q ∈ b.overrides, plan.Replaces q → names q.name
          → branches b.name)
    : (Scope.of names branches).Separate plan := by
  refine ⟨fun _ _ => words.apart, ?_, ?_, overrides⟩
  · intro current held
    have word := words.of_held held
    cases held with
    | @owner q member =>
        refine ⟨fun stream => ?_, fun within => .own within⟩
        generalize equal : q.name = text at stream
        cases stream with
        | own within => exact equal ▸ within
        | override => exact absurd equal (own_ne_override word)
        | gate => exact absurd equal (own_ne_gate word)
    | @override b q branch member replaces =>
        refine ⟨fun stream => ?_, fun within => .override within⟩
        generalize equal : overrideStream b.name q.name = text at stream
        cases stream with
        | own within => exact absurd equal.symm (own_ne_override (inside _ within))
        | override within => exact name_eq_of_override word (inside _ within) equal ▸ within
        | gate within => exact absurd equal (override_ne_gate (plain _ within))
  · intro b branch
    refine ⟨fun stream => ?_, fun within => .gate within⟩
    generalize equal : gateStream b.name = text at stream
    cases stream with
    | own within => exact absurd equal.symm (own_ne_gate (inside _ within))
    | override within => exact absurd equal.symm (override_ne_gate (plainAll b branch))
    | gate within => exact branch_eq_of_gate equal ▸ within

end Plan

end Prognosis
