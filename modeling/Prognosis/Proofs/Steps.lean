import Mathlib.Data.List.Forall2

/-! Computations that may stop, one after the other. They come to an end when each of them does, and
else the first one that stops tells why.
-/

namespace Prognosis

variable {ε β γ : Type}

-----------------------------------------------------------------------------------------
-- One after another
-----------------------------------------------------------------------------------------

theorem isOk_iff {x : Except ε β} : x.isOk = true ↔ ∃ y, x = .ok y := by
  cases x with
  | error fault => simp [Except.isOk, Except.toBool]
  | ok y => simp [Except.isOk, Except.toBool]

theorem isOk_map {x : Except ε β} (f : β → γ) : (x.map f).isOk = x.isOk := by
  cases x <;> rfl

theorem bind_eq_ok {x : Except ε β} {f : β → Except ε γ} {z : γ}
    : (x >>= f) = .ok z ↔ ∃ y, x = .ok y ∧ f y = .ok z := by
  cases x <;> simp [bind, Except.bind]

/-- What comes out of two computations in a row came out of the first one before. -/
theorem exists_of_bind_eq_ok {result : Except ε β} {next : β → Except ε γ} {y : γ}
    (ran : result >>= next = .ok y)
    : ∃ x, result = .ok x ∧ next x = .ok y :=
  bind_eq_ok.mp ran

theorem isOk_bind {x : Except ε β} {f : β → Except ε γ}
    : (x >>= f).isOk = true ↔ ∃ y, x = .ok y ∧ (f y).isOk = true := by
  cases x with
  | error fault => simp [bind, Except.bind, Except.isOk, Except.toBool]
  | ok y => simp [bind, Except.bind]

theorem isOk_bind_pure {x : Except ε β} (f : β → γ)
    : (x >>= fun y => pure (f y)).isOk = x.isOk := by
  cases x <;> rfl

-----------------------------------------------------------------------------------------
-- One for each of a list
-----------------------------------------------------------------------------------------

section Lists

variable {f : β → Except ε γ} {items : List β}

/-- All of a list can be computed when each of it can. By induction along the list. -/
theorem isOk_mapM : (items.mapM f).isOk = true ↔ ∀ item ∈ items, (f item).isOk = true := by
  induction items with
  | nil => simp [pure, Except.pure, Except.isOk, Except.toBool]
  | cons item rest ih =>
      rw [List.mapM_cons, isOk_bind, List.forall_mem_cons, ← ih, isOk_iff]
      constructor
      · rintro ⟨y, is, more⟩
        obtain ⟨ys, others, -⟩ := isOk_bind.mp more
        exact ⟨⟨y, is⟩, isOk_iff.mpr ⟨ys, others⟩⟩
      · rintro ⟨⟨y, is⟩, more⟩
        obtain ⟨ys, others⟩ := isOk_iff.mp more
        exact ⟨y, is, isOk_bind.mpr ⟨ys, others, rfl⟩⟩

/-- The results are those of the items, one for one. By induction along the list. -/
theorem mapM_eq_ok_iff {results : List γ}
    : items.mapM f = .ok results ↔ List.Forall₂ (fun x y => f x = .ok y) items results := by
  induction items generalizing results with
  | nil =>
      rw [List.mapM_nil, List.forall₂_nil_left_iff]
      exact ⟨fun is => (Except.ok.inj is).symm, fun is => is ▸ rfl⟩
  | cons item rest ih =>
      rw [List.mapM_cons, bind_eq_ok, List.forall₂_cons_left_iff]
      constructor
      · rintro ⟨y, first, more⟩
        obtain ⟨ys, others, same⟩ := bind_eq_ok.mp more
        exact ⟨y, ys, first, ih.mp others, (Except.ok.inj same).symm⟩
      · rintro ⟨y, ys, first, others, rfl⟩
        exact ⟨y, first, bind_eq_ok.mpr ⟨ys, ih.mpr others, rfl⟩⟩

theorem mapM_cons_eq_error_iff {item : β} {e : ε}
    : (item :: items).mapM f = .error e
      ↔ f item = .error e ∨ (∃ y, f item = .ok y) ∧ items.mapM f = .error e := by
  rw [List.mapM_cons]
  cases f item <;> cases items.mapM f <;> simp [bind, Except.bind, pure, Except.pure]

/-- The first item whose computation stops tells why. By induction along the list. -/
theorem mapM_eq_error_iff {e : ε}
    : items.mapM f = .error e
      ↔ ∃ front item rest,
          items = front ++ item :: rest ∧ (∀ x ∈ front, ∃ y, f x = .ok y)
            ∧ f item = .error e := by
  induction items with
  | nil => simp [pure, Except.pure]
  | cons head tail ih =>
      rw [mapM_cons_eq_error_iff, ih]
      constructor
      · rintro (stops | ⟨done, front, item, rest, rfl, before, stops⟩)
        · exact ⟨[], head, tail, rfl, nofun, stops⟩
        · exact ⟨head :: front, item, rest, rfl, List.forall_mem_cons.mpr ⟨done, before⟩, stops⟩
      · rintro ⟨front, item, rest, split, before, stops⟩
        cases front with
        | nil =>
            obtain ⟨rfl, rfl⟩ := List.cons.inj split
            exact Or.inl stops
        | cons first front =>
            obtain ⟨rfl, rfl⟩ := List.cons.inj split
            have done := List.forall_mem_cons.mp before
            exact Or.inr ⟨done.1, front, item, rest, rfl, done.2, stops⟩

end Lists

end Prognosis
