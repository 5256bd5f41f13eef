import Prognosis.Proofs.Syntax.Places
import Prognosis.Simulation.Run

/-! What is read by declarations. Values, draws and interpolants depend on the values of names
only through the first segments of the names that their expressions hold.
-/

namespace Prognosis

variable {σ α : Type}

/-- Both give each of the names the same value, or none. -/
def AgreeOn (names : List String) (env env' : Env α) : Prop :=
  ∀ name ∈ names, env.lookup name = env'.lookup name

namespace AgreeOn

variable {names more : List String} {env env' : Env α}

theorem mono (agree : AgreeOn more env env') (subset : names ⊆ more)
    : AgreeOn names env env' :=
  fun name member => agree name (subset member)

theorem symm (agree : AgreeOn names env env') : AgreeOn names env' env :=
  fun name member => (agree name member).symm

/-- Agreement on what several expressions read, taken for one of them. -/
theorem of_flatMap {β : Type} {f : β → List String} {items : List β} {item : β}
    (agree : AgreeOn (items.flatMap f) env env') (member : item ∈ items)
    : AgreeOn (f item) env env' :=
  agree.mono fun _ read => List.mem_flatMap.mpr ⟨item, member, read⟩

end AgreeOn

variable [Scalar α]

namespace Expr

variable {env env' : Env α}

theorem values_congr {es : List (Expr α)}
    (same : ∀ e ∈ es, value env e = value env' e)
    : values env es = values env' es := by
  induction es with
  | nil => rfl
  | cons e rest ih =>
      simp only [values]
      rw [same e (by simp), ih fun other member => same other (by simp [member])]

theorem namedValues_congr {named : List (String × Expr α)}
    (same : ∀ e ∈ named.map (·.2), value env e = value env' e)
    : namedValues env named = namedValues env' named := by
  induction named with
  | nil => rfl
  | cons entry rest ih =>
      obtain ⟨key, e⟩ := entry
      simp only [namedValues, entryValue]
      rw [same e (by simp), ih fun other member => same other (by simp [member])]

/-- The value of an expression depends only on what it reads, by induction on its parts. -/
theorem value_congr (e : Expr α) (agree : AgreeOn e.roots env env')
    : value env e = value env' e := by
  induction e using induction_on_children with
  | step e ih =>
      have parts (part : Expr α) (child : part ∈ e.children)
          : value env part = value env' part :=
        ih part child (agree.mono fun _ read => mem_roots_of_child child read)
      cases e with
      | number | percentage | currency | text | boolean => rfl
      | name path span =>
          simp only [value]
          rw [agree path.root (root_mem_roots_name path span)]
      | unary op operand span =>
          simp only [value]
          rw [parts operand (by simp [children])]
      | binary op left right span =>
          simp only [value]
          rw [parts left (by simp [children]), parts right (by simp [children])]
      | call function positional named span =>
          simp only [value]
          rw [values_congr fun e member => parts e (by simp [children, member]),
            namedValues_congr fun e member =>
              parts e (List.mem_append_right positional member)]

/-- The same holds of magnitudes, by induction on leading signs. -/
theorem magnitude_congr (e : Expr α) (agree : AgreeOn e.roots env env')
    : magnitude env e = magnitude env' e := by
  induction e using induction_on_children with
  | step e ih =>
      have parts (part : Expr α) (child : part ∈ e.children)
          : magnitude env part = magnitude env' part :=
        ih part child (agree.mono fun _ read => mem_roots_of_child child read)
      have whole := value_congr e agree
      cases e with
      | unary op operand span =>
          have operands := parts operand (by simp [children])
          cases op with
          | not => exact whole
          | minus | plus | plusMinus => simp only [magnitude, operands]
      | percentage => rfl
      | number | currency | text | boolean | name | binary | call => exact whole

theorem magnitudes_congr (es : List (Expr α)) (agree : AgreeOn (es.flatMap roots) env env')
    : magnitudes env es = magnitudes env' es := by
  induction es with
  | nil => rfl
  | cons e rest ih =>
      simp only [magnitudes]
      rw [magnitude_congr e (agree.of_flatMap (by simp)),
        ih (agree.mono fun _ read => by simp_all)]

end Expr

/-! ### Distributions and models -/

namespace Distribution

omit [Scalar α] in
/-- Setting slots by name only brings in values that are given by name. -/
theorem mem_filled {names : List String} {named : List (String × Expr α)}
    {slots : List (Option (Expr α))} {e : Expr α}
    (member
      : some e ∈ named.foldl (fun slots (key, value) =>
          match names.idxOf? key with
          | some place => slots.set place (some value)
          | none => slots) slots)
    : some e ∈ slots ∨ e ∈ named.map (·.2) := by
  induction named generalizing slots with
  | nil => exact Or.inl member
  | cons entry rest ih =>
      obtain ⟨key, given⟩ := entry
      rcases ih member with kept | later
      · cases place : names.idxOf? key with
        | none => exact Or.inl (by simpa only [place] using kept)
        | some index =>
            simp only [place] at kept
            rcases List.mem_or_eq_of_mem_set kept with old | same
            · exact Or.inl old
            · exact Or.inr (by simp_all)
      · exact Or.inr (List.mem_cons_of_mem _ later)

omit [Scalar α] in
/-- The parameters by position are among the parameters as given. -/
theorem mem_expressions_of_argument {d : Distribution α} {e : Expr α}
    (member : some e ∈ d.arguments)
    : e ∈ d.expressions := by
  simp only [arguments, dropMissing] at member
  have kept := List.mem_reverse.mp member
  have filled := List.mem_reverse.mp ((List.dropWhile_sublist _).subset kept)
  simp only [expressions, List.mem_append]
  rcases mem_filled filled with slot | named
  · rcases List.mem_append.mp slot with positional | missing
    · exact Or.inl (by simpa using positional)
    · simp at missing
  · exact Or.inr named

variable {env env' : Env α}

theorem mapM_id_map_some {β : Type} (found : List β) : (found.map some).mapM id = some found := by
  induction found with
  | nil => rfl
  | cons x rest ih => simp [List.mapM_cons, ih]

theorem exists_map_some {β : Type} {slots : List (Option β)}
    (complete : slots.all Option.isSome = true)
    : ∃ found : List β, slots = found.map some := by
  induction slots with
  | nil => exact ⟨[], rfl⟩
  | cons slot rest ih =>
      obtain ⟨present, others⟩ := Bool.and_eq_true_iff.mp complete
      obtain ⟨x, rfl⟩ := Option.isSome_iff_exists.mp present
      obtain ⟨found, rfl⟩ := ih others
      exact ⟨x :: found, rfl⟩

theorem mem_of_mapM_id {β : Type} {slots : List (Option β)} {found : List β} {x : β}
    (complete : slots.mapM id = some found) (member : x ∈ found)
    : some x ∈ slots := by
  induction slots generalizing found with
  | nil =>
      simp at complete
      simp [complete] at member
  | cons slot rest ih =>
      cases slot with
      | none => simp [List.mapM_cons] at complete
      | some first =>
          simp only [List.mapM_cons, id_eq, Option.bind_eq_bind, Option.bind_some,
            Option.bind_eq_some_iff, Option.pure_def, Option.some.injEq] at complete
          obtain ⟨others, rest_complete, rfl⟩ := complete
          rcases List.mem_cons.mp member with rfl | later
          · simp
          · exact List.mem_cons_of_mem _ (ih rest_complete later)

theorem parameterValues_congr (d : Distribution α)
    (agree : AgreeOn (d.expressions.flatMap Expr.roots) env env')
    : d.parameterValues env = d.parameterValues env' := by
  simp only [parameterValues]
  cases complete : d.arguments.mapM id with
  | none => rfl
  | some parameters =>
      simp only [Option.map_some, Option.some.injEq]
      apply Expr.magnitudes_congr
      apply agree.mono
      intro root read
      obtain ⟨e, member, below⟩ := List.mem_flatMap.mp read
      exact List.mem_flatMap.mpr
        ⟨e, mem_expressions_of_argument (mem_of_mapM_id complete member), below⟩

/-- A draw depends only on what the parameters read. -/
theorem draw_congr (source : RandomSource σ α) (d : Distribution α) (base : α)
    (agree : AgreeOn (d.expressions.flatMap Expr.roots) env env')
    : d.draw source base env = d.draw source base env' := by
  funext s
  simp only [draw, parameterValues_congr d agree]

end Distribution

namespace Model

variable {env env' : Env α}

/-- What the parameters of a model read. -/
def roots (m : Model α) : List String :=
  m.parameters.flatMap fun entry => entry.2.roots

omit [Scalar α] in
/-- A parameter that is looked up is one of the parameters. -/
theorem mem_parameters_of_parameter {m : Model α} {names : List String} {e : Expr α}
    (found : m.parameter? names = some e)
    : ∃ key, (key, e) ∈ m.parameters := by
  simp only [parameter?, Option.map_eq_some_iff] at found
  obtain ⟨⟨key, value⟩, first, rfl⟩ := found
  exact ⟨key, List.mem_of_find?_eq_some first⟩

theorem magnitude_congr {m : Model α} {names : List String} {e : Expr α}
    (agree : AgreeOn m.roots env env') (found : m.parameter? names = some e)
    : e.magnitude env = e.magnitude env' := by
  obtain ⟨key, member⟩ := mem_parameters_of_parameter found
  exact Expr.magnitude_congr e (agree.mono fun _ read =>
    List.mem_flatMap.mpr ⟨(key, e), member, read⟩)

theorem parameter_congr (m : Model α) (agree : AgreeOn m.roots env env')
    (names : List String) (otherwise : α)
    : m.parameter env names otherwise = m.parameter env' names otherwise := by
  simp only [parameter]
  cases found : m.parameter? names with
  | none => rfl
  | some e => exact magnitude_congr agree found

theorem polynomial_congr (m : Model α) (agree : AgreeOn m.roots env env')
    (elapsed : α) (bound power : Nat) (total : α)
    : m.polynomial env elapsed bound power total
      = m.polynomial env' elapsed bound power total := by
  induction bound generalizing power total with
  | zero => rfl
  | succ bound ih =>
      simp only [polynomial]
      cases found : m.parameter? ["c" ++ Decimal.wholeText power] with
      | none => rfl
      | some e => simp only [magnitude_congr agree found, ih]

/-- The value of a model depends only on what its parameters read. -/
theorem value_congr (m : Model α) (agree : AgreeOn m.roots env env') (time origin : α)
    : m.value env time origin = m.value env' time origin := by
  simp only [value, parameter_congr m agree, polynomial_congr m agree]

end Model

end Prognosis
