import Prognosis.Proofs.Value.Reads

/-! Evaluation where every name has a value and every function is known. It may still stop: a
text may stand for a number, arguments may not fit, or numbers may break down.
-/

namespace Prognosis

variable {σ α β γ : Type}

/-- A name or a function that is asked for is missing. -/
def Halt.IsUnknown : Halt → Prop
  | .error (.unknownName _) => True
  | .error (.unknownFunction _) => True
  | _ => False

/-- What comes out meets the condition; if nothing comes out, nothing unknown is the reason. -/
def Resolves (result : Except Halt β) (post : β → Prop) : Prop :=
  match result with
  | .ok x => post x
  | .error halt => ¬halt.IsUnknown

namespace Resolves

variable {result : Except Halt β} {post : β → Prop}

/-- What stopped the computation is not that something is unknown. -/
theorem reason {halt : Halt} (resolves : Resolves result post) (stopped : result = .error halt)
    : ¬halt.IsUnknown := by
  subst stopped
  exact resolves

/-- What came out meets the condition. -/
theorem holds {x : β} (resolves : Resolves result post) (done : result = .ok x) : post x := by
  subst done
  exact resolves

theorem mono {weaker : β → Prop} (resolves : Resolves result post)
    (implied : ∀ x, post x → weaker x)
    : Resolves result weaker := by
  cases result with
  | ok x => exact implied x resolves
  | error halt => exact resolves

theorem bind {next : β → Except Halt γ} {after : γ → Prop} (resolves : Resolves result post)
    (step : ∀ x, post x → Resolves (next x) after)
    : Resolves (result >>= next) after := by
  cases result with
  | ok x => exact step x resolves
  | error halt => exact resolves

theorem map {f : β → γ} {after : γ → Prop} (resolves : Resolves result fun x => after (f x))
    : Resolves (result.map f) after := by
  cases result with
  | ok x => exact resolves
  | error halt => exact resolves

/-- A row of computations misses nothing when none of them does. -/
theorem mapM {f : β → Except Halt γ} {items : List β}
    (each : ∀ x ∈ items, Resolves (f x) fun _ => True)
    : Resolves (items.mapM f) fun _ => True := by
  induction items with
  | nil => trivial
  | cons first rest ih =>
      rw [List.mapM_cons]
      exact (each first (by simp)).bind fun _ _ =>
        (ih fun x member => each x (List.mem_cons_of_mem _ member)).bind fun _ _ => trivial

/-- Computations with numbers ask for nothing by name. -/
theorem lift (result : Except Fault β) : Resolves (Halt.lift result) fun _ => True := by
  cases result with
  | ok x => trivial
  | error fault => exact id

end Resolves

variable [Scalar α]

namespace Expr

variable {env : Env α}

/-- All functions that the expression calls are known. -/
def CallsKnown (e : Expr α) : Prop :=
  ∀ function positional named span,
    .call function positional named span ∈ e.nodes → Builtin.ofName? function ≠ none

/-- The functions that the expression calls are known, and the names that it reads have values.
-/
structure ResolvedIn (e : Expr α) (env : Env α) : Prop where
  calls : e.CallsKnown
  names : ∀ root ∈ e.roots, env.lookup root ≠ none

omit [Scalar α] in
/-- Parts call and read no more than their expression. -/
theorem ResolvedIn.of_child {e part : Expr α} (resolved : e.ResolvedIn env)
    (child : part ∈ e.children)
    : part.ResolvedIn env := {
  calls := fun function positional named span below =>
    resolved.calls function positional named span (mem_nodes_of_child child below)
  names := fun root read => resolved.names root (mem_roots_of_child child read)
}

/-- Binding of arguments refuses misfits, and rounding may break down. -/
theorem Builtin.call_resolves (function : Builtin) (positional : List α)
    (named : List (String × α))
    : Resolves (function.call positional named) fun _ => True := by
  have refused : Resolves (.error (.error (.badArguments function.name)) : Except Halt α)
      fun _ => True := id
  simp only [Builtin.call]
  cases function.parameters? with
  | none =>
      simp only
      split
      · cases function.ofList? positional with
        | none => exact refused
        | some x => trivial
      · exact refused
  | some parameters =>
      simp only
      cases bindArguments parameters positional named with
      | none => exact refused
      | some slots =>
          simp only [Builtin.ofSlots]
          split
          case h_5 x digits =>
            simp only [roundTo]
            split
            · exact id
            · cases Scalar.truncate? (digits.getD Scalar.zero) with
              | none => exact id
              | some places =>
                  simp only
                  split
                  · exact id
                  · trivial
          case h_8 => exact refused
          all_goals trivial

theorem applyStrict_resolves (op : BinaryOp) (left right : α)
    : Resolves (applyStrict op left right) fun _ => True := by
  cases op with
  | mod =>
      simp only [applyStrict]
      split
      · trivial
      · split
        · exact id
        · trivial
  | _ => trivial

theorem values_resolve {es : List (Expr α)}
    (each : ∀ e ∈ es, Resolves (value env e) fun _ => True)
    : Resolves (values env es) fun _ => True := by
  induction es with
  | nil => trivial
  | cons e rest ih =>
      have first := each e (by simp)
      have others := ih fun other member => each other (List.mem_cons_of_mem _ member)
      simp only [values]
      cases found : value env e with
      | error halt => exact first.reason found
      | ok x =>
          cases more : values env rest with
          | error halt => exact others.reason more
          | ok xs => trivial

theorem namedValues_resolve {named : List (String × Expr α)}
    (each : ∀ e ∈ named.map (·.2), Resolves (value env e) fun _ => True)
    : Resolves (namedValues env named) fun _ => True := by
  induction named with
  | nil => trivial
  | cons entry rest ih =>
      obtain ⟨key, e⟩ := entry
      have first := each e (by simp)
      have others := ih fun other member => each other (List.mem_cons_of_mem _ member)
      simp only [namedValues, entryValue]
      cases found : value env e with
      | error halt => exact first.reason found
      | ok x =>
          cases more : namedValues env rest with
          | error halt => exact others.reason more
          | ok xs => trivial

/-- Evaluation of a resolved expression misses nothing, by induction on its parts. -/
theorem value_resolves (e : Expr α) (resolved : e.ResolvedIn env)
    : Resolves (value env e) fun _ => True := by
  induction e using induction_on_children with
  | step e ih =>
      have parts (part : Expr α) (child : part ∈ e.children)
          : Resolves (value env part) fun _ => True :=
        ih part child (resolved.of_child child)
      cases e with
      | number | percentage | currency | boolean => trivial
      | text s span => exact id
      | name path span =>
          have bound := resolved.names path.root (root_mem_roots_name path span)
          simp only [value]
          cases found : env.lookup path.root with
          | none => exact absurd found bound
          | some x => trivial
      | unary op operand span =>
          have inner := parts operand (by simp [children])
          simp only [value]
          cases found : value env operand with
          | error halt => exact inner.reason found
          | ok x => trivial
      | binary op left right span =>
          have first := parts left (by simp [children])
          have second := parts right (by simp [children])
          simp only [value]
          cases foundLeft : value env left with
          | error halt => exact first.reason foundLeft
          | ok x =>
              simp only
              cases shortcut op x with
              | some result => trivial
              | none =>
                  simp only
                  cases foundRight : value env right with
                  | error halt => exact second.reason foundRight
                  | ok y => exact applyStrict_resolves op x y
      | call function positional named span =>
          have known := resolved.calls function positional named span (self_mem_nodes _)
          have first := values_resolve fun e member =>
            parts e (List.mem_append_left (named.map (·.2)) member)
          have second := namedValues_resolve fun e member =>
            parts e (List.mem_append_right positional member)
          simp only [value]
          cases builtin : Builtin.ofName? function with
          | none => exact absurd builtin known
          | some function =>
              simp only
              cases foundPositional : values env positional with
              | error halt => exact first.reason foundPositional
              | ok xs =>
                  simp only
                  cases foundNamed : namedValues env named with
                  | error halt => exact second.reason foundNamed
                  | ok ys => exact Builtin.call_resolves function xs ys

/-- The same holds of magnitudes, by induction on leading signs. -/
theorem magnitude_resolves (e : Expr α) (resolved : e.ResolvedIn env)
    : Resolves (magnitude env e) fun _ => True := by
  induction e using induction_on_children with
  | step e ih =>
      have whole := value_resolves e resolved
      cases e with
      | unary op operand span =>
          have child : operand ∈ (unary op operand span).children := by simp [children]
          have inner := ih operand child (resolved.of_child child)
          cases op with
          | not => exact whole
          | plus | plusMinus => exact inner
          | minus =>
              simp only [magnitude]
              cases found : magnitude env operand with
              | error halt => exact inner.reason found
              | ok x => trivial
      | percentage => trivial
      | number | currency | text | boolean | name | binary | call => exact whole

theorem magnitudes_resolve (es : List (Expr α)) (resolved : ∀ e ∈ es, e.ResolvedIn env)
    : Resolves (magnitudes env es) fun _ => True := by
  induction es with
  | nil => trivial
  | cons e rest ih =>
      have first := magnitude_resolves e (resolved e (by simp))
      have others := ih fun other member => resolved other (List.mem_cons_of_mem _ member)
      simp only [magnitudes]
      cases found : magnitude env e with
      | error halt => exact first.reason found
      | ok x =>
          cases more : magnitudes env rest with
          | error halt => exact others.reason more
          | ok xs => trivial

end Expr

/-! ### Distributions and models -/

theorem Distribution.draw_resolves (source : RandomSource σ α) (d : Distribution α) (base : α)
    {env : Env α} (resolved : ∀ e ∈ d.expressions, e.ResolvedIn env) (s : σ)
    : Resolves (d.draw source base env s) fun _ => True := by
  simp only [draw, parameterValues]
  cases complete : d.arguments.mapM id with
  | none => trivial
  | some parameters =>
      have given := Expr.magnitudes_resolve parameters fun e member =>
        resolved e (mem_expressions_of_argument (mem_of_mapM_id complete member))
      simp only [Option.map_some]
      cases found : Expr.magnitudes env parameters with
      | error halt => exact given.reason found
      | ok values => exact Resolves.lift _

namespace Model

variable {env : Env α} {m : Model α}

theorem magnitude_resolves {names : List String} {e : Expr α}
    (resolved : ∀ entry ∈ m.parameters, entry.2.ResolvedIn env)
    (found : m.parameter? names = some e)
    : Resolves (e.magnitude env) fun _ => True := by
  obtain ⟨key, member⟩ := mem_parameters_of_parameter found
  exact Expr.magnitude_resolves e (resolved (key, e) member)

theorem parameter_resolves (resolved : ∀ entry ∈ m.parameters, entry.2.ResolvedIn env)
    (names : List String) (otherwise : α)
    : Resolves (m.parameter env names otherwise) fun _ => True := by
  simp only [parameter]
  cases found : m.parameter? names with
  | none => trivial
  | some e => exact magnitude_resolves resolved found

theorem polynomial_resolves (resolved : ∀ entry ∈ m.parameters, entry.2.ResolvedIn env)
    (elapsed : α) (bound power : Nat) (total : α)
    : Resolves (m.polynomial env elapsed bound power total) fun _ => True := by
  induction bound generalizing power total with
  | zero => trivial
  | succ bound ih =>
      simp only [polynomial]
      cases found : m.parameter? ["c" ++ Decimal.wholeText power] with
      | none => trivial
      | some e =>
          have coefficient := magnitude_resolves resolved found
          simp only
          cases given : e.magnitude env with
          | error halt => exact coefficient.reason given
          | ok x =>
              simp only
              cases wholePower elapsed power with
              | error fault => exact id
              | ok factor => exact ih _ _

theorem value_resolves (resolved : ∀ entry ∈ m.parameters, entry.2.ResolvedIn env)
    (time origin : α)
    : Resolves (m.value env time origin) fun _ => True := by
  have given := parameter_resolves resolved
  cases kind : m.kind with
  | linear | exponential | sigmoid =>
      simp only [value, kind]
      exact (given _ _).bind fun _ _ => (given _ _).bind fun _ _ => trivial
  | logistic =>
      simp only [value, kind]
      exact (given _ _).bind fun _ _ => (given _ _).bind fun _ _ =>
        (given _ _).bind fun _ _ => trivial
  | polynomial =>
      simp only [value, kind]
      exact polynomial_resolves resolved _ _ _ _
  | spline =>
      simp only [value, kind]
      trivial

end Model

end Prognosis
