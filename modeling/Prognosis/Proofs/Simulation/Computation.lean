import Prognosis.Proofs.Simulation.Sweep

/-! The draws of constants and the computation of a point in time as sweeps. Functions through
anchors that are remembered are those that would be built anew.
-/

namespace Prognosis

variable {σ α : Type} [Scalar α]

namespace RunState

-----------------------------------------------------------------------------------------
-- Streams of a state
-----------------------------------------------------------------------------------------

omit [Scalar α] in
/-- The stream of a name as it stands: where nothing was drawn from it, as it is opened. -/
def streamAt (opened : String → σ) (state : RunState σ α) (stream : String) : σ :=
  (state.streams.lookup stream).getD (opened stream)

variable {opened : String → σ} {state : RunState σ α}

omit [Scalar α] in
/-- Keeping a stream moves it and no other one. -/
theorem streamAt_put (state : RunState σ α) (stream : String) (s : σ)
    : streamAt opened { state with streams := state.streams.put stream s }
      = Function.update (state.streamAt opened) stream s := by
  funext other
  by_cases same : other = stream
  · subst same
    simp [streamAt, Entries.lookup_put_self]
  · simp [streamAt, Entries.lookup_put_of_ne s state.streams same, same]

/-- Apart from streams and remembered functions the states are the same. -/
structure SameSetting (a b : RunState σ α) : Prop where
  inForce : b.inForce = a.inForce
  constants : b.constants = a.constants
  decided : b.decided = a.decided
  activated : b.activated = a.activated

omit [Scalar α] in
theorem SameSetting.trans {a b c : RunState σ α} (first : SameSetting a b)
    (second : SameSetting b c)
    : SameSetting a c :=
  ⟨second.inForce.trans first.inForce, second.constants.trans first.constants,
    second.decided.trans first.decided, second.activated.trans first.activated⟩

omit [Scalar α] in
/-- A draw starts where the stream stands. -/
theorem drawFrom_eq (state : RunState σ α) (stream : String) (draw : σ → Except Halt (α × σ))
    : state.drawFrom opened stream draw
      = (draw (state.streamAt opened stream)).map fun (x, s) =>
          (x, { state with streams := state.streams.put stream s }) := by
  simp only [drawFrom, streamAt]
  cases draw ((state.streams.lookup stream).getD (opened stream)) with
  | error halt => rfl
  | ok result => rfl

-----------------------------------------------------------------------------------------
-- Draws of constants
-----------------------------------------------------------------------------------------

/-- A drawn constant moves its stream and joins the constants. -/
theorem drawConstant_eq (source : RandomSource σ α) (pins : Env α) (state : RunState σ α)
    (stream : String) (q : Quantity α)
    : state.drawConstant source opened pins stream q
      = (q.drawConstant source pins state.constants (state.streamAt opened stream)).map
          fun (x, s) => {
            state with
            streams := state.streams.put stream s
            constants := (q.name, x) :: state.constants
          } := by
  simp only [drawConstant, drawFrom_eq]
  cases q.drawConstant source pins state.constants (state.streamAt opened stream) with
  | error halt => rfl
  | ok result => rfl

/-- The cell of a constant in the state before time runs. -/
def constantCell (source : RandomSource σ α) (pins : Env α) (q : Quantity α) : Cell σ α := {
  name := q.name
  stream := q.name
  reads := q.constantRoots
  draw := q.drawConstant source pins
  draw_congr := q.drawConstant_congr source rfl
}

/-- Drawing constants is a sweep over their cells, by induction along the declarations. -/
theorem drawConstants_sweep (source : RandomSource σ α) (opened : String → σ) (pins : Env α)
    (state : RunState σ α) (qs : List (Quantity α))
    : (state.drawConstants source opened pins qs).map
          (fun ended => (ended.constants, ended.streamAt opened))
        = sweep (qs.map (constantCell source pins)) state.constants
            (state.streamAt opened) := by
  induction qs generalizing state with
  | nil => rfl
  | cons q rest ih =>
      simp only [drawConstants, drawConstant_eq, List.map_cons, sweep]
      have same : (constantCell source pins q).draw state.constants
            (state.streamAt opened (constantCell source pins q).stream)
          = q.drawConstant source pins state.constants (state.streamAt opened q.name) := rfl
      rw [same]
      cases q.drawConstant source pins state.constants (state.streamAt opened q.name) with
      | error halt => rfl
      | ok result =>
          obtain ⟨x, s⟩ := result
          refine (ih _).trans ?_
          exact congrArg (sweep _ _) (streamAt_put state q.name s)

/-- Drawing constants leaves all else as it was. -/
theorem drawConstants_frame {source : RandomSource σ α} {pins : Env α} {qs : List (Quantity α)}
    {state ended : RunState σ α}
    (drawn : state.drawConstants source opened pins qs = .ok ended)
    : ended.inForce = state.inForce ∧ ended.interpolants = state.interpolants
      ∧ ended.decided = state.decided ∧ ended.activated = state.activated := by
  induction qs generalizing state with
  | nil =>
      cases drawn
      exact ⟨rfl, rfl, rfl, rfl⟩
  | cons q rest ih =>
      simp only [drawConstants, drawConstant_eq] at drawn
      cases first : q.drawConstant source pins state.constants (state.streamAt opened q.name) with
      | error halt => simp [first, Except.map] at drawn
      | ok result =>
          simp only [first, Except.map] at drawn
          have frame := ih drawn
          exact frame

-----------------------------------------------------------------------------------------
-- Functions through anchors
-----------------------------------------------------------------------------------------

/-- Declarations in force stand under their names. A function that is remembered for one is
the one that its anchors and the constants would give now.
-/
structure Coherent (state : RunState σ α) : Prop where
  named
    : ∀ name current, state.inForce.lookup name = some current
        → current.declaration.name = name
  remembered
    : ∀ name f, state.interpolants.lookup name = some f
        → ∀ v stream, state.inForce.lookup name = some ⟨.varying v, stream⟩
          → v.interpolant state.constants = .ok f

variable {current : InForce α} {name : String}

/-- What is computed with the functions remembered is what is computed without: the same value,
or the same halt. Only functions of the right name are added.
-/
structure Remembers (state : RunState σ α) (v : Variable α) (ended : RunState σ α) : Prop where
  streams : ended.streams = state.streams
  setting : SameSetting state ended
  added
    : ∀ name f, ended.interpolants.lookup name = some f
        → state.interpolants.lookup name = some f
          ∨ name = v.name ∧ v.interpolant state.constants = .ok f

/-- A base is the one that the declaration gives by itself, whether or not its function is
remembered. The state that is left may remember that function.
-/
theorem variableBase_cases (coherent : state.Coherent) (v : Variable α) (stream : String)
    (found : state.inForce.lookup v.name = some ⟨.varying v, stream⟩) (env : Env α)
    (time origin : α)
    : (∃ halt, v.baseAt state.constants env time origin = .error halt
        ∧ state.variableBase v env time origin = .error halt)
      ∨ ∃ base ended, v.baseAt state.constants env time origin = .ok base
          ∧ state.variableBase v env time origin = .ok (base, ended)
          ∧ Remembers state v ended := by
  have unchanged : Remembers state v state :=
    ⟨rfl, ⟨rfl, rfl, rfl, rfl⟩, fun _ _ known => Or.inl known⟩
  cases anchors : v.anchors with
  | cons first rest =>
      simp only [Variable.baseAt, variableBase, anchors, anchoredValue]
      cases cached : state.interpolants.lookup v.name with
      | some f =>
          have built := coherent.remembered v.name f cached v stream found
          exact Or.inr ⟨f.value time, state, by rw [built]; rfl, rfl, unchanged⟩
      | none =>
          cases built : v.interpolant state.constants with
          | error halt => exact Or.inl ⟨halt, rfl, rfl⟩
          | ok f =>
              refine Or.inr ⟨f.value time, _, rfl, rfl, rfl, ⟨rfl, rfl, rfl, rfl⟩, ?_⟩
              intro name g known
              by_cases same : name = v.name
              · subst same
                rw [Entries.lookup_put_self] at known
                exact Or.inr ⟨rfl, built.trans (congrArg _ (Option.some.inj known))⟩
              · rw [Entries.lookup_put_of_ne f state.interpolants same] at known
                exact Or.inl known
  | nil =>
      simp only [Variable.baseAt, variableBase, anchors]
      cases v.model with
      | none => exact Or.inr ⟨Scalar.zero, state, rfl, rfl, unchanged⟩
      | some m =>
          cases valued : m.value env time origin with
          | error halt => exact Or.inl ⟨halt, valued, by simp [valued, Except.map]⟩
          | ok x => exact Or.inr ⟨x, state, valued, by simp [valued, Except.map], unchanged⟩

/-- A state that remembers one more right function stays coherent. -/
theorem Coherent.of_remembers (coherent : state.Coherent) {v : Variable α} {stream : String}
    (found : state.inForce.lookup v.name = some ⟨.varying v, stream⟩)
    {ended : RunState σ α} (remembers : Remembers state v ended)
    : ended.Coherent := {
  named := by
    rw [remembers.setting.inForce]
    exact coherent.named
  remembered := by
    intro name f known w stream' holds
    rw [remembers.setting.inForce] at holds
    rw [remembers.setting.constants]
    rcases remembers.added name f known with old | ⟨rfl, built⟩
    · exact coherent.remembered name f old w stream' holds
    · rw [found] at holds
      cases holds
      exact built
}

-----------------------------------------------------------------------------------------
-- Computation of a point in time
-----------------------------------------------------------------------------------------

/-- The value of a declaration in force is the one that it gives by itself. Its stream moves as
that value is drawn, and all else but remembered functions stays.
-/
theorem quantityValue_cases (source : RandomSource σ α) (opened : String → σ)
    (coherent : state.Coherent)
    (found : state.inForce.lookup name = some current) (env : Env α) (time origin : α)
    : (∃ halt,
          current.declaration.valueAt source state.constants time origin env
              (state.streamAt opened current.stream)
            = .error halt
          ∧ state.quantityValue source opened current env time origin = .error halt)
      ∨ ∃ x s ended,
          current.declaration.valueAt source state.constants time origin env
              (state.streamAt opened current.stream)
            = .ok (x, s)
          ∧ state.quantityValue source opened current env time origin = .ok (x, ended)
          ∧ ended.streamAt opened = Function.update (state.streamAt opened) current.stream s
          ∧ SameSetting state ended
          ∧ ended.Coherent := by
  have still : state.streamAt opened
      = Function.update (state.streamAt opened) current.stream
          (state.streamAt opened current.stream) :=
    (Function.update_eq_self _ _).symm
  have same : SameSetting state state := ⟨rfl, rfl, rfl, rfl⟩
  obtain ⟨declaration, stream⟩ := current
  cases declaration with
  | assumption a =>
      exact Or.inr ⟨Scalar.zero, _, state, rfl, rfl, still, same, coherent⟩
  | parameter p =>
      exact Or.inr ⟨Scalar.zero, _, state, rfl, rfl, still, same, coherent⟩
  | impact i =>
      simp only [Quantity.valueAt, quantityValue]
      cases i.value env with
      | error halt => exact Or.inl ⟨halt, rfl, rfl⟩
      | ok x => exact Or.inr ⟨x, _, state, rfl, rfl, still, same, coherent⟩
  | varying v =>
      have named : v.name = name := coherent.named name _ found
      subst named
      simp only [Quantity.valueAt, quantityValue]
      rcases variableBase_cases coherent v stream found env time origin with
        ⟨halt, pure, based⟩ | ⟨base, ended, pure, based, remembers⟩
      · exact Or.inl ⟨halt, by rw [pure], by rw [based]⟩
      · have left := coherent.of_remembers found remembers
        have streams : ended.streamAt opened = state.streamAt opened := by
          funext other
          simp only [streamAt, remembers.streams]
        simp only [pure, based]
        cases v.uncertainty with
        | none => exact Or.inr ⟨base, _, ended, rfl, rfl, streams.trans still,
            remembers.setting, left⟩
        | some d =>
            simp only [drawAround, drawFrom_eq, streams]
            cases d.draw source base env (state.streamAt opened stream) with
            | error halt => exact Or.inl ⟨halt, rfl, rfl⟩
            | ok result =>
                obtain ⟨x, s⟩ := result
                refine Or.inr ⟨x, s, _, rfl, rfl, ?_, ?_, ?_⟩
                · rw [streamAt_put, streams]
                · exact remembers.setting.trans ⟨rfl, rfl, rfl, rfl⟩
                · exact ⟨left.named, left.remembered⟩

/-- The cell of a declaration in force at a point in time. -/
def timedCell (source : RandomSource σ α) (constants : Env α) (time origin : α)
    (name : String) (current : InForce α) : Cell σ α := {
  name := name
  stream := current.stream
  reads := current.declaration.timedRoots
  draw := current.declaration.valueAt source constants time origin
  draw_congr := current.declaration.valueAt_congr source time origin fun _ _ => rfl
}

/-- The cells of names that have a declaration in force, in the order of the names. -/
def cells (source : RandomSource σ α) (state : RunState σ α) (time origin : α)
    (order : List String) : List (Cell σ α) :=
  order.filterMap fun name =>
    (state.inForce.lookup name).map (timedCell source state.constants time origin name)

omit state in
/-- Computing names in order is a sweep over their cells, by induction along the names. -/
theorem computeAll_sweep (source : RandomSource σ α) (opened : String → σ) {state : RunState σ α}
    (coherent : state.Coherent) (time origin : α) (order : List String) (env : Env α)
    : (state.computeAll source opened time origin order env).map
          (fun (values, ended) => (values, ended.streamAt opened))
        = sweep (state.cells source time origin order) env (state.streamAt opened) := by
  induction order generalizing state env with
  | nil => rfl
  | cons name rest ih =>
      cases found : state.inForce.lookup name with
      | none =>
          have cells : state.cells source time origin (name :: rest)
              = state.cells source time origin rest := by
            simp [RunState.cells, found]
          rw [cells, ← ih coherent]
          simp only [computeAll, found]
      | some current =>
          have cells : state.cells source time origin (name :: rest)
              = timedCell source state.constants time origin name current
                :: state.cells source time origin rest := by
            simp [RunState.cells, found]
          rw [cells]
          simp only [computeAll, found, sweep, timedCell]
          rcases quantityValue_cases source opened coherent found env time origin
            with ⟨halt, pure, computed⟩ | ⟨x, s, ended, pure, computed, streams, setting, left⟩
          · simp only [pure, computed]
            rfl
          · simp only [pure, computed]
            have later : ended.cells source time origin rest
                = state.cells source time origin rest := by
              simp only [RunState.cells, setting.inForce, setting.constants]
            rw [ih left, later, streams]

omit state in
/-- Computing names changes neither declarations nor constants nor what is known of branches,
by induction along the names.
-/
theorem computeAll_frame {source : RandomSource σ α} {state ended : RunState σ α}
    (coherent : state.Coherent) {time origin : α} {order : List String} {env values : Env α}
    (computed : state.computeAll source opened time origin order env = .ok (values, ended))
    : SameSetting state ended ∧ ended.Coherent := by
  induction order generalizing state env with
  | nil =>
      cases computed
      exact ⟨⟨rfl, rfl, rfl, rfl⟩, coherent⟩
  | cons name rest ih =>
      simp only [computeAll] at computed
      cases found : state.inForce.lookup name with
      | none =>
          simp only [found] at computed
          exact ih coherent computed
      | some current =>
          simp only [found] at computed
          rcases quantityValue_cases source opened coherent found env time origin
            with ⟨halt, -, valued⟩ | ⟨x, s, next, -, valued, -, setting, left⟩
          · simp [valued] at computed
          · simp only [valued] at computed
            obtain ⟨others, coherentEnd⟩ := ih left computed
            exact ⟨setting.trans others, coherentEnd⟩

end RunState

end Prognosis
