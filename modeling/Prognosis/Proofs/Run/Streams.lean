import Prognosis.Proofs.Run.Whole
import Prognosis.Proofs.Simulation.Looks
import Prognosis.Random.Stream

/-! Random quantities and the texts of their streams. Two quantities share a stream only where the
slash in the name of a branch makes the stream of its gate that of a declaration inside another
branch.
-/

namespace Prognosis

open RunState

-----------------------------------------------------------------------------------------
-- Texts of streams
-----------------------------------------------------------------------------------------

theorem toList_signedText (n : Int)
    : (Decimal.signedText n).toList
      = if n < 0 then '-' :: Nat.toDigits 10 n.natAbs else Nat.toDigits 10 n.natAbs := by
  unfold Decimal.signedText Decimal.wholeText
  split <;> simp

/-- A whole number is written without colons. -/
theorem signedText_no_colon (n : Int) : ':' ∉ (Decimal.signedText n).toList := by
  have digits : ':' ∉ Nat.toDigits 10 n.natAbs := fun member =>
    absurd (Nat.isDigit_of_mem_toDigits (by decide) (by decide) member) (by decide)
  rw [toList_signedText]
  split
  · simpa using digits
  · exact digits

/-- Whole numbers are told apart by their texts. The cases are the signs. -/
theorem signedText_inj {m n : Int} (same : Decimal.signedText m = Decimal.signedText n)
    : m = n := by
  have lists := congrArg String.toList same
  rw [toList_signedText, toList_signedText] at lists
  have size {a b : Nat} (digits : Nat.toDigits 10 a = Nat.toDigits 10 b) : a = b := by
    rw [← Nat.ofDigitChars_ten_toDigits (n := a), digits, Nat.ofDigitChars_ten_toDigits]
  have unsigned (a b : Nat) : '-' :: Nat.toDigits 10 a ≠ Nat.toDigits 10 b := by
    intro digits
    have member : '-' ∈ Nat.toDigits 10 b := digits ▸ List.mem_cons_self
    exact absurd (Nat.isDigit_of_mem_toDigits (by decide) (by decide) member) (by decide)
  split at lists <;> split at lists
  · have := size (List.cons.inj lists).2
    omega
  · exact absurd lists (unsigned _ _)
  · exact absurd lists.symm (unsigned _ _)
  · have := size lists
    omega

/-- The text of a stream determines the seed, the run and the name. -/
theorem streamText_inj {seed seed' run run' : Int} {name name' : String}
    (same : streamText seed run name = streamText seed' run' name')
    : seed = seed' ∧ run = run' ∧ name = name' := by
  have lists := congrArg String.toList same
  simp only [streamText, String.toList_append, List.append_assoc] at lists
  obtain ⟨seeds, rest⟩ := before_sign_inj (signedText_no_colon seed) (signedText_no_colon seed')
    lists
  obtain ⟨runs, names⟩ := before_sign_inj (signedText_no_colon run) (signedText_no_colon run')
    rest
  exact ⟨signedText_inj (String.toList_inj.mp seeds), signedText_inj (String.toList_inj.mp runs),
    String.toList_inj.mp names⟩

/-- The stream of a gate is that of a declaration inside a branch exactly where the slash between
branch and name stands in the name of the gate's branch.
-/
theorem gate_eq_override_iff {gate branch name : String}
    : gateStream gate = overrideStream branch name
      ↔ ∃ rest, gate = rest ++ "/" ++ name ∧ branch = gateStream rest := by
  constructor
  · intro same
    have lists := congrArg String.toList same
    rw [toList_gateStream, toList_overrideStream] at lists
    rcases List.append_eq_append_iff.mp lists with ⟨rest, left, right⟩ | ⟨rest, left, right⟩
    · refine ⟨String.ofList rest, String.toList_inj.mp ?_, String.toList_inj.mp ?_⟩
      · simp [right]
      · simp [toList_gateStream, left]
    · cases rest with
      | nil =>
          refine ⟨"", String.toList_inj.mp ?_, String.toList_inj.mp ?_⟩
          · simpa using right.symm
          · simpa [toList_gateStream] using left.symm
      | cons c rest =>
          obtain ⟨rfl, -⟩ := List.cons.inj right
          have slash : '/' ∈ "branch:".toList := by simp [left]
          exact absurd slash (by decide)
  · rintro ⟨rest, rfl, rfl⟩
    simp [gateStream, overrideStream, String.append_assoc]

-----------------------------------------------------------------------------------------
-- Random quantities
-----------------------------------------------------------------------------------------

variable {σ α : Type}

/-- What is drawn at random: a declared value, the gate of a branch, or a value that a branch
declares anew.
-/
inductive RandomQuantity (α : Type) where
  | own (q : Quantity α)
  | gate (b : Branch α)
  | override (b : Branch α) (name : String)

namespace RandomQuantity

/-- Name of the stream that the quantity draws from. -/
def stream : RandomQuantity α → String
  | own q => q.name
  | gate b => gateStream b.name
  | override b name => overrideStream b.name name

/-- A gate meets a value that a branch declares anew: the name of its branch is the name of that
value behind a slash, and the other branch is named like the stream of a gate.
-/
def Meets : RandomQuantity α → RandomQuantity α → Prop
  | gate b, override other name =>
      ∃ rest, b.name = rest ++ "/" ++ name ∧ other.name = gateStream rest
  | _, _ => False

end RandomQuantity

variable [Scalar α]

/-- The random quantities of a scenario: all but impacts, which are never drawn. -/
inductive Scenario.Draws (s : Scenario α) : RandomQuantity α → Prop
  | own {q} (member : q ∈ s.quantities) (random : q.kind ≠ .impact) : s.Draws (.own q)
  | gate {b} (branch : b ∈ s.branches) : s.Draws (.gate b)
  | override {b q} (branch : b ∈ s.branches) (member : q ∈ b.overrides)
    (replaces : (Symbols.ofScenario s).isOverride q = true) (random : q.kind ≠ .impact)
    : s.Draws (.override b q.name)

namespace Scenario

variable {s : Scenario α} {graph : CausalGraph}

/-- A value that a branch declares anew has a word for its name. -/
theorem Accepted.isWord_of_isOverride (accepted : s.Accepted graph) (words : s.WordNames)
    {q : Quantity α} (replaces : (Symbols.ofScenario s).isOverride q = true)
    : IsWord q.name := by
  have taken : (Plan.ofScenario s [] [] 0 []).Replaces q := accepted.replaces_of_isOverride replaces
  obtain ⟨owner, owns, named, -⟩ := taken
  rw [accepted.owners_eq] at owns
  exact named ▸ words owner owns

/-- The streams of two random quantities are one exactly where the quantities are one, or one of
them is a gate that meets the other one. The cases are the kinds of the two.
-/
theorem Accepted.stream_eq_iff (accepted : s.Accepted graph) (words : s.WordNames)
    {one other : RandomQuantity α} (drawn : s.Draws one) (drawnOther : s.Draws other)
    : one.stream = other.stream ↔ one = other ∨ one.Meets other ∨ other.Meets one := by
  constructor
  · intro same
    cases drawn with
    | @own q member random =>
        have word := words q member
        cases drawnOther with
        | @own q' member' random' =>
            exact Or.inl (congrArg _ (List.inj_on_of_nodup_map accepted.quantities_distinct
              member member' same))
        | gate => exact absurd same (own_ne_gate word)
        | override => exact absurd same (own_ne_override word)
    | @gate b branch =>
        cases drawnOther with
        | @own q' member' random' => exact absurd same.symm (own_ne_gate (words q' member'))
        | @gate b' branch' =>
            exact Or.inl (congrArg _ (accepted.branch_unique branch branch'
              (branch_eq_of_gate same)))
        | override => exact Or.inr (Or.inl (gate_eq_override_iff.mp same))
    | @override b q branch member replaces random =>
        have word := accepted.isWord_of_isOverride words replaces
        cases drawnOther with
        | @own q' member' random' => exact absurd same.symm (own_ne_override (words q' member'))
        | gate => exact Or.inr (Or.inr (gate_eq_override_iff.mp same.symm))
        | @override b' q' branch' member' replaces' random' =>
            have names := name_eq_of_override word
              (accepted.isWord_of_isOverride words replaces') same
            have branches : b.name = b'.name := by
              have lists := congrArg String.toList same
              simp only [RandomQuantity.stream, toList_overrideStream, names] at lists
              exact String.toList_inj.mp (List.append_cancel_right lists)
            rw [accepted.branch_unique branch branch' branches, names]
            exact Or.inl rfl
  · rintro (rfl | meets | meets)
    · rfl
    · cases drawn <;> cases drawnOther <;>
        first | exact gate_eq_override_iff.mpr meets | cases meets
    · cases drawn <;> cases drawnOther <;>
        first | exact (gate_eq_override_iff.mpr meets).symm | cases meets

end Scenario

-----------------------------------------------------------------------------------------
-- Streams that a run draws from
-----------------------------------------------------------------------------------------

/-- The streams of what may be in force and is drawn, and of the gates of branches. -/
inductive Plan.DrawsFrom (plan : Plan α) : String → Prop
  | value {current : InForce α} (held : plan.MayHold current)
    (random : current.declaration.kind ≠ .impact) : plan.DrawsFrom current.stream
  | gate {b} (branch : b ∈ plan.branches) : plan.DrawsFrom (gateStream b.name)

namespace RunState

variable {plan : Plan α} {source : RandomSource σ α} {opened : String → σ}
  {state ended : RunState σ α}

/-- Nothing was drawn but from these streams. -/
def DrewFrom (plan : Plan α) (state : RunState σ α) : Prop :=
  ∀ stream s, state.streams.lookup stream = some s → plan.DrawsFrom stream

omit [Scalar α] in
theorem DrewFrom.of_streams (drew : DrewFrom plan state) (same : ended.streams = state.streams)
    : DrewFrom plan ended := by
  unfold DrewFrom
  rw [same]
  exact drew

omit [Scalar α] in
theorem DrewFrom.of_put (drew : DrewFrom plan state) {stream : String} {s : σ}
    (drawn : plan.DrawsFrom stream) (put : ended.streams = state.streams.put stream s)
    : DrewFrom plan ended := by
  intro other t found
  rw [put] at found
  by_cases same : other = stream
  · exact same ▸ drawn
  · rw [Entries.lookup_put_of_ne s _ same] at found
    exact drew other t found

/-- Constants draw from their own streams, by induction along them. -/
theorem DrewFrom.drawConstants {pins : Env α} {qs : List (Quantity α)}
    (own : ∀ q ∈ qs, plan.DrawsFrom q.name) (drew : DrewFrom plan state)
    (drawn : state.drawConstants source opened pins qs = .ok ended)
    : DrewFrom plan ended := by
  induction qs generalizing state with
  | nil =>
      cases drawn
      exact drew
  | cons q rest ih =>
      simp only [RunState.drawConstants, drawConstant_eq] at drawn
      cases first : q.drawConstant source pins state.constants (state.streamAt opened q.name) with
      | error halt => simp [first, Except.map] at drawn
      | ok result =>
          simp only [first, Except.map] at drawn
          exact ih (fun other member => own other (List.mem_cons_of_mem _ member))
            (drew.of_put (own q List.mem_cons_self) rfl) drawn

/-- A base is found without a draw. -/
theorem variableBase_streams {v : Variable α} {env : Env α} {time origin base : α}
    (based : state.variableBase v env time origin = .ok (base, ended))
    : ended.streams = state.streams := by
  unfold variableBase at based
  split at based
  case h_1 =>
      unfold anchoredValue at based
      split at based
      case h_1 =>
          cases based
          rfl
      case h_2 =>
          split at based <;> cases based
          rfl
  case h_2 m =>
      obtain ⟨x, -, same⟩ := exists_of_map_eq_ok based
      cases same
      rfl
  case h_3 =>
      cases based
      rfl

/-- A value draws from the stream of its declaration or from none. -/
theorem DrewFrom.quantityValue (drew : DrewFrom plan state) {current : InForce α}
    (held : plan.MayHold current) {env : Env α} {time origin x : α}
    (valued : state.quantityValue source opened current env time origin = .ok (x, ended))
    : DrewFrom plan ended := by
  obtain ⟨declaration, stream⟩ := current
  cases declaration with
  | assumption a | parameter p =>
      cases valued
      exact drew
  | impact i =>
      obtain ⟨y, -, same⟩ := exists_of_map_eq_ok valued
      cases same
      exact drew
  | varying v =>
      simp only [RunState.quantityValue] at valued
      cases based : state.variableBase v env time origin with
      | error halt => simp [based] at valued
      | ok result =>
          obtain ⟨base, next⟩ := result
          have streams := variableBase_streams based
          simp only [based] at valued
          cases spread : v.uncertainty with
          | none =>
              rw [spread] at valued
              cases valued
              exact drew.of_streams streams
          | some d =>
              simp only [spread, drawFrom_eq] at valued
              obtain ⟨⟨y, s⟩, -, same⟩ := exists_of_map_eq_ok valued
              cases same
              exact (drew.of_streams streams).of_put (.value held (by simp [Quantity.kind])) rfl

/-- So do all values of a point in time, by induction along the names. -/
theorem DrewFrom.computeAll (coherent : state.Coherent)
    (held : ∀ name current, state.inForce.lookup name = some current → plan.MayHold current)
    (drew : DrewFrom plan state) {time origin : α} {order : List String} {env values : Env α}
    (computed : state.computeAll source opened time origin order env = .ok (values, ended))
    : DrewFrom plan ended := by
  induction order generalizing state env with
  | nil =>
      cases computed
      exact drew
  | cons name rest ih =>
      simp only [RunState.computeAll] at computed
      cases found : state.inForce.lookup name with
      | none =>
          simp only [found] at computed
          exact ih coherent held drew computed
      | some current =>
          simp only [found] at computed
          rcases quantityValue_cases source opened coherent found env time origin
            with ⟨halt, -, valued⟩ | ⟨x, s, next, -, valued, -, setting, left⟩
          · simp [valued] at computed
          · simp only [valued] at computed
            exact ih left (setting.inForce.symm ▸ held) (drew.quantityValue (held _ _ found) valued)
              computed

/-- A declaration of a branch draws from its own stream or from none. -/
theorem DrewFrom.override (valid : Valid plan state) (drew : DrewFrom plan state) {pins : Env α}
    {b : Branch α} (branch : b ∈ plan.branches) {nested : Quantity α}
    (member : nested ∈ b.overrides)
    (done : RunState.override source opened pins b.name state nested = .ok ended)
    : DrewFrom plan ended := by
  rcases override_cases source opened pins b.name state nested with
    ⟨-, same⟩ | ⟨current, found, kind, ⟨-, same⟩ | ⟨constant, same⟩⟩
  · rw [same] at done
    cases done
    exact drew
  · rw [same] at done
    cases done
    exact drew.of_streams rfl
  · rw [same] at done
    obtain ⟨⟨x, s⟩, -, is⟩ := exists_of_map_eq_ok done
    cases is
    have random : nested.kind ≠ .impact := by
      intro impact
      simp [Quantity.isConstant, impact] at constant
    exact drew.of_put (.value (.override branch member (valid.replaces found kind)) random) rfl

/-- So do several of them, by induction along the declarations. -/
theorem DrewFrom.overrideAll (sound : plan.Sound) {b : Branch α} (branch : b ∈ plan.branches)
    {nested : List (Quantity α)} (included : ∀ q ∈ nested, q ∈ b.overrides)
    (valid : Valid plan state) (drew : DrewFrom plan state)
    (done : RunState.overrideAll source opened plan.pins b.name state nested = .ok ended)
    : DrewFrom plan ended := by
  induction nested generalizing state with
  | nil =>
      cases done
      exact drew
  | cons q rest ih =>
      obtain ⟨middle, first, more⟩ := overrideAll_cons_ok done
      have member := included q List.mem_cons_self
      exact ih (fun other later => included other (List.mem_cons_of_mem _ later))
        ((override_resolves valid sound source opened branch member).holds first)
        (drew.override valid branch member first) more

/-- A look at a branch draws from the gate, and from the streams of what the branch declares. -/
theorem DrewFrom.decide (sound : plan.Sound) {env : Env α} {b : Branch α}
    (branch : b ∈ plan.branches) (valid : Valid plan state) (drew : DrewFrom plan state)
    (done : RunState.decide source opened plan.pins env state b = .ok ended)
    : DrewFrom plan ended := by
  have gated : DrewFrom plan (state.gated source opened b.name) := drew.of_put (.gate branch) rfl
  cases decide_looked done with
  | known | waiting => exact drew
  | refused => exact gated
  | taken fresh holds below replaced =>
      have taken : DrewFrom plan ((state.gated source opened b.name).taking b.name) := gated
      exact taken.overrideAll sound branch (fun _ member => member)
        ((valid.gated source opened b.name).taking b.name) replaced

end RunState

namespace Plan

variable {plan : Plan α} {source : RandomSource σ α} {opened : String → σ}
  {state ended : RunState σ α}

theorem moment_drewFrom (sound : plan.Sound) {time : α} {m : Moment σ α}
    (valid : Valid plan state) (drew : DrewFrom plan state)
    (passed : plan.moment source opened time state = .ok m)
    : DrewFrom plan m.left := by
  obtain ⟨-, -, computed, looked⟩ := moment_ok passed
  obtain ⟨owned, -, validNext, -, -⟩ := moment_valid sound valid passed
  have drewNext := drew.computeAll valid.coherent valid.held computed
  exact (lookAll_induction (P := fun state => Valid plan state ∧ DrewFrom plan state)
    (fun branch both done =>
      ⟨(decide_resolves both.1 sound source opened owned branch).holds done,
        both.2.decide sound branch both.1 done⟩)
    ⟨validNext, drewNext⟩ looked).2.2

/-- A run draws from the streams of what may be in force and of gates, and from no other. -/
theorem Sound.history_drewFrom (sound : plan.Sound) {number : Nat} {moments : List (Moment σ α)}
    (happened : plan.history source number = .ok (moments, ended))
    : DrewFrom plan ended := by
  obtain ⟨drawn, draws, passed⟩ := history_ok happened
  have valid := (drawConstants_resolves sound source (source.stream plan.seed number)).holds draws
  have own : ∀ q ∈ plan.constants, plan.DrawsFrom q.name := by
    intro q member
    obtain ⟨owns, constant⟩ := List.mem_filter.mp member
    refine .value (.owner owns) fun impact => ?_
    simp [Quantity.isConstant, impact] at constant
  have drew : DrewFrom plan (RunState.start plan : RunState σ α) := by
    intro stream s found
    cases found
  exact (moments_induction (P := fun state => Valid plan state ∧ DrewFrom plan state)
    (fun both passed => ⟨(moment_valid sound both.1 passed).2.2.2.2,
      moment_drewFrom sound both.1 both.2 passed⟩)
    ⟨valid, drew.drawConstants own draws⟩ passed).2.2

end Plan

namespace Scenario

variable {s : Scenario α} {graph : CausalGraph}

/-- The streams of a plan are those of the random quantities of its scenario. -/
theorem Accepted.draws_of_drawsFrom (accepted : s.Accepted graph) {order : List String}
    {times : List α} {seed : Int} {pins : Env α} {stream : String}
    (drawn : (Plan.ofScenario s order times seed pins).DrawsFrom stream)
    : ∃ r, s.Draws r ∧ r.stream = stream := by
  cases drawn with
  | gate branch => exact ⟨.gate _, .gate branch, rfl⟩
  | value held random =>
      cases held with
      | @owner q member =>
          rw [accepted.owners_eq] at member
          exact ⟨.own q, .own member random, rfl⟩
      | @override b q branch member replaces =>
          obtain ⟨-, -, -, -, overrides⟩ := accepted.isOverride_of_replaces replaces
          exact ⟨.override b q.name, .override branch member overrides random, rfl⟩

/-- Every stream that a run of a scenario without errors draws from is that of a random quantity
of the scenario.
-/
theorem draws_of_history (clean : s.check.errors = []) (checked : s.check.graph = some graph)
    {source : RandomSource σ α} {times : List α} {seed : Int} {pins : Env α} {number : Nat}
    {moments : List (Moment σ α)} {ended : RunState σ α}
    (happened
      : (Plan.ofScenario s graph.order times seed pins).history source number
        = .ok (moments, ended))
    {stream : String} {left : σ} (drawn : ended.streams.lookup stream = some left)
    : ∃ r, s.Draws r ∧ r.stream = stream := by
  obtain ⟨found, same, accepted⟩ := accepted_of_clean clean
  rw [checked] at same
  cases same
  exact accepted.draws_of_drawsFrom
    ((accepted.sound accepted.isOrder times seed pins).history_drewFrom happened stream left drawn)

/-- The texts of the streams of two random quantities of a scenario without errors are equal only
where seed and run are, and where the quantities are one, or one of them is a gate that meets the
other one. Where the digest does not collide on them, the same holds of their seeds. Names are
words, as in all texts. Witness: `meadow_streams_shared`.
-/
theorem streams_shared_iff (words : s.WordNames) (clean : s.check.errors = [])
    {one other : RandomQuantity α} (drawn : s.Draws one) (drawnOther : s.Draws other)
    (seed seed' run run' : Int)
    : (streamText seed run one.stream = streamText seed' run' other.stream
          ↔ seed = seed' ∧ run = run'
            ∧ (one = other ∨ one.Meets other ∨ other.Meets one))
        ∧ ((Digest.ofText (streamText seed run one.stream)
                = Digest.ofText (streamText seed' run' other.stream)
              → streamText seed run one.stream = streamText seed' run' other.stream)
            → streamSeed seed run one.stream = streamSeed seed' run' other.stream
            → seed = seed' ∧ run = run'
              ∧ (one = other ∨ one.Meets other ∨ other.Meets one)) := by
  obtain ⟨graph, -, accepted⟩ := accepted_of_clean clean
  have texts : streamText seed run one.stream = streamText seed' run' other.stream
      ↔ seed = seed' ∧ run = run' ∧ (one = other ∨ one.Meets other ∨ other.Meets one) := by
    rw [← accepted.stream_eq_iff words drawn drawnOther]
    constructor
    · exact streamText_inj
    · rintro ⟨rfl, rfl, same⟩
      rw [same]
  exact ⟨texts, fun injective same => texts.mp (injective same)⟩

end Scenario

namespace Harvest

/-- A branch that is taken once the crop is above one. -/
def turn (name : String) (overrides : List (Quantity Int)) : Branch Int := {
  name := name
  condition := .binary .gt (read "crop") (whole 1) none
  probability := some 1
  fork := none
  overrides := overrides
  span := place
}

/-- The gate of this branch and the rain of the next one are drawn from one stream. -/
def wetRain : Branch Int :=
  turn "wet/rain" []

def branchWet : Branch Int :=
  turn "branch:wet" [.assumption (rain 5)]

/-- A meadow with both of them. -/
def meadow : Scenario Int :=
  scenario [
    .quantity (.assumption (rain 3)),
    .quantity (.varying crop),
    .branch wetRain,
    .branch branchWet
  ]

/-- Its causal graph. -/
def meadowGraph : CausalGraph :=
  { nodes := ["rain", "crop"], edges := [], order := ["rain", "crop"] }

theorem meadow_wordNames : meadow.WordNames := by
  have words : ∀ name ∈ meadowGraph.nodes, IsWord name := by decide
  exact fun q member => words q.name (List.mem_map_of_mem (f := Quantity.name) member)

theorem meadow_clean : meadow.check.errors = [] := by
  cbv

theorem meadow_draws_gate : meadow.Draws (.gate wetRain) :=
  .gate (by simp [meadow, scenario, Scenario.branches, Declaration.branch?])

theorem meadow_draws_rain : meadow.Draws (.override branchWet "rain") :=
  .override (q := .assumption (rain 5))
    (by simp [meadow, scenario, Scenario.branches, Declaration.branch?])
    (by simp [branchWet, turn]) (by cbv) (by decide)

end Harvest

namespace Scenario

open Harvest in
/-- In one run the gate and the rain of the meadow have one text, in two runs they have not. -/
theorem meadow_streams_shared
    : streamText 7 0 (RandomQuantity.gate wetRain).stream
          = streamText 7 0 (RandomQuantity.override branchWet "rain").stream
        ∧ streamText 7 0 (RandomQuantity.gate wetRain).stream
          ≠ streamText 7 1 (RandomQuantity.override branchWet "rain").stream :=
  have shared (run : Int) := (streams_shared_iff meadow_wordNames meadow_clean meadow_draws_gate
    meadow_draws_rain 7 7 0 run).1
  ⟨(shared 0).mpr ⟨rfl, rfl, Or.inr (Or.inl ⟨"wet", rfl, rfl⟩)⟩,
    fun same => absurd ((shared 1).mp same).2.1 (by decide)⟩

/-- Two quantities of a scenario without errors can share their stream in every run: in the meadow
the rain is drawn behind the gate, so the second year has 21 and not 20, which is what a stream of
its own would give.
-/
theorem gate_takes_draw_of_rain
    : Harvest.meadow.WordNames ∧ Harvest.meadow.check.errors = []
        ∧ (∃ one other, Harvest.meadow.Draws one ∧ Harvest.meadow.Draws other ∧ one ≠ other
          ∧ ∀ seed run, streamText seed run one.stream = streamText seed run other.stream)
        ∧ (Harvest.run Harvest.meadow Harvest.meadowGraph.order []).toOption.map
            (fun outcome => outcome.steps.map (·.lookup "rain")) = some [some 7, some 21] := by
  refine ⟨Harvest.meadow_wordNames, Harvest.meadow_clean, ⟨_, _, Harvest.meadow_draws_gate,
    Harvest.meadow_draws_rain, by simp, fun seed run => rfl⟩, ?_⟩
  decide +kernel

end Scenario

end Prognosis
