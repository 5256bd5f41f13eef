import Mathlib.Data.Set.Function
import Prognosis.Proofs.Grammar.Rendering
import Prognosis.Proofs.Grammar.Spelling
import Prognosis.Simulation
import Prognosis.Syntax.View

/-! What views of scenarios keep: everything except that a list of percentiles without any is shown
as one that is missing. Places are kept as well. A field that has no value is left out, so that
nodes are compared field by field; names are shown with dots between their segments, which are
found again because segments have none.
-/

namespace Prognosis

open Json

variable {α : Type}

-----------------------------------------------------------------------------------------
-- Words
-----------------------------------------------------------------------------------------

/-- Words are different where each finds its owner among the owners. -/
theorem injective_of_find {β γ : Type} [DecidableEq γ] {word : β → γ} (owners : List β)
    (found : ∀ owner, owners.find? (word · == word owner) = some owner)
    : Function.Injective word := by
  intro owner other same
  have both := found owner
  rw [same, found other] at both
  exact (Option.some.inj both).symm

theorem BinaryOp.text_injective : Function.Injective BinaryOp.text :=
  injective_of_find [.or, .and, .eq, .ne, .lt, .le, .gt, .ge, .add, .sub, .mul, .div, .mod, .pow]
    fun op => by cases op <;> rfl

theorem UnaryOp.text_injective : Function.Injective UnaryOp.text :=
  injective_of_find [.minus, .plus, .not, .plusMinus] fun op => by cases op <;> rfl

theorem Currency.code_injective : Function.Injective Currency.code :=
  injective_of_find all fun unit => by cases unit <;> rfl

theorem Magnitude.letter_injective : Function.Injective Magnitude.letter :=
  injective_of_find [.thousand, .million, .billion, .trillion] fun m => by cases m <;> rfl

theorem TimeUnit.letter_injective : Function.Injective TimeUnit.letter :=
  injective_of_find [.year, .month, .week, .day, .second] fun u => by cases u <;> rfl

theorem Resolution.word_injective : Function.Injective Resolution.word :=
  injective_of_find all fun resolution => by cases resolution <;> rfl

theorem DistributionKind.name_injective : Function.Injective DistributionKind.name :=
  injective_of_find all fun kind => by cases kind <;> rfl

theorem ModelKind.name_injective : Function.Injective ModelKind.name :=
  injective_of_find all fun kind => by cases kind <;> rfl

theorem Interpolation.word_injective : Function.Injective Interpolation.word :=
  injective_of_find all fun method => by cases method <;> rfl

theorem SamplingMethod.word_injective : Function.Injective SamplingMethod.word :=
  injective_of_find all fun method => by cases method <;> rfl

theorem OutputKind.word_injective : Function.Injective OutputKind.word :=
  injective_of_find all fun kind => by cases kind <;> rfl

theorem CalibrationMethod.word_injective : Function.Injective CalibrationMethod.word :=
  injective_of_find all fun method => by cases method <;> rfl

theorem RefreshRate.word_injective : Function.Injective RefreshRate.word :=
  injective_of_find all fun rate => by cases rate <;> rfl

theorem Control.word_injective : Function.Injective Control.word :=
  injective_of_find all fun control => by cases control <;> rfl

theorem AlertSeverity.word_injective : Function.Injective AlertSeverity.word :=
  injective_of_find [.warn, .error] fun severity => by cases severity <;> rfl

-----------------------------------------------------------------------------------------
-- Records
-----------------------------------------------------------------------------------------

namespace Json

variable {fields others : List (String × Option (Json α))}

theorem present_cons_none (key : String)
    : present ((key, none) :: fields) = present fields :=
  rfl

/-- Whatever a record shows, it shows under the key of a field. -/
theorem key_of_present {shown : List (String × Json α)} (is : present fields = record shown)
    {entry : String × Json α} (member : entry ∈ shown)
    : entry.1 ∈ fields.map (·.1) := by
  obtain rfl := record.inj is
  obtain ⟨field, among, shows⟩ := List.mem_filterMap.mp member
  obtain ⟨value, -, rfl⟩ := Option.map_eq_some_iff.mp shows
  exact List.mem_map_of_mem among

/-- Records with the same keys, each of one field, differ where a field does, also where one of them
leaves it out. By induction on the fields.
-/
theorem present_inj (same : present fields = present others)
    (keys : fields.map (·.1) = others.map (·.1)) (distinct : (fields.map (·.1)).Nodup)
    : fields = others := by
  induction fields generalizing others with
  | nil => exact (List.map_eq_nil_iff.mp keys.symm).symm
  | cons field fields ih =>
      obtain ⟨key, value⟩ := field
      cases others with
      | nil => cases keys
      | cons other others =>
          obtain ⟨key', value'⟩ := other
          rw [List.map_cons, List.map_cons, List.cons.injEq] at keys
          obtain ⟨rfl, keys⟩ := keys
          rw [List.map_cons, List.nodup_cons] at distinct
          obtain ⟨new, distinct⟩ := distinct
          cases value with
          | none =>
              rw [present_cons_none] at same
              cases value' with
              | none =>
                  rw [present_cons_none] at same
                  rw [ih same keys distinct]
              -- The other record shows the key, which no later field has.
              | some v => exact absurd (key_of_present same List.mem_cons_self) new
          | some v =>
              cases value' with
              | none =>
                  rw [present_cons_none] at same
                  exact absurd (keys ▸ key_of_present same.symm List.mem_cons_self) new
              | some v' =>
                  obtain ⟨head, rest⟩ := List.cons.inj (record.inj same)
                  obtain rfl := (Prod.mk.inj head).2
                  rw [ih (congrArg record rest) keys distinct]

variable {type type' : String}

/-- Nodes of different types are different. -/
theorem type_of_node (same : node type fields = node type' others) : type = type' :=
  text.inj (Prod.mk.inj (List.cons.inj (record.inj same)).1).2

theorem node_inj (same : node type fields = node type' others)
    (keys : fields.map (·.1) = others.map (·.1)) (distinct : (fields.map (·.1)).Nodup)
    : fields = others :=
  present_inj (congrArg record (List.cons.inj (record.inj same)).2) keys distinct

/-- A list that is left out is empty. -/
theorem filled?_inj {xs ys : List (Json α)} : filled? xs = filled? ys ↔ xs = ys := by
  cases xs <;> cases ys <;> simp [filled?]

end Json

-----------------------------------------------------------------------------------------
-- Values that are given, and lists of values
-----------------------------------------------------------------------------------------

section Mapped

variable {β γ : Type} {view : β → γ} {kept : Set β}

/-- Lists whose views are the same show the same. By induction on the list. -/
theorem map_eq_of_map_eq {shown : β → β} {values others : List β}
    (apart : ∀ v ∈ values, ∀ w ∈ others, view v = view w → shown v = shown w)
    (same : values.map view = others.map view)
    : values.map shown = others.map shown := by
  induction values generalizing others with
  | nil => rw [List.map_eq_nil_iff.mp same.symm]
  | cons v values ih =>
      cases others with
      | nil => cases same
      | cons w others =>
          rw [List.map_cons, List.map_cons, List.cons.injEq] at same
          have rest := ih (fun v member w also =>
            apart v (List.mem_cons_of_mem _ member) w (List.mem_cons_of_mem _ also)) same.2
          rw [List.map_cons, List.map_cons, rest,
            apart v List.mem_cons_self w List.mem_cons_self same.1]

theorem eq_of_map_eq {values others : List β}
    (apart : ∀ v ∈ values, ∀ w ∈ others, view v = view w → v = w)
    (same : values.map view = others.map view)
    : values = others := by
  rw [← List.map_id values, ← List.map_id others]
  exact map_eq_of_map_eq apart same

theorem listMap_inj (inj : Set.InjOn view kept) {values others : List β}
    (inside : ∀ v ∈ values, v ∈ kept) (also : ∀ w ∈ others, w ∈ kept)
    : values.map view = others.map view ↔ values = others :=
  ⟨eq_of_map_eq fun v member w member' => inj (inside v member) (also w member'), congrArg _⟩

theorem optionMap_inj (inj : Set.InjOn view kept) {value other : Option β}
    (inside : ∀ v ∈ value, v ∈ kept) (also : ∀ w ∈ other, w ∈ kept)
    : value.map view = other.map view ↔ value = other := by
  refine ⟨fun same => ?_, congrArg _⟩
  cases value with
  | none => exact (Option.map_eq_none_iff.mp same.symm).symm
  | some v =>
      cases other with
      | none => cases same
      | some w => rw [inj (inside v rfl) (also w rfl) (Option.some.inj same)]

end Mapped

-----------------------------------------------------------------------------------------
-- Names
-----------------------------------------------------------------------------------------

/-- Segments without dots are found again between the dots. By induction on the segments. -/
theorem segments_inj {front front' : List Char} {names names' : List String}
    (plain : '.' ∉ front) (plain' : '.' ∉ front')
    (words : ∀ name ∈ names, IsName name) (words' : ∀ name ∈ names', IsName name)
    (same : (front ++ names.flatMap fun name => '.' :: name.toList)
      = front' ++ names'.flatMap fun name => '.' :: name.toList)
    : front = front' ∧ names = names' := by
  induction names generalizing front front' names' with
  | nil =>
      cases names' with
      | nil => simpa using same
      | cons name' names' =>
          rw [List.flatMap_nil, List.append_nil] at same
          exact absurd (by simp [same]) plain
  | cons name names ih =>
      cases names' with
      | nil =>
          rw [List.flatMap_nil, List.append_nil] at same
          exact absurd (by simp [← same]) plain'
      | cons name' names' =>
          rw [List.forall_mem_cons] at words words'
          rw [List.flatMap_cons, List.flatMap_cons, List.cons_append, List.cons_append] at same
          obtain ⟨fronts, backs⟩ := before_sign_inj plain plain' same
          obtain ⟨chars, rest⟩ := ih (words.1.isWord.not_mem (by decide))
            (words'.1.isWord.not_mem (by decide)) words.2 words'.2 backs
          exact ⟨fronts, by rw [String.toList_inj.mp chars, rest]⟩

theorem Path.text_injOn : Set.InjOn Path.text {path | path.IsSpelled} := by
  intro path spelled other spelled' same
  have chars := congrArg String.toList same
  rw [toList_pathText, toList_pathText] at chars
  obtain ⟨roots, rest⟩ := segments_inj (spelled.root.isWord.not_mem (by decide))
    (spelled'.root.isWord.not_mem (by decide)) spelled.rest spelled'.rest chars
  cases path
  cases other
  rw [Path.mk.injEq]
  exact ⟨String.toList_inj.mp roots, rest⟩

-----------------------------------------------------------------------------------------
-- Places and dates
-----------------------------------------------------------------------------------------

attribute [ext] Span PartialDate Timeframe Duration

theorem Span.view_inj {s t : Span} : (s.view : Json α) = t.view ↔ s = t := by
  refine ⟨fun same => ?_, congrArg _⟩
  have fields := node_inj same rfl (by simp)
  simpa [Span.ext_iff] using fields

theorem PartialDate.view_inj {d e : PartialDate} : (d.view : Json α) = e.view ↔ d = e := by
  refine ⟨fun same => ?_, congrArg _⟩
  have fields := node_inj same rfl (by simp)
  simpa [PartialDate.ext_iff, Option.map_inj_right] using fields

theorem Timeframe.view_inj {t u : Timeframe} : (t.view : Json α) = u.view ↔ t = u := by
  refine ⟨fun same => ?_, congrArg _⟩
  have fields := node_inj same rfl (by simp)
  simpa [Timeframe.ext_iff, PartialDate.view_inj] using fields

theorem Duration.view_inj {d e : Duration α} : d.view = e.view ↔ d = e := by
  refine ⟨fun same => ?_, congrArg _⟩
  have fields := node_inj same rfl (by simp)
  simpa [Duration.ext_iff, TimeUnit.letter_injective.eq_iff] using fields

-----------------------------------------------------------------------------------------
-- Expressions
-----------------------------------------------------------------------------------------

namespace Expr

theorem viewAll_eq_map (es : List (Expr α)) : viewAll es = es.map view := by
  induction es with
  | nil => rfl
  | cons e es ih => rw [viewAll, ih, List.map_cons]

theorem viewNamed_eq_map (named : List (String × Expr α))
    : viewNamed named = named.map viewEntry := by
  induction named with
  | nil => rfl
  | cons entry named ih => rw [viewNamed, ih, List.map_cons]

theorem viewEntry_inj {entry other : String × Expr α}
    : viewEntry entry = viewEntry other ↔ entry.1 = other.1 ∧ entry.2.view = other.2.view := by
  cases entry
  cases other
  simp [viewEntry]

theorem isSpelled_of_name {path : Path} {place : Option Span}
    (spelled : (name path place : Expr α).IsSpelled)
    : path.IsSpelled :=
  have self := (allNodes_iff.mp spelled).1
  ⟨self.1.1, self.2⟩

/-- By induction on the expression: where its parts are kept, it is kept. -/
theorem view_injOn : Set.InjOn (view (α := α)) {e | e.IsSpelled} := by
  intro e spelled e' spelled' same
  induction e using induction_on_children generalizing e' with
  | step e ih =>
      have parts := (allNodes_iff.mp spelled).2
      have parts' := (allNodes_iff.mp spelled').2
      -- Two expressions of one kind are compared field by field; of two kinds, the types of their
      -- nodes differ.
      cases e with
      | number value place =>
          cases e' with
          | number value' place' =>
              have fields := node_inj same rfl (by simp)
              simpa [Option.map_inj_right, Span.view_inj] using fields
          | _ => exact absurd (type_of_node same) (by decide)
      | percentage value place =>
          cases e' with
          | percentage value' place' =>
              have fields := node_inj same rfl (by simp)
              simpa [Option.map_inj_right, Span.view_inj] using fields
          | _ => exact absurd (type_of_node same) (by decide)
      | currency value unit magnitude place =>
          cases e' with
          | currency value' unit' magnitude' place' =>
              have fields := node_inj same rfl (by simp)
              simpa [Option.map_inj_right, Span.view_inj, Currency.code_injective.eq_iff,
                Magnitude.letter_injective.eq_iff] using fields
          | _ => exact absurd (type_of_node same) (by decide)
      | text value place =>
          cases e' with
          | text value' place' =>
              have fields := node_inj same rfl (by simp)
              simpa [Option.map_inj_right, Span.view_inj] using fields
          | _ => exact absurd (type_of_node same) (by decide)
      | boolean value place =>
          cases e' with
          | boolean value' place' =>
              have fields := node_inj same rfl (by simp)
              simpa [Option.map_inj_right, Span.view_inj] using fields
          | _ => exact absurd (type_of_node same) (by decide)
      | name path place =>
          cases e' with
          | name path' place' =>
              have fields := node_inj same rfl (by simp)
              have paths := Path.text_injOn.eq_iff (isSpelled_of_name spelled)
                (isSpelled_of_name spelled')
              simpa [Option.map_inj_right, Span.view_inj, paths] using fields
          | _ => exact absurd (type_of_node same) (by decide)
      | binary op left right place =>
          cases e' with
          | binary op' left' right' place' =>
              rw [children, List.forall_mem_cons, List.forall_mem_singleton] at ih parts parts'
              have lefts : left.view = left'.view ↔ left = left' :=
                ⟨ih.1 parts.1 parts'.1, congrArg _⟩
              have rights : right.view = right'.view ↔ right = right' :=
                ⟨ih.2 parts.2 parts'.2, congrArg _⟩
              have fields := node_inj same rfl (by simp)
              simpa [Option.map_inj_right, Span.view_inj, BinaryOp.text_injective.eq_iff, lefts,
                rights] using fields
          | _ => exact absurd (type_of_node same) (by decide)
      | unary op operand place =>
          cases e' with
          | unary op' operand' place' =>
              rw [children, List.forall_mem_singleton] at ih parts parts'
              have operands : operand.view = operand'.view ↔ operand = operand' :=
                ⟨ih parts parts', congrArg _⟩
              have fields := node_inj same rfl (by simp)
              simpa [Option.map_inj_right, Span.view_inj, UnaryOp.text_injective.eq_iff,
                operands] using fields
          | _ => exact absurd (type_of_node same) (by decide)
      | call function positional named place =>
          cases e' with
          | call function' positional' named' place' =>
              rw [children, List.forall_mem_append, List.forall_mem_map] at ih parts parts'
              have positionals : positional.map view = positional'.map view
                  ↔ positional = positional' :=
                ⟨eq_of_map_eq fun e member e' member' =>
                  ih.1 e member (parts.1 e member) (parts'.1 e' member'), congrArg _⟩
              have nameds : named.map viewEntry = named'.map viewEntry ↔ named = named' := by
                refine ⟨eq_of_map_eq fun entry member other member' views => ?_, congrArg _⟩
                obtain ⟨keys, views⟩ := viewEntry_inj.mp views
                exact Prod.ext keys (ih.2 entry member (parts.2 entry member)
                  (parts'.2 other member') views)
              have fields := node_inj same rfl (by simp)
              simpa [Option.map_inj_right, Span.view_inj, filled?_inj, viewAll_eq_map,
                viewNamed_eq_map, positionals, nameds] using fields
          | _ => exact absurd (type_of_node same) (by decide)

theorem viewEntry_injOn
    : Set.InjOn (viewEntry (α := α)) {entry | entry.2.IsSpelled} := by
  intro entry spelled other spelled' same
  obtain ⟨keys, views⟩ := viewEntry_inj.mp same
  exact Prod.ext keys (view_injOn spelled spelled' views)

end Expr

-----------------------------------------------------------------------------------------
-- Parts of declarations
-----------------------------------------------------------------------------------------

attribute [ext] Distribution Model Anchor Binding WatchRule Trigger Watch

theorem Distribution.view_injOn : Set.InjOn (view (α := α)) {d | d.IsSpelled} := by
  intro d spelled e spelled' same
  have fields := node_inj same rfl (by simp)
  have positional := listMap_inj Expr.view_injOn spelled.positional spelled'.positional
  have named := listMap_inj Expr.viewEntry_injOn spelled.named spelled'.named
  simpa [Distribution.ext_iff, Span.view_inj, DistributionKind.name_injective.eq_iff, filled?_inj,
    Expr.viewAll_eq_map, Expr.viewNamed_eq_map, positional, named] using fields

theorem Model.view_injOn : Set.InjOn (view (α := α)) {m | m.IsSpelled} := by
  intro m spelled n spelled' same
  have fields := node_inj same rfl (by simp)
  have parameters := listMap_inj Expr.viewEntry_injOn spelled spelled'
  simpa [Model.ext_iff, Span.view_inj, ModelKind.name_injective.eq_iff, filled?_inj,
    Expr.viewNamed_eq_map, parameters] using fields

theorem Anchor.view_injOn : Set.InjOn (view (α := α)) {anchor | anchor.value.IsSpelled} := by
  intro a spelled b spelled' same
  have fields := node_inj same rfl (by simp)
  have value := Expr.view_injOn.eq_iff spelled spelled'
  simpa [Anchor.ext_iff, PartialDate.view_inj, value] using fields

theorem Binding.view_injOn : Set.InjOn (view (α := α)) {b | b.IsSpelled} := by
  intro b spelled c spelled' same
  have fields := node_inj same rfl (by simp)
  have transform := optionMap_inj Expr.view_injOn spelled.transform spelled'.transform
  have fallback := optionMap_inj Expr.view_injOn spelled.fallback spelled'.fallback
  simpa [Binding.ext_iff, Option.map_inj_right, Span.view_inj, RefreshRate.word_injective.eq_iff,
    transform, fallback] using fields

theorem WatchRule.view_injOn : Set.InjOn (view (α := α)) {rule | rule.condition.IsSpelled} := by
  intro r spelled q spelled' same
  have fields := node_inj same rfl (by simp)
  have condition := Expr.view_injOn.eq_iff spelled spelled'
  simpa [WatchRule.ext_iff, AlertSeverity.word_injective.eq_iff, condition] using fields

theorem Trigger.view_inj {t u : Trigger} : (t.view : Json α) = u.view ↔ t = u := by
  refine ⟨fun same => ?_, congrArg _⟩
  have fields := node_inj same rfl (by simp)
  simpa [Trigger.ext_iff, Option.map_inj_right, List.map_inj_right, filled?_inj] using fields

theorem Path.view_injOn
    : Set.InjOn (fun path : Path => (Json.text path.text : Json α)) {path | path.IsSpelled} :=
  fun _ spelled _ spelled' same => Path.text_injOn spelled spelled' (text.inj same)

theorem Watch.view_injOn : Set.InjOn (view (α := α)) {w | w.IsSpelled} := by
  intro w spelled x spelled' same
  have fields := node_inj same rfl (by simp)
  have target := optionMap_inj (Path.view_injOn (α := α)) spelled.target spelled'.target
  have rules := listMap_inj WatchRule.view_injOn spelled.rules spelled'.rules
  simpa [Watch.ext_iff, Option.map_inj_right, Span.view_inj, Trigger.view_inj, filled?_inj, target,
    rules] using fields

-----------------------------------------------------------------------------------------
-- Declarations
-----------------------------------------------------------------------------------------

attribute [ext] Assumption Variable Parameter Impact Branch Calibrate Import Simulate

theorem Assumption.view_injOn : Set.InjOn (view (α := α)) {a | a.IsSpelled} := by
  intro a spelled b spelled' same
  have fields := node_inj same rfl (by simp)
  have value := optionMap_inj Expr.view_injOn spelled.value spelled'.value
  have uncertainty :=
    optionMap_inj Distribution.view_injOn spelled.uncertainty spelled'.uncertainty
  have binding := optionMap_inj Binding.view_injOn spelled.binding spelled'.binding
  have watch := optionMap_inj Watch.view_injOn spelled.watch spelled'.watch
  simpa [Assumption.ext_iff, Option.map_inj_right, Span.view_inj, PartialDate.view_inj, value,
    uncertainty, binding, watch] using fields

theorem Variable.view_injOn : Set.InjOn (view (α := α)) {v | v.IsSpelled} := by
  intro v spelled w spelled' same
  have fields := node_inj same rfl (by simp)
  have anchors := listMap_inj Anchor.view_injOn spelled.anchors spelled'.anchors
  have dependsOn := listMap_inj (Path.view_injOn (α := α)) spelled.dependsOn spelled'.dependsOn
  have model := optionMap_inj Model.view_injOn spelled.model spelled'.model
  have uncertainty :=
    optionMap_inj Distribution.view_injOn spelled.uncertainty spelled'.uncertainty
  simpa [Variable.ext_iff, Option.map_inj_right, Span.view_inj, filled?_inj,
    Interpolation.word_injective.eq_iff, anchors, dependsOn, model, uncertainty] using fields

theorem Parameter.range_injOn
    : Set.InjOn (fun (bounds : Expr α × Expr α) => Json.list [bounds.1.view, bounds.2.view])
      {bounds | bounds.1.IsSpelled ∧ bounds.2.IsSpelled} := by
  intro bounds spelled others spelled' same
  obtain ⟨lows, highs⟩ := List.cons.inj (list.inj same)
  exact Prod.ext (Expr.view_injOn spelled.1 spelled'.1 lows)
    (Expr.view_injOn spelled.2 spelled'.2 (List.cons.inj highs).1)

theorem Parameter.view_injOn : Set.InjOn (view (α := α)) {p | p.IsSpelled} := by
  intro p (spelled : p.IsSpelled) q (spelled' : q.IsSpelled) same
  have fields := node_inj same rfl (by simp)
  have value := optionMap_inj Expr.view_injOn spelled.value spelled'.value
  have range := optionMap_inj Parameter.range_injOn spelled.range spelled'.range
  have uncertainty :=
    optionMap_inj Distribution.view_injOn spelled.uncertainty spelled'.uncertainty
  have step := optionMap_inj Expr.view_injOn spelled.step spelled'.step
  simpa [Parameter.ext_iff, Option.map_inj_right, Span.view_inj, Control.word_injective.eq_iff,
    value, range, uncertainty, step] using fields

theorem Impact.view_injOn : Set.InjOn (view (α := α)) {i | i.IsSpelled} := by
  intro i spelled j spelled' same
  have fields := node_inj same rfl (by simp)
  have derivesFrom :=
    listMap_inj (Path.view_injOn (α := α)) spelled.derivesFrom spelled'.derivesFrom
  have formula := optionMap_inj Expr.view_injOn spelled.formula spelled'.formula
  simpa [Impact.ext_iff, Option.map_inj_right, Span.view_inj, filled?_inj, derivesFrom,
    formula] using fields

theorem Quantity.view_injOn : Set.InjOn (view (α := α)) {q | q.IsSpelled} := by
  intro q spelled r spelled' same
  cases q with
  | assumption d =>
      cases r with
      | assumption e => rw [Assumption.view_injOn spelled spelled' same]
      | _ => exact absurd (type_of_node same) (by decide)
  | varying d =>
      cases r with
      | varying e => rw [Variable.view_injOn spelled spelled' same]
      | _ => exact absurd (type_of_node same) (by decide)
  | parameter d =>
      cases r with
      | parameter e => rw [Parameter.view_injOn spelled spelled' same]
      | _ => exact absurd (type_of_node same) (by decide)
  | impact d =>
      cases r with
      | impact e => rw [Impact.view_injOn spelled spelled' same]
      | _ => exact absurd (type_of_node same) (by decide)

theorem Branch.view_injOn : Set.InjOn (view (α := α)) {b | b.IsSpelled} := by
  intro b spelled c spelled' same
  have fields := node_inj same rfl (by simp)
  have condition := Expr.view_injOn.eq_iff spelled.condition spelled'.condition
  have overrides := listMap_inj Quantity.view_injOn spelled.overrides spelled'.overrides
  simpa [Branch.ext_iff, Option.map_inj_right, Span.view_inj, filled?_inj, condition,
    overrides] using fields

theorem Calibrate.view_injOn : Set.InjOn (view (α := α)) {c | c.IsSpelled} := by
  intro c spelled d spelled' same
  have fields := node_inj same rfl (by simp)
  have target := Path.text_injOn.eq_iff spelled.target spelled'.target
  have prior := optionMap_inj Distribution.view_injOn spelled.prior spelled'.prior
  simpa [Calibrate.ext_iff, Option.map_inj_right, Span.view_inj, Duration.view_inj,
    CalibrationMethod.word_injective.eq_iff, RefreshRate.word_injective.eq_iff, target,
    prior] using fields

theorem Import.view_inj {i j : Import} : (i.view : Json α) = j.view ↔ i = j := by
  refine ⟨fun same => ?_, congrArg _⟩
  have fields := node_inj same rfl (by simp)
  simpa [Import.ext_iff, Span.view_inj] using fields

-----------------------------------------------------------------------------------------
-- Scenarios
-----------------------------------------------------------------------------------------

/-- The settings as they are shown: without a list of percentiles that has none. -/
def Simulate.shown (s : Simulate α) : Simulate α :=
  { s with percentiles := s.percentiles.filter fun ps => !ps.isEmpty }

/-- The declaration as it is shown. -/
def Declaration.shown : Declaration α → Declaration α
  | .simulate d => .simulate d.shown
  | d => d

/-- The scenario as it is shown: its settings ask for no list of percentiles that has none. -/
def Scenario.shown (s : Scenario α) : Scenario α :=
  { s with declarations := s.declarations.map Declaration.shown }

theorem viewPercentiles_eq (ps : Option (List α))
    : (ps.bind fun ps => filled? (ps.map Json.number))
      = (ps.filter fun ps => !ps.isEmpty).map fun ps => list (ps.map Json.number) := by
  rcases ps with _ | _ | _ <;> rfl

theorem Simulate.view_shown (s : Simulate α) : s.shown.view = s.view := by
  simp [Simulate.view, Simulate.shown, viewPercentiles_eq, Option.filter_filter]

theorem Simulate.view_inj {s t : Simulate α} : s.view = t.view ↔ s.shown = t.shown := by
  constructor
  · intro same
    have fields := node_inj same rfl (by simp)
    simpa [Simulate.ext_iff, Simulate.shown, viewPercentiles_eq, Option.map_inj_right,
      List.map_inj_right, Span.view_inj, Duration.view_inj, SamplingMethod.word_injective.eq_iff,
      OutputKind.word_injective.eq_iff] using fields
  · intro same
    rw [← view_shown s, same, view_shown]

theorem Declaration.view_shown (d : Declaration α) : d.shown.view = d.view := by
  cases d with
  | simulate d => exact d.view_shown
  | _ => rfl

theorem Declaration.view_inj {d e : Declaration α} (spelled : d.IsSpelled) (spelled' : e.IsSpelled)
    : d.view = e.view ↔ d.shown = e.shown := by
  refine ⟨fun same => ?_, fun same => by rw [← d.view_shown, same, view_shown]⟩
  cases d with
  | quantity q =>
      cases e with
      | quantity r => rw [Quantity.view_injOn spelled spelled' same]
      | _ => cases q <;> exact absurd (type_of_node same) (by decide)
  | branch b =>
      cases e with
      | branch c => rw [Branch.view_injOn spelled spelled' same]
      | quantity q => cases q <;> exact absurd (type_of_node same) (by decide)
      | _ => exact absurd (type_of_node same) (by decide)
  | simulate s =>
      cases e with
      | simulate t => exact congrArg Declaration.simulate (Simulate.view_inj.mp same)
      | quantity q => cases q <;> exact absurd (type_of_node same) (by decide)
      | _ => exact absurd (type_of_node same) (by decide)
  | watch w =>
      cases e with
      | watch x => rw [Watch.view_injOn spelled spelled' same]
      | quantity q => cases q <;> exact absurd (type_of_node same) (by decide)
      | _ => exact absurd (type_of_node same) (by decide)
  | calibrate c =>
      cases e with
      | calibrate d => rw [Calibrate.view_injOn spelled spelled' same]
      | quantity q => cases q <;> exact absurd (type_of_node same) (by decide)
      | _ => exact absurd (type_of_node same) (by decide)
  | imported i =>
      cases e with
      | imported j => rw [Import.view_inj.mp same]
      | quantity q => cases q <;> exact absurd (type_of_node same) (by decide)
      | _ => exact absurd (type_of_node same) (by decide)

attribute [ext] Metadata Scenario

theorem Metadata.view_inj {m n : Metadata α} : m.view = n.view ↔ m = n := by
  refine ⟨fun same => ?_, congrArg _⟩
  have fields := node_inj same rfl (by simp)
  simpa [Metadata.ext_iff, Option.map_inj_right, List.map_inj_right, filled?_inj,
    Timeframe.view_inj, Resolution.word_injective.eq_iff] using fields

theorem Scenario.view_shown (s : Scenario α) : s.shown.view = s.view := by
  have declarations : (s.declarations.map Declaration.shown).map Declaration.view
      = s.declarations.map Declaration.view := by
    rw [List.map_map]
    exact List.map_congr_left fun d _ => d.view_shown
  simp only [Scenario.view, Scenario.shown, declarations]

theorem Scenario.view_inj {s t : Scenario α} (spelled : s.IsSpelled) (spelled' : t.IsSpelled)
    : s.view = t.view ↔ s.shown = t.shown := by
  refine ⟨fun same => ?_, fun same => by rw [← s.view_shown, same, view_shown]⟩
  have fields := node_inj same rfl (by simp)
  simp only [List.cons.injEq, Prod.mk.injEq, Option.some.injEq, text.injEq, filled?_inj, true_and,
    and_true, Metadata.view_inj, Span.view_inj] at fields
  obtain ⟨name, metadata, declarations, span⟩ := fields
  have shown := map_eq_of_map_eq (fun d member e member' =>
    (Declaration.view_inj (spelled d member) (spelled' e member')).mp) declarations
  exact Scenario.ext name metadata shown span

/-- No settings have a list of percentiles without any. -/
def Scenario.NoEmptyPercentiles (s : Scenario α) : Prop :=
  ∀ settings, .simulate settings ∈ s.declarations → settings.percentiles ≠ some []

theorem Scenario.shown_eq_self {s : Scenario α} (none_empty : s.NoEmptyPercentiles)
    : s.shown = s := by
  have same : ∀ d ∈ s.declarations, d.shown = d := by
    intro d member
    cases d with
    | simulate settings =>
        have given := none_empty settings member
        refine congrArg Declaration.simulate (Simulate.ext rfl rfl rfl rfl ?_ rfl rfl rfl)
        rw [Simulate.shown]
        rcases asked : settings.percentiles with _ | _ | _
        case some.nil => exact absurd asked given
        all_goals rfl
    | _ => rfl
  refine Scenario.ext rfl rfl ?_ rfl
  exact (List.map_congr_left same).trans (List.map_id _)

namespace SourceText

variable [Scalar α]

/-- Scenarios that were read have the same view where they are the same up to lists of percentiles
without any, which are shown as missing ones, and nowhere else (`empty_percentiles_not_shown`). So
scenarios without such a list are shown whole.

Witness: `view_tells_percentiles`
-/
theorem view_faithful {source source' : String} {text text' : SourceText α}
    (read : SourceText.read source = .ok text) (read' : SourceText.read source' = .ok text')
    {s s' : Scenario α} (found : text.scenario = some s) (found' : text'.scenario = some s')
    : (s.view = s'.view ↔ s.shown = s'.shown)
      ∧ (s.NoEmptyPercentiles → s'.NoEmptyPercentiles → (s.view = s'.view ↔ s = s')) := by
  have views := Scenario.view_inj (read_isSpelled read found) (read_isSpelled read' found')
  refine ⟨views, fun given given' => ?_⟩
  rw [views, Scenario.shown_eq_self given, Scenario.shown_eq_self given']

/-- Settings that differ in a percentile are shown as different ones. -/
theorem view_tells_percentiles
    : let settings (p : Int) : Simulate Int :=
        ⟨none, none, none, none, some [p], none, none, ⟨1, 16⟩⟩
      let s (p : Int) : Scenario Int := ⟨"s", .empty, [.simulate (settings p)], ⟨1, 1⟩⟩
      read "scenario \"s\" \x7b simulate \x7b percentiles: [5] \x7d \x7d" = .ok ⟨some (s 5), []⟩
        ∧ read "scenario \"s\" \x7b simulate \x7b percentiles: [50] \x7d \x7d"
            = .ok ⟨some (s 50), []⟩
        ∧ (s 5).shown ≠ (s 50).shown ∧ (s 5).view ≠ (s 50).view := by
  intro settings s
  have read : read "scenario \"s\" \x7b simulate \x7b percentiles: [5] \x7d \x7d"
      = .ok ⟨some (s 5), []⟩ := by
    cbv
  have read' : SourceText.read "scenario \"s\" \x7b simulate \x7b percentiles: [50] \x7d \x7d"
      = .ok ⟨some (s 50), []⟩ := by
    cbv
  have given (p : Int) : (s p).NoEmptyPercentiles := by
    simp [Scenario.NoEmptyPercentiles, s, settings]
  obtain ⟨shown, whole⟩ := view_faithful read read' rfl rfl
  have apart : s 5 ≠ s 50 := by simp [s, settings]
  have views : (s 5).view ≠ (s 50).view := fun same => apart ((whole (given 5) (given 50)).mp same)
  exact ⟨read, read', fun same => views (shown.mpr same), views⟩

/-- An empty list of percentiles is shown as a missing one, though a simulation reports no
percentiles where it is given, and those of the engine where it is missing.
-/
theorem empty_percentiles_not_shown
    : let settings (asked : Option (List Int)) : Simulate Int :=
        ⟨none, none, none, none, asked, none, none, ⟨1, 16⟩⟩
      let s (asked : Option (List Int)) : Scenario Int :=
        ⟨"s", .empty, [.simulate (settings asked)], ⟨1, 1⟩⟩
      let reported (asked : Option (List Int)) : Except Fault (List Int) :=
        ((SimulationRequest.unspecified Int).resolve (s asked).simulate?
          ⟨2000, 42, [.whole 5, .whole 50], 0, 1⟩).map (·.percentiles)
      read "scenario \"s\" \x7b simulate \x7b percentiles: [] \x7d \x7d"
          = .ok ⟨some (s (some [])), []⟩
        ∧ read "scenario \"s\" \x7b simulate \x7b \x7d \x7d" = .ok ⟨some (s none), []⟩
        ∧ (s (some [])).view = (s none).view ∧ s (some []) ≠ s none
        ∧ reported (some []) = .ok [] ∧ reported none = .ok [5, 50] := by
  intro settings s reported
  refine ⟨by cbv, by cbv, rfl, ?_, rfl, rfl⟩
  simp [s, settings]

end SourceText

end Prognosis
