import Prognosis.Proofs.Grammar.Reading
import Prognosis.Proofs.Scalar.Double.Rules
import Prognosis.Proofs.Scalar.Exact
import Prognosis.Proofs.Syntax.Places
import Prognosis.Value.Expr

/-! Where evaluation breaks down. Most of what can go wrong in an expression is told as an error of
it; a fault of numbers comes out of two places alone, remainders of infinite numbers and roundings
that have no result, and comes out whenever one of them is evaluated.
-/

namespace Prognosis

open Grammar

section Results

variable {ε β γ : Type} {result : Except ε β} {e : ε}

theorem bind_eq_error_iff {next : β → Except ε γ}
    : result.bind next = .error e
      ↔ result = .error e ∨ ∃ x, result = .ok x ∧ next x = .error e := by
  cases result <;> simp [Except.bind]

theorem map_eq_error_iff {f : β → γ} : result.map f = .error e ↔ result = .error e := by
  cases result <;> simp [Except.map]

end Results

namespace Expr

variable {α : Type} [Scalar α] {env : Env α}

/-- The node is a remainder or a rounding whose operands have values that leave it without a
result, with the fault that it ends in.
-/
inductive Breaks (env : Env α) : Expr α → Fault → Prop
  /-- An infinite number is divided with remainder, and not by zero. -/
  | remainder {left right : Expr α} {span : Option Span} {x y : α}
      (first : value env left = .ok x) (second : value env right = .ok y)
      (number : Scalar.isUndefined x = false) (infinite : Scalar.isFinite x = false)
      (divisor : Scalar.isUndefined y = false) (some : Scalar.isTrue y = true)
      : Breaks env (binary .mod left right span) .domain
  /-- A number is rounded to an infinite count of places. -/
  | places {function : String} {positional : List (Expr α)} {named : List (String × Expr α)}
      {span : Option Span} {xs : List α} {ys : List (String × α)} {x : α} {digits : Option α}
      (known : Builtin.ofName? function = some .round)
      (first : values env positional = .ok xs) (second : namedValues env named = .ok ys)
      (bound : bindArguments ["x", "digits"] xs ys = some [some x, digits])
      (number : Scalar.isUndefined (digits.getD Scalar.zero) = false)
      (infinite : Scalar.isFinite (digits.getD Scalar.zero) = false)
      : Breaks env (call function positional named span) .overflow
  /-- A finite number is rounded beyond the range of numbers. -/
  | beyond {function : String} {positional : List (Expr α)} {named : List (String × Expr α)}
      {span : Option Span} {xs : List α} {ys : List (String × α)} {x : α} {digits : Option α}
      {places : Int}
      (known : Builtin.ofName? function = some .round)
      (first : values env positional = .ok xs) (second : namedValues env named = .ok ys)
      (bound : bindArguments ["x", "digits"] xs ys = some [some x, digits])
      (number : Scalar.isUndefined (digits.getD Scalar.zero) = false)
      (whole : Scalar.truncate? (digits.getD Scalar.zero) = some places)
      (finite : Scalar.isFinite x = true)
      (beyond : Scalar.isFinite (Scalar.round x places) = false)
      : Breaks env (call function positional named span) .overflow

/-- Evaluation of the expression comes to the part: what is read before the part has a value, and
one that leaves the part to be read.
-/
inductive Demands (env : Env α) : Expr α → Expr α → Prop
  | operand {op : UnaryOp} {operand : Expr α} {span : Option Span}
      : Demands env (unary op operand span) operand
  | left {op : BinaryOp} {left right : Expr α} {span : Option Span}
      : Demands env (binary op left right span) left
  | right {op : BinaryOp} {left right : Expr α} {span : Option Span} {x : α}
      (first : value env left = .ok x) (undecided : shortcut op x = none)
      : Demands env (binary op left right span) right
  | argument {function : String} {positional : List (Expr α)} {named : List (String × Expr α)}
      {span : Option Span} {builtin : Builtin} {before after : List (Expr α)} {part : Expr α}
      (known : Builtin.ofName? function = some builtin)
      (among : positional ++ named.map (·.2) = before ++ part :: after)
      (earlier : ∀ e ∈ before, ∃ x, value env e = .ok x)
      : Demands env (call function positional named span) part

/-- Evaluation of the expression comes to a node of it. -/
inductive Reaches (env : Env α) : Expr α → Expr α → Prop
  | here (e : Expr α) : Reaches env e e
  | inside {e part node : Expr α} (demanded : Demands env e part)
      (reached : Reaches env part node)
      : Reaches env e node

/-- Evaluation of the node has come to all of it that it needs, and stops at the node itself. -/
inductive Halts (env : Env α) : Expr α → Halt → Prop
  | text {s : String} {span : Option Span}
      : Halts env (text s span) (.error (.textAsNumber s))
  | name {path : Path} {span : Option Span} (missing : env.lookup path.root = none)
      : Halts env (name path span) (.error (.unknownName path))
  | operator {op : BinaryOp} {left right : Expr α} {span : Option Span} {x y : α} {halt : Halt}
      (first : value env left = .ok x) (undecided : shortcut op x = none)
      (second : value env right = .ok y) (stopped : applyStrict op x y = .error halt)
      : Halts env (binary op left right span) halt
  | function {function : String} {positional : List (Expr α)} {named : List (String × Expr α)}
      {span : Option Span} (unknown : Builtin.ofName? function = none)
      : Halts env (call function positional named span) (.error (.unknownFunction function))
  | call {function : String} {positional : List (Expr α)} {named : List (String × Expr α)}
      {span : Option Span} {builtin : Builtin} {xs : List α} {ys : List (String × α)}
      {halt : Halt} (known : Builtin.ofName? function = some builtin)
      (first : values env positional = .ok xs) (second : namedValues env named = .ok ys)
      (stopped : builtin.call xs ys = .error halt)
      : Halts env (call function positional named span) halt

theorem Demands.mem_children {e part : Expr α} (demanded : Demands env e part)
    : part ∈ e.children := by
  cases demanded with
  | operand | left | right => simp [children]
  | @argument function positional named _ _ before after _ known among earlier =>
      change part ∈ positional ++ named.map (·.2)
      rw [among]
      simp

/-- What evaluation comes to is a node of the expression. -/
theorem Reaches.mem_nodes {e node : Expr α} (reached : Reaches env e node) : node ∈ e.nodes := by
  induction reached with
  | here e => exact self_mem_nodes e
  | inside demanded _ ih => exact mem_nodes_of_child demanded.mem_children ih

-----------------------------------------------------------------------------------------
-- Rows of arguments
-----------------------------------------------------------------------------------------

theorem values_cons (e : Expr α) (rest : List (Expr α))
    : values env (e :: rest) = (value env e).bind fun x => (values env rest).map (x :: ·) := by
  simp only [values]
  cases value env e with
  | error halt => rfl
  | ok x => cases values env rest <;> rfl

theorem values_append (es more : List (Expr α))
    : values env (es ++ more)
      = (values env es).bind fun xs => (values env more).map (xs ++ ·) := by
  induction es with
  | nil => cases found : values env more <;> simp [values, found, Except.bind, Except.map]
  | cons e rest ih =>
      rw [List.cons_append, values_cons, values_cons, ih]
      cases value env e with
      | error halt => rfl
      | ok x =>
          cases values env rest with
          | error halt => rfl
          | ok xs => cases values env more <;> rfl

/-- Named arguments are a row of arguments with their names beside it. -/
theorem namedValues_eq (named : List (String × Expr α))
    : namedValues env named
      = (values env (named.map (·.2))).map fun xs => (named.map (·.1)).zip xs := by
  induction named with
  | nil => rfl
  | cons entry rest ih =>
      obtain ⟨key, e⟩ := entry
      simp only [namedValues, entryValue, List.map_cons, values_cons, ih]
      cases value env e with
      | error halt => rfl
      | ok x => cases values env (rest.map (·.2)) <;> rfl

/-- A row of arguments stops at the first one that does. -/
theorem values_error_iff {es : List (Expr α)} {halt : Halt}
    : values env es = .error halt
      ↔ ∃ before part after, es = before ++ part :: after
        ∧ (∀ e ∈ before, ∃ x, value env e = .ok x) ∧ value env part = .error halt := by
  induction es with
  | nil => simp [values]
  | cons e rest ih =>
      rw [values_cons, bind_eq_error_iff]
      simp only [map_eq_error_iff, ih]
      constructor
      · rintro (stopped | ⟨x, found, before, part, after, rfl, earlier, stopped⟩)
        · exact ⟨[], e, rest, rfl, by simp, stopped⟩
        · exact ⟨e :: before, part, after, rfl,
            List.forall_mem_cons.mpr ⟨⟨x, found⟩, earlier⟩, stopped⟩
      · rintro ⟨before, part, after, split, earlier, stopped⟩
        cases before with
        | nil =>
            obtain ⟨rfl, -⟩ := List.cons.inj split
            exact Or.inl stopped
        | cons first others =>
            obtain ⟨rfl, rfl⟩ := List.cons.inj split
            obtain ⟨⟨x, found⟩, earlier⟩ := List.forall_mem_cons.mp earlier
            exact Or.inr ⟨x, found, others, part, after, rfl, earlier, stopped⟩

-----------------------------------------------------------------------------------------
-- Operators and functions
-----------------------------------------------------------------------------------------

theorem value_unary (op : UnaryOp) (operand : Expr α) (span : Option Span)
    : value env (unary op operand span) = (value env operand).map (applyUnary op) := by
  simp only [value]
  cases value env operand <;> rfl

theorem value_binary (op : BinaryOp) (left right : Expr α) (span : Option Span)
    : value env (binary op left right span)
      = (value env left).bind fun x =>
          match shortcut op x with
          | some decided => .ok decided
          | none => (value env right).bind (applyStrict op x) := by
  simp only [value]
  cases value env left with
  | error halt => rfl
  | ok x =>
      simp only [Except.bind]
      cases shortcut op x with
      | some decided => rfl
      | none => cases value env right <;> rfl

theorem value_call {function : String} {builtin : Builtin}
    (known : Builtin.ofName? function = some builtin) (positional : List (Expr α))
    (named : List (String × Expr α)) (span : Option Span)
    : value env (call function positional named span)
      = (values env positional).bind fun xs =>
          (namedValues env named).bind fun ys => builtin.call xs ys := by
  simp only [value, known]
  cases values env positional with
  | error halt => rfl
  | ok xs => cases namedValues env named <;> rfl

variable [Scalar.RangeRules α] {fault : Fault}

/-- Of all operators only the remainder breaks down, and only for an infinite number. -/
theorem applyStrict_fault_iff {op : BinaryOp} {x y : α}
    : applyStrict op x y = .error (.fault fault)
      ↔ op = .mod ∧ fault = .domain ∧ Scalar.isUndefined x = false
        ∧ Scalar.isFinite x = false ∧ Scalar.isUndefined y = false ∧ Scalar.isTrue y = true := by
  cases op with
  | mod =>
      simp only [applyStrict]
      cases some : Scalar.isTrue y with
      | false => simp
      | true =>
          cases dx : Scalar.isUndefined x with
          | true => simp
          | false =>
              cases dy : Scalar.isUndefined y with
              | true => simp
              | false =>
                  rw [Scalar.RangeRules.isUndefined_remainder dx dy some]
                  cases Scalar.isFinite x with
                  | true => simp
                  | false => simpa using eq_comm
  | _ => simp [applyStrict]

theorem roundTo_fault_iff {x digits : α}
    : roundTo x digits = .error (.fault fault)
      ↔ fault = .overflow ∧ Scalar.isUndefined digits = false
        ∧ (Scalar.isFinite digits = false
          ∨ ∃ places, Scalar.truncate? digits = some places ∧ Scalar.isFinite x = true
            ∧ Scalar.isFinite (Scalar.round x places) = false) := by
  have range := Scalar.RangeRules.truncate?_eq_none_iff digits
  unfold roundTo
  cases Scalar.isUndefined digits with
  | true => simp
  | false =>
      cases whole : Scalar.truncate? digits with
      | none =>
          rw [range.mp whole]
          simpa using eq_comm
      | some places =>
          have finite : Scalar.isFinite digits = true := by
            rw [← Bool.not_eq_false, ← range, whole]
            simp
          rw [finite]
          cases Scalar.isFinite x with
          | false => simp
          | true =>
              cases inside : Scalar.isFinite (Scalar.round x places) with
              | true => simp [inside]
              | false => simpa [inside] using eq_comm

omit [Scalar.RangeRules α] in
theorem Builtin.ofSlots_fault {function : Builtin} {slots : List (Option α)}
    (broken : function.ofSlots slots = .error (.fault fault))
    : function = .round ∧ ∃ x digits, slots = [some x, digits]
        ∧ roundTo x (digits.getD Scalar.zero) = .error (.fault fault) := by
  unfold ofSlots at broken
  split at broken
  case h_5 x digits => exact ⟨rfl, x, digits, rfl, broken⟩
  all_goals cases broken

omit [Scalar.RangeRules α] in
/-- Of all functions only rounding breaks down. -/
theorem Builtin.call_fault_iff {function : Builtin} {xs : List α} {ys : List (String × α)}
    : function.call xs ys = .error (.fault fault)
      ↔ function = .round
        ∧ ∃ x digits, bindArguments ["x", "digits"] xs ys = some [some x, digits]
          ∧ roundTo x (digits.getD Scalar.zero) = .error (.fault fault) := by
  constructor
  · intro broken
    simp only [call] at broken
    split at broken
    · split at broken
      · split at broken <;> cases broken
      · cases broken
    · rename_i parameters known
      split at broken
      · rename_i slots bound
        obtain ⟨rfl, x, digits, rfl, broken⟩ := ofSlots_fault broken
        cases known
        exact ⟨rfl, x, digits, bound, broken⟩
      · cases broken
  · rintro ⟨rfl, x, digits, bound, broken⟩
    simp only [call, parameters?, bound]
    exact broken

-----------------------------------------------------------------------------------------
-- Expressions
-----------------------------------------------------------------------------------------

/-- A node whose operands leave it without a result ends in a fault. -/
theorem Breaks.value_eq {node : Expr α} (broken : Breaks env node fault)
    : value env node = .error (.fault fault) := by
  cases broken with
  | remainder first second number infinite divisor some =>
      rw [value_binary, first]
      simp only [Except.bind, shortcut, second]
      exact applyStrict_fault_iff.mpr ⟨rfl, rfl, number, infinite, divisor, some⟩
  | places known first second bound number infinite =>
      rw [value_call known, first, second]
      exact Builtin.call_fault_iff.mpr ⟨rfl, _, _, bound,
        roundTo_fault_iff.mpr ⟨rfl, number, Or.inl infinite⟩⟩
  | beyond known first second bound number whole finite beyond =>
      rw [value_call known, first, second]
      exact Builtin.call_fault_iff.mpr ⟨rfl, _, _, bound,
        roundTo_fault_iff.mpr ⟨rfl, number, Or.inr ⟨_, whole, finite, beyond⟩⟩⟩

omit [Scalar.RangeRules α] in
/-- What stops a part that evaluation comes to stops the expression. -/
theorem Demands.stops {e part : Expr α} {halt : Halt} (demanded : Demands env e part)
    (stopped : value env part = .error halt)
    : value env e = .error halt := by
  cases demanded with
  | operand =>
      rw [value_unary, map_eq_error_iff]
      exact stopped
  | left =>
      rw [value_binary, bind_eq_error_iff]
      exact Or.inl stopped
  | right first undecided =>
      rw [value_binary, first]
      simp only [Except.bind, undecided, stopped]
  | argument known among earlier =>
      have row := values_error_iff.mpr ⟨_, _, _, among, earlier, stopped⟩
      rw [values_append, bind_eq_error_iff] at row
      rw [value_call known, bind_eq_error_iff]
      rcases row with first | ⟨xs, first, second⟩
      · exact Or.inl first
      · rw [map_eq_error_iff] at second
        refine Or.inr ⟨xs, first, ?_⟩
        rw [namedValues_eq, second]
        rfl

omit [Scalar.RangeRules α] in
/-- Evaluation of an expression that stops does so at the expression itself or at a part that it
comes to.
-/
theorem halts_or_demands {e : Expr α} {halt : Halt} (stopped : value env e = .error halt)
    : Halts env e halt ∨ ∃ part, Demands env e part ∧ value env part = .error halt := by
  cases e with
  | number | percentage | currency | boolean => cases stopped
  | text s span =>
      cases stopped
      exact Or.inl .text
  | name path span =>
      simp only [value] at stopped
      split at stopped
      case h_1 => cases stopped
      case h_2 missing =>
        cases stopped
        exact Or.inl (.name missing)
  | unary op operand span =>
      rw [value_unary, map_eq_error_iff] at stopped
      exact Or.inr ⟨operand, .operand, stopped⟩
  | binary op left right span =>
      rw [value_binary, bind_eq_error_iff] at stopped
      rcases stopped with stopped | ⟨x, first, stopped⟩
      · exact Or.inr ⟨left, .left, stopped⟩
      · cases undecided : shortcut op x with
        | some decided =>
            rw [undecided] at stopped
            cases stopped
        | none =>
            rw [undecided] at stopped
            rcases bind_eq_error_iff.mp stopped with stopped | ⟨y, second, stopped⟩
            · exact Or.inr ⟨right, .right first undecided, stopped⟩
            · exact Or.inl (.operator first undecided second stopped)
  | call function positional named span =>
      cases known : Builtin.ofName? function with
      | none =>
          simp only [value, known] at stopped
          cases stopped
          exact Or.inl (.function known)
      | some builtin =>
          have argument (row : values env (positional ++ named.map (·.2)) = .error halt)
              : ∃ part, Demands env (call function positional named span) part
                ∧ value env part = .error halt := by
            obtain ⟨before, part, after, among, earlier, stopped⟩ := values_error_iff.mp row
            exact ⟨part, .argument known among earlier, stopped⟩
          rw [value_call known, bind_eq_error_iff] at stopped
          rcases stopped with stopped | ⟨xs, first, stopped⟩
          · refine Or.inr (argument ?_)
            rw [values_append, stopped]
            rfl
          · rcases bind_eq_error_iff.mp stopped with stopped | ⟨ys, second, stopped⟩
            · refine Or.inr (argument ?_)
              rw [namedValues_eq, map_eq_error_iff] at stopped
              rw [values_append, first, stopped]
              rfl
            · exact Or.inl (.call known first second stopped)

omit [Scalar.RangeRules α] in
/-- An evaluation that stops has come to where it does, by induction on the parts that it demands.
-/
theorem exists_halts {e : Expr α} {halt : Halt} (stopped : value env e = .error halt)
    : ∃ node, Reaches env e node ∧ Halts env node halt := by
  induction e using induction_on_children with
  | step e ih =>
      rcases halts_or_demands stopped with here | ⟨part, demanded, inside⟩
      · exact ⟨e, .here e, here⟩
      · obtain ⟨node, reached, halts⟩ := ih part demanded.mem_children inside
        exact ⟨node, .inside demanded reached, halts⟩

/-- A node where a fault comes up is a remainder or a rounding without a result. -/
theorem Halts.breaks {node : Expr α} (halts : Halts env node (.fault fault))
    : Breaks env node fault := by
  cases halts with
  | operator first _ second stopped =>
      obtain ⟨rfl, rfl, number, infinite, divisor, some⟩ := applyStrict_fault_iff.mp stopped
      exact .remainder first second number infinite divisor some
  | call known first second stopped =>
      obtain ⟨rfl, x, digits, bound, broken⟩ := Builtin.call_fault_iff.mp stopped
      obtain ⟨rfl, number, infinite | ⟨places, whole, finite, beyond⟩⟩ :=
        roundTo_fault_iff.mp broken
      · exact .places known first second bound number infinite
      · exact .beyond known first second bound number whole finite beyond

omit [Scalar.RangeRules α] in
/-- A magnitude is read as far as a value is, and stops for the same reason. -/
theorem magnitude_error_iff (e : Expr α) {halt : Halt}
    : magnitude env e = .error halt ↔ value env e = .error halt := by
  induction e using induction_on_children with
  | step e ih =>
      cases e with
      | unary op operand span =>
          have inner := ih operand (by simp [children])
          rw [value_unary, map_eq_error_iff]
          cases op with
          | not => rw [magnitude, value_unary, map_eq_error_iff] <;> simp
          | plus | plusMinus => exact inner
          | minus =>
              have negated : magnitude env (unary .minus operand span)
                  = (magnitude env operand).map (-·) := by
                simp only [magnitude]
                cases magnitude env operand <;> rfl
              rw [negated, map_eq_error_iff]
              exact inner
      | percentage x span => exact ⟨nofun, nofun⟩
      | number | currency | text | boolean | name | binary | call => rfl

/-- An evaluation that breaks down has come to what breaks it down. -/
theorem exists_breaks {env : Env α} {e : Expr α} (broken : value env e = .error (.fault fault))
    : ∃ node, Reaches env e node ∧ Breaks env node fault := by
  obtain ⟨node, reached, halts⟩ := exists_halts broken
  exact ⟨node, reached, halts.breaks⟩

/-- Evaluation breaks down exactly where it comes to a remainder of an infinite number or to a
rounding without a result, and with their faults. In all other cases it ends with a value or with
an error of the expression.

Witness: `rounding_reached`
-/
theorem value_fault_iff (env : Env α) (e : Expr α) (fault : Fault)
    : value env e = .error (.fault fault) ↔ ∃ node, Reaches env e node ∧ Breaks env node fault := by
  refine ⟨exists_breaks, ?_⟩
  rintro ⟨node, reached, broken⟩
  induction reached with
  | here e => exact broken.value_eq
  | inside demanded _ ih => exact demanded.stops (ih broken)

/-- A sum reaches the rounding in it. -/
theorem rounding_reached
    : ∃ node, Reaches ([] : Env Float) (binary .add (number (Scalar.ofNat 1) none)
        (call "round" [number (Scalar.ofNat 2) none, number Scalar.infinity none] [] none) none)
        node ∧ Breaks [] node .overflow :=
  (value_fault_iff _ _ _).mp rfl

/-- The remainder of an infinite number breaks down, and not as an error of the expression. -/
theorem infinite_remainder_breaks
    : ∃ p, expression (TokenText.scan "1e999 % 2" : TokenText Extended).tokens = .ok p
      ∧ p.rest = [] ∧ value [] p.value = .error (.fault .domain) := by
  have source : (TokenText.scan "1e999 % 2" : TokenText Extended).tokens
      = [⟨.number (.infinite false), "1e999", ⟨1, 1⟩⟩, ⟨.sign .percent, "%", ⟨1, 7⟩⟩,
        ⟨.number (.whole 2), "2", ⟨1, 9⟩⟩] := by
    cbv
  obtain ⟨p, read, same, rest⟩ := exists_read (e := .binary .mod
    (.number (.infinite false) (some ⟨1, 1⟩)) (.number (.whole 2) (some ⟨1, 9⟩)) (some ⟨1, 7⟩))
    source (by cbv)
  refine ⟨p, read, rest, ?_⟩
  rw [same]
  cbv

end Expr

end Prognosis
