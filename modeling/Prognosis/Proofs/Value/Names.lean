import Prognosis.Proofs.Grammar.Exactness
import Prognosis.Proofs.Token.Dates
import Prognosis.Proofs.Value.Breakdown
import Prognosis.Proofs.Value.Resolved

/-! What an expression reads is what its names tell.

An address says which part to go down to at each step, so that equal parts are told apart, and
addresses in lexicographic order have an expression before its parts and the parts from left to
right. The walk over an expression comes to all addresses in this order, and to each of them once.
Every name is written as the word it begins with, and the words come in the order of the names.
Evaluation asks for the values of names alone and comes to no node beside those that the walk lists,
so that a name without a value is one of those that are listed.
-/

namespace Prognosis

open Grammar Token

-----------------------------------------------------------------------------------------
-- Lists by addresses
-----------------------------------------------------------------------------------------

/-- Which part of an expression to go down to at each step, counted from the left. -/
abbrev Address := List Nat

variable {α β : Type}

/-- What is found by address, as a list: the addresses with something are in lexicographic order,
each of them once.
-/
structure Lists (find : Address → Option β) (addresses : List Address) (found : List β) : Prop where
  ascending : addresses.Pairwise (· < ·)
  exactly : ∀ address, address ∈ addresses ↔ (find address).isSome
  values : addresses.map find = found.map some

namespace Lists

/-- Found at the empty address alone. -/
def alone (x : Option β) : Address → Option β
  | [] => x
  | _ :: _ => none

/-- Found in one of the parts alone. -/
def within (part : Nat) (find : Address → Option β) : Address → Option β
  | [] => none
  | step :: address => if step = part then find address else none

theorem of_none {find : Address → Option β} (nowhere : ∀ address, find address = none)
    : Lists find [] [] := {
  ascending := .nil
  exactly := fun address => by simp [nowhere]
  values := rfl
}

theorem of_alone (x : Option β) : Lists (alone x) (x.toList.map fun _ => []) x.toList := by
  cases x with
  | none => exact of_none fun address => by cases address <;> rfl
  | some x =>
      refine ⟨List.pairwise_singleton _ _, fun address => ?_, rfl⟩
      cases address <;> simp [alone]

variable {find further all : Address → Option β} {addresses later : List Address}
  {found more : List β}

theorem of_within (part : Nat) (inside : Lists find addresses found)
    : Lists (within part find) (addresses.map (part :: ·)) found := by
  refine ⟨?ascending, fun address => ?exactly, ?values⟩
  case ascending =>
    exact List.pairwise_map.mpr (inside.ascending.imp fun less =>
      List.cons_lt_cons_iff.mpr (.inr ⟨rfl, less⟩))
  case exactly =>
    cases address with
    | nil => simp [within]
    | cons step address =>
        by_cases here : step = part
        · simp [within, here, inside.exactly]
        · simp [within, here, Ne.symm here]
  case values =>
    rw [← inside.values, List.map_map]
    exact List.map_congr_left fun address _ => if_pos rfl

/-- What is found in two places, all of the first one before the second one. -/
theorem append (first : Lists find addresses found) (second : Lists further later more)
    (before : ∀ address ∈ addresses, ∀ other ∈ later, address < other)
    (either : ∀ address, all address = (find address).or (further address))
    : Lists all (addresses ++ later) (found ++ more) := by
  refine ⟨List.pairwise_append.mpr ⟨first.ascending, second.ascending, before⟩,
    fun address => ?exactly, ?values⟩
  case exactly =>
    rw [List.mem_append, first.exactly, second.exactly, either, Option.isSome_or, Bool.or_eq_true]
  case values =>
    have left : addresses.map all = addresses.map find := by
      refine List.map_congr_left fun address member => ?_
      obtain ⟨x, is⟩ := Option.isSome_iff_exists.mp ((first.exactly address).mp member)
      rw [either, is, Option.some_or]
    have right : later.map all = later.map further := by
      refine List.map_congr_left fun address member => ?_
      rw [either]
      cases is : find address with
      | none => rfl
      | some x =>
          -- an address in both lists would come before itself
          have among := (first.exactly address).mpr (by rw [is, Option.isSome_some])
          exact absurd (before address among address member) (List.lt_irrefl address)
    rw [List.map_append, left, right, first.values, second.values, List.map_append]

end Lists

-----------------------------------------------------------------------------------------
-- Expressions by addresses
-----------------------------------------------------------------------------------------

namespace Expr

/-- The node at an address. -/
def at? : Expr α → Address → Option (Expr α)
  | e, [] => some e
  | e, step :: address =>
      match e.children[step]? with
      | none => none
      | some part => part.at? address

/-- What the node at an address is taken for, if there is one and it is taken for something. -/
def pickAt (pick : Expr α → Option β) (e : Expr α) (address : Address) : Option β :=
  (e.at? address).bind pick

/-- The list holds what the nodes of the expression are taken for, an expression before its parts
and the parts from left to right.
-/
def InTreeOrder (pick : Expr α → Option β) (e : Expr α) (found : List β) : Prop :=
  ∃ addresses, Lists (e.pickAt pick) addresses found

/-- What is found in the parts from one of them on. -/
def pickFrom (pick : Expr α → Option β) (e : Expr α) (start : Nat) : Address → Option β
  | [] => none
  | step :: address => if start ≤ step then e.pickAt pick (step :: address) else none

/-- What the nodes are taken for: first the expression itself, then what is in its parts. -/
theorem filterMap_nodes (pick : Expr α → Option β) (e : Expr α)
    : e.nodes.filterMap pick
      = (pick e).toList ++ e.children.flatMap fun part => part.nodes.filterMap pick := by
  rw [nodes_eq, ← List.filterMap_flatMap]
  cases is : pick e <;> simp [is]

variable {pick : Expr α → Option β} {e : Expr α} {start : Nat}

/-- An expression is found beside its parts. -/
theorem pickAt_eq (address : Address)
    : e.pickAt pick address = (Lists.alone (pick e) address).or (e.pickFrom pick 0 address) := by
  cases address with
  | nil => simp [pickAt, at?, Lists.alone, pickFrom]
  | cons step address => simp [Lists.alone, pickFrom]

/-- A part is found beside those behind it. -/
theorem pickFrom_eq {part : Expr α} (child : e.children[start]? = some part) (address : Address)
    : e.pickFrom pick start address
      = (Lists.within start (part.pickAt pick) address).or
          (e.pickFrom pick (start + 1) address) := by
  cases address with
  | nil => rfl
  | cons step address =>
      by_cases here : step = start
      case pos =>
        have inside : e.pickAt pick (start :: address) = part.pickAt pick address := by
          simp only [pickAt, at?, child]
        simp [pickFrom, Lists.within, here, inside]
      case neg =>
        have behind : start ≤ step ↔ start + 1 ≤ step := by omega
        simp only [pickFrom, Lists.within, if_neg here, behind, Option.none_or]

/-- Behind the last part there is nothing. -/
theorem pickFrom_eq_none (beyond : e.children.length ≤ start) (address : Address)
    : e.pickFrom pick start address = none := by
  cases address with
  | nil => rfl
  | cons step address =>
      by_cases reached : start ≤ step
      case pos =>
        have none : e.children[step]? = none :=
          List.getElem?_eq_none (Nat.le_trans beyond reached)
        simp [pickFrom, pickAt, at?, none]
      case neg => exact if_neg reached

theorem exists_step {address : Address} (found : (e.pickFrom pick start address).isSome)
    : ∃ step below, address = step :: below ∧ start ≤ step := by
  cases address with
  | nil => cases found
  | cons step below =>
      by_cases reached : start ≤ step
      case pos => exact ⟨step, below, rfl, reached⟩
      case neg => simp [pickFrom, reached] at found

/-- What is found in the parts from one of them on, by induction on these parts. -/
theorem exists_lists {parts : List (Expr α)} (rest : e.children.drop start = parts)
    (each : ∀ part ∈ parts, InTreeOrder pick part (part.nodes.filterMap pick))
    : ∃ addresses, Lists (e.pickFrom pick start) addresses
        (parts.flatMap fun part => part.nodes.filterMap pick) := by
  induction parts generalizing start with
  | nil => exact ⟨[], .of_none (pickFrom_eq_none (List.drop_eq_nil_iff.mp rest))⟩
  | cons part more ih =>
      have child : e.children[start]? = some part := by
        rw [← List.head?_drop, rest, List.head?_cons]
      have tail : e.children.drop (start + 1) = more := by
        rw [← List.tail_drop, rest, List.tail_cons]
      obtain ⟨addresses, inside⟩ := each part (by simp)
      obtain ⟨later, behind⟩ := ih tail fun part member => each part (by simp [member])
      rw [List.flatMap_cons]
      refine ⟨_, (inside.of_within start).append behind ?_ (pickFrom_eq child)⟩
      intro address member other further
      obtain ⟨below, -, rfl⟩ := List.mem_map.mp member
      obtain ⟨step, under, rfl, beyond⟩ := exists_step ((behind.exactly other).mp further)
      exact List.cons_lt_cons_iff.mpr (.inl beyond)

/-- The walk over an expression comes to each of its nodes once, to an expression before its parts
and to the parts from left to right. By induction on the parts.
-/
theorem inTreeOrder_nodes (pick : Expr α → Option β) (e : Expr α)
    : InTreeOrder pick e (e.nodes.filterMap pick) := by
  induction e using induction_on_children with
  | step e ih =>
      have whole : e.children.drop 0 = e.children := List.drop_zero
      obtain ⟨addresses, below⟩ := exists_lists whole ih
      rw [filterMap_nodes]
      refine ⟨_, (Lists.of_alone (pick e)).append below ?_ pickAt_eq⟩
      intro address member other further
      obtain ⟨-, -, rfl⟩ := List.mem_map.mp member
      obtain ⟨step, under, rfl, -⟩ := exists_step ((below.exactly other).mp further)
      exact List.nil_lt_cons step under

end Expr

-----------------------------------------------------------------------------------------
-- Names of a node and of its parts
-----------------------------------------------------------------------------------------

namespace Expr

theorem names_eq (e : Expr α) : e.names = e.name?.toList ++ e.children.flatMap names :=
  filterMap_nodes name? e

theorem names_name (path : Path) (span : Option Span)
    : (name path span : Expr α).names = [(path, span)] := by
  simp [names_eq, name?, children]

theorem names_binary (op : BinaryOp) (left right : Expr α) (span : Option Span)
    : (binary op left right span).names = left.names ++ right.names := by
  simp [names_eq (binary op left right span), name?, children]

theorem names_unary (op : UnaryOp) (operand : Expr α) (span : Option Span)
    : (unary op operand span).names = operand.names := by
  simp [names_eq (unary op operand span), name?, children]

theorem names_call (function : String) (positional : List (Expr α))
    (named : List (String × Expr α)) (span : Option Span)
    : (call function positional named span).names
      = positional.flatMap names ++ named.flatMap (·.2.names) := by
  simp [names_eq (call function positional named span), name?, children, List.flatMap_map]

theorem names_of_literal {t : Token α} {e : Expr α} (is : t.literal? = some e) : e.names = [] := by
  have leaf : e.name? = none ∧ e.children = [] := by
    unfold Token.literal? at is
    split at is
    case h_1 | h_2 | h_3 | h_4 =>
      cases is
      exact ⟨rfl, rfl⟩
    case h_5 =>
      split at is
      case isTrue =>
        cases is
        exact ⟨rfl, rfl⟩
      case isFalse =>
        split at is
        case isTrue =>
          cases is
          exact ⟨rfl, rfl⟩
        case isFalse => cases is
    case h_6 => cases is
  simp [names_eq e, leaf]

end Expr

-----------------------------------------------------------------------------------------
-- Names among tokens
-----------------------------------------------------------------------------------------

/-- The names begin with these words of the tokens, in their order and at their places. -/
structure BeginWith (names : List (Path × Option Span)) (words ts : List (Token α)) : Prop where
  among : words.Sublist ts
  each : ∀ t ∈ words, t.kind = .word
  same : names.map (fun name => (name.1.root, name.2)) = words.map fun t => (t.text, some t.span)

/-- The names begin with words among the tokens, in their order. -/
def FoundIn (names : List (Path × Option Span)) (ts : List (Token α)) : Prop :=
  ∃ words, BeginWith names words ts

namespace FoundIn

variable {names more : List (Path × Option Span)} {ts us : List (Token α)}

theorem nil (ts : List (Token α)) : FoundIn [] ts :=
  ⟨[], List.nil_sublist ts, nofun, rfl⟩

theorem mono (found : FoundIn names ts) (among : ts.Sublist us) : FoundIn names us := by
  obtain ⟨words, taken, each, same⟩ := found
  exact ⟨words, taken.trans among, each, same⟩

/-- A token may stand in front with which no name begins. -/
theorem cons (t : Token α) (found : FoundIn names ts) : FoundIn names (t :: ts) :=
  found.mono (List.sublist_cons_self t ts)

theorem append (first : FoundIn names ts) (second : FoundIn more us)
    : FoundIn (names ++ more) (ts ++ us) := by
  obtain ⟨words, taken, each, same⟩ := first
  obtain ⟨others, takenMore, eachMore, sameMore⟩ := second
  refine ⟨words ++ others, taken.append takenMore, ?_, ?_⟩
  · exact List.forall_mem_append.mpr ⟨each, eachMore⟩
  · rw [List.map_append, List.map_append, same, sameMore]

end FoundIn

mutual

/-- The names of an expression are found among the tokens that write it. -/
theorem Grammar.Derives.foundIn : {s : Stratum} → {ts : List (Token α)} → {e : Expr α}
    → Derives s ts e → FoundIn e.names ts
  | _, _, _, .operand inner => inner.foundIn
  | _, _, _, .joined first _ _ second => by
      rw [Expr.names_binary]
      exact first.foundIn.append (second.foundIn.cons _)
  | _, _, _, .prefixed _ inner => by
      rw [Expr.names_unary]
      exact inner.foundIn.cons _
  | _, _, _, .unprefixed inner => inner.foundIn
  | _, _, _, .raised first _ second => by
      rw [Expr.names_binary]
      exact first.foundIn.append (second.foundIn.cons _)
  | _, _, _, .unraised inner => inner.foundIn
  | _, _, _, .literal is => by
      rw [Expr.names_of_literal is]
      exact .nil _
  | _, _, _, .parentheses _ inner _ =>
      (inner.foundIn.mono (List.sublist_append_left _ _)).cons _
  | _, _, _, @Derives.name _ t ts names namable dotted => by
      rw [Expr.names_name]
      exact ⟨[t], List.singleton_sublist.mpr List.mem_cons_self,
        List.forall_mem_singleton.mpr namable.1, rfl⟩
  | _, _, _, .call _ _ arguments _ => by
      rw [Expr.names_call]
      exact ((arguments.foundIn.mono (List.sublist_append_left _ _)).cons _).cons _

/-- Positional arguments come before named ones, in their names as in the tokens. -/
theorem Grammar.DerivesArguments.foundIn : {ts : List (Token α)} → {positional : List (Expr α)}
    → {named : List (String × Expr α)} → DerivesArguments ts positional named
    → FoundIn (positional.flatMap Expr.names ++ named.flatMap (·.2.names)) ts
  | _, _, _, .none => .nil []
  | _, _, _, .positional _ first others => by
      rw [List.flatMap_cons, List.append_assoc]
      exact first.foundIn.append others.foundIn
  | _, _, _, .named _ _ first others => by
      rw [List.flatMap_nil, List.nil_append, List.flatMap_cons]
      exact ((first.foundIn.append others.foundIn).cons _).cons _

theorem Grammar.DerivesMore.foundIn : {ts : List (Token α)} → {positional : List (Expr α)}
    → {named : List (String × Expr α)} → DerivesMore ts positional named
    → FoundIn (positional.flatMap Expr.names ++ named.flatMap (·.2.names)) ts
  | _, _, _, .none => .nil []
  | _, _, _, .comma _ others => others.foundIn.cons _

end

-----------------------------------------------------------------------------------------
-- Names in a text
-----------------------------------------------------------------------------------------

/-- Tokens of a text are in the order of their places. -/
theorem Token.scan_ordered [Scalar α] (source : String)
    : (TokenText.scan source : TokenText α).tokens.Pairwise fun t u => t.span.Before u.span := by
  refine List.pairwise_filterMap.mpr ((pieces_ordered ⟨1, 1⟩ source.toList).2.imp ?_)
  intro p q before t isFirst u isSecond
  obtain ⟨-, -, rfl⟩ := Option.map_eq_some_iff.mp isFirst
  obtain ⟨-, -, rfl⟩ := Option.map_eq_some_iff.mp isSecond
  exact before

/-- The names are words of the text behind the start of the tokens, in the order of the text. -/
theorem Grammar.exists_words [Scalar α] {source : String} {before ts rest : List (Token α)}
    {e : Expr α} (tokens : (TokenText.scan source).tokens = before ++ ts)
    (reads : (expression ts).Reads e rest)
    : ∃ taken words, ts = taken ++ rest ∧ BeginWith e.names words taken
        ∧ words.Pairwise fun t u => t.span.Before u.span := by
  obtain ⟨taken, same, derived⟩ := binary_derives .disjunction ts reads
  obtain ⟨words, found⟩ := derived.foundIn
  refine ⟨taken, words, same, found, ?_⟩
  have ordered := Token.scan_ordered (α := α) source
  rw [tokens, same, List.pairwise_append, List.pairwise_append] at ordered
  exact ordered.2.1.1.sublist found.among

-----------------------------------------------------------------------------------------
-- Names and values
-----------------------------------------------------------------------------------------

namespace Expr

variable [Scalar α] {env : Env α} {e node : Expr α} {path : Path}

/-- Of all that stops an evaluation only a name itself is a name without a value: operators and
functions ask for none.
-/
theorem unknownName_of_halts (halts : Halts env node (.error (.unknownName path)))
    : (∃ span, node = name path span) ∧ env.lookup path.root = none := by
  cases halts with
  | name missing => exact ⟨⟨_, rfl⟩, missing⟩
  | operator _ _ _ stopped => exact absurd trivial ((applyStrict_resolves ..).reason stopped)
  | call _ _ _ stopped => exact absurd trivial ((Builtin.call_resolves ..).reason stopped)

/-- What stops an evaluation stops it wherever the evaluation comes to it. -/
theorem Reaches.stops {halt : Halt} (reached : Reaches env e node)
    (stopped : value env node = .error halt)
    : value env e = .error halt := by
  induction reached with
  | here e => exact stopped
  | inside demanded _ ih => exact demanded.stops (ih stopped)

/-- A name is unknown exactly where evaluation comes to it and it has no value. -/
theorem value_unknownName_iff
    : value env e = .error (.error (.unknownName path))
      ↔ (∃ span, Reaches env e (name path span)) ∧ env.lookup path.root = none := by
  constructor
  · intro stopped
    obtain ⟨node, reached, halts⟩ := exists_halts stopped
    obtain ⟨⟨span, rfl⟩, missing⟩ := unknownName_of_halts halts
    exact ⟨⟨span, reached⟩, missing⟩
  · rintro ⟨⟨span, reached⟩, missing⟩
    refine reached.stops ?_
    simp only [value, missing]

/-- A name that is unknown is one of those that the expression reads. -/
theorem mem_roots_of_unknownName (stopped : value env e = .error (.error (.unknownName path)))
    : path.root ∈ e.roots ∧ env.lookup path.root = none := by
  obtain ⟨⟨span, reached⟩, missing⟩ := value_unknownName_iff.mp stopped
  exact ⟨mem_roots_iff.mpr ⟨path, span, reached.mem_nodes, rfl⟩, missing⟩

/-- The names of an expression are what it reads. The walk lists its nodes and its names once each,
an expression before its parts and the parts from left to right; where it is read from the tokens of
a text, the names are words of the text, in the order of the text. Its value and its magnitude
depend on the values of the names that it lists and on nothing else, and where all of them have
values no name is unknown.

Witness: `rounded_total_reads`
-/
theorem names_are_what_is_read (e : Expr α)
    : InTreeOrder some e e.nodes ∧ InTreeOrder name? e e.names
      ∧ (∀ (source : String) (before ts rest : List (Token α)),
          (TokenText.scan source).tokens = before ++ ts → (expression ts).Reads e rest →
          ∃ taken words, ts = taken ++ rest ∧ BeginWith e.names words taken
            ∧ words.Pairwise fun t u => t.span.Before u.span)
      ∧ (∀ env env', AgreeOn e.roots env env' →
          value env e = value env' e ∧ magnitude env e = magnitude env' e)
      ∧ ∀ env : Env α, (∀ root ∈ e.roots, env.lookup root ≠ none) → ∀ path,
          value env e ≠ .error (.error (.unknownName path))
            ∧ magnitude env e ≠ .error (.error (.unknownName path)) := by
  refine ⟨?nodes, ?names, ?source, ?agree, ?known⟩
  case nodes => simpa only [List.filterMap_some] using inTreeOrder_nodes some e
  case names => exact inTreeOrder_nodes name? e
  case source =>
    intro source before ts rest tokens reads
    exact exists_words tokens reads
  case agree =>
    intro env env' agree
    exact ⟨value_congr e agree, magnitude_congr e agree⟩
  case known =>
    intro env bound path
    have never : value env e ≠ .error (.error (.unknownName path)) := by
      intro stopped
      obtain ⟨read, missing⟩ := mem_roots_of_unknownName stopped
      exact bound path.root read missing
    exact ⟨never, fun stopped => never ((magnitude_error_iff e).mp stopped)⟩

/-- Written as "a + round(b.c, digits = a)". -/
def roundedTotal : Expr Extended :=
  binary .add (name ⟨"a", []⟩ (some ⟨1, 1⟩))
    (call "round" [name ⟨"b", ["c"]⟩ (some ⟨1, 11⟩)]
      [("digits", name ⟨"a", []⟩ (some ⟨1, 25⟩))] (some ⟨1, 5⟩))
    (some ⟨1, 3⟩)

theorem names_roundedTotal
    : roundedTotal.names
      = [(⟨"a", []⟩, some ⟨1, 1⟩), (⟨"b", ["c"]⟩, some ⟨1, 11⟩), (⟨"a", []⟩, some ⟨1, 25⟩)] := by
  simp [roundedTotal, names_binary, names_call, names_name]

/-- A name that is read twice is listed twice, in the order of the text; a value that is not read
does not matter; and with values for both names none is unknown.
-/
theorem rounded_total_reads
    : let text : TokenText Extended := .scan "a + round(b.c, digits = a)"
      let env : Env Extended := [("a", .whole 1), ("b", .whole 2)]
      InTreeOrder name? roundedTotal
          [(⟨"a", []⟩, some ⟨1, 1⟩), (⟨"b", ["c"]⟩, some ⟨1, 11⟩), (⟨"a", []⟩, some ⟨1, 25⟩)]
        ∧ (∃ words, BeginWith roundedTotal.names words text.tokens
          ∧ words.Pairwise fun t u => t.span.Before u.span)
        ∧ value env roundedTotal = value (("c", .whole 3) :: env) roundedTotal
        ∧ ∀ path, value env roundedTotal ≠ .error (.error (.unknownName path)) := by
  intro text env
  have source : text.tokens
      = [⟨.word, "a", ⟨1, 1⟩⟩, ⟨.sign .plus, "+", ⟨1, 3⟩⟩, ⟨.word, "round", ⟨1, 5⟩⟩,
        ⟨.sign .lparen, "(", ⟨1, 10⟩⟩, ⟨.word, "b", ⟨1, 11⟩⟩, ⟨.sign .dot, ".", ⟨1, 12⟩⟩,
        ⟨.word, "c", ⟨1, 13⟩⟩, ⟨.sign .comma, ",", ⟨1, 14⟩⟩, ⟨.word, "digits", ⟨1, 16⟩⟩,
        ⟨.sign .assign, "=", ⟨1, 23⟩⟩, ⟨.word, "a", ⟨1, 25⟩⟩, ⟨.sign .rparen, ")", ⟨1, 26⟩⟩] := by
    cbv
  have reads : (expression text.tokens).Reads roundedTotal [] := exists_read source (by cbv)
  have roots : roundedTotal.roots = ["a", "b", "a"] := by
    rw [Expr.roots, names_roundedTotal]
    rfl
  obtain ⟨-, listed, written, alike, known⟩ := names_are_what_is_read roundedTotal
  rw [names_roundedTotal] at listed
  refine ⟨listed, ?_, (alike env (("c", .whole 3) :: env) ?_).1, fun path => (known env ?_ path).1⟩
  · obtain ⟨taken, words, same, found, ordered⟩ :=
      written "a + round(b.c, digits = a)" [] text.tokens [] rfl reads
    rw [List.append_nil] at same
    exact ⟨words, same ▸ found, ordered⟩
  · rw [roots, AgreeOn]
    decide
  · rw [roots]
    decide

end Expr

end Prognosis
