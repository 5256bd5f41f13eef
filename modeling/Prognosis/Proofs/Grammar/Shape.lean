import Prognosis.Proofs.Grammar.Exactness
import Prognosis.Proofs.Syntax.Places
import Prognosis.Proofs.Token.Numeral

/-! Shapes of expressions that their texts keep. A text does not keep an operator in front of the
base of a power, a power as such a base, an argument that begins as a named one, a line end in a
text, and a number of more digits than are written.
-/

namespace Prognosis

open Grammar Token

variable {α : Type}

-----------------------------------------------------------------------------------------
-- Strata
-----------------------------------------------------------------------------------------

/-- The stratum of an operator between two operands. -/
def BinaryOp.stratum : BinaryOp → Stratum
  | or => .binary .disjunction
  | and => .binary .conjunction
  | eq | ne | lt | le | gt | ge => .binary .comparison
  | add | sub => .binary .additive
  | mul | div | mod => .binary .multiplicative
  | pow => .power

theorem BinaryOp.strength_stratum (op : BinaryOp) : op.stratum.strength = op.precedence := by
  cases op <;> rfl

theorem Grammar.Stratum.le_strength (s : Stratum)
    : (binary .disjunction).strength ≤ s.strength := by
  cases s with
  | binary level => cases level <;> decide
  | unary | power | primary => decide

theorem BinaryOp.exists_level {op : BinaryOp} (other : op ≠ .pow)
    : ∃ level, op.stratum = .binary level ∧ op.precedence = level.strength := by
  cases op with
  | pow => exact absurd rfl other
  | or | and | eq | ne | lt | le | gt | ge | add | sub | mul | div | mod => exact ⟨_, rfl, rfl⟩

namespace Expr

/-- The stratum of an expression. -/
def stratum : Expr α → Stratum
  | binary op _ _ _ => op.stratum
  | unary _ _ _ => .unary
  | number .. | percentage .. | currency .. | text .. | boolean .. | name .. | call .. => .primary

/-- The stratum of an expression as it is written where operators of the strength bind: weaker
operators between two operands stand in parentheses.
-/
def writtenStratum (strength : Nat) : Expr α → Stratum
  | binary op _ _ _ => if op.precedence < strength then .primary else op.stratum
  | e => e.stratum

/-- Expressions are written no weaker than is required of operands, up to those of operators in
front.
-/
theorem le_strength_writtenStratum (e : Expr α) {required strength : Nat}
    (within : required ≤ strength) (bound : required ≤ Stratum.unary.strength)
    : required ≤ (e.writtenStratum strength).strength := by
  have primary : required ≤ Stratum.primary.strength := Nat.le_trans bound (by decide)
  cases e with
  | binary op left right span =>
      rw [writtenStratum]
      by_cases weak : op.precedence < strength
      case pos => rwa [if_pos weak]
      case neg =>
        rw [if_neg weak, op.strength_stratum]
        omega
  | unary => exact bound
  | number | percentage | currency | text | boolean | name | call => exact primary

/-- The base of a power is written as a primary expression, unless it is a power itself or has an
operator in front.
-/
theorem writtenStratum_base {e : Expr α} (plain : e.stratum ≠ .unary ∧ e.stratum ≠ .power)
    : e.writtenStratum BinaryOp.pow.precedence = .primary := by
  cases e with
  | binary op left right span =>
      cases op with
      | pow => exact absurd rfl plain.2
      | or | and | eq | ne | lt | le | gt | ge | add | sub | mul | div | mod => rfl
  | unary => exact absurd rfl plain.1
  | number | percentage | currency | text | boolean | name | call => rfl

-----------------------------------------------------------------------------------------
-- Shapes that are read again
-----------------------------------------------------------------------------------------

/-- The expression is one word: a name of one segment, or a truth value. -/
def isWord : Expr α → Bool
  | name path _ => path.rest.isEmpty
  | boolean _ _ => true
  | _ => false

/-- The text of the expression begins with a word and a double equals sign. -/
def opensNamed : Expr α → Bool
  | binary op left _ _ =>
      op == .eq && left.isWord
        || decide (op.precedence ≤ left.stratum.strength) && left.opensNamed
  | _ => false

/-- The text of the node is read as it was meant: numbers are written exactly and amounts of money
without a magnitude, texts stand on one line, the base of a power is no power and has no operator in
front, and no argument by position begins as a named one.
-/
def IsLegible [Scalar α] : Expr α → Prop
  | number x _ | percentage x _ => Scalar.PrintsExactly x
  | currency x _ magnitude _ => magnitude = none ∧ Scalar.PrintsExactly x
  | text value _ => '\n' ∉ value.toList
  | binary op base _ _ => op = .pow → base.stratum ≠ .unary ∧ base.stratum ≠ .power
  | call _ positional _ _ => ∀ e ∈ positional, e.opensNamed = false
  | boolean .. | name .. | unary .. => True

/-- The words of the node are names. -/
def SpellsNames : Expr α → Prop
  | name path _ =>
      (IsName path.root ∧ path.root ∉ reservedWords) ∧ ∀ segment ∈ path.rest, IsName segment
  | call function _ named _ =>
      (IsName function ∧ function ∉ reservedWords) ∧ ∀ entry ∈ named, IsName entry.1
  | _ => True

theorem isWord_unplaced (e : Expr α) : e.unplaced.isWord = e.isWord := by
  cases e <;> rfl

theorem stratum_unplaced (e : Expr α) : e.unplaced.stratum = e.stratum := by
  cases e <;> rfl

theorem opensNamed_unplaced (e : Expr α) : e.unplaced.opensNamed = e.opensNamed := by
  induction e using induction_on_children with
  | step e ih =>
      cases e with
      | binary op left right span =>
          rw [unplaced, opensNamed, opensNamed, isWord_unplaced, stratum_unplaced,
            ih left (by simp [children])]
      | number | percentage | currency | text | boolean | name | unary | call => rfl

-----------------------------------------------------------------------------------------
-- What tokens derive
-----------------------------------------------------------------------------------------

/-- All nodes of the expression have the property. -/
def AllNodes (holds : Expr α → Prop) (e : Expr α) : Prop :=
  ∀ node ∈ e.nodes, holds node

theorem allNodes_iff {holds : Expr α → Prop} {e : Expr α}
    : e.AllNodes holds ↔ holds e ∧ ∀ part ∈ e.children, part.AllNodes holds := by
  rw [AllNodes, nodes_eq, List.forall_mem_cons]
  simp only [List.mem_flatMap, AllNodes]
  exact ⟨fun ⟨self, parts⟩ => ⟨self, fun part child node below => parts node ⟨part, child, below⟩⟩,
    fun ⟨self, parts⟩ => ⟨self, fun node ⟨part, child, below⟩ => parts part child node below⟩⟩

/-- One word derives a name of one segment or a truth value. -/
theorem isWord_of_derives {t : Token α} (word : t.kind = .word)
    : {s : Stratum} → {ts : List (Token α)} → {e : Expr α} → Derives s ts e → ts = [t]
    → e.isWord = true
  | _, _, _, .operand inner, single => isWord_of_derives word inner single
  | _, _, _, .joined first _ _ second, single => by
      obtain ⟨u, more, rfl, -⟩ := first.head
      simp at single
  | _, _, _, .prefixed _ inner, single => by
      obtain ⟨u, more, rfl, -⟩ := inner.head
      simp at single
  | _, _, _, .unprefixed inner, single => isWord_of_derives word inner single
  | _, _, _, .raised first _ _, single => by
      obtain ⟨u, more, rfl, -⟩ := first.head
      simp at single
  | _, _, _, .unraised inner, single => isWord_of_derives word inner single
  | _, _, _, .literal is, single => by
      cases single
      unfold Token.literal? at is
      rw [word] at is
      dsimp only at is
      split at is
      case isTrue => cases is; rfl
      case isFalse =>
        split at is
        case isTrue => cases is; rfl
        case isFalse => cases is
  | _, _, _, .parentheses _ _ _, single => by simp at single
  | _, _, _, .name _ dotted, single => by
      cases dotted with
      | none => rfl
      | dot => simp at single
  | _, _, _, .call _ _ _ _, single => by simp at single

/-- What begins like a named argument has a text that does, and stands in no parentheses. By
induction along the derivation.
-/
theorem opensNamed_of_derives {s : Stratum} {ts : List (Token α)} {e : Expr α}
    (derived : Derives s ts e) (begins : BeginsNamed ts)
    : e.opensNamed = true ∧ s.strength ≤ e.stratum.strength := by
  induction derived using Derives.induction with
  | @operand level _ _ _ ih =>
      obtain ⟨opens, strength⟩ := ih begins
      exact ⟨opens, Nat.le_trans (Nat.le_of_lt level.strength_lt_operands) strength⟩
  | @joined level before after t op left right first writes strength second inner _ =>
      obtain ⟨key, sign, value, same, word, equals⟩ := begins
      have own : (Stratum.binary level).strength ≤ op.stratum.strength := by
        rw [op.strength_stratum, strength]
        exact Nat.le_refl _
      obtain ⟨w, more, rfl, -⟩ := first.head
      obtain ⟨rfl, tail⟩ := List.cons.inj same
      cases more with
      | nil =>
          obtain ⟨rfl, -⟩ := List.cons.inj tail
          have isWord := isWord_of_derives word first rfl
          have isEq : op = .eq := by
            rcases equals with assign | eq
            · cases op <;> simp [Token.Writes, BinaryOp.sign?, Token.Spells, assign] at writes
            · exact writes.unique eq
          exact ⟨by simp [opensNamed, isEq, isWord], own⟩
      | cons u more =>
          obtain ⟨rfl, -⟩ := List.cons.inj tail
          obtain ⟨opens, above⟩ := inner ⟨w, u, more, rfl, word, equals⟩
          have above : op.precedence ≤ left.stratum.strength := strength ▸ above
          exact ⟨by simp [opensNamed, opens, above], own⟩
  | prefixed _ inner _ =>
      obtain ⟨key, sign, value, same, word, equals⟩ := begins
      obtain ⟨-, rfl⟩ := List.cons.inj same
      obtain ⟨_, _, head, begins⟩ := inner.head
      obtain ⟨rfl, -⟩ := List.cons.inj head
      rcases equals with assign | eq
      · exact absurd (begins _ assign) (by decide)
      · exact absurd (begins _ eq) (by decide)
  | unprefixed _ ih =>
      obtain ⟨opens, strength⟩ := ih begins
      exact ⟨opens, Nat.le_trans (by decide) strength⟩
  | @raised before after t base exponent first isCaret second inner _ =>
      obtain ⟨key, sign, value, same, word, equals⟩ := begins
      obtain ⟨w, more, rfl, -⟩ := first.head
      obtain ⟨rfl, tail⟩ := List.cons.inj same
      cases more with
      | nil =>
          obtain ⟨rfl, -⟩ := List.cons.inj tail
          rw [isCaret] at equals
          simp at equals
      | cons u more =>
          obtain ⟨rfl, -⟩ := List.cons.inj tail
          obtain ⟨opens, above⟩ := inner ⟨w, u, more, rfl, word, equals⟩
          have above : BinaryOp.pow.precedence ≤ base.stratum.strength :=
            Nat.le_trans (by decide) above
          exact ⟨by simp [opensNamed, opens, above], Nat.le_refl _⟩
  | unraised _ ih =>
      obtain ⟨opens, strength⟩ := ih begins
      exact ⟨opens, Nat.le_trans (by decide) strength⟩
  | literal is =>
      obtain ⟨key, sign, value, same, word, equals⟩ := begins
      simp at same
  | parentheses opens _ _ _ =>
      obtain ⟨key, sign, value, same, word, equals⟩ := begins
      obtain ⟨rfl, -⟩ := List.cons.inj same
      rw [word] at opens
      cases opens
  | name _ dotted =>
      obtain ⟨key, sign, value, same, word, equals⟩ := begins
      cases dotted with
      | none => simp at same
      | dot isDot _ _ =>
          obtain ⟨-, tail⟩ := List.cons.inj same
          obtain ⟨rfl, -⟩ := List.cons.inj tail
          rw [isDot] at equals
          simp at equals
  | call _ opens _ _ =>
      obtain ⟨key, sign, value, same, word, equals⟩ := begins
      obtain ⟨-, tail⟩ := List.cons.inj same
      obtain ⟨rfl, -⟩ := List.cons.inj tail
      rw [opens] at equals
      simp at equals

theorem isName_of_segments {ts : List (Token α)} {names : List String}
    (derived : DerivesSegments ts names) (words : ∀ t ∈ ts, t.kind = .word → IsName t.text)
    : ∀ segment ∈ names, IsName segment := by
  induction derived with
  | none => exact nofun
  | dot _ word _ ih =>
      rw [List.forall_mem_cons, List.forall_mem_cons] at words
      exact List.forall_mem_cons.mpr ⟨words.2.1 word, ih words.2.2⟩

mutual

/-- Names in what tokens derive are words among the tokens. -/
theorem spellsNames_of_derives : {s : Stratum} → {ts : List (Token α)} → {e : Expr α}
    → Derives s ts e → (∀ t ∈ ts, t.kind = .word → IsName t.text) → e.AllNodes SpellsNames
  | _, _, _, .operand inner, words => spellsNames_of_derives inner words
  | _, _, _, .joined first _ _ second, words => by
      rw [List.forall_mem_append, List.forall_mem_cons] at words
      have left := spellsNames_of_derives first words.1
      have right := spellsNames_of_derives second words.2.2
      exact allNodes_iff.mpr ⟨trivial, by simpa [children] using ⟨left, right⟩⟩
  | _, _, _, .prefixed _ inner, words => by
      rw [List.forall_mem_cons] at words
      have operand := spellsNames_of_derives inner words.2
      exact allNodes_iff.mpr ⟨trivial, by simpa [children] using operand⟩
  | _, _, _, .unprefixed inner, words => spellsNames_of_derives inner words
  | _, _, _, .raised first _ second, words => by
      rw [List.forall_mem_append, List.forall_mem_cons] at words
      have base := spellsNames_of_derives first words.1
      have exponent := spellsNames_of_derives second words.2.2
      exact allNodes_iff.mpr ⟨trivial, by simpa [children] using ⟨base, exponent⟩⟩
  | _, _, _, .unraised inner, words => spellsNames_of_derives inner words
  | _, _, _, @Derives.literal _ t e is, _ => by
      have leaf : e.SpellsNames ∧ e.children = [] := by
        unfold Token.literal? at is
        split at is
        case h_1 | h_2 | h_3 | h_4 => 
          cases is
          exact ⟨trivial, rfl⟩
        case h_5 =>
          split at is
          case isTrue => 
            cases is
            exact ⟨trivial, rfl⟩
          case isFalse =>
            split at is
            case isTrue => 
              cases is
              exact ⟨trivial, rfl⟩
            case isFalse => cases is
        case h_6 => cases is
      exact allNodes_iff.mpr ⟨leaf.1, by simp [leaf.2]⟩
  | _, _, _, .parentheses _ inner _, words => by
      rw [List.forall_mem_cons, List.forall_mem_append] at words
      exact spellsNames_of_derives inner words.2.1
  | _, _, _, .name namable dotted, words => by
      rw [List.forall_mem_cons] at words
      exact allNodes_iff.mpr ⟨⟨⟨words.1 namable.1, namable.2⟩, isName_of_segments dotted words.2⟩,
        nofun⟩
  | _, _, _, .call namable _ arguments _, words => by
      rw [List.forall_mem_cons, List.forall_mem_cons, List.forall_mem_append] at words
      obtain ⟨positional, named⟩ := spellsNames_of_arguments arguments words.2.2.1
      refine allNodes_iff.mpr ⟨⟨⟨words.1 namable.1, namable.2⟩, fun entry member =>
        (named entry member).1⟩, ?_⟩
      rw [children, List.forall_mem_append, List.forall_mem_map]
      exact ⟨positional, fun entry member => (named entry member).2⟩

theorem spellsNames_of_arguments : {ts : List (Token α)} → {positional : List (Expr α)}
    → {named : List (String × Expr α)} → DerivesArguments ts positional named
    → (∀ t ∈ ts, t.kind = .word → IsName t.text)
    → (∀ e ∈ positional, e.AllNodes SpellsNames)
        ∧ ∀ entry ∈ named, IsName entry.1 ∧ entry.2.AllNodes SpellsNames
  | _, _, _, .none, _ => ⟨nofun, nofun⟩
  | _, _, _, .positional _ first others, words => by
      rw [List.forall_mem_append] at words
      obtain ⟨positional, named⟩ := spellsNames_of_more others words.2
      exact ⟨List.forall_mem_cons.mpr ⟨spellsNames_of_derives first words.1, positional⟩, named⟩
  | _, _, _, .named word _ first others, words => by
      rw [List.forall_mem_cons, List.forall_mem_cons, List.forall_mem_append] at words
      obtain ⟨-, named⟩ := spellsNames_of_more others words.2.2.2
      exact ⟨nofun, List.forall_mem_cons.mpr
        ⟨⟨words.1 word, spellsNames_of_derives first words.2.2.1⟩, named⟩⟩

theorem spellsNames_of_more : {ts : List (Token α)} → {positional : List (Expr α)}
    → {named : List (String × Expr α)} → DerivesMore ts positional named
    → (∀ t ∈ ts, t.kind = .word → IsName t.text)
    → (∀ e ∈ positional, e.AllNodes SpellsNames)
        ∧ ∀ entry ∈ named, IsName entry.1 ∧ entry.2.AllNodes SpellsNames
  | _, _, _, .none, _ => ⟨nofun, nofun⟩
  | _, _, _, .comma _ others, words =>
      spellsNames_of_arguments others (List.forall_mem_cons.mp words).2

end

end Expr

end Prognosis
