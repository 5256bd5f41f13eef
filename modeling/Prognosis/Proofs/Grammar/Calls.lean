import Mathlib.Data.List.Forall2
import Prognosis.Proofs.Grammar.Exactness
import Prognosis.Proofs.Grammar.Layout

/-! Expressions as arguments of calls. Between the parentheses of a call an expression is read as it
is read on its own, unless it begins with a name and an equals sign: a comparison of a name, such as
"a == 1", is taken for a named argument.
-/

namespace Prognosis.Grammar

variable {α : Type} {args : List (List (Token α))} {es : List (Expr α)} {inside : List (Token α)}

open Attempt

theorem Attempt.reads_iff_bare {β : Type} {ts rest : List (Token α)} {a : Attempt α β ts}
    {value : β}
    : a.Reads value rest ↔ a.bare = .ok (value, rest) := by
  cases a with
  | error e => simp
  | ok p => simp

-----------------------------------------------------------------------------------------
-- Arguments between commas
-----------------------------------------------------------------------------------------

/-- The tokens are one expression, and nothing is left of them. -/
def IsWhole (ts : List (Token α)) (e : Expr α) : Prop :=
  (expression ts).Reads e []

/-- What is derived is whole. -/
theorem Derives.isWhole {s : Stratum} {ts : List (Token α)} {e : Expr α} (derived : Derives s ts e)
    : IsWhole ts e := by
  have le : (Stratum.binary .disjunction).strength ≤ s.strength := by
    cases s with
    | binary level => cases level <;> decide
    | unary | power | primary => decide
  have reads := (derived.weaken le).reads (Stratum.goesOn_stops stops_nil)
  rw [List.append_nil] at reads
  exact reads

/-- The tokens of each argument stand in a row, wherever that is, with commas between the
arguments.
-/
inductive Listed : List (List (Token α)) → List (Token α) → Prop
  | one {arg placed : List (Token α)} (moved : Moved arg placed) : Listed [arg] placed
  | cons {arg placed : List (Token α)} {comma : Token α} {args : List (List (Token α))}
      {more : List (Token α)} (moved : Moved arg placed) (isComma : comma.kind = .sign .comma)
      (others : Listed args more)
    : Listed (arg :: args) (placed ++ comma :: more)

theorem Moved.beginsNamed {ts ts' : List (Token α)} (moved : Moved ts ts')
    (named : BeginsNamed ts)
    : BeginsNamed ts' := by
  obtain ⟨name, sign, value, rfl, word, equals⟩ := named
  cases moved with
  | cons _ span others =>
      cases others with
      | cons _ place others => exact ⟨_, _, _, rfl, word, equals⟩

/-- An expression that is read whole is read before a comma or a closing parenthesis as well,
wherever its tokens stand.
-/
theorem IsWhole.reads {arg placed more : List (Token α)} {e : Expr α} (whole : IsWhole arg e)
    (moved : Moved arg placed) (separates : Separates more)
    : ∃ e', (binary .disjunction (placed ++ more)).Reads e' more ∧ e'.unplaced = e.unplaced
        ∧ placed ≠ [] ∧ atSign placed .rparen = false := by
  obtain ⟨e', _, read, alike, left⟩ :=
    expression_carries arg placed moved e [] (reads_iff_bare.1 whole)
  cases left
  obtain ⟨taken, all, derived⟩ := binary_derives .disjunction placed (reads_iff_bare.2 read)
  rw [List.append_nil] at all
  subst all
  obtain ⟨t, others, rfl, begins⟩ := derived.head
  refine ⟨e', derived.reads (Stratum.goesOn_stops separates.stops), alike, List.cons_ne_nil _ _, ?_⟩
  rw [atSign, ← Bool.not_eq_true, Token.isSign_iff]
  intro closes
  simpa using begins _ closes

/-- An argument that is an expression is a positional one unless it begins as a named one does. -/
theorem argument_reads_iff {arg placed more : List (Token α)} {e : Expr α}
    (whole : IsWhole arg e) (moved : Moved arg placed) (separates : Separates more)
    (rest : List (Token α))
    : ∃ e' : Expr α, e'.unplaced = e.unplaced ∧ ∀ positional,
        (arguments false (placed ++ more)).Reads (positional, []) rest
          ↔ ¬BeginsNamed arg
              ∧ ∃ others, positional = e' :: others
                  ∧ (moreArguments false more).Reads (others, []) rest := by
  obtain ⟨e', readFirst, alike, nonempty, opens⟩ := whole.reads moved separates
  refine ⟨e', alike, fun positional => ⟨fun reads => ?_, ?_⟩⟩
  · obtain ⟨t, same, closes, -⟩
        | ⟨-, ⟨name, value, argument, left, others, -, -, -, given⟩
          | ⟨unnamed, -, argument, left, others, readArgument, readOthers, given⟩⟩ :=
      arguments_reads_iff.1 reads
    · cases placed with
      | nil => exact absurd rfl nonempty
      | cons u us =>
          cases same
          rw [atSign, Token.isSign_iff.2 closes] at opens
          cases opens
    · exact absurd (congrArg Prod.snd given).symm (List.cons_ne_nil _ _)
    · obtain ⟨rfl, rfl⟩ := readArgument.unique readFirst
      obtain ⟨others, _⟩ := others
      cases given
      refine ⟨fun named => ?_, others, rfl, readOthers⟩
      obtain ⟨name, sign, value, rfl, word, equals⟩ := moved.beginsNamed named
      exact argumentName?_eq_none_iff.1 unnamed ⟨name, sign, value ++ _, rfl, word, equals⟩
  · rintro ⟨unnamed, others, rfl, readOthers⟩
    have none : argumentName? (placed ++ more) = none :=
      argumentName?_eq_none_iff.2 (not_beginsNamed_append
        (fun named => unnamed (moved.symm.beginsNamed named)) nonempty separates)
    have open_ : atSign (placed ++ more) .rparen = false := by
      cases placed with
      | nil => exact absurd rfl nonempty
      | cons u us => exact opens
    exact arguments_reads_iff.2
      (Or.inr ⟨open_, Or.inr ⟨none, rfl, e', more, _, readFirst, readOthers, rfl⟩⟩)

/-- The arguments of a call are read as the expressions that they are on their own exactly where
none of them begins as a named one does. By induction on the arguments.
-/
theorem listed_reads_iff (listed : Listed args inside) (whole : List.Forall₂ IsWhole args es)
    {closing : Token α} (closes : closing.kind = .sign .rparen) (rest : List (Token α))
    : (∃ positional, (arguments false (inside ++ closing :: rest)).Reads (positional, []) rest
        ∧ positional.map Expr.unplaced = es.map Expr.unplaced)
      ↔ ∀ arg ∈ args, ¬BeginsNamed arg := by
  induction listed generalizing es with
  | one moved =>
      obtain _ | ⟨whole, _ | _⟩ := whole
      obtain ⟨e', alike, reads_iff⟩ :=
        argument_reads_iff whole moved (separates_cons (Or.inr closes)) rest
      have ends : (moreArguments false (closing :: rest)).Reads ([], []) rest :=
        moreArguments_reads_iff.2 ⟨closing, rest, rfl, Or.inl ⟨closes, rfl, rfl⟩⟩
      constructor
      · rintro ⟨positional, reads, -⟩
        simpa using ((reads_iff positional).1 reads).1
      · intro unnamed
        refine ⟨[e'], (reads_iff [e']).2 ⟨unnamed _ (by simp), [], rfl, ends⟩, ?_⟩
        simp [alike]
  | @cons arg placed comma args more moved isComma _ ih =>
      obtain _ | ⟨whole, wholes⟩ := whole
      rename_i e es
      have separates : Separates (comma :: (more ++ closing :: rest)) :=
        separates_cons (Or.inl isComma)
      obtain ⟨e', alike, reads_iff⟩ := argument_reads_iff whole moved separates rest
      have goesOn (others : List (Expr α))
          : (moreArguments false (comma :: (more ++ closing :: rest))).Reads (others, []) rest
            ↔ (arguments false (more ++ closing :: rest)).Reads (others, []) rest := by
        rw [moreArguments_reads_iff]
        constructor
        · rintro ⟨_, _, same, ⟨is, -⟩ | ⟨-, reads⟩⟩
          · cases same
            rw [isComma] at is
            cases is
          · cases same
            exact reads
        · exact fun reads => ⟨comma, _, rfl, Or.inr ⟨isComma, reads⟩⟩
      have later := ih wholes
      rw [List.append_assoc, List.cons_append, List.forall_mem_cons, ← later]
      constructor
      · rintro ⟨positional, reads, same⟩
        obtain ⟨unnamed, others, rfl, readOthers⟩ := (reads_iff positional).1 reads
        exact ⟨unnamed, others, (goesOn others).1 readOthers, (List.cons.inj same).2⟩
      · rintro ⟨unnamed, others, readOthers, same⟩
        refine ⟨e' :: others, (reads_iff _).2 ⟨unnamed, others, rfl, (goesOn others).2 readOthers⟩,
          ?_⟩
        rw [List.map_cons, List.map_cons, alike, same]

-----------------------------------------------------------------------------------------
-- Calls
-----------------------------------------------------------------------------------------

/-- A call that does not stand in parentheses is a name with arguments in parentheses. -/
theorem Derives.call_arguments {s : Stratum} {ts : List (Token α)} {function : String}
    {positional : List (Expr α)} {named : List (String × Expr α)} {place : Option Span}
    (derived : Derives s ts (.call function positional named place))
    (starts : atSign ts .lparen = false)
    : ∃ t opening taken closing, ts = t :: opening :: (taken ++ [closing])
        ∧ DerivesArguments taken positional named ∧ closing.kind = .sign .rparen := by
  generalize is : Expr.call function positional named place = e at derived
  induction derived using Derives.induction with
  | operand _ ih | unprefixed _ ih | unraised _ ih => exact ih starts is
  | joined | prefixed | raised | name => cases is
  | @literal t _ literal =>
      subst is
      rw [Token.literal?] at literal
      split at literal
      case h_5 =>
        split at literal
        case isTrue => simp at literal
        case isFalse => split at literal <;> simp at literal
      all_goals simp at literal
  | parentheses opens =>
      rw [atSign, Token.isSign_iff.2 opens] at starts
      cases starts
  | call _ _ derivedArguments closes =>
      cases is
      exact ⟨_, _, _, _, rfl, derivedArguments, closes⟩

/-- The tokens of a call with nothing behind it are read as a call exactly where its arguments are
read up to the closing parenthesis.
-/
theorem expression_reads_call_iff {t opening closing : Token α} (namable : t.Namable)
    (opens : opening.kind = .sign .lparen) {positional : List (Expr α)}
    {named : List (String × Expr α)}
    : (expression (t :: opening :: (inside ++ [closing]))).Reads
          (.call t.text positional named (some t.span)) []
      ↔ (arguments false (inside ++ [closing])).Reads (positional, named) [] := by
  constructor
  · intro reads
    obtain ⟨taken, all, derived⟩ := binary_derives .disjunction _ reads
    rw [List.append_nil] at all
    have starts : atSign taken .lparen = false := by
      rw [← all]
      simp [atSign, Token.isSign, namable.1]
    obtain ⟨_, _, within, last, rfl, derivedArguments, isLast⟩ := derived.call_arguments starts
    rw [List.cons.injEq, List.cons.injEq] at all
    rw [all.2.2]
    exact derivedArguments.reads false [] isLast (absurd · Bool.false_ne_true)
  · intro reads
    obtain ⟨taken, last, all, ⟨-, derivedArguments⟩, isLast⟩ := arguments_derives _ reads
    rw [all]
    exact (Derives.call namable opens derivedArguments isLast).isWhole

/-- An expression means the same inside a call. Expressions with commas between them, each of them
read whole on its own, are read as the positional arguments of a call, and as no others, exactly
where none of them begins with a name and an equals sign.

Witness: `arguments_stand_of_two`
-/
theorem arguments_stand (listed : Listed args inside) (whole : List.Forall₂ IsWhole args es)
    {t opening closing : Token α} (namable : t.Namable) (opens : opening.kind = .sign .lparen)
    (closes : closing.kind = .sign .rparen)
    : (∃ positional, (expression (t :: opening :: (inside ++ [closing]))).Reads
          (.call t.text positional [] (some t.span)) []
        ∧ positional.map Expr.unplaced = es.map Expr.unplaced)
      ↔ ∀ arg ∈ args, ¬BeginsNamed arg := by
  rw [← listed_reads_iff listed whole closes []]
  simp only [expression_reads_call_iff namable opens]

section Comparisons

private theorem number_derives {s : Stratum} (value : Nat) (text : String) (span : Span)
    : Derives s [⟨.number value, text, span⟩] (.number value (some span)) :=
  Derives.weaken (.literal rfl) s.strength_le

private theorem word_derives {s : Stratum} (text : String) (span : Span)
    (free : text ∉ reservedWords)
    : Derives (α := Nat) s [⟨.word, text, span⟩] (.name ⟨text, []⟩ (some span)) :=
  Derives.weaken (.name ⟨rfl, free⟩ .none) s.strength_le

/-- Tokens of "1 == a", of "-2", and of "max(1 == a, -2)". -/
theorem arguments_stand_of_two
    : let one : Token Nat := ⟨.number 1, "1", ⟨1, 1⟩⟩
      let equals : Token Nat := ⟨.sign .eq, "==", ⟨1, 3⟩⟩
      let name : Token Nat := ⟨.word, "a", ⟨1, 6⟩⟩
      let minus : Token Nat := ⟨.sign .minus, "-", ⟨1, 1⟩⟩
      let two : Token Nat := ⟨.number 2, "2", ⟨1, 2⟩⟩
      let call : List (Token Nat) :=
        [⟨.word, "max", ⟨1, 1⟩⟩, ⟨.sign .lparen, "(", ⟨1, 4⟩⟩, one.movedTo ⟨1, 5⟩,
          equals.movedTo ⟨1, 7⟩, name.movedTo ⟨1, 10⟩, ⟨.sign .comma, ",", ⟨1, 11⟩⟩,
          minus.movedTo ⟨1, 13⟩, two.movedTo ⟨1, 14⟩, ⟨.sign .rparen, ")", ⟨1, 15⟩⟩]
      ∃ positional, (expression call).Reads (.call "max" positional [] (some ⟨1, 1⟩)) []
        ∧ positional.map Expr.unplaced
          = [.binary .eq (.number 1 none) (.name ⟨"a", []⟩ none) none,
              .unary .minus (.number 2 none) none] := by
  intro one equals name minus two call
  have compares : equals.Writes .eq := rfl
  have leads : minus.Leads .minus := rfl
  have comparison : Derives (.binary .comparison) [one, equals, name] _ :=
    .joined (number_derives 1 "1" ⟨1, 1⟩) compares rfl (word_derives "a" ⟨1, 6⟩ (by decide))
  have negative : Derives .unary [minus, two] _ := .prefixed leads (number_derives 2 "2" ⟨1, 2⟩)
  have listed : Listed [[one, equals, name], [minus, two]] (call.extract 2 8) :=
    .cons (.cons one _ (.cons equals _ (.cons name _ .nil))) rfl
      (.one (.cons minus _ (.cons two _ .nil)))
  have unnamed : ∀ arg ∈ [[one, equals, name], [minus, two]], ¬BeginsNamed arg := by
    rintro arg given ⟨first, sign, value, rfl, word, -⟩
    simp only [List.mem_cons, List.cons.injEq, List.not_mem_nil, or_false] at given
    rcases given with ⟨rfl, -⟩ | ⟨rfl, -⟩ <;> cases word
  exact (arguments_stand listed (.cons comparison.isWhole (.cons negative.isWhole .nil))
    ⟨rfl, by decide⟩ rfl rfl).2 unnamed

/-- The comparison "a == 1" is read whole on its own, but as the argument of "abs(a == 1)" it is
none of the positional ones: the call has one named argument instead.
-/
theorem comparison_taken_for_named
    : let name : Token Nat := ⟨.word, "a", ⟨1, 5⟩⟩
      let equals : Token Nat := ⟨.sign .eq, "==", ⟨1, 7⟩⟩
      let one : Token Nat := ⟨.number 1, "1", ⟨1, 10⟩⟩
      let comparison : Expr Nat :=
        .binary .eq (.name ⟨"a", []⟩ (some ⟨1, 5⟩)) (.number 1 (some ⟨1, 10⟩)) (some ⟨1, 7⟩)
      let call : List (Token Nat) :=
        [⟨.word, "abs", ⟨1, 1⟩⟩, ⟨.sign .lparen, "(", ⟨1, 4⟩⟩, name, equals, one,
          ⟨.sign .rparen, ")", ⟨1, 11⟩⟩]
      IsWhole [name, equals, one] comparison
        ∧ (expression call).Reads
            (.call "abs" [] [("a", .number 1 (some ⟨1, 10⟩))] (some ⟨1, 1⟩)) []
        ∧ ¬∃ positional, (expression call).Reads (.call "abs" positional [] (some ⟨1, 1⟩)) []
            ∧ positional.map Expr.unplaced = [comparison.unplaced] := by
  intro name equals one comparison call
  have compares : equals.Writes .eq := rfl
  have whole : Derives (.binary .comparison) [name, equals, one] comparison :=
    .joined (word_derives "a" ⟨1, 5⟩ (by decide)) compares rfl (number_derives 1 "1" ⟨1, 10⟩)
  have named : DerivesArguments [name, equals, one] [] [("a", .number 1 (some ⟨1, 10⟩))] :=
    .named rfl (Or.inr rfl) (number_derives 1 "1" ⟨1, 10⟩) .none
  have derived : Derives .primary call _ := .call ⟨rfl, by decide⟩ rfl named rfl
  have reads : IsWhole call _ := derived.isWhole
  refine ⟨whole.isWhole, reads, ?_⟩
  rintro ⟨positional, other, -⟩
  cases (reads.unique other).1

end Comparisons

end Prognosis.Grammar
