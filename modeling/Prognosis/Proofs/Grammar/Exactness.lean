import Prognosis.Proofs.Grammar.Reading

/-! Expressions are read exactly as the grammar has them: what is read is derived from the tokens
that are taken, and what is derived is read whole wherever no token comes next that continues it.
Token lists therefore have one reading each.
-/

namespace Prognosis.Grammar

variable {α : Type}

open Attempt

-----------------------------------------------------------------------------------------
-- What is read is derived
-----------------------------------------------------------------------------------------

section Soundness

theorem segments_derives (ts : List (Token α)) {rest : List (Token α)} {names : List String}
    (reads : MayRead (segments ts) names rest)
    : ∃ taken, ts = taken ++ rest ∧ DerivesSegments taken names := by
  obtain ⟨-, rfl, same⟩ | ⟨dot, u, more, others, same, isDot, word, readOthers, rfl⟩ :=
    segments_reads_iff.1 reads
  · exact ⟨[], same.symm, .none⟩
  · have shorter : more.length < ts.length := by
      rw [same, List.length_cons, List.length_cons]
      omega
    obtain ⟨taken, all, derived⟩ := segments_derives more readOthers
    exact ⟨dot :: u :: taken, by simp [same, all], .dot isDot word derived⟩
termination_by ts.length

mutual

theorem binary_derives (level : Level) (ts : List (Token α)) {rest : List (Token α)}
    {e : Expr α} (reads : (binary level ts).Reads e rest)
    : ∃ taken, ts = taken ++ rest ∧ Derives (.binary level) taken e := by
  obtain ⟨first, more, readFirst, readAll⟩ := binary_reads_iff.1 reads
  have shorter := readFirst.length_lt
  obtain ⟨before, same, derivedFirst⟩ := operand_derives level ts readFirst
  obtain ⟨after, all, derivedAll⟩ := chain_derives level more (.operand derivedFirst) readAll
  exact ⟨before ++ after, by simp [same, all], derivedAll⟩
termination_by (ts.length, 2 * level.height + 3)
decreasing_by
  · exact Prod.Lex.right _ (by omega)
  · exact Prod.Lex.left _ _ shorter

theorem operand_derives (level : Level) (ts : List (Token α)) {rest : List (Token α)} {e : Expr α}
    (reads : (operand level ts).Reads e rest)
    : ∃ taken, ts = taken ++ rest ∧ Derives level.operands taken e := by
  unfold operand at reads
  split at reads
  case h_1 stronger next =>
    have lower := Level.height_next? next
    simpa only [Level.operands, next] using binary_derives stronger ts reads
  case h_2 next => simpa only [Level.operands, next] using unary_derives ts reads
termination_by (ts.length, 2 * level.height + 2)
decreasing_by
  · exact Prod.Lex.right _ (by omega)
  · exact Prod.Lex.right _ (by cases level <;> simp [Level.height])

/-- What was read before the operators is the left end of what they join. -/
theorem chain_derives (level : Level) (ts : List (Token α)) {before rest : List (Token α)}
    {left e : Expr α} (first : Derives (.binary level) before left)
    (reads : MayRead (chain level left ts) e rest)
    : ∃ taken, ts = taken ++ rest ∧ Derives (.binary level) (before ++ taken) e := by
  obtain ⟨-, rfl, rfl⟩ | ⟨t, more, op, right, others, same, is, readRight, readAll⟩ :=
    chain_reads_iff.1 reads
  · exact ⟨[], rfl, by rwa [List.append_nil]⟩
  · obtain ⟨writes, strength⟩ := operator?_eq_some_iff.1 is
    have shorter : more.length < ts.length := by simp [same]
    have shorterStill := Nat.lt_trans readRight.length_lt shorter
    obtain ⟨after, sameRight, derivedRight⟩ := operand_derives level more readRight
    obtain ⟨taken, all, derivedAll⟩ :=
      chain_derives level others (.joined first writes strength derivedRight) readAll
    exact ⟨t :: (after ++ taken), by simp [same, sameRight, all], by simpa using derivedAll⟩
termination_by (ts.length, 2 * level.height + 1)
decreasing_by
  · exact Prod.Lex.left _ _ shorter
  · exact Prod.Lex.left _ _ shorterStill

theorem unary_derives (ts : List (Token α)) {rest : List (Token α)} {e : Expr α}
    (reads : (unary ts).Reads e rest)
    : ∃ taken, ts = taken ++ rest ∧ Derives .unary taken e := by
  obtain ⟨t, more, op, inner, same, is, readInner, rfl⟩ | ⟨-, readPower⟩ :=
    unary_reads_iff.1 reads
  · have shorter : more.length < ts.length := by simp [same]
    obtain ⟨taken, all, derived⟩ := unary_derives more readInner
    exact ⟨t :: taken, by simp [same, all], .prefixed (leadingOperator?_eq_some_iff.1 is) derived⟩
  · obtain ⟨taken, all, derived⟩ := power_derives ts readPower
    exact ⟨taken, all, .unprefixed derived⟩
termination_by (ts.length, 3)
decreasing_by
  · exact Prod.Lex.left _ _ shorter
  · exact Prod.Lex.right _ (by omega)

theorem power_derives (ts : List (Token α)) {rest : List (Token α)} {e : Expr α}
    (reads : (power ts).Reads e rest)
    : ∃ taken, ts = taken ++ rest ∧ Derives .power taken e := by
  obtain ⟨base, more, readBase, plain⟩ := power_reads_iff.1 reads
  have shorter := readBase.length_lt
  obtain ⟨before, same, derivedBase⟩ := primary_derives ts readBase
  obtain ⟨-, rfl, rfl⟩ | ⟨t, others, exponent, next, caret, readExponent, rfl⟩ := plain
  · exact ⟨before, same, .unraised derivedBase⟩
  · have shorterStill : others.length < ts.length := by
      rw [next, List.length_cons] at shorter
      omega
    obtain ⟨after, all, derivedExponent⟩ := unary_derives others readExponent
    exact ⟨before ++ t :: after, by simp [same, next, all],
      .raised derivedBase caret derivedExponent⟩
termination_by (ts.length, 2)
decreasing_by
  · exact Prod.Lex.right _ (by omega)
  · exact Prod.Lex.left _ _ shorterStill

theorem primary_derives (ts : List (Token α)) (reads : (primary ts).Reads e rest)
    : ∃ taken, ts = taken ++ rest ∧ Derives .primary taken e := by
  obtain ⟨t, more, same, cases⟩ := primary_reads_iff.1 reads
  have shorter : more.length < ts.length := by simp [same]
  obtain ⟨literal, rfl⟩ | ⟨opens, closing, closes, readInner⟩ | ⟨namable, ⟨-, names, readNames, rfl⟩
    | ⟨u, others, positional, named, next, opens, readArguments, rfl⟩⟩ := cases
  · exact ⟨[t], same, .literal literal⟩
  · obtain ⟨taken, all, derived⟩ := binary_derives .disjunction more readInner
    exact ⟨t :: (taken ++ [closing]), by simp [same, all], .parentheses opens derived closes⟩
  · obtain ⟨taken, all, derived⟩ := segments_derives more readNames
    exact ⟨t :: taken, by simp [same, all], .name namable derived⟩
  · have shorterStill : others.length < ts.length := by
      rw [next, List.length_cons] at shorter
      omega
    obtain ⟨taken, closing, all, derived, closes⟩ := arguments_derives others readArguments
    exact ⟨t :: u :: (taken ++ [closing]), by simp [same, next, all],
      .call namable opens derived.2 closes⟩
termination_by (ts.length, 1)
decreasing_by
  · exact Prod.Lex.left _ _ shorter
  · exact Prod.Lex.left _ _ shorterStill

/-- After a named argument no positional one is read. -/
theorem arguments_derives {afterNamed : Bool} (ts : List (Token α)) {rest : List (Token α)}
    {positional : List (Expr α)} {named : List (String × Expr α)}
    (reads : (arguments afterNamed ts).Reads (positional, named) rest)
    : ∃ taken closing, ts = taken ++ closing :: rest
        ∧ ((afterNamed = true → positional = []) ∧ DerivesArguments taken positional named)
        ∧ closing.kind = .sign .rparen := by
  obtain ⟨t, same, closes, args⟩
      | ⟨-, ⟨name, value, argument, more, others, found, readArgument, readOthers, args⟩
        | ⟨found, free, argument, more, others, readArgument, readOthers, args⟩⟩ :=
    arguments_reads_iff.1 reads
  · cases args
    exact ⟨[], t, same, ⟨fun _ => rfl, .none⟩, closes⟩
  · have shorter := argumentName?_shorter found
    have shorterStill := Nat.lt_trans readArgument.length_lt shorter
    obtain ⟨t, u, same, word, equals, rfl⟩ := argumentName?_eq_some_iff.1 found
    obtain ⟨taken, all, derived⟩ := binary_derives .disjunction value readArgument
    obtain ⟨after, closing, sameMore, ⟨none, derivedMore⟩, closes⟩ := more_derives more readOthers
    cases args
    rw [none rfl] at derivedMore ⊢
    exact ⟨t :: u :: (taken ++ after), closing, by simp [same, all, sameMore],
      ⟨fun _ => rfl, .named word equals derived derivedMore⟩, closes⟩
  · have shorter := readArgument.length_lt
    obtain ⟨taken, all, derived⟩ := binary_derives .disjunction ts readArgument
    obtain ⟨after, closing, sameMore, ⟨-, derivedMore⟩, closes⟩ := more_derives more readOthers
    have unnamed : ¬BeginsNamed taken := by
      rintro ⟨t, u, value, rfl, word, equals⟩
      exact argumentName?_eq_none_iff.1 found ⟨t, u, value ++ more, by simp [all], word, equals⟩
    cases args
    exact ⟨taken ++ after, closing, by simp [all, sameMore],
      ⟨by simp [free], .positional unnamed derived derivedMore⟩, closes⟩
termination_by (ts.length, 20)
decreasing_by
  · exact Prod.Lex.left _ _ shorter
  · exact Prod.Lex.left _ _ shorterStill
  · exact Prod.Lex.right _ (by simp [Level.height])
  · exact Prod.Lex.left _ _ shorter

theorem more_derives {afterNamed : Bool} (ts : List (Token α)) {rest : List (Token α)}
    {others : Arguments α}
    (reads : (moreArguments afterNamed ts).Reads others rest)
    : ∃ taken closing, ts = taken ++ closing :: rest
        ∧ ((afterNamed = true → others.1 = []) ∧ DerivesMore taken others.1 others.2)
        ∧ closing.kind = .sign .rparen := by
  obtain ⟨t, more, same, ⟨closes, rfl, rfl⟩ | ⟨isComma, readArguments⟩⟩ :=
    moreArguments_reads_iff.1 reads
  · exact ⟨[], t, same, ⟨fun _ => rfl, .none⟩, closes⟩
  · have shorter : more.length < ts.length := by simp [same]
    obtain ⟨taken, closing, all, ⟨none, derived⟩, closes⟩ := arguments_derives more readArguments
    exact ⟨t :: taken, closing, by simp [same, all], ⟨none, .comma isComma derived⟩, closes⟩
termination_by (ts.length, 0)
decreasing_by
  · exact Prod.Lex.left _ _ shorter

end

end Soundness

-----------------------------------------------------------------------------------------
-- Where expressions stop
-----------------------------------------------------------------------------------------

section Stops

variable {ts rest : List (Token α)} {t : Token α}

theorem Stops.mono {strength stronger : Nat} (stops : Stops strength ts)
    (le : strength ≤ stronger)
    : Stops stronger ts := by
  intro t head
  obtain ⟨noDot, noCall, weaker⟩ := stops t head
  exact ⟨noDot, noCall, fun op writes => Nat.lt_of_lt_of_le (weaker op writes) le⟩

theorem stops_operator {strength : Nat} {op : BinaryOp} (writes : t.Writes op)
    (weaker : op.precedence < strength)
    : Stops strength (t :: ts) := by
  intro _ head
  cases head
  refine ⟨?_, ?_, fun op' writes' => writes.unique writes' ▸ weaker⟩
  · intro dot
    cases op <;> simp [Token.Writes, BinaryOp.sign?, Token.Spells, dot] at writes
  · intro opening
    cases op <;> simp [Token.Writes, BinaryOp.sign?, Token.Spells, opening] at writes

/-- A comma or a closing parenthesis comes first, where anything does. -/
def Separates (ts : List (Token α)) : Prop :=
  ∀ t, ts.head? = some t → t.kind = .sign .comma ∨ t.kind = .sign .rparen

theorem separates_cons (is : t.kind = .sign .comma ∨ t.kind = .sign .rparen)
    : Separates (t :: ts) := by
  intro _ head
  cases head
  exact is

theorem Separates.stops {strength : Nat} (separates : Separates ts)
    : Stops strength ts := by
  intro t head
  refine ⟨?_, ?_, fun op writes => ?_⟩
  · rcases separates t head with is | is <;> simp [is]
  · rcases separates t head with is | is <;> simp [is]
  · rcases separates t head with is | is <;>
      cases op <;> simp [Token.Writes, BinaryOp.sign?, Token.Spells, is] at writes

theorem Level.strength_lt_operands (level : Level)
    : level.strength < level.operands.strength := by
  rw [level.strength_operands]
  exact Nat.lt_succ_self _

/-- Where a power stops, an operand of an operator in front stops as well, as no operator between
two operands has the strength of those in front.
-/
theorem Stops.unary_of_power (stops : Stops Stratum.power.strength ts)
    : Stops Stratum.unary.strength ts := by
  intro t head
  obtain ⟨noDot, noCall, weaker⟩ := stops t head
  refine ⟨noDot, noCall, fun op writes => ?_⟩
  have below := weaker op writes
  cases op <;> first | decide | exact absurd below (by decide)

theorem chain_stops {level : Level} {e : Expr α} (stops : Stops level.strength ts)
    : MayRead (chain level e ts) e ts := by
  refine chain_reads_iff.2 (Or.inl ⟨fun t head => ?_, rfl, rfl⟩)
  cases is : operator? level t with
  | none => rfl
  | some op =>
      obtain ⟨writes, strength⟩ := operator?_eq_some_iff.1 is
      have weaker := (stops t head).2.2 op writes
      omega

theorem Stops.atSign_eq_false {strength : Nat} (stops : Stops strength ts)
    : atSign ts .dot = false ∧ atSign ts .lparen = false := by
  cases ts with
  | nil => exact ⟨rfl, rfl⟩
  | cons t more =>
      obtain ⟨noDot, noCall, -⟩ := stops t rfl
      exact ⟨by simpa [atSign, ← Token.isSign_iff] using noDot,
        by simpa [atSign, ← Token.isSign_iff] using noCall⟩

theorem Stops.atSign_caret (stops : Stops Stratum.power.strength ts)
    : atSign ts .caret = false := by
  cases ts with
  | nil => rfl
  | cons t more =>
      rw [atSign, ← Bool.not_eq_true, Token.isSign_iff]
      intro caret
      exact absurd ((stops t rfl).2.2 .pow caret) (by decide)

end Stops

-----------------------------------------------------------------------------------------
-- What is derived is read
-----------------------------------------------------------------------------------------

section Completeness

/-- The signs that expressions begin with. -/
theorem Derives.head {s : Stratum} {ts : List (Token α)} {e : Expr α} (derived : Derives s ts e)
    : ∃ t more, ts = t :: more
        ∧ ∀ sign, t.kind = .sign sign → sign ∈ [Sign.minus, .plus, .plusMinus, .lparen] := by
  induction derived using Derives.induction with
  | operand _ ih | unprefixed _ ih | unraised _ ih => exact ih
  | joined _ _ _ _ ih _ | raised _ _ _ ih _ =>
      obtain ⟨t, more, rfl, begins⟩ := ih
      exact ⟨t, _, rfl, begins⟩
  | @prefixed ts t op _ leads _ _ =>
      refine ⟨t, ts, rfl, fun sign is => ?_⟩
      cases op <;> simp [Token.Leads, UnaryOp.sign?, Token.Spells, is] at leads <;> simp [leads]
  | @literal t _ is =>
      refine ⟨t, [], rfl, fun sign isSign => ?_⟩
      simp [Token.literal?, isSign] at is
  | parentheses opens _ _ _ => exact ⟨_, _, rfl, fun sign is => by simp_all⟩
  | name namable _ => exact ⟨_, _, rfl, fun sign is => by simp_all [namable.1]⟩
  | call namable _ _ _ => exact ⟨_, _, rfl, fun sign is => by simp_all [namable.1]⟩

/-- How the reader of a stratum goes on after an expression of its own: with the operators of the
level, or not at all.
-/
def Stratum.GoesOn : Stratum → Expr α → List (Token α) → Expr α → List (Token α) → Prop
  | .binary level, e, rest, value, left =>
      Stops level.operands.strength rest ∧ MayRead (chain level e rest) value left
  | s, e, rest, value, left => Stops s.strength rest ∧ value = e ∧ left = rest

theorem Stratum.goesOn_stops {s : Stratum} {e : Expr α} {rest : List (Token α)}
    (stops : Stops s.strength rest)
    : s.GoesOn e rest e rest := by
  cases s with
  | binary level => 
      exact ⟨stops.mono (Nat.le_of_lt level.strength_lt_operands), chain_stops stops⟩
  | unary | power | primary => exact ⟨stops, rfl, rfl⟩

theorem DerivesSegments.reads {ts rest : List (Token α)} {names : List String}
    (derived : DerivesSegments ts names) {strength : Nat} (stops : Stops strength rest)
    : MayRead (segments (ts ++ rest)) names rest := by
  induction derived with
  | none => exact segments_reads_iff.2 (Or.inl ⟨stops.atSign_eq_false.1, rfl, rfl⟩)
  | dot isDot word _ ih =>
      exact segments_reads_iff.2 (Or.inr ⟨_, _, _, _, rfl, isDot, word, ih, rfl⟩)

theorem DerivesSegments.atSign_eq_false {ts rest : List (Token α)} {names : List String}
    (derived : DerivesSegments ts names) {strength : Nat} (stops : Stops strength rest)
    : atSign (ts ++ rest) .lparen = false := by
  cases derived with
  | none => exact stops.atSign_eq_false.2
  | dot isDot _ _ => simp [atSign, Token.isSign, isDot]

theorem not_beginsNamed_append {ts more : List (Token α)} (unnamed : ¬BeginsNamed ts)
    (nonempty : ts ≠ []) (separates : Separates more)
    : ¬BeginsNamed (ts ++ more) := by
  rintro ⟨name, sign, value, same, word, equals⟩
  match ts, nonempty with
  | [t], _ =>
      obtain ⟨-, rfl⟩ := List.cons.inj same
      rcases separates sign rfl with is | is <;> rw [is] at equals <;> simp at equals
  | t :: u :: others, _ =>
      obtain ⟨rfl, tail⟩ := List.cons.inj same
      obtain ⟨rfl, -⟩ := List.cons.inj tail
      exact unnamed ⟨t, u, others, rfl, word, equals⟩

theorem DerivesMore.separates {ts : List (Token α)} {positional : List (Expr α)}
    {named : List (String × Expr α)} (derived : DerivesMore ts positional named)
    {closing : Token α} (rest : List (Token α)) (closes : closing.kind = .sign .rparen)
    : Separates (ts ++ closing :: rest) := by
  cases derived with
  | none => exact separates_cons (Or.inr closes)
  | comma isComma _ => exact separates_cons (Or.inl isComma)

/-- Powers begin without an operator. -/
theorem power_reads_head {ts rest : List (Token α)} {e : Expr α} (reads : (power ts).Reads e rest)
    {t : Token α} (head : ts.head? = some t)
    : leadingOperator? t = none := by
  obtain ⟨base, more, readBase, -⟩ := power_reads_iff.1 reads
  obtain ⟨t', others, rfl, begins⟩ := primary_reads_iff.1 readBase
  cases head
  cases is : leadingOperator? t with
  | none => rfl
  | some op =>
      have leads := leadingOperator?_eq_some_iff.1 is
      rcases begins with ⟨literal, -⟩ | ⟨opens, -⟩ | ⟨⟨word, free⟩, -⟩
      · unfold Token.literal? at literal
        cases op <;> simp_all [Token.Leads, UnaryOp.sign?, Token.Spells, UnaryOp.text]
      · cases op <;> simp_all [Token.Leads, UnaryOp.sign?, Token.Spells]
      · cases op <;>
          simp_all [Token.Leads, UnaryOp.sign?, Token.Spells, UnaryOp.text, reservedWords]

mutual

/-- By induction along the derivation: what the reader of the stratum makes of the tokens and what
comes after them is what it makes of the expression and what comes after it.
-/
theorem Derives.reads : {s : Stratum} → {ts : List (Token α)} → {e : Expr α} → Derives s ts e
    → {rest left : List (Token α)} → {value : Expr α} → s.GoesOn e rest value left
    → (readAs s (ts ++ rest)).Reads value left
  | _, _, _, @Derives.operand _ level ts e inner, rest, _, _, ⟨stops, more⟩ => by
      refine binary_reads_iff.2 ⟨e, rest, ?_, more⟩
      rw [operand_eq_readAs]
      exact inner.reads (Stratum.goesOn_stops stops)
  | _, _, _, @Derives.joined _ level _ after t op _ right first writes strength second, rest,
      _, _, ⟨stops, more⟩ => by
      have weaker : op.precedence < level.operands.strength :=
        strength ▸ level.strength_lt_operands
      have is := operator?_eq_some_iff.2 ⟨writes, strength⟩
      rw [List.append_assoc]
      refine first.reads ⟨stops_operator writes weaker, ?_⟩
      refine chain_reads_iff.2 (Or.inr ⟨t, after ++ rest, op, right, rest, rfl, is, ?_, more⟩)
      rw [operand_eq_readAs]
      exact second.reads (Stratum.goesOn_stops stops)
  | _, _, _, @Derives.prefixed _ ts t op e leads inner, rest, _, _, ⟨stops, rfl, rfl⟩ => by
      have readInner := inner.reads ⟨stops, rfl, rfl⟩
      have is := leadingOperator?_eq_some_iff.2 leads
      exact unary_reads_iff.2 (Or.inl ⟨t, ts ++ rest, op, e, rfl, is, readInner, rfl⟩)
  | _, _, _, .unprefixed inner, _, _, _, ⟨stops, rfl, rfl⟩ => by
      have readInner := inner.reads ⟨stops.mono (by decide), rfl, rfl⟩
      exact unary_reads_iff.2 (Or.inr ⟨fun t => power_reads_head readInner, readInner⟩)
  | _, _, _, @Derives.raised _ before after t base exponent first isCaret second, rest, _, _,
      ⟨stops, rfl, rfl⟩ => by
      have writes : t.Writes .pow := isCaret
      have stopsBase : Stops Stratum.primary.strength (t :: (after ++ rest)) :=
        stops_operator writes (by decide)
      have readBase := first.reads (Stratum.goesOn_stops (s := .primary) stopsBase)
      have readExponent := second.reads ⟨stops.unary_of_power, rfl, rfl⟩
      rw [List.append_assoc]
      exact power_reads_iff.2 ⟨base, t :: (after ++ rest), readBase,
        Or.inr ⟨t, after ++ rest, exponent, rfl, isCaret, readExponent, rfl⟩⟩
  | _, _, _, @Derives.unraised _ ts e inner, rest, _, _, ⟨stops, rfl, rfl⟩ => by
      have readInner := inner.reads ⟨stops.mono (by decide), rfl, rfl⟩
      exact power_reads_iff.2 ⟨e, rest, readInner, Or.inl ⟨stops.atSign_caret, rfl, rfl⟩⟩
  | _, _, _, @Derives.literal _ t _ is, rest, _, _, ⟨_, rfl, rfl⟩ =>
      primary_reads_iff.2 ⟨t, rest, rfl, Or.inl ⟨is, rfl⟩⟩
  | _, _, _, @Derives.parentheses _ opening closing ts _ opens inner closes, rest, _, _,
      ⟨_, rfl, rfl⟩ => by
      have separates : Separates (closing :: rest) := separates_cons (Or.inr closes)
      have readInner := inner.reads (Stratum.goesOn_stops separates.stops)
      exact primary_reads_iff.2 ⟨opening, ts ++ closing :: rest, by simp,
        Or.inr (Or.inl ⟨opens, closing, closes, readInner⟩)⟩
  | _, _, _, @Derives.name _ t ts names namable dotted, rest, _, _, ⟨stops, rfl, rfl⟩ =>
      primary_reads_iff.2 ⟨t, ts ++ rest, rfl, Or.inr (Or.inr ⟨namable,
        Or.inl ⟨dotted.atSign_eq_false stops, names, dotted.reads stops, rfl⟩⟩)⟩
  | _, _, _, @Derives.call _ t opening closing ts positional named namable opens args closes,
      rest, _, _, ⟨_, rfl, rfl⟩ => by
      have readArgs := args.reads false rest closes nofun
      exact primary_reads_iff.2 ⟨t, opening :: (ts ++ closing :: rest), by simp,
        Or.inr (Or.inr ⟨namable,
          Or.inr ⟨opening, _, positional, named, rfl, opens, readArgs, rfl⟩⟩)⟩

theorem DerivesArguments.reads : {ts : List (Token α)} → {positional : List (Expr α)}
    → {named : List (String × Expr α)} → DerivesArguments ts positional named
    → (afterNamed : Bool) → {closing : Token α} → (rest : List (Token α))
    → closing.kind = .sign .rparen → (afterNamed = true → positional = [])
    → (arguments afterNamed (ts ++ closing :: rest)).Reads (positional, named) rest
  | _, _, _, .none, _, closing, _, closes, _ =>
      arguments_reads_iff.2 (Or.inl ⟨closing, rfl, closes, rfl⟩)
  | _, _, _, @DerivesArguments.positional _ ts more e others named unnamed first derivedMore,
      afterNamed, closing, rest, closes, free => by
      have free : afterNamed = false := by
        cases afterNamed with
        | false => rfl
        | true => cases free rfl
      have separates := derivedMore.separates rest closes
      have readFirst := first.reads (Stratum.goesOn_stops separates.stops)
      have readMore := derivedMore.reads false rest closes nofun
      obtain ⟨t, others, rfl, begins⟩ := first.head
      have open_ : t.isSign .rparen = false := by
        rw [← Bool.not_eq_true, Token.isSign_iff]
        intro closing
        simpa using begins _ closing
      have none := argumentName?_eq_none_iff.2
        (not_beginsNamed_append unnamed (List.cons_ne_nil _ _) separates)
      rw [List.append_assoc]
      exact arguments_reads_iff.2 (Or.inr ⟨open_, Or.inr ⟨none, free, e, _, _, readFirst, readMore,
        rfl⟩⟩)
  | _, _, _, @DerivesArguments.named _ name sign ts more e named word equals first derivedMore,
      afterNamed, closing, rest, closes, _ => by
      have separates := derivedMore.separates rest closes
      have readFirst := first.reads (Stratum.goesOn_stops separates.stops)
      have readMore := derivedMore.reads true rest closes fun _ => rfl
      have found : argumentName? (name :: sign :: (ts ++ (more ++ closing :: rest)))
          = some (name.text, ts ++ (more ++ closing :: rest)) :=
        argumentName?_eq_some_iff.2 ⟨name, sign, rfl, word, equals, rfl⟩
      have open_ : name.isSign .rparen = false := by simp [Token.isSign, word]
      rw [List.cons_append, List.cons_append, List.append_assoc]
      exact arguments_reads_iff.2 (Or.inr ⟨open_, Or.inl ⟨name.text, _, e, _, _, found, readFirst,
        readMore, rfl⟩⟩)

theorem DerivesMore.reads : {ts : List (Token α)} → {positional : List (Expr α)}
    → {named : List (String × Expr α)} → DerivesMore ts positional named
    → (afterNamed : Bool) → {closing : Token α} → (rest : List (Token α))
    → closing.kind = .sign .rparen → (afterNamed = true → positional = [])
    → (moreArguments afterNamed (ts ++ closing :: rest)).Reads (positional, named) rest
  | _, _, _, .none, _, closing, _, closes, _ =>
      moreArguments_reads_iff.2 ⟨closing, _, rfl, Or.inl ⟨closes, rfl, rfl⟩⟩
  | _, _, _, .comma isComma others, afterNamed, _, rest, closes, free =>
      moreArguments_reads_iff.2
        ⟨_, _, rfl, Or.inr ⟨isComma, others.reads afterNamed rest closes free⟩⟩

end

end Completeness

-----------------------------------------------------------------------------------------
-- Expressions
-----------------------------------------------------------------------------------------

theorem stops_nil {strength : Nat} : Stops strength ([] : List (Token α)) :=
  nofun

theorem stops_of_not_continues {strength : Nat} {ts : List (Token α)}
    (ends : ∀ t, ts.head? = some t → ¬t.Continues)
    : Stops strength ts := by
  intro t head
  have no := ends t head
  exact ⟨fun dot => no (Or.inl dot), fun opening => no (Or.inr (Or.inl opening)),
    fun op writes => absurd (Or.inr (Or.inr ⟨op, writes⟩)) no⟩

/-- Tokens write one expression at most. -/
theorem Derives.unique {s : Stratum} {ts : List (Token α)} {e e' : Expr α}
    (derived : Derives s ts e) (derived' : Derives s ts e')
    : e = e' :=
  ((derived.reads (Stratum.goesOn_stops stops_nil)).unique
    (derived'.reads (Stratum.goesOn_stops stops_nil))).1

/-- Expressions are read exactly as the grammar has them. What is read is derived from the tokens
that are taken; what some first tokens derive is read from them, and no more than them is taken,
where no token comes next that continues it; and no tokens derive two expressions.

Witness: `expression_exact_power`
-/
theorem expression_exact (ts : List (Token α))
    : (∀ p, expression ts = .ok p
        → ∃ taken, ts = taken ++ p.rest ∧ Derives (.binary .disjunction) taken p.value)
      ∧ (∀ taken rest e, ts = taken ++ rest → Derives (.binary .disjunction) taken e
        → (∀ t, rest.head? = some t → ¬t.Continues)
        → ∃ p, expression ts = .ok p ∧ p.value = e ∧ p.rest = rest)
      ∧ (∀ e e', Derives (.binary .disjunction) ts e → Derives (.binary .disjunction) ts e'
        → e = e') := by
  refine ⟨fun p read => ?_, ?_, fun e e' derived derived' => derived.unique derived'⟩
  · exact binary_derives .disjunction ts ⟨p, read, rfl, rfl⟩
  · rintro taken rest e rfl derived ends
    exact derived.reads (Stratum.goesOn_stops (stops_of_not_continues ends))

section Power

/-- Tokens of "-x ^ 2 + f(y, k == 1,)". -/
def powerTokens : List (Token Nat) :=
  [⟨.sign .minus, "-", ⟨1, 1⟩⟩, ⟨.word, "x", ⟨1, 2⟩⟩, ⟨.sign .caret, "^", ⟨1, 4⟩⟩,
    ⟨.number 2, "2", ⟨1, 6⟩⟩, ⟨.sign .plus, "+", ⟨1, 8⟩⟩, ⟨.word, "f", ⟨1, 10⟩⟩,
    ⟨.sign .lparen, "(", ⟨1, 11⟩⟩, ⟨.word, "y", ⟨1, 12⟩⟩, ⟨.sign .comma, ",", ⟨1, 13⟩⟩,
    ⟨.word, "k", ⟨1, 15⟩⟩, ⟨.sign .eq, "==", ⟨1, 17⟩⟩, ⟨.number 1, "1", ⟨1, 20⟩⟩,
    ⟨.sign .comma, ",", ⟨1, 21⟩⟩, ⟨.sign .rparen, ")", ⟨1, 22⟩⟩]

/-- What they write: the sign stands over the power, and the second argument is a named one. -/
def powerExpr : Expr Nat :=
  .binary .add
    (.unary .minus
      (.binary .pow (.name ⟨"x", []⟩ (some ⟨1, 2⟩)) (.number 2 (some ⟨1, 6⟩)) (some ⟨1, 4⟩))
      (some ⟨1, 1⟩))
    (.call "f" [.name ⟨"y", []⟩ (some ⟨1, 12⟩)] [("k", .number 1 (some ⟨1, 20⟩))]
      (some ⟨1, 10⟩))
    (some ⟨1, 8⟩)

theorem powerTokens_derives : Derives (.binary .disjunction) powerTokens powerExpr := by
  have name {s : Stratum} (text : String) (span : Span) (free : text ∉ reservedWords)
      : Derives (α := Nat) s [⟨.word, text, span⟩] (.name ⟨text, []⟩ (some span)) :=
    Derives.weaken (.name ⟨rfl, free⟩ .none) s.strength_le
  have number {s : Stratum} (value : Nat) (text : String) (span : Span)
      : Derives s [⟨.number value, text, span⟩] (.number value (some span)) :=
    Derives.weaken (.literal rfl) s.strength_le
  have power : Derives .power (powerTokens.extract 1 4) _ :=
    .raised (name "x" ⟨1, 2⟩ (by decide)) rfl (number 2 "2" ⟨1, 6⟩)
  have unnamed : ¬BeginsNamed [(⟨.word, "y", ⟨1, 12⟩⟩ : Token Nat)] := by
    rintro ⟨_, _, _, same, -⟩
    cases same
  have equals : DerivesArguments (powerTokens.extract 9 13) [] [("k", .number 1 (some ⟨1, 20⟩))] :=
    .named rfl (Or.inr rfl) (number 1 "1" ⟨1, 20⟩) (.comma rfl .none)
  have arguments : DerivesArguments (powerTokens.extract 7 13) [.name ⟨"y", []⟩ (some ⟨1, 12⟩)] _ :=
    .positional unnamed (name "y" ⟨1, 12⟩ (by decide)) (.comma rfl equals)
  have call : Derives .primary (powerTokens.extract 5 14) _ :=
    .call ⟨rfl, by decide⟩ rfl arguments rfl
  have leads : (⟨.sign .minus, "-", ⟨1, 1⟩⟩ : Token Nat).Leads .minus := rfl
  have plus : (⟨.sign .plus, "+", ⟨1, 8⟩⟩ : Token Nat).Writes .add := rfl
  have minus : Derives .unary (powerTokens.extract 0 4) _ := .prefixed leads (.unprefixed power)
  have sum : Derives (.binary .additive) powerTokens powerExpr :=
    .joined (minus.weaken (by decide)) plus rfl (call.weaken (by decide))
  exact sum.weaken (by decide)

/-- The expression is read from its tokens before a closing brace, and from these tokens no other
expression is derived.
-/
theorem expression_exact_power
    : let closing : Token Nat := ⟨.sign .rbrace, "\x7d", ⟨1, 24⟩⟩
      (∃ p, expression (powerTokens ++ [closing]) = .ok p
        ∧ p.value = powerExpr ∧ p.rest = [closing]
        ∧ ∃ taken, powerTokens ++ [closing] = taken ++ p.rest
          ∧ Derives (.binary .disjunction) taken p.value)
      ∧ ∀ e, Derives (.binary .disjunction) powerTokens e → e = powerExpr := by
  intro closing
  have ends : ∀ t, [closing].head? = some t → ¬t.Continues := by
    intro t head
    cases head
    rintro (dot | opening | ⟨op, writes⟩)
    · cases dot
    · cases opening
    · cases op <;> simp [Token.Writes, BinaryOp.sign?, Token.Spells, closing] at writes
  obtain ⟨sound, complete, -⟩ := expression_exact (powerTokens ++ [closing])
  obtain ⟨p, read, value, rest⟩ :=
    complete powerTokens [closing] powerExpr rfl powerTokens_derives ends
  refine ⟨⟨p, read, value, rest, sound p read⟩, fun e derived => ?_⟩
  exact (expression_exact powerTokens).2.2 e powerExpr derived powerTokens_derives

end Power

end Prognosis.Grammar
