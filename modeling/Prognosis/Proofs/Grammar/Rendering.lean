import Prognosis.Proofs.Grammar.Shape
import Prognosis.Proofs.Scalar.Exact

/-! Expressions written out as text and read again. The text of a legible expression is cut into
tokens from which the grammar derives the expression, up to places.
-/

namespace Prognosis

open Grammar Token

variable {α : Type}

-----------------------------------------------------------------------------------------
-- What follows an operand
-----------------------------------------------------------------------------------------

/-- What comes after an operand in the text of an expression: nothing, a closing parenthesis, a
comma, or an operator between spaces.
-/
inductive Follows : List Char → Prop
  | nothing : Follows []
  | closing (rest : List Char) : Follows (')' :: rest)
  | comma (rest : List Char) : Follows (',' :: rest)
  | operator (op : BinaryOp) (rest : List Char) : Follows (' ' :: (op.text.toList ++ ' ' :: rest))

namespace Follows

variable {rest : List Char}

/-- Names and numbers end there. -/
theorem ends (follows : Follows rest)
    : atBoundary rest = true ∧ Quits rest ∧ rest.head? ≠ some '%' := by
  cases follows with
  | nothing => exact ⟨rfl, nofun, nofun⟩
  | closing | comma | operator =>
      refine ⟨rfl, fun c head => ?_, ?_⟩
      · cases head
        decide
      · intro head
        cases head

/-- No currency is read there. -/
theorem currencyAfter?_eq_none (follows : Follows rest) : currencyAfter? rest = none := by
  cases follows with
  | nothing => rfl
  | closing rest => exact Token.currencyAfter?_eq_none [] nofun (by decide)
  | comma rest => exact Token.currencyAfter?_eq_none [] nofun (by decide)
  | operator op rest =>
      have space : ∀ d ∈ [' '], d = ' ' := by simp
      cases op <;> exact Token.currencyAfter?_eq_none [' '] space (by decide)

end Follows

-----------------------------------------------------------------------------------------
-- Texts and what they derive
-----------------------------------------------------------------------------------------

variable [Scalar α]

/-- The characters, with the other ones after them, are cut into tokens that derive the expression
up to places.
-/
def Reproduces (s : Stratum) (cs rest : List Char) (e : Expr α) : Prop :=
  ∀ span, ∃ ts e', Cuts span cs rest ts ∧ Derives s ts e' ∧ e'.unplaced = e.unplaced

variable {s : Stratum} {cs ds rest : List Char} {e left right : Expr α} {op : BinaryOp}

theorem Reproduces.weaken (reproduces : Reproduces s cs rest e) (s' : Stratum)
    (le : s'.strength ≤ s.strength)
    : Reproduces s' cs rest e := by
  intro span
  obtain ⟨ts, e', cut, derived, same⟩ := reproduces span
  exact ⟨ts, e', cut, derived.weaken le, same⟩

/-- A literal is read from its token. -/
theorem reproduces_literal {kind : TokenKind α} {text : String} {literal : Option Span → Expr α}
    (cut : ∀ span, Cuts span cs rest [(⟨kind, text, span⟩ : Token α)])
    (is : ∀ span, (⟨kind, text, span⟩ : Token α).literal? = some (literal (some span)))
    (same : ∀ span, (literal span).unplaced = e.unplaced)
    : Reproduces .primary cs rest e :=
  fun span => ⟨_, _, cut span, .literal (is span), same _⟩

theorem exists_cuts_operator (op : BinaryOp) (span : Span) (rest : List Char)
    : ∃ t : Token α, t.Writes op ∧ Cuts span op.text.toList (' ' :: rest) [t] := by
  cases op with
  | or => exact ⟨⟨.word, "or", span⟩, ⟨rfl, rfl⟩, cuts_word (by decide) rfl⟩
  | and => exact ⟨⟨.word, "and", span⟩, ⟨rfl, rfl⟩, cuts_word (by decide) rfl⟩
  | eq => exact ⟨⟨.sign .eq, "==", span⟩, rfl, cuts_token rfl rfl rfl⟩
  | ne => exact ⟨⟨.sign .ne, "!=", span⟩, rfl, cuts_token rfl rfl rfl⟩
  | lt => exact ⟨⟨.sign .lt, "<", span⟩, rfl, cuts_token rfl rfl rfl⟩
  | le => exact ⟨⟨.sign .le, "<=", span⟩, rfl, cuts_token rfl rfl rfl⟩
  | gt => exact ⟨⟨.sign .gt, ">", span⟩, rfl, cuts_token rfl rfl rfl⟩
  | ge => exact ⟨⟨.sign .ge, ">=", span⟩, rfl, cuts_token rfl rfl rfl⟩
  | add => exact ⟨⟨.sign .plus, "+", span⟩, rfl, cuts_token rfl rfl rfl⟩
  | sub => exact ⟨⟨.sign .minus, "-", span⟩, rfl, cuts_token rfl rfl rfl⟩
  | mul => exact ⟨⟨.sign .star, "*", span⟩, rfl, cuts_token rfl rfl rfl⟩
  | div => exact ⟨⟨.sign .slash, "/", span⟩, rfl, cuts_token rfl rfl rfl⟩
  | mod => exact ⟨⟨.sign .percent, "%", span⟩, rfl, cuts_token rfl rfl rfl⟩
  | pow => exact ⟨⟨.sign .caret, "^", span⟩, rfl, cuts_token rfl rfl rfl⟩

/-- Operands with an operator between them, in the strata that the operator requires. -/
theorem Reproduces.joined {place : Option Span}
    (first : Reproduces s cs (' ' :: (op.text.toList ++ ' ' :: (ds ++ rest))) left)
    {s' whole : Stratum} (second : Reproduces s' ds rest right)
    (joins : ∀ {t : Token α} {ts us : List (Token α)} {left right : Expr α}, t.Writes op
      → Derives s ts left → Derives s' us right
      → Derives whole (ts ++ t :: us) (.binary op left right (some t.span)))
    : Reproduces whole (cs ++ ' ' :: (op.text.toList ++ ' ' :: ds)) rest
        (.binary op left right place) := by
  intro span
  obtain ⟨ts, left', cutLeft, derivedLeft, sameLeft⟩ := first span
  obtain ⟨t, writes, cutOperator⟩ :=
    exists_cuts_operator (α := α) op ((span.past cs).past [' ']) (ds ++ rest)
  obtain ⟨us, right', cutRight, derivedRight, sameRight⟩ :=
    second ((((span.past cs).past [' ']).past op.text.toList).past [' '])
  have cutOperand : Cuts _ (' ' :: ds) rest us := cuts_space.append cutRight
  have cutAfter : Cuts _ (op.text.toList ++ ' ' :: ds) rest (t :: us) :=
    cutOperator.append cutOperand
  have cutLeft : Cuts span cs (' ' :: (op.text.toList ++ ' ' :: ds) ++ rest) ts := by
    simpa using cutLeft
  refine ⟨_, _, cutLeft.append (cuts_space.append cutAfter),
    joins writes derivedLeft derivedRight, ?_⟩
  simp only [Expr.unplaced, sameLeft, sameRight]

/-- Parentheses make a primary expression. -/
theorem Reproduces.parenthesised (inner : Reproduces s cs (')' :: rest) e)
    : Reproduces .primary ('(' :: (cs ++ [')'])) rest e := by
  intro span
  obtain ⟨ts, e', cut, derived, same⟩ := inner (span.past ['('])
  have cut : Cuts (span.past ['(']) cs ([')'] ++ rest) ts := cut
  have opening : Cuts span ['('] (cs ++ [')'] ++ rest) [(⟨.sign .lparen, "(", span⟩ : Token α)] :=
    cuts_sign (by decide)
  have closing : Cuts ((span.past ['(']).past cs) [')'] rest
      [(⟨.sign .rparen, ")", (span.past ['(']).past cs⟩ : Token α)] :=
    cuts_sign (by decide)
  exact ⟨_, e', opening.append (cut.append closing),
    .parentheses rfl (derived.weaken s.le_strength) rfl, same⟩

/-- The characters go on with no sign in front of them. -/
def Starts (cs : List Char) : Prop :=
  ∃ c more, cs = c :: more ∧ c ≠ '>' ∧ c ≠ '/' ∧ c ≠ '='

/-- An operator in front of an operand. -/
theorem Reproduces.prefixed {op : UnaryOp} {place : Option Span}
    (inner : Reproduces .unary cs rest e) (starts : Starts cs)
    : Reproduces .unary ((op.text ++ if op == .not then " " else "").toList ++ cs) rest
        (.unary op e place) := by
  intro span
  have operator : ∃ t : Token α, t.Leads op
      ∧ Cuts span (op.text ++ if op == .not then " " else "").toList (cs ++ rest) [t] := by
    obtain ⟨c, more, rfl, noArrow, noSlash, noEquals⟩ := starts
    cases op with
    | minus =>
        exact ⟨⟨.sign .minus, "-", span⟩, rfl,
          cuts_sign_before (by decide) noArrow noSlash noEquals⟩
    | plus =>
        exact ⟨⟨.sign .plus, "+", span⟩, rfl,
          cuts_sign_before (by decide) noArrow noSlash noEquals⟩
    | plusMinus =>
        exact ⟨⟨.sign .plusMinus, "±", span⟩, rfl,
          cuts_sign_before (by decide) noArrow noSlash noEquals⟩
    | not =>
        have word : Cuts span "not".toList ([' '] ++ (c :: more ++ rest))
            [(⟨.word, "not", span⟩ : Token α)] :=
          cuts_word (by decide) rfl
        exact ⟨⟨.word, "not", span⟩, ⟨rfl, rfl⟩, word.append cuts_space⟩
  obtain ⟨t, leads, cutOperator⟩ := operator
  obtain ⟨ts, e', cut, derived, same⟩ := inner (span.past _)
  exact ⟨_, _, cutOperator.append cut, .prefixed leads derived, by rw [Expr.unplaced, same]; rfl⟩

-----------------------------------------------------------------------------------------
-- Names
-----------------------------------------------------------------------------------------

theorem toList_pathText (path : Path)
    : path.text.toList = path.root.toList ++ path.rest.flatMap fun name => '.' :: name.toList := by
  obtain ⟨root, names⟩ := path
  rw [Path.text]
  induction names generalizing root with
  | nil => simp
  | cons name names ih =>
      rw [String.intercalate_cons_cons, String.toList_append, String.toList_append, ih]
      simp

theorem atBoundary_segments (names : List String) (boundary : atBoundary rest = true)
    : atBoundary ((names.flatMap fun name => '.' :: name.toList) ++ rest) = true := by
  cases names with
  | nil => exact boundary
  | cons name names => rfl

theorem exists_cuts_segments {names : List String} (are : ∀ name ∈ names, IsName name)
    (boundary : atBoundary rest = true) (span : Span)
    : ∃ ts : List (Token α),
        Cuts span (names.flatMap fun name => '.' :: name.toList) rest ts
          ∧ DerivesSegments ts names := by
  induction names generalizing span with
  | nil => exact ⟨[], cuts_nil, .none⟩
  | cons name names ih =>
      rw [List.forall_mem_cons] at are
      obtain ⟨ts, cut, derived⟩ := ih are.2 ((span.past ['.']).past name.toList)
      have dot : Cuts span ['.']
          (name.toList ++ (names.flatMap fun name => '.' :: name.toList) ++ rest)
          [(⟨.sign .dot, ".", span⟩ : Token α)] :=
        cuts_sign (by decide)
      have word : Cuts (span.past ['.']) name.toList _
          [(⟨.word, name, span.past ['.']⟩ : Token α)] :=
        cuts_word are.1 (atBoundary_segments names boundary)
      exact ⟨_, dot.append (word.append cut), .dot rfl rfl derived⟩

theorem reproduces_name {path : Path} {place : Option Span}
    (spelled : (Expr.name path place : Expr α).SpellsNames) (follows : Follows rest)
    : Reproduces .primary path.text.toList rest (.name path place : Expr α) := by
  intro span
  obtain ⟨⟨isRoot, free⟩, are⟩ := spelled
  obtain ⟨ts, cut, derived⟩ :=
    exists_cuts_segments (α := α) are follows.ends.1 (span.past path.root.toList)
  have root : Cuts span path.root.toList _ [(⟨.word, path.root, span⟩ : Token α)] :=
    cuts_word isRoot (atBoundary_segments path.rest follows.ends.1)
  rw [toList_pathText]
  exact ⟨_, _, root.append cut, .name ⟨rfl, free⟩ derived, rfl⟩

-----------------------------------------------------------------------------------------
-- Arguments
-----------------------------------------------------------------------------------------

/-- The texts after an argument, each behind a comma and a space. -/
def moreText : List String → List Char
  | [] => []
  | texts => ',' :: ' ' :: (commaSeparated texts).toList

theorem toList_commaSeparated (text : String) (texts : List String)
    : (commaSeparated (text :: texts)).toList = text.toList ++ moreText texts := by
  cases texts with
  | nil => simp [commaSeparated, moreText]
  | cons other texts => simp [commaSeparated, moreText]

theorem follows_moreText (texts : List String) (rest : List Char)
    : Follows (moreText texts ++ ')' :: rest) := by
  cases texts with
  | nil => exact .closing rest
  | cons text texts => exact .comma _

/-- The texts are cut into arguments up to places. -/
def ReproducesArguments (texts : List String) (rest : List Char) (positional : List (Expr α))
    (named : List (String × Expr α)) : Prop :=
  ∀ span, ∃ ts positional' named', Cuts span (commaSeparated texts).toList (')' :: rest) ts
    ∧ DerivesArguments ts positional' named'
    ∧ positional'.map Expr.unplaced = positional.map Expr.unplaced
    ∧ named'.map Expr.unplacedEntry = named.map Expr.unplacedEntry

theorem ReproducesArguments.more {texts : List String} {positional : List (Expr α)}
    {named : List (String × Expr α)} (others : ReproducesArguments texts rest positional named)
    (none : texts = [] → positional = [] ∧ named = []) (span : Span)
    : ∃ ts positional' named', Cuts span (moreText texts) (')' :: rest) ts
        ∧ DerivesMore ts positional' named'
        ∧ positional'.map Expr.unplaced = positional.map Expr.unplaced
        ∧ named'.map Expr.unplacedEntry = named.map Expr.unplacedEntry := by
  cases texts with
  | nil =>
      obtain ⟨rfl, rfl⟩ := none rfl
      exact ⟨[], [], [], cuts_nil, .none, rfl, rfl⟩
  | cons text texts =>
      obtain ⟨ts, positional', named', cut, derived, samePositional, sameNamed⟩ :=
        others ((span.past [',']).past [' '])
      have comma : Cuts span [',']
          (' ' :: (commaSeparated (text :: texts)).toList ++ ')' :: rest)
          [(⟨.sign .comma, ",", span⟩ : Token α)] :=
        cuts_sign (by decide)
      exact ⟨_, positional', named', comma.append (cuts_space.append cut), .comma rfl derived,
        samePositional, sameNamed⟩

/-- The expression is read again from its text, wherever an operand can end. -/
def ReadAgain (e : Expr α) : Prop :=
  Starts (e.render 0).toList
    ∧ ∀ rest, Follows rest → Reproduces (.binary .disjunction) (e.render 0).toList rest e

theorem reproducesNamed {named : List (String × Expr α)}
    (each : ∀ entry ∈ named, IsName entry.1 ∧ ReadAgain entry.2)
    : ReproducesArguments (Expr.renderNamed named) rest [] named := by
  induction named with
  | nil => exact fun span => ⟨[], [], [], cuts_nil, .none, rfl, rfl⟩
  | cons entry named ih =>
      obtain ⟨key, e⟩ := entry
      rw [List.forall_mem_cons] at each
      obtain ⟨⟨isName, starts, again⟩, others⟩ := each
      intro span
      have none : Expr.renderNamed named = [] → ([] : List (Expr α)) = [] ∧ named = [] := by
        intro empty
        cases named with
        | nil => exact ⟨rfl, rfl⟩
        | cons => cases empty
      have follows := follows_moreText (Expr.renderNamed named) rest
      obtain ⟨ts, e', cut, derived, same⟩ := again _ follows ((span.past key.toList).past ['='])
      obtain ⟨us, positional', named', cutMore, derivedMore, samePositional, sameNamed⟩ :=
        (ih others).more none (((span.past key.toList).past ['=']).past (e.render 0).toList)
      obtain rfl : positional' = [] := by simpa using samePositional
      have word : Cuts span key.toList
          ('=' :: ((e.render 0).toList ++ moreText (Expr.renderNamed named)) ++ ')' :: rest)
          [(⟨.word, key, span⟩ : Token α)] :=
        cuts_word isName rfl
      have equals : Cuts (span.past key.toList) ['=']
          ((e.render 0).toList ++ moreText (Expr.renderNamed named) ++ ')' :: rest)
          [(⟨.sign .assign, "=", span.past key.toList⟩ : Token α)] := by
        obtain ⟨c, more, chars, noArrow, noSlash, noEquals⟩ := starts
        rw [chars]
        exact cuts_sign_before (by decide) noArrow noSlash noEquals
      have text : (commaSeparated (Expr.renderNamed ((key, e) :: named))).toList
          = key.toList ++ '=' :: ((e.render 0).toList ++ moreText (Expr.renderNamed named)) := by
        rw [Expr.renderNamed, toList_commaSeparated, Expr.renderEntry, String.toList_append,
          String.toList_append]
        simp
      have derivedAll : DerivesArguments
          (⟨.word, key, span⟩ :: ⟨.sign .assign, "=", span.past key.toList⟩ :: (ts ++ us)) []
          ((key, e') :: named') :=
        .named rfl (Or.inl rfl) derived derivedMore
      rw [text]
      refine ⟨_, [], _, word.append (equals.append (cut.append cutMore)), derivedAll, rfl, ?_⟩
      simp only [List.map_cons, sameNamed, Expr.unplacedEntry_eq, same]

theorem reproducesArguments (rest : List Char) {positional : List (Expr α)}
    {named : List (String × Expr α)}
    (each : ∀ e ∈ positional, e.opensNamed = false ∧ ReadAgain e)
    (eachNamed : ∀ entry ∈ named, IsName entry.1 ∧ ReadAgain entry.2)
    : ReproducesArguments (Expr.renderAll positional ++ Expr.renderNamed named) rest positional
        named := by
  induction positional with
  | nil => exact reproducesNamed eachNamed
  | cons e positional ih =>
      rw [List.forall_mem_cons] at each
      obtain ⟨⟨unnamed, -, again⟩, others⟩ := each
      intro span
      let texts := Expr.renderAll positional ++ Expr.renderNamed named
      have none : texts = [] → positional = [] ∧ named = [] := by
        intro empty
        obtain ⟨noPositional, noNamed⟩ := List.append_eq_nil_iff.mp empty
        constructor
        · cases positional with
          | nil => rfl
          | cons => cases noPositional
        · cases named with
          | nil => rfl
          | cons => cases noNamed
      obtain ⟨ts, e', cut, derived, same⟩ := again _ (follows_moreText texts rest) span
      obtain ⟨us, positional', named', cutMore, derivedMore, samePositional, sameNamed⟩ :=
        (ih others).more none (span.past (e.render 0).toList)
      have unnamed' : ¬BeginsNamed ts := by
        intro begins
        have opens := (Expr.opensNamed_of_derives derived begins).1
        rw [← Expr.opensNamed_unplaced, same, Expr.opensNamed_unplaced, unnamed] at opens
        cases opens
      have text : (commaSeparated (e.render 0 :: texts)).toList
          = (e.render 0).toList ++ moreText texts :=
        toList_commaSeparated _ _
      rw [Expr.renderAll, List.cons_append, text]
      refine ⟨_, e' :: positional', named', cut.append cutMore,
        .positional unnamed' derived derivedMore, ?_, sameNamed⟩
      simp only [List.map_cons, same, samePositional]

/-- A call with arguments that are read again. -/
theorem reproduces_call {function : String} {positional : List (Expr α)}
    {named : List (String × Expr α)} {place : Option Span}
    (isName : IsName function) (free : function ∉ reservedWords)
    (each : ∀ e ∈ positional, e.opensNamed = false ∧ ReadAgain e)
    (eachNamed : ∀ entry ∈ named, IsName entry.1 ∧ ReadAgain entry.2)
    : Reproduces .primary ((Expr.call function positional named place).render 0).toList rest
        (.call function positional named place) := by
  intro span
  let texts := Expr.renderAll positional ++ Expr.renderNamed named
  obtain ⟨ts, positional', named', cut, derived, samePositional, sameNamed⟩ :=
    reproducesArguments rest each eachNamed ((span.past function.toList).past ['('])
  have word : Cuts span function.toList ('(' :: ((commaSeparated texts).toList ++ [')']) ++ rest)
      [(⟨.word, function, span⟩ : Token α)] :=
    cuts_word isName rfl
  have opening : Cuts (span.past function.toList) ['(']
      ((commaSeparated texts).toList ++ [')'] ++ rest)
      [(⟨.sign .lparen, "(", span.past function.toList⟩ : Token α)] :=
    cuts_sign (by decide)
  have cut : Cuts _ (commaSeparated texts).toList ([')'] ++ rest) ts := cut
  have closing : Cuts (((span.past function.toList).past ['(']).past (commaSeparated texts).toList)
      [')'] rest [(⟨.sign .rparen, ")", _⟩ : Token α)] :=
    cuts_sign (by decide)
  have text : ((Expr.call function positional named place).render 0).toList
      = function.toList ++ '(' :: ((commaSeparated texts).toList ++ [')']) := by
    simp [Expr.render, texts]
  have derivedCall : Derives .primary
      (⟨.word, function, span⟩ :: ⟨.sign .lparen, "(", span.past function.toList⟩ ::
        (ts ++ [⟨.sign .rparen, ")",
          ((span.past function.toList).past ['(']).past (commaSeparated texts).toList⟩]))
      (.call function positional' named' (some span)) :=
    .call ⟨rfl, free⟩ rfl derived rfl
  rw [text]
  refine ⟨_, _, word.append (opening.append (cut.append closing)), derivedCall, ?_⟩
  rw [Expr.unplaced, Expr.unplaced, Expr.unplacedAll_eq, Expr.unplacedAll_eq,
    Expr.unplacedNamed_eq, Expr.unplacedNamed_eq, samePositional, sameNamed]

-----------------------------------------------------------------------------------------
-- Expressions
-----------------------------------------------------------------------------------------

theorem starts_name {name : String} (is : IsName name) (more : List Char)
    : Starts (name.toList ++ more) := by
  obtain ⟨c, cs, chars, start, -⟩ := is
  refine ⟨c, cs ++ more, by rw [chars]; rfl, ?_, ?_, ?_⟩
  all_goals
    rintro rfl
    cases start

theorem starts_numeral {n : WrittenNumber} (numeral : n.IsNumeral) (more : List Char)
    : Starts (n.chars ++ more) := by
  obtain ⟨c, digits, whole⟩ := List.exists_cons_of_ne_nil numeral.whole_ne_nil
  have digit : c.isDigit = true := numeral.whole c (whole ▸ List.mem_cons_self)
  refine ⟨c, _, by rw [WrittenNumber.chars, whole]; rfl, ?_, ?_, ?_⟩
  all_goals
    rintro rfl
    cases digit

namespace Expr

/-- Text of a binary expression without the parentheses around it. -/
def operandsText (op : BinaryOp) (left right : Expr α) : List Char :=
  (left.render op.precedence).toList
    ++ ' ' :: (op.text.toList
      ++ ' ' :: (right.render (if op == .pow then op.precedence else op.precedence + 1)).toList)

theorem toList_render_binary (op : BinaryOp) (left right : Expr α) (place : Option Span)
    (strength : Nat)
    : ((binary op left right place).render strength).toList
      = if op.precedence < strength then '(' :: (operandsText op left right ++ [')'])
        else operandsText op left right := by
  rw [render]
  by_cases weak : op.precedence < strength
  · simp [weak, operandsText]
  · simp [weak, operandsText]

/-- The text of an expression starts with no sign that could go on with one in front of it. By
induction on the parts, of which the left operand comes first.
-/
theorem starts_render {e : Expr α} (spelled : e.AllNodes SpellsNames)
    (legible : e.AllNodes IsLegible) (strength : Nat)
    : Starts (e.render strength).toList := by
  induction e using induction_on_children generalizing strength with
  | step e ih =>
      rw [allNodes_iff] at spelled legible
      obtain ⟨self, parts⟩ := spelled
      obtain ⟨selfLegible, partsLegible⟩ := legible
      cases e with
      | number x place =>
          obtain ⟨n, numeral, text, -⟩ := Scalar.PrintsExactly.exists_isNumeral selfLegible
          rw [render, text]
          simpa using starts_numeral numeral []
      | percentage x place =>
          obtain ⟨n, numeral, text, -⟩ := Scalar.PrintsExactly.exists_isNumeral selfLegible
          rw [render, String.toList_append, text]
          exact starts_numeral numeral _
      | currency x unit magnitude place =>
          obtain ⟨n, numeral, text, -⟩ := Scalar.PrintsExactly.exists_isNumeral selfLegible.2
          rw [render, String.toList_append, String.toList_append, text, List.append_assoc]
          exact starts_numeral numeral _
      | text value place =>
          exact ⟨'"', _, by rw [render, quotedText, String.toList_ofList]; rfl, by decide⟩
      | boolean value place =>
          cases value with
          | true => exact ⟨'t', _, by rw [render]; rfl, by decide⟩
          | false => exact ⟨'f', _, by rw [render]; rfl, by decide⟩
      | name path place =>
          rw [render, toList_pathText]
          exact starts_name self.1.1 _
      | unary op operand place =>
          rw [render, String.toList_append, String.toList_append]
          cases op with
          | minus => exact ⟨'-', _, rfl, by decide⟩
          | plus => exact ⟨'+', _, rfl, by decide⟩
          | not => exact ⟨'n', _, rfl, by decide⟩
          | plusMinus => exact ⟨'±', _, rfl, by decide⟩
      | binary op left right place =>
          rw [toList_render_binary]
          split
          case isTrue => exact ⟨'(', _, rfl, by decide⟩
          case isFalse =>
            have child : left ∈ (binary op left right place).children := by simp [children]
            obtain ⟨c, more, text, signs⟩ :=
              ih left child (parts left child) (partsLegible left child) op.precedence
            exact ⟨c, _, by rw [operandsText, text]; rfl, signs⟩
      | call function positional named place =>
          rw [render, String.toList_append, String.toList_append, String.toList_append,
            List.append_assoc, List.append_assoc]
          exact starts_name self.1.1 _

/-- Operands that are read again where the operator stands between them. -/
theorem reproduces_operands {op : BinaryOp} {left right : Expr α} {place : Option Span}
    {rest : List Char} (follows : Follows rest)
    (legible : (binary op left right place).IsLegible)
    (first : ∀ strength rest, Follows rest
      → Reproduces (left.writtenStratum strength) (left.render strength).toList rest left)
    (second : ∀ strength rest, Follows rest
      → Reproduces (right.writtenStratum strength) (right.render strength).toList rest right)
    : Reproduces op.stratum (operandsText op left right) rest (binary op left right place) := by
  by_cases isPow : op = .pow
  case pos =>
    subst isPow
    have base := first BinaryOp.pow.precedence _ (.operator .pow ((right.render 7).toList ++ rest))
    rw [writtenStratum_base (legible rfl)] at base
    have exponent := (second BinaryOp.pow.precedence rest follows).weaken .unary
      (right.le_strength_writtenStratum (by decide) (by decide))
    exact base.joined exponent fun writes first second => .raised first writes second
  case neg =>
    obtain ⟨level, stratum, strength⟩ := BinaryOp.exists_level isPow
    have above : (if op == .pow then op.precedence else op.precedence + 1) = op.precedence + 1 :=
      if_neg (by simpa using isPow)
    have between := Follows.operator op ((right.render (op.precedence + 1)).toList ++ rest)
    have before := (first op.precedence _ between).weaken (.binary level)
      (left.le_strength_writtenStratum (Nat.le_of_eq strength.symm) (by cases level <;> decide))
    have after := (second (op.precedence + 1) rest follows).weaken level.operands
      (right.le_strength_writtenStratum (by rw [level.strength_operands, strength])
        (by cases level <;> decide))
    rw [operandsText, above, stratum]
    exact before.joined after fun writes first second => .joined first writes strength second

/-- Legible expressions are read again from their text, as they stand where operators of the
strength bind. By induction on the parts.
-/
theorem reproduces_render {e : Expr α} (spelled : e.AllNodes SpellsNames)
    (legible : e.AllNodes IsLegible) (strength : Nat) {rest : List Char} (follows : Follows rest)
    : Reproduces (e.writtenStratum strength) (e.render strength).toList rest e := by
  induction e using induction_on_children generalizing strength rest with
  | step e ih =>
      have again : ∀ part ∈ e.children, ∀ strength rest, Follows rest
          → Reproduces (part.writtenStratum strength) (part.render strength).toList rest part :=
        fun part child strength rest follows =>
          ih part child ((allNodes_iff.mp spelled).2 part child)
            ((allNodes_iff.mp legible).2 part child) strength follows
      have starts : ∀ part ∈ e.children, ∀ strength, Starts (part.render strength).toList :=
        fun part child strength =>
          starts_render ((allNodes_iff.mp spelled).2 part child)
            ((allNodes_iff.mp legible).2 part child) strength
      have names := (allNodes_iff.mp spelled).1
      have shape := (allNodes_iff.mp legible).1
      obtain ⟨boundary, quits, percent⟩ := follows.ends
      cases e with
      | number x place =>
          obtain ⟨n, numeral, text, rfl⟩ := Scalar.PrintsExactly.exists_isNumeral shape
          rw [render, text]
          exact reproduces_literal
            (fun _ => cuts_number numeral quits percent follows.currencyAfter?_eq_none)
            (fun _ => rfl) fun _ => rfl
      | percentage x place =>
          obtain ⟨n, numeral, text, rfl⟩ := Scalar.PrintsExactly.exists_isNumeral shape
          rw [render, String.toList_append, text]
          exact reproduces_literal (fun _ => cuts_percentage numeral) (fun _ => rfl) fun _ => rfl
      | currency x unit magnitude place =>
          obtain ⟨rfl, exactly⟩ := shape
          obtain ⟨n, numeral, text, rfl⟩ := Scalar.PrintsExactly.exists_isNumeral exactly
          rw [render, String.toList_append, String.toList_append, text, List.append_assoc]
          exact reproduces_literal (fun _ => cuts_currency numeral unit boundary) (fun _ => rfl)
            fun _ => rfl
      | text value place =>
          exact reproduces_literal (fun _ => cuts_quoted shape) (fun _ => rfl) fun _ => rfl
      | boolean value place =>
          cases value with
          | true =>
              exact reproduces_literal
                (fun _ => cuts_word (by decide : IsName "true") boundary)
                (fun _ => rfl) fun _ => rfl
          | false =>
              exact reproduces_literal
                (fun _ => cuts_word (by decide : IsName "false") boundary)
                (fun _ => rfl) fun _ => rfl
      | name path place => exact reproduces_name names follows
      | unary op operand place =>
          have child : operand ∈ (unary op operand place).children := by simp [children]
          rw [render, String.toList_append]
          have inner := (again operand child 6 rest follows).weaken .unary
            (operand.le_strength_writtenStratum (Nat.le_refl _) (Nat.le_refl _))
          exact inner.prefixed (starts operand child 6)
      | binary op left right place =>
          have first := again left (by simp [children])
          have second := again right (by simp [children])
          rw [toList_render_binary, writtenStratum]
          split
          case isTrue =>
            exact (reproduces_operands (.closing rest) shape first second).parenthesised
          case isFalse => exact reproduces_operands follows shape first second
      | call function positional named place =>
          have readAgain : ∀ part ∈ (call function positional named place).children,
              ReadAgain part :=
            fun part child => ⟨starts part child 0, fun rest follows =>
              (again part child 0 rest follows).weaken _ (Stratum.le_strength _)⟩
          refine reproduces_call names.1.1 names.1.2 (fun part member => ⟨shape part member, ?_⟩)
            fun entry member => ⟨names.2 entry member, ?_⟩
          · exact readAgain part (List.mem_append_left _ member)
          · exact readAgain entry.2 (List.mem_append_right _ (List.mem_map_of_mem member))

-----------------------------------------------------------------------------------------
-- Texts read again
-----------------------------------------------------------------------------------------

theorem reads_back {e : Expr α} (spelled : e.AllNodes SpellsNames) (legible : e.AllNodes IsLegible)
    : (TokenText.scan e.toText : TokenText α).findings = []
      ∧ ∃ q, expression (TokenText.scan e.toText : TokenText α).tokens = .ok q ∧ q.rest = []
        ∧ q.value.unplaced = e.unplaced := by
  have lowest := (reproduces_render spelled legible 0 .nothing).weaken _ (Stratum.le_strength _)
  obtain ⟨ts, e', cut, derived, same⟩ := lowest ⟨1, 1⟩
  obtain ⟨tokens, clean⟩ := (show Cuts ⟨1, 1⟩ e.toText.toList [] ts from cut).scan
  have reads : (expression (ts ++ [])).Reads e' [] :=
    derived.reads (Stratum.goesOn_stops stops_nil)
  rw [List.append_nil] at reads
  obtain ⟨q, read, rfl, rest⟩ := reads
  rw [tokens]
  exact ⟨clean, q, read, rest, same⟩

/-- An expression that was read from tokens of a scenario text, all nodes of it legible, is read
again from its own text: nothing is wrong with the text, no token of it is left, and the expression
is the same one up to places. Of the shapes that are excluded, a power or an operator in front as
the base of a power is written like another expression (`toText_raised_base`,
`toText_prefixed_base`), and is read as that one (`prefixed_base_misread`).

Witness: `toText_reads_back_call`
-/
theorem toText_reads_back {source : String} {ts : List (Token α)}
    (within : ts <:+ (TokenText.scan source).tokens) {p : Parsed α (Expr α) ts}
    (read : expression ts = .ok p) (legible : p.value.AllNodes IsLegible)
    : (TokenText.scan p.value.toText : TokenText α).findings = []
      ∧ ∃ q, expression (TokenText.scan p.value.toText : TokenText α).tokens = .ok q
        ∧ q.rest = [] ∧ q.value.unplaced = p.value.unplaced := by
  obtain ⟨taken, same, derived⟩ := binary_derives .disjunction ts ⟨p, read, rfl, rfl⟩
  have words : ∀ t ∈ taken, t.kind = .word → IsName t.text := by
    intro t member word
    have inside : t ∈ ts := same ▸ List.mem_append_left _ member
    exact isName_of_scan (within.subset inside) word
  exact reads_back (spellsNames_of_derives derived words) legible

/-- The parentheses around a base with an operator in front are not written. -/
theorem toText_prefixed_base (op : UnaryOp) (base exponent : Expr α) (p q p' q' : Option Span)
    : (binary .pow (unary op base p) exponent q).toText
      = (unary op (binary .pow base exponent p') q').toText := by
  have none : render 7 base = render 6 base := by
    cases base with
    | binary other left right place => cases other <;> rfl
    | number | percentage | currency | text | boolean | name | unary | call => rfl
  simp [toText, render, BinaryOp.precedence, none, String.append_assoc]

/-- The parentheses around a power as a base are not written. -/
theorem toText_raised_base (a b c : Expr α) (p q p' q' : Option Span)
    : (binary .pow (binary .pow a b p) c q).toText
      = (binary .pow a (binary .pow b c p') q').toText := by
  simp [toText, render, BinaryOp.precedence, String.append_assoc]

end Expr

section Sources

/-- A base with an operator in front is read again with the operator over the power. -/
theorem prefixed_base_misread
    : ∃ p, expression (TokenText.scan "(-a) ^ b" : TokenText Int).tokens = .ok p
      ∧ p.rest = [] ∧ p.value.toText = "-a ^ b"
      ∧ ∃ q, expression (TokenText.scan p.value.toText : TokenText Int).tokens = .ok q
        ∧ q.rest = [] ∧ q.value.unplaced ≠ p.value.unplaced := by
  have source : (TokenText.scan "(-a) ^ b" : TokenText Int).tokens
      = [⟨.sign .lparen, "(", ⟨1, 1⟩⟩, ⟨.sign .minus, "-", ⟨1, 2⟩⟩, ⟨.word, "a", ⟨1, 3⟩⟩,
        ⟨.sign .rparen, ")", ⟨1, 4⟩⟩, ⟨.sign .caret, "^", ⟨1, 6⟩⟩, ⟨.word, "b", ⟨1, 8⟩⟩] := by
    cbv
  have written : (TokenText.scan "-a ^ b" : TokenText Int).tokens
      = [⟨.sign .minus, "-", ⟨1, 1⟩⟩, ⟨.word, "a", ⟨1, 2⟩⟩, ⟨.sign .caret, "^", ⟨1, 4⟩⟩,
        ⟨.word, "b", ⟨1, 6⟩⟩] := by
    cbv
  obtain ⟨p, read, value, rest⟩ := exists_read (e := .binary .pow
    (.unary .minus (.name ⟨"a", []⟩ (some ⟨1, 3⟩)) (some ⟨1, 2⟩))
    (.name ⟨"b", []⟩ (some ⟨1, 8⟩)) (some ⟨1, 6⟩)) source (by cbv)
  have text : p.value.toText = "-a ^ b" := by
    rw [value]
    cbv
  refine ⟨p, read, rest, text, ?_⟩
  rw [text, value]
  obtain ⟨q, readAgain, valueAgain, restAgain⟩ := exists_read (e := .unary .minus
    (.binary .pow (.name ⟨"a", []⟩ (some ⟨1, 2⟩)) (.name ⟨"b", []⟩ (some ⟨1, 6⟩))
      (some ⟨1, 4⟩)) (some ⟨1, 1⟩)) written (by cbv)
  refine ⟨q, readAgain, restAgain, ?_⟩
  rw [valueAgain]
  intro same
  cases same

/-- A call is read from its text, in which its named argument stands with a single equals sign. -/
theorem toText_reads_back_call
    : ∃ p, expression (TokenText.scan "f(a - (b + c), k == 2) ^ -c" : TokenText Int).tokens = .ok p
      ∧ p.rest = [] ∧ p.value.toText = "f(a - (b + c), k=2) ^ -c"
      ∧ (TokenText.scan p.value.toText : TokenText Int).findings = []
      ∧ ∃ q, expression (TokenText.scan p.value.toText : TokenText Int).tokens = .ok q
        ∧ q.rest = [] ∧ q.value.unplaced = p.value.unplaced := by
  have source : (TokenText.scan "f(a - (b + c), k == 2) ^ -c" : TokenText Int).tokens
      = [⟨.word, "f", ⟨1, 1⟩⟩, ⟨.sign .lparen, "(", ⟨1, 2⟩⟩, ⟨.word, "a", ⟨1, 3⟩⟩,
        ⟨.sign .minus, "-", ⟨1, 5⟩⟩, ⟨.sign .lparen, "(", ⟨1, 7⟩⟩, ⟨.word, "b", ⟨1, 8⟩⟩,
        ⟨.sign .plus, "+", ⟨1, 10⟩⟩, ⟨.word, "c", ⟨1, 12⟩⟩, ⟨.sign .rparen, ")", ⟨1, 13⟩⟩,
        ⟨.sign .comma, ",", ⟨1, 14⟩⟩, ⟨.word, "k", ⟨1, 16⟩⟩, ⟨.sign .eq, "==", ⟨1, 18⟩⟩,
        ⟨.number 2, "2", ⟨1, 21⟩⟩, ⟨.sign .rparen, ")", ⟨1, 22⟩⟩, ⟨.sign .caret, "^", ⟨1, 24⟩⟩,
        ⟨.sign .minus, "-", ⟨1, 26⟩⟩, ⟨.word, "c", ⟨1, 27⟩⟩] := by
    cbv
  obtain ⟨p, read, value, rest⟩ : ∃ p,
      expression (TokenText.scan "f(a - (b + c), k == 2) ^ -c" : TokenText Int).tokens = .ok p
        ∧ p.value = .binary .pow
          (.call "f"
            [.binary .sub (.name ⟨"a", []⟩ (some ⟨1, 3⟩))
              (.binary .add (.name ⟨"b", []⟩ (some ⟨1, 8⟩)) (.name ⟨"c", []⟩ (some ⟨1, 12⟩))
                (some ⟨1, 10⟩)) (some ⟨1, 5⟩)]
            [("k", .number 2 (some ⟨1, 21⟩))] (some ⟨1, 1⟩))
          (.unary .minus (.name ⟨"c", []⟩ (some ⟨1, 27⟩)) (some ⟨1, 26⟩)) (some ⟨1, 24⟩)
        ∧ p.rest = [] :=
    exists_read source (by cbv)
  have two : Scalar.PrintsExactly (2 : Int) := ⟨⟨2, 0, rfl⟩, by decide +kernel⟩
  have legible : p.value.AllNodes Expr.IsLegible := by
    rw [value]
    simp [Expr.AllNodes, Expr.nodes, Expr.walk, Expr.children, Expr.IsLegible, Expr.stratum,
      Expr.opensNamed, two]
  have text : p.value.toText = "f(a - (b + c), k=2) ^ -c" := by
    rw [value]
    decide +kernel
  exact ⟨p, read, rest, text, Expr.toText_reads_back (List.suffix_refl _) read legible⟩

end Sources

end Prognosis
