import Prognosis.Proofs.Grammar.Calls
import Prognosis.Proofs.Grammar.Imports

/-! What readers of values take, apart from what stands behind it. A reader looks at the tokens that
it takes and at the first ones behind them at most, so it takes the same wherever nothing comes next
that would go on with it.
-/

namespace Prognosis.Grammar

variable {α β γ : Type}

-----------------------------------------------------------------------------------------
-- What is taken
-----------------------------------------------------------------------------------------

/-- From which tokens a reader takes a value, and the tokens that it leaves. -/
abbrev Taking (α β : Type) :=
  List (Token α) → β → List (Token α) → Prop

/-- What is read. -/
def takes (reader : (ts : List (Token α)) → Attempt α β ts) : Taking α β :=
  fun ts value rest => (reader ts).bare = .ok (value, rest)

/-- What is taken where nothing need be taken. -/
def mayTake (reader : (ts : List (Token α)) → Except Failure (Continued α β ts)) : Taking α β :=
  fun ts value rest => bare (reader ts) = .ok (value, rest)

/-- The tokens may be any. -/
def anywhere : List (Token α) → Prop :=
  fun _ => True

namespace Taking

/-- Reads on after a value. -/
def andThen (first : Taking α β) (next : β → Taking α γ) : Taking α γ :=
  fun ts value rest => ∃ start left, first ts start left ∧ next start left value rest

/-- The value changed, the tokens as they are. -/
def map (taking : Taking α β) (f : β → γ) : Taking α γ :=
  fun ts value rest => ∃ inner, taking ts inner rest ∧ f inner = value

/-- Only values that are admitted are taken, and what is made of them may have their place. -/
def choose (taking : Taking α β) (f : Option Span → β → Option γ) : Taking α γ :=
  fun ts value rest => ∃ inner, taking ts inner rest ∧ f (here ts) inner = some value

/-- Some first tokens are taken, and so they are in front of all tokens that may follow. -/
def Local (follows : List (Token α) → Prop) (taking : Taking α β) : Prop :=
  ∀ ts value rest, taking ts value rest
    → ∃ taken, ts = taken ++ rest ∧ ∀ more, follows more → taking (taken ++ more) value more

/-- One token at least is taken. -/
def Progresses (taking : Taking α β) : Prop :=
  ∀ ts value rest, taking ts value rest → rest.length < ts.length

namespace Progresses

variable {taking : Taking α β}

theorem map (progresses : taking.Progresses) (f : β → γ) : (taking.map f).Progresses :=
  fun ts _ rest ⟨inner, took, _⟩ => progresses ts inner rest took

theorem choose (progresses : taking.Progresses) (f : Option Span → β → Option γ)
    : (taking.choose f).Progresses :=
  fun ts _ rest ⟨inner, took, _⟩ => progresses ts inner rest took

end Progresses

namespace Local

variable {follows ends : List (Token α) → Prop} {taking : Taking α β}

theorem mono (isLocal : taking.Local ends) (weaker : ∀ ts, follows ts → ends ts)
    : taking.Local follows := by
  intro ts value rest took
  obtain ⟨taken, all, again⟩ := isLocal ts value rest took
  exact ⟨taken, all, fun more may => again more (weaker more may)⟩

theorem weaken (isLocal : taking.Local anywhere) : taking.Local follows :=
  isLocal.mono fun _ _ => trivial

theorem map (isLocal : taking.Local follows) (f : β → γ) : (taking.map f).Local follows := by
  rintro ts value rest ⟨inner, took, is⟩
  obtain ⟨taken, all, again⟩ := isLocal ts inner rest took
  exact ⟨taken, all, fun more may => ⟨inner, again more may, is⟩⟩

/-- Wherever the second value is read, the first one may end. -/
theorem andThen (isLocal : taking.Local ends) {next : β → Taking α γ}
    (then_ : ∀ value, (next value).Local follows)
    (joins : ∀ value ts others rest, next value ts others rest → follows rest → ends ts)
    : (taking.andThen next).Local follows := by
  rintro ts value rest ⟨start, left, took, later⟩
  obtain ⟨taken, rfl, again⟩ := isLocal ts start left took
  obtain ⟨after, rfl, onceMore⟩ := then_ start left value rest later
  refine ⟨taken ++ after, (List.append_assoc _ _ _).symm, fun more may => ?_⟩
  rw [List.append_assoc]
  have second := onceMore more may
  exact ⟨start, after ++ more, again _ (joins start _ value more second may), second⟩

theorem then_anywhere (isLocal : taking.Local anywhere) {next : β → Taking α γ}
    (then_ : ∀ value, (next value).Local follows)
    : (taking.andThen next).Local follows :=
  isLocal.andThen then_ fun _ _ _ _ _ _ => trivial

/-- What takes a token at least takes the first one. -/
theorem starts (isLocal : taking.Local follows) (progresses : taking.Progresses) {t : Token α}
    {ts : List (Token α)} {value : β} {rest : List (Token α)} (took : taking (t :: ts) value rest)
    : ∃ taken, ts = taken ++ rest
      ∧ ∀ more, follows more → taking (t :: (taken ++ more)) value more := by
  have fewer := progresses _ _ _ took
  obtain ⟨taken, all, again⟩ := isLocal _ value rest took
  cases taken with
  | nil =>
      rw [all] at fewer
      exact absurd fewer (Nat.lt_irrefl _)
  | cons u taken =>
      cases all
      exact ⟨taken, rfl, again⟩

/-- What takes a token at least begins at the same place. -/
theorem choose (isLocal : taking.Local follows) (progresses : taking.Progresses)
    (f : Option Span → β → Option γ)
    : (taking.choose f).Local follows := by
  rintro ts value rest ⟨inner, took, is⟩
  cases ts with
  | nil => exact absurd (progresses _ _ _ took) (Nat.not_lt_zero _)
  | cons t ts =>
      obtain ⟨taken, rfl, again⟩ := isLocal.starts progresses took
      exact ⟨t :: taken, rfl, fun more may => ⟨inner, again more may, is⟩⟩

/-- What takes a single token, whatever comes next. -/
theorem of_single
    (single : ∀ ts value rest, taking ts value rest
      → ∃ t, ts = t :: rest ∧ ∀ more, taking (t :: more) value more)
    : taking.Local follows := by
  intro ts value rest took
  obtain ⟨t, rfl, again⟩ := single ts value rest took
  exact ⟨[t], rfl, fun more _ => again more⟩

end Local

end Taking

section Results

variable {a : Except Failure (β × List (Token α))} {rest : List (Token α)}

theorem bind_eq_ok_iff {k : β × List (Token α) → Except Failure (γ × List (Token α))}
    {r : γ × List (Token α)}
    : a.bind k = .ok r ↔ ∃ value left, a = .ok (value, left) ∧ k (value, left) = .ok r := by
  rcases a with e | ⟨value, left⟩ <;> simp [Except.bind]

theorem map_eq_ok_iff {f : β → γ} {value : γ}
    : (a.map fun r => (f r.1, r.2)) = .ok (value, rest)
      ↔ ∃ inner, a = .ok (inner, rest) ∧ f inner = value := by
  rcases a with e | ⟨inner, left⟩ <;> simp [Except.map, and_comm]

end Results

section Readers

variable {reader : (ts : List (Token α)) → Attempt α β ts}

theorem takes_progresses : (takes reader).Progresses :=
  fun _ _ _ took => Attempt.length_lt_of_bare took

theorem takes_mapValue (f : β → γ)
    : (takes fun ts => (reader ts).mapValue f) = (takes reader).map f := by
  funext ts value rest
  exact propext Attempt.bare_mapValue_iff

theorem takes_andThen (next : β → (ts : List (Token α)) → Attempt α γ ts)
    : (takes fun ts => (reader ts).andThen next)
      = (takes reader).andThen fun value => takes (next value) := by
  funext ts value rest
  exact propext Attempt.bare_andThen_iff

theorem takes_andMaybe
    (next : β → (ts : List (Token α)) → Except Failure (Continued α γ ts))
    : (takes fun ts => (reader ts).andMaybe (next))
      = (takes reader).andThen fun value => mayTake (next value) := by
  funext ts value rest
  rw [takes, Attempt.bare_andMaybe, bind_eq_ok_iff]
  rfl

end Readers

-----------------------------------------------------------------------------------------
-- Single tokens
-----------------------------------------------------------------------------------------

section Single

variable {follows : List (Token α) → Prop}

theorem expectSign_takes_iff {sign : Sign} {what : String} {ts rest : List (Token α)} {u : Unit}
    : takes (expectSign sign what) ts u rest ↔ ∃ t, ts = t :: rest ∧ t.isSign sign = true := by
  cases ts with
  | nil => simp [takes, expectSign, failAtEnd]
  | cons t ts =>
      rw [takes, expectSign]
      cases is : t.isSign sign <;> simp [failExpected, failHere, Parsed.single, and_comm, is]

theorem expectSign_local (sign : Sign) (what : String)
    : (takes (expectSign (α := α) sign what)).Local follows := by
  refine .of_single fun ts _ rest took => ?_
  obtain ⟨t, rfl, is⟩ := expectSign_takes_iff.mp took
  exact ⟨t, rfl, fun more => expectSign_takes_iff.mpr ⟨t, rfl, is⟩⟩

theorem expectWord_local (word : String)
    : (takes (expectWord (α := α) word)).Local follows := by
  refine .of_single fun ts _ rest took => ?_
  obtain ⟨t, rfl, is⟩ := expectWord_reads_iff.mp took
  exact ⟨t, rfl, fun more => expectWord_reads_iff.mpr ⟨t, rfl, is⟩⟩

theorem identifier_local : (takes (identifier (α := α))).Local follows := by
  refine .of_single fun ts _ rest took => ?_
  obtain ⟨t, rfl, is⟩ := identifier_reads_iff.mp took
  exact ⟨t, rfl, fun more => identifier_reads_iff.mpr ⟨t, rfl, is⟩⟩

theorem quotedString_local : (takes (quotedString (α := α))).Local follows := by
  refine .of_single fun ts _ rest took => ?_
  obtain ⟨t, rfl, is⟩ := quotedString_reads_iff.mp took
  exact ⟨t, rfl, fun more => quotedString_reads_iff.mpr ⟨t, rfl, is⟩⟩

theorem wordOrString_local : (takes (wordOrString (α := α))).Local follows := by
  refine .of_single fun ts value rest took => ?_
  cases ts with
  | nil => cases took
  | cons t ts =>
      simp only [takes, wordOrString] at took
      split at took
      case h_1 text is =>
        cases took
        exact ⟨t, rfl, fun more => by simp [takes, wordOrString, is, Parsed.single]⟩
      case h_2 none =>
        obtain ⟨u, same, word, rfl⟩ := identifier_reads_iff.mp took
        cases same
        refine ⟨t, rfl, fun more => ?_⟩
        simp only [takes, wordOrString, none]
        exact identifier_reads_iff.mpr ⟨t, rfl, word, rfl⟩

theorem takes_choice (options : List β) (word : β → String) (what : String)
    : takes (choice (α := α) options word what)
      = (takes wordOrString).choose fun _ read => options.find? (word · == read) := by
  funext ts value rest
  rw [takes, Seam.choice_bare, bind_eq_ok_iff, Taking.choose]
  refine propext (exists_congr fun read => ?_)
  cases is : options.find? (word · == read) <;> simp [takes, failHere, is, and_comm]

theorem choice_local (options : List β) (word : β → String) (what : String)
    : (takes (choice (α := α) options word what)).Local follows := by
  rw [takes_choice]
  exact wordOrString_local.choose takes_progresses _

section Numbers

variable [Scalar α]

theorem unsignedNumber_local (percent negative : Bool)
    : (takes (unsignedNumber (α := α) percent negative)).Local follows := by
  refine .of_single fun ts value rest took => ?_
  cases ts with
  | nil => cases took
  | cons t ts =>
      simp only [takes, unsignedNumber] at took
      split at took
      case h_1 | h_2 =>
        cases took
        exact ⟨t, rfl, fun more => by simp_all [takes, unsignedNumber, Parsed.single]⟩
      case h_3 => cases took

theorem number_local (percent : Bool)
    : (takes (number (α := α) percent)).Local follows := by
  intro ts value rest took
  cases ts with
  | nil => cases took
  | cons t ts =>
      rw [takes, number] at took
      split at took
      case isTrue minus =>
        rw [Attempt.bare_afterToken] at took
        obtain ⟨taken, rfl, again⟩ := unsignedNumber_local percent true ts value rest took
        refine ⟨t :: taken, rfl, fun more may => ?_⟩
        rw [takes, List.cons_append, number, if_pos minus, Attempt.bare_afterToken]
        exact again more may
      case isFalse plain =>
        obtain ⟨taken, rfl, again⟩ :=
          (unsignedNumber_local percent false).starts takes_progresses took
        refine ⟨t :: taken, rfl, fun more may => ?_⟩
        rw [takes, List.cons_append, number, if_neg plain]
        exact again more may

theorem takes_wholeNumber
    : takes (wholeNumber (α := α))
      = (takes (number false)).choose fun _ read =>
          (Scalar.truncate? read).filter fun whole => Scalar.eq read (Scalar.ofInt whole) := by
  funext ts value rest
  rw [takes, Seam.wholeNumber_bare, bind_eq_ok_iff, Taking.choose]
  refine propext (exists_congr fun read => ?_)
  cases is : Scalar.truncate? read with
  | none => simp [is]
  | some whole =>
      cases same : Scalar.eq read (Scalar.ofInt whole) <;>
        simp [takes, failHere, is, Option.filter, same, and_comm]

theorem wholeNumber_local : (takes (wholeNumber (α := α))).Local follows := by
  rw [takes_wholeNumber]
  exact (number_local false).choose takes_progresses _

omit [Scalar α] in
theorem boolean_local : (takes (boolean (α := α))).Local follows := by
  refine .of_single fun ts value rest took => ?_
  cases ts with
  | nil => cases took
  | cons t ts =>
      simp only [takes, boolean] at took
      split at took
      case isTrue is =>
        cases took
        exact ⟨t, rfl, fun more => by simp [takes, boolean, is, Parsed.single]⟩
      case isFalse no =>
        split at took
        case isTrue is =>
          cases took
          exact ⟨t, rfl, fun more => by simp [takes, boolean, no, is, Parsed.single]⟩
        case isFalse => cases took

theorem date_local : (takes (date (α := α))).Local follows := by
  refine .of_single fun ts value rest took => ?_
  cases ts with
  | nil => cases took
  | cons t ts =>
      simp only [takes, date] at took
      split at took
      case h_1 is =>
        cases took
        exact ⟨t, rfl, fun more => by simp [takes, date, is, Parsed.single]⟩
      case h_2 number is =>
        split at took
        case h_1 => cases took
        case h_2 year known =>
          split at took
          case isTrue whole =>
            cases took
            exact ⟨t, rfl, fun more => by simp_all [takes, date, Parsed.single]⟩
          case isFalse => cases took
      case h_3 => cases took

/-- A date is a token with a date or a number. -/
theorem date_starts {t : Token α} {ts rest : List (Token α)} {day : PartialDate}
    (took : takes date (t :: ts) day rest)
    : rest = ts ∧ ((∃ value, t.kind = .number value) ∨ ∃ value, t.kind = .date value) := by
  simp only [takes, date] at took
  split at took
  case h_1 is =>
    cases took
    exact ⟨rfl, Or.inr ⟨_, is⟩⟩
  case h_2 is =>
    split at took
    case h_1 => cases took
    case h_2 =>
      split at took
      case isTrue =>
        cases took
        exact ⟨rfl, Or.inl ⟨_, is⟩⟩
      case isFalse => cases took
  case h_3 => cases took

omit [Scalar α] in
theorem duration_local : (takes (duration (α := α))).Local follows := by
  refine .of_single fun ts value rest took => ?_
  cases ts with
  | nil => cases took
  | cons t ts =>
      simp only [takes, duration] at took
      split at took
      case h_1 is =>
        cases took
        exact ⟨t, rfl, fun more => by simp [takes, duration, is, Parsed.single]⟩
      case h_2 => cases took

end Numbers

end Single

-----------------------------------------------------------------------------------------
-- Expressions and names
-----------------------------------------------------------------------------------------

/-- No token comes first that goes on with an expression or a name. -/
def Ends (ts : List (Token α)) : Prop :=
  ∀ t, ts.head? = some t → ¬t.Continues

theorem ends_nil : Ends ([] : List (Token α)) :=
  nofun

theorem Ends.stops {ts : List (Token α)} (ends : Ends ts) (strength : Nat) : Stops strength ts :=
  stops_of_not_continues ends

theorem ends_of_sign {t : Token α} {sign : Sign} (is : t.isSign sign = true)
    (free : sign ∈ [Sign.comma, .semicolon, .rbracket, .lbrace, .rbrace]) (more : List (Token α))
    : Ends (t :: more) := by
  have kind := Token.isSign_iff.mp is
  rintro _ ⟨⟩ (dot | opening | ⟨op, writes⟩)
  · rw [kind] at dot
    cases dot
    exact absurd free (by decide)
  · rw [kind] at opening
    cases opening
    exact absurd free (by decide)
  · cases op <;> simp only [Token.Writes, BinaryOp.sign?, Token.Spells, kind] at writes
    -- an operator that is a word is no sign, and the others are none of these signs
    all_goals
      first
      | (obtain ⟨word, -⟩ := writes; cases word)
      | (cases writes; exact absurd free (by decide))

/-- A word goes on with an expression only as an operator. -/
theorem ends_of_word {t : Token α} (word : t.isAnyWord = true)
    (other : t.text ≠ "and" ∧ t.text ≠ "or") (more : List (Token α))
    : Ends (t :: more) := by
  have kind := Token.isAnyWord_iff.mp word
  rintro _ ⟨⟩ (dot | opening | ⟨op, writes⟩)
  · simp [kind] at dot
  · simp [kind] at opening
  · cases op <;> simp_all [Token.Writes, BinaryOp.sign?, Token.Spells, BinaryOp.text]

theorem expression_local : (takes (expression (α := α))).Local Ends := by
  intro ts e rest took
  obtain ⟨taken, all, derived⟩ :=
    binary_derives .disjunction ts (Attempt.reads_iff_bare.mpr took)
  refine ⟨taken, all, fun more ends => Attempt.reads_iff_bare.mp ?_⟩
  exact derived.reads (Stratum.goesOn_stops (ends.stops _))

theorem mayRead_iff_bare {ts rest : List (Token α)} {a : Except Failure (Continued α β ts)}
    {value : β}
    : MayRead a value rest ↔ bare a = .ok (value, rest) := by
  cases a with
  | error e => exact iff_of_false (fun ⟨_, read, _⟩ => by cases read) nofun
  | ok p =>
      rw [bare_ok, Except.ok.injEq, Prod.mk.injEq]
      exact ⟨fun ⟨_, read, is⟩ => by cases read; exact is, fun is => ⟨p, rfl, is⟩⟩

theorem segments_local : (mayTake (segments (α := α))).Local Ends := by
  intro ts names rest took
  obtain ⟨taken, all, derived⟩ := segments_derives ts (mayRead_iff_bare.mpr took)
  exact ⟨taken, all, fun more ends => mayRead_iff_bare.mp (derived.reads (ends.stops 0))⟩

theorem takes_dottedName
    : takes (dottedName (α := α))
      = (takes identifier).andThen fun root =>
          (mayTake segments).map fun names => ⟨root, names⟩ := by
  funext ts path rest
  rw [takes, Seam.dottedName_bare, bind_eq_ok_iff]
  exact propext (exists₂_congr fun root left => and_congr_right' map_eq_ok_iff)

theorem dottedName_local : (takes (dottedName (α := α))).Local Ends := by
  rw [takes_dottedName]
  exact identifier_local.then_anywhere fun root => segments_local.map _

-----------------------------------------------------------------------------------------
-- Lists
-----------------------------------------------------------------------------------------

section Lists

variable {item : (ts : List (Token α)) → Attempt α β ts} {follows : List (Token α) → Prop}

theorem afterItem_takes_iff {first : β} {all : List β} {ts rest : List (Token α)}
    : Seam.afterItem item first ts = .ok (all, rest)
      ↔ ∃ u more, ts = u :: more
        ∧ (u.isSign .rbracket = true ∧ all = [first] ∧ more = rest
          ∨ u.isSign .rbracket = false ∧ u.isSign .comma = true
            ∧ ((takes (items item)).map (first :: ·)) more all rest) := by
  cases ts with
  | nil => simp [Seam.afterItem, failAtEnd]
  | cons u more =>
      rw [Seam.afterItem]
      cases closes : u.isSign .rbracket with
      | true => simp [closes, eq_comm (a := all)]
      | false =>
          cases comma : u.isSign .comma with
          | true =>
              simp only [Bool.false_eq_true, if_false, if_true, map_eq_ok_iff]
              simp [closes, comma, Taking.map, takes]
          | false => simp [closes, comma, failExpected, failHere]

/-- A bracket or a comma comes behind each item. By induction on the number of tokens. -/
theorem items_starts (each : (takes item).Local Ends) {ts rest : List (Token α)} {all : List β}
    (took : takes (items item) ts all rest)
    : ∃ taken, ts = taken ++ rest ∧ ∀ more, takes (items item) (taken ++ more) all more := by
  match ts, took with
  | [], took =>
      rw [takes, items] at took
      obtain ⟨_, read, -⟩ := Attempt.bare_mapValue_iff.mp took
      exact absurd (Attempt.length_lt_of_bare read) (Nat.not_lt_zero _)
  | t :: ts, took =>
      rw [takes, Seam.items_bare] at took
      split at took
      case isTrue closes =>
        cases took
        refine ⟨[t], rfl, fun more => ?_⟩
        rw [takes, List.singleton_append, Seam.items_bare, if_pos closes]
      case isFalse opens =>
        obtain ⟨first, left, read, behind⟩ := bind_eq_ok_iff.mp took
        have shorter := Attempt.length_lt_of_bare read
        obtain ⟨taken, whole, again⟩ := each.starts takes_progresses read
        have again {more : List (Token α)} (ends : Ends more)
            : (items item (t :: (taken ++ more))).bare = Seam.afterItem item first more := by
          rw [Seam.items_bare, if_neg opens, again more ends]
          rfl
        obtain ⟨u, more, rfl, ⟨closes, rfl, rfl⟩ | ⟨open_, comma, others, tookOthers, rfl⟩⟩ :=
          afterItem_takes_iff.mp behind
        case inl =>
          refine ⟨t :: (taken ++ [u]), by simp [whole], fun more => ?_⟩
          rw [takes, List.cons_append, List.append_assoc, List.singleton_append,
            again (ends_of_sign closes (by decide) _)]
          exact afterItem_takes_iff.mpr ⟨u, more, rfl, Or.inl ⟨closes, rfl, rfl⟩⟩
        case inr =>
          obtain ⟨after, rfl, onceMore⟩ := items_starts each tookOthers
          refine ⟨t :: (taken ++ u :: after), by simp [whole], fun more => ?_⟩
          rw [takes, List.cons_append, List.append_assoc, List.cons_append,
            again (ends_of_sign comma (by decide) _)]
          exact afterItem_takes_iff.mpr
            ⟨u, after ++ more, rfl, Or.inr ⟨open_, comma, others, onceMore more, rfl⟩⟩
termination_by ts.length
decreasing_by
  exact Nat.lt_of_succ_lt shorter

theorem items_local (each : (takes item).Local Ends) : (takes (items item)).Local follows := by
  intro ts all rest took
  obtain ⟨taken, whole, again⟩ := items_starts each took
  exact ⟨taken, whole, fun more _ => again more⟩

theorem bracketed_local (each : (takes item).Local Ends)
    : (takes (bracketed item)).Local follows := by
  unfold bracketed
  rw [takes_andThen]
  exact (expectSign_local _ _).then_anywhere fun _ => items_local each

theorem stringList_local : (takes (stringList (α := α))).Local follows := by
  intro ts value rest took
  cases ts with
  | nil => cases took
  | cons t ts =>
      rw [takes, stringList] at took
      split at took
      case h_1 text is =>
        cases took
        refine ⟨[t], rfl, fun more _ => ?_⟩
        simp [takes, stringList, is, Parsed.single]
      case h_2 none =>
        obtain ⟨taken, rfl, again⟩ :=
          (bracketed_local quotedString_local).starts takes_progresses took
        refine ⟨t :: taken, rfl, fun more may => ?_⟩
        rw [takes, List.cons_append, stringList, none]
        exact again more may

end Lists

-----------------------------------------------------------------------------------------
-- Lists of names
-----------------------------------------------------------------------------------------

/-- No token comes first that goes on with a name, and no comma that goes on with names. -/
structure NamesEnd (ts : List (Token α)) : Prop where
  ends : Ends ts
  colonless : atSign ts .colon = false
  stops : continuesNames ts = false

theorem namesEnd_nil : NamesEnd ([] : List (Token α)) :=
  ⟨ends_nil, rfl, rfl⟩

namespace NamesEnd

variable {after more : List (Token α)}

theorem ends_append (end_ : NamesEnd more) (begins : after = [] ∨ atSign after .comma = true)
    : Ends (after ++ more) := by
  match after, begins with
  | [], _ => exact end_.ends
  | t :: after, .inr comma => exact ends_of_sign comma (by decide) _

theorem colonless_append (end_ : NamesEnd more)
    (begins : after = [] ∨ atSign after .comma = true)
    : atSign (after ++ more) .colon = false := by
  match after, begins with
  | [], _ => exact end_.colonless
  | t :: after, .inr comma => simp [atSign, Token.isSign, Token.isSign_iff.mp comma]

end NamesEnd

theorem moreNames_of_end {ts : List (Token α)} (stops : continuesNames ts = false)
    : bare (moreNames ts) = .ok ([], ts) := by
  cases ts with
  | nil => rw [moreNames]; rfl
  | cons t ts => rw [Seam.moreNames_bare, stops]; rfl

/-- Names that go on begin with a comma. By induction on the number of tokens. -/
theorem moreNames_starts {ts rest : List (Token α)} {names : List Path}
    (took : mayTake moreNames ts names rest)
    : ∃ taken, ts = taken ++ rest
      ∧ (taken = [] ∨ atSign taken .comma = true)
      ∧ ∀ more, NamesEnd more → mayTake moreNames (taken ++ more) names more := by
  by_cases continues : continuesNames ts = true
  case neg =>
    rw [Bool.not_eq_true] at continues
    rw [mayTake, moreNames_of_end continues] at took
    cases took
    exact ⟨[], rfl, Or.inl rfl, fun more end_ => moreNames_of_end end_.stops⟩
  case pos =>
    match ts, continues with
    | comma :: word :: ts, continues =>
        rw [mayTake, Seam.moreNames_bare, if_pos continues] at took
        obtain ⟨name, left, read, later⟩ := bind_eq_ok_iff.mp took
        obtain ⟨others, tookOthers, rfl⟩ := map_eq_ok_iff.mp later
        have shorter := Attempt.length_lt_of_bare read
        obtain ⟨taken, whole, again⟩ := dottedName_local.starts takes_progresses read
        obtain ⟨after, rfl, begins, onceMore⟩ := moreNames_starts tookOthers
        refine ⟨comma :: word :: (taken ++ after), by simp [whole], Or.inr ?_, fun more end_ => ?_⟩
        all_goals
          simp only [continuesNames, whole, Bool.and_eq_true, Bool.not_eq_true'] at continues
        · exact continues.1.1
        have colonless : atSign (taken ++ (after ++ more)) .colon = false := by
          cases taken with
          | nil => exact end_.colonless_append begins
          | cons t taken => exact continues.2
        rw [mayTake, List.cons_append, List.cons_append, List.append_assoc, Seam.moreNames_bare,
          if_pos (by simp [continuesNames, continues.1.1, continues.1.2, colonless])]
        exact bind_eq_ok_iff.mpr ⟨name, after ++ more, again _ (end_.ends_append begins),
          map_eq_ok_iff.mpr ⟨others, onceMore more end_, rfl⟩⟩
termination_by ts.length
decreasing_by
  exact Nat.lt_succ_of_lt shorter

theorem nameList_local : (takes (nameList (α := α))).Local NamesEnd := by
  intro ts names rest took
  rw [takes, Seam.nameList_bare] at took
  cases ts with
  | nil => cases took
  | cons t ts =>
      rw [atSign] at took
      split at took
      case isTrue opens =>
        have inside : (takes (bracketed (dottedName (α := α)))).Local NamesEnd :=
          bracketed_local dottedName_local
        obtain ⟨taken, rfl, again⟩ := inside.starts takes_progresses took
        refine ⟨t :: taken, rfl, fun more end_ => ?_⟩
        rw [takes, List.cons_append, Seam.nameList_bare, atSign, if_pos opens]
        exact again more end_
      case isFalse plain =>
        obtain ⟨name, left, read, later⟩ := bind_eq_ok_iff.mp took
        obtain ⟨others, tookOthers, rfl⟩ := map_eq_ok_iff.mp later
        obtain ⟨taken, rfl, again⟩ := dottedName_local.starts takes_progresses read
        obtain ⟨after, rfl, begins, onceMore⟩ := moreNames_starts tookOthers
        refine ⟨t :: (taken ++ after), by simp, fun more end_ => ?_⟩
        rw [takes, List.cons_append, List.append_assoc, Seam.nameList_bare, atSign, if_neg plain]
        exact bind_eq_ok_iff.mpr ⟨name, after ++ more, again _ (end_.ends_append begins),
          map_eq_ok_iff.mpr ⟨others, onceMore more end_, rfl⟩⟩

-----------------------------------------------------------------------------------------
-- Ranges, distributions and models
-----------------------------------------------------------------------------------------

theorem range_local {follows : List (Token α) → Prop} : (takes (range (α := α))).Local follows := by
  unfold range
  simp only [takes_andThen, takes_mapValue]
  refine (expectSign_local _ _).then_anywhere fun _ => ?_
  refine expression_local.andThen (fun low => ?_) fun low ts high rest between _ => ?_
  · refine (expectSign_local _ _).then_anywhere fun _ => ?_
    refine expression_local.andThen (fun high => (expectSign_local _ _).map _)
      fun high ts bounds rest closing _ => ?_
    obtain ⟨_, closes, -⟩ := closing
    obtain ⟨t, rfl, is⟩ := expectSign_takes_iff.mp closes
    exact ends_of_sign is (by decide) _
  · obtain ⟨_, _, comma, -⟩ := between
    obtain ⟨t, rfl, is⟩ := expectSign_takes_iff.mp comma
    exact ends_of_sign is (by decide) _

/-- The distribution that is called, at the place where the call starts. -/
def distribution? (place : Option Span) : Expr α → Option (Distribution α)
  | .call function positional named _ =>
      place.bind fun place =>
        (DistributionKind.ofName? function).map fun kind => ⟨kind, positional, named, place⟩
  | _ => none

theorem calledDistribution_iff {t : Token α} {ts rest : List (Token α)} {d : Distribution α}
    : (expression (t :: ts)).bare.bind (Seam.calledDistribution (t :: ts) t.span) = .ok (d, rest)
      ↔ ((takes expression).choose distribution?) (t :: ts) d rest := by
  rw [bind_eq_ok_iff, Taking.choose]
  refine exists_congr fun e => ?_
  cases e with
  | call function positional named place =>
      cases is : DistributionKind.ofName? function <;>
        simp [takes, Seam.calledDistribution, distribution?, here, failHere, is, and_comm]
  | number | percentage | currency | text | boolean | name | binary | unary =>
      simp [Seam.calledDistribution, distribution?, failHere]

theorem distribution_local : (takes (distribution (α := α))).Local Ends := by
  intro ts value rest took
  cases ts with
  | nil => cases took
  | cons t ts =>
      rw [takes, Seam.distribution_bare] at took
      split at took
      case isTrue spreads =>
        have spread : ((takes expression).map fun spread =>
            (⟨.normal, [spread], [], t.span⟩ : Distribution α)).Local Ends :=
          expression_local.map _
        obtain ⟨taken, rfl, again⟩ := spread ts value rest (map_eq_ok_iff.mp took)
        refine ⟨t :: taken, rfl, fun more ends => ?_⟩
        rw [takes, List.cons_append, Seam.distribution_bare, if_pos spreads]
        exact map_eq_ok_iff.mpr (again more ends)
      case isFalse plain =>
        have called : ((takes expression).choose (distribution? (α := α))).Local Ends :=
          expression_local.choose takes_progresses _
        obtain ⟨taken, rfl, again⟩ :=
          called.starts (takes_progresses.choose _) (calledDistribution_iff.mp took)
        refine ⟨t :: taken, rfl, fun more ends => ?_⟩
        rw [takes, List.cons_append, Seam.distribution_bare, if_neg plain]
        exact calledDistribution_iff.mpr (again more ends)

/-- The model that is called, at the place where the call starts. -/
def model? (place : Option Span) : Expr α → Option (Model α)
  | .call function positional named _ =>
      place.bind fun place =>
        ((ModelKind.ofName? function).filter fun kind =>
            positional.isEmpty || kind == .polynomial).map fun kind =>
          ⟨kind, coefficients positional ++ named, place⟩
  | _ => none

theorem calledModel_iff {t : Token α} {ts rest : List (Token α)} {m : Model α}
    : (expression (t :: ts)).bare.bind (Seam.calledModel (t :: ts) t.span) = .ok (m, rest)
      ↔ ((takes expression).choose model?) (t :: ts) m rest := by
  rw [bind_eq_ok_iff, Taking.choose]
  refine exists_congr fun e => ?_
  cases e with
  | call function positional named place =>
      cases is : ModelKind.ofName? function with
      | none => simp [Seam.calledModel, model?, here, failHere, is]
      | some kind =>
          cases named_ : positional.isEmpty || kind == .polynomial <;>
            simp [takes, Seam.calledModel, model?, here, failHere, is, named_, Option.filter,
              and_comm]
  | number | percentage | currency | text | boolean | name | binary | unary =>
      simp [Seam.calledModel, model?, failHere]

theorem takes_model : takes (model (α := α)) = (takes expression).choose model? := by
  funext ts m rest
  cases ts with
  | nil =>
      refine propext (iff_of_false nofun fun ⟨e, read, _⟩ => ?_)
      exact absurd (takes_progresses _ e rest read) (Nat.not_lt_zero _)
  | cons t ts =>
      rw [takes, Seam.model_bare]
      exact propext calledModel_iff

theorem model_local : (takes (model (α := α))).Local Ends := by
  rw [takes_model]
  exact expression_local.choose takes_progresses _

end Prognosis.Grammar
