import Prognosis.Proofs.Grammar.Locality

/-! Rows of tokens with slots in between, where any number of separators may stand. What is read in
items, one after the other up to a token that ends them, is the same however the slots between the
items are filled.
-/

namespace Prognosis.Grammar

variable {α β γ σ : Type}

-----------------------------------------------------------------------------------------
-- Slots
-----------------------------------------------------------------------------------------

/-- Tokens with slots in between, which are none. -/
abbrev Template (α : Type) :=
  List (Option (Token α))

/-- The tokens are those of the template, with any number of separators in each slot. -/
inductive Fills : Template α → List (Token α) → Prop
  | nil : Fills [] []
  | token (t : Token α) {p : Template α} {ts : List (Token α)} (others : Fills p ts)
    : Fills (some t :: p) (t :: ts)
  | slot {p : Template α} {gap ts : List (Token α)}
      (separated : ∀ t ∈ gap, t.isSeparator = true) (others : Fills p ts)
    : Fills (none :: p) (gap ++ ts)

namespace Fills

variable {p q : Template α} {ts us : List (Token α)}

theorem append (first : Fills p ts) (second : Fills q us) : Fills (p ++ q) (ts ++ us) := by
  induction first with
  | nil => exact second
  | token t _ ih => exact .token t ih
  | slot separated _ ih =>
      rw [List.append_assoc]
      exact .slot separated ih

theorem of_append (fills : Fills (p ++ q) ts)
    : ∃ us vs, ts = us ++ vs ∧ Fills p us ∧ Fills q vs := by
  induction p generalizing ts with
  | nil => exact ⟨[], ts, rfl, .nil, fills⟩
  | cons mark p ih =>
      cases fills with
      | token t others =>
          obtain ⟨us, vs, rfl, first, second⟩ := ih others
          exact ⟨t :: us, vs, rfl, .token t first, second⟩
      | slot separated others =>
          obtain ⟨us, vs, rfl, first, second⟩ := ih others
          exact ⟨_ ++ us, vs, (List.append_assoc _ _ _).symm, .slot separated first, second⟩

/-- Without slots there is one row of tokens. -/
theorem solid_iff : Fills (ts.map some) us ↔ us = ts := by
  constructor
  · intro fills
    induction ts generalizing us with
    | nil => cases fills; rfl
    | cons t ts ih =>
        obtain _ | ⟨_, others⟩ := fills
        rw [ih others]
  · rintro rfl
    induction us with
    | nil => exact .nil
    | cons t us ih => exact .token t ih

theorem slot_iff : Fills [none] us ↔ ∀ t ∈ us, t.isSeparator = true := by
  constructor
  · intro fills
    cases fills with
    | slot separated others =>
        cases others
        rwa [List.append_nil]
  · intro separated
    rw [← List.append_nil us]
    exact .slot separated .nil

end Fills

-----------------------------------------------------------------------------------------
-- Spellings
-----------------------------------------------------------------------------------------

/-- Which templates spell a value. -/
abbrev Spelling (α β : Type) :=
  Template α → β → Prop

namespace Spelling

/-- Tokens without slots, from which the value is read and nothing is left. -/
def solid (taking : Taking α β) : Spelling α β :=
  fun p value => ∃ ts, p = ts.map some ∧ taking ts value []

/-- One value is spelled behind another one. -/
def andThen (first : Spelling α β) (next : β → Spelling α γ) : Spelling α γ :=
  fun p value => ∃ start before behind, p = before ++ behind ∧ first before start
    ∧ next start behind value

/-- The value changed, the template as it is. -/
def map (spelling : Spelling α β) (f : β → γ) : Spelling α γ :=
  fun p value => ∃ inner, spelling p inner ∧ f inner = value

end Spelling

/-- What is taken is spelled as is required, and wherever the slots of a spelling are filled, its
value is taken in front of all tokens that may follow.
-/
structure Elastic (follows : List (Token α) → Prop) (taking : Taking α β)
    (spelling : Spelling α β) : Prop where
  sound
    : ∀ p value ts rest, spelling p value → Fills p ts → follows rest
        → taking (ts ++ rest) value rest
  spelled
    : ∀ ts value rest, taking ts value rest
        → ∃ p taken, ts = taken ++ rest ∧ Fills p taken ∧ spelling p value

namespace Elastic

variable {follows ends : List (Token α) → Prop} {taking : Taking α β} {spelling : Spelling α β}

theorem mono (elastic : Elastic ends taking spelling) (weaker : ∀ ts, follows ts → ends ts)
    : Elastic follows taking spelling where
  sound p value ts rest spelled fills may := elastic.sound p value ts rest spelled fills
    (weaker rest may)
  spelled := elastic.spelled

theorem weaken (elastic : Elastic anywhere taking spelling) : Elastic follows taking spelling :=
  elastic.mono fun _ _ => trivial

/-- What has no slots. -/
theorem solid (isLocal : taking.Local follows) (atEnd : follows [])
    : Elastic follows taking (.solid taking) where
  sound := by
    rintro _ value us rest ⟨ts, rfl, took⟩ fills may
    obtain rfl := Fills.solid_iff.mp fills
    obtain ⟨taken, rfl, again⟩ := isLocal us value [] took
    rw [List.append_nil]
    exact again rest may
  spelled := by
    intro ts value rest took
    obtain ⟨taken, rfl, again⟩ := isLocal ts value rest took
    refine ⟨taken.map some, taken, rfl, Fills.solid_iff.mpr rfl, taken, rfl, ?_⟩
    have alone := again [] atEnd
    rwa [List.append_nil] at alone

theorem map (elastic : Elastic follows taking spelling) (f : β → γ)
    : Elastic follows (taking.map f) (spelling.map f) where
  sound := by
    rintro p value ts rest ⟨inner, spelled, is⟩ fills may
    exact ⟨inner, elastic.sound p inner ts rest spelled fills may, is⟩
  spelled := by
    rintro ts value rest ⟨inner, took, is⟩
    obtain ⟨p, taken, all, fills, spelled⟩ := elastic.spelled ts inner rest took
    exact ⟨p, taken, all, fills, inner, spelled, is⟩

/-- Wherever the second value is read, the first one may end. -/
theorem andThen (elastic : Elastic ends taking spelling) {next : β → Taking α γ}
    {then_ : β → Spelling α γ} (second : ∀ value, Elastic follows (next value) (then_ value))
    (joins : ∀ value ts others rest, next value ts others rest → follows rest → ends ts)
    : Elastic follows (taking.andThen next) (spelling.andThen then_) where
  sound := by
    rintro _ value ts rest ⟨start, before, behind, rfl, spelled, spelledThen⟩ fills may
    obtain ⟨us, vs, rfl, filled, filledThen⟩ := fills.of_append
    have later := (second start).sound behind value vs rest spelledThen filledThen may
    refine ⟨start, vs ++ rest, ?_, later⟩
    rw [List.append_assoc]
    exact elastic.sound before start us _ spelled filled (joins start _ value rest later may)
  spelled := by
    rintro ts value rest ⟨start, left, took, later⟩
    obtain ⟨p, taken, rfl, fills, spelled⟩ := elastic.spelled ts start left took
    obtain ⟨q, after, rfl, fillsThen, spelledThen⟩ := (second start).spelled left value rest later
    exact ⟨p ++ q, taken ++ after, (List.append_assoc _ _ _).symm, fills.append fillsThen,
      start, p, q, rfl, spelled, spelledThen⟩

theorem then_anywhere (elastic : Elastic anywhere taking spelling) {next : β → Taking α γ}
    {then_ : β → Spelling α γ} (second : ∀ value, Elastic follows (next value) (then_ value))
    : Elastic follows (taking.andThen next) (spelling.andThen then_) :=
  elastic.andThen second fun _ _ _ _ _ _ => trivial

end Elastic

-----------------------------------------------------------------------------------------
-- Items one after the other
-----------------------------------------------------------------------------------------

/-- How an item is read into a record, from the tokens behind its first one. -/
abbrev ItemTaking (α σ : Type) :=
  σ → Token α → Taking α σ

/-- How an item that is read into a record is spelled behind its first token. -/
abbrev ItemSpelling (α σ : Type) :=
  σ → Token α → Spelling α σ

/-- Items are read into a record one after the other, with separators skipped in front of each, up
to a token that ends them.
-/
inductive Run (item : ItemTaking α σ) (stops : Token α → Prop)
    : σ → List (Token α) → σ → List (Token α) → Prop
  | stop {record : σ} {ts more : List (Token α)} {t : Token α}
      (skipped : skipSeparators ts = t :: more) (is : stops t)
    : Run item stops record ts record (t :: more)
  | item {record next last : σ} {ts more left rest : List (Token α)} {t : Token α}
      (skipped : skipSeparators ts = t :: more) (other : ¬stops t)
      (read : item record t more next left) (others : Run item stops next left last rest)
    : Run item stops record ts last rest

/-- Items are spelled one behind the other, with a slot in front of the first one, between any two
of them and behind the last one.
-/
inductive Row (item : ItemSpelling α σ) : σ → Template α → σ → Prop
  | nil (record : σ) : Row item record [none] record
  | cons {record next last : σ} {t : Token α} {p q : Template α}
      (first : item record t p next) (others : Row item next q last)
    : Row item record (none :: some t :: (p ++ q)) last

/-- Tokens in front of the first one that is no separator are separators. -/
theorem skipSeparators_eq_cons_iff {ts more : List (Token α)} {t : Token α}
    : skipSeparators ts = t :: more
      ↔ ∃ gap, ts = gap ++ t :: more ∧ (∀ u ∈ gap, u.isSeparator = true)
        ∧ t.isSeparator = false := by
  constructor
  · intro skipped
    refine ⟨ts.takeWhile (·.isSeparator), ?_, fun u => List.mem_takeWhile_imp, ?_⟩
    · rw [← skipped]
      exact List.takeWhile_append_dropWhile.symm
    · have head := List.head?_dropWhile_not (·.isSeparator) ts
      rw [skipSeparators] at skipped
      rw [skipped] at head
      simpa using head
  · rintro ⟨gap, rfl, separated, other⟩
    rw [skipSeparators, List.dropWhile_append_of_pos separated,
      List.dropWhile_cons_of_neg (by simp [other])]

section Runs

variable {item : ItemTaking α σ} {spelling : ItemSpelling α σ} {stops : Token α → Prop}
  {record last : σ} {ts rest : List (Token α)}

/-- The tokens start with one that ends the items. -/
def StopsHere (stops : Token α → Prop) (ts : List (Token α)) : Prop :=
  ∃ t more, ts = t :: more ∧ stops t ∧ t.isSeparator = false

theorem Run.stopsHere (run : Run item stops record ts last rest) : StopsHere stops rest := by
  induction run with
  | stop skipped is =>
      obtain ⟨_, _, _, other⟩ := skipSeparators_eq_cons_iff.mp skipped
      exact ⟨_, _, rfl, is, other⟩
  | item _ _ _ _ ih => exact ih

/-- Separators come first, and then an item or what ends the items. -/
theorem Run.starts (run : Run item stops record ts last rest)
    : ∃ gap t more, ts = gap ++ t :: more ∧ (∀ u ∈ gap, u.isSeparator = true)
        ∧ (stops t ∨ ∃ next left, item record t more next left) := by
  cases run with
  | stop skipped is =>
      obtain ⟨gap, same, separated, -⟩ := skipSeparators_eq_cons_iff.mp skipped
      exact ⟨gap, _, _, same, separated, Or.inl is⟩
  | item skipped _ read _ =>
      obtain ⟨gap, same, separated, -⟩ := skipSeparators_eq_cons_iff.mp skipped
      exact ⟨gap, _, _, same, separated, Or.inr ⟨_, _, read⟩⟩

/-- By induction along the items: an item may end where the items behind it are read. -/
theorem run_elastic {follows : List (Token α) → Prop}
    (each : ∀ record t, Elastic follows (item record t) (spelling record t))
    (starts : ∀ record t ts next rest, item record t ts next rest
      → t.isSeparator = false ∧ ¬stops t)
    (joins : ∀ record ts last rest, Run item stops record ts last rest → follows ts)
    (record : σ)
    : Elastic (StopsHere stops) (Run item stops record) (Row spelling record) where
  sound := by
    rintro p last ts rest row fills ⟨u, more, rfl, is, other⟩
    induction row generalizing ts with
    | nil record =>
        have separated := Fills.slot_iff.mp fills
        exact .stop (skipSeparators_eq_cons_iff.mpr ⟨ts, rfl, separated, other⟩) is
    | @cons record next last t p q first _ ih =>
        obtain _ | _ | ⟨separated, _ | ⟨_, inside⟩⟩ := fills
        obtain ⟨us, vs, rfl, filled, filledThen⟩ := inside.of_append
        have later := ih vs filledThen
        have read := (each record t).sound p next us _ first filled (joins _ _ _ _ later)
        obtain ⟨plain, goesOn⟩ := starts _ _ _ _ _ read
        refine .item (skipSeparators_eq_cons_iff.mpr ⟨_, ?_, separated, plain⟩) goesOn read later
        simp
  spelled := by
    intro ts last rest run
    induction run with
    | stop skipped is =>
        obtain ⟨gap, rfl, separated, -⟩ := skipSeparators_eq_cons_iff.mp skipped
        exact ⟨[none], gap, rfl, Fills.slot_iff.mpr separated, .nil _⟩
    | @item _ _ _ _ _ _ _ t skipped _ read _ ih =>
        obtain ⟨q, after, rfl, fillsThen, row⟩ := ih
        obtain ⟨gap, rfl, separated, -⟩ := skipSeparators_eq_cons_iff.mp skipped
        obtain ⟨p, taken, rfl, fills, spelled⟩ := (each _ _).spelled _ _ _ read
        refine ⟨none :: some t :: (p ++ q), gap ++ t :: (taken ++ after), by simp, ?_,
          .cons spelled row⟩
        exact .slot separated (.token t (fills.append fillsThen))

end Runs

-----------------------------------------------------------------------------------------
-- Readings without reports
-----------------------------------------------------------------------------------------

/-- What is read without a report. -/
def silently (told : List (Token α) → Told α β) : Taking α β :=
  fun ts value rest => told ts = ([], .ok (value, rest))

section Silent

variable {ts rest : List (Token α)} {value : β}

theorem told_silent_iff {a : Attempt α β ts}
    : (Outcome.silent a).told = ([], .ok (value, rest)) ↔ a.bare = .ok (value, rest) := by
  simp [Outcome.told, Outcome.silent]

theorem silently_silent (reader : (ts : List (Token α)) → Attempt α β ts)
    : (silently fun ts => (Outcome.silent (reader ts)).told) = takes reader := by
  funext ts value rest
  exact propext told_silent_iff

theorem told_mapValue_iff {o : Outcome α β ts} {f : β → γ} {value : γ}
    : (o.mapValue f).told = ([], .ok (value, rest))
      ↔ ∃ inner, o.told = ([], .ok (inner, rest)) ∧ f inner = value := by
  simp only [Outcome.told, Outcome.mapValue, Prod.mk.injEq, Attempt.bare_mapValue_iff]
  constructor
  · rintro ⟨quiet, inner, read, is⟩
    exact ⟨inner, ⟨quiet, read⟩, is⟩
  · rintro ⟨inner, ⟨quiet, read⟩, is⟩
    exact ⟨quiet, inner, read, is⟩

theorem told_andThen_iff {x : Told α β} {next : β × List (Token α) → Told α γ} {value : γ}
    : x.andThen next = ([], .ok (value, rest))
      ↔ ∃ start left, x = ([], .ok (start, left))
        ∧ next (start, left) = ([], .ok (value, rest)) := by
  rcases x with ⟨reports, e | ⟨start, left⟩⟩
  · simp [Told.andThen]
  · simp only [Told.andThen, Prod.ext_iff, List.append_eq_nil_iff, Except.ok.injEq]
    constructor
    · rintro ⟨⟨quiet, quietThen⟩, read⟩
      exact ⟨start, left, ⟨quiet, rfl, rfl⟩, quietThen, read⟩
    · rintro ⟨_, _, ⟨quiet, rfl, rfl⟩, quietThen, read⟩
      exact ⟨⟨quiet, quietThen⟩, read⟩

theorem told_afterAttempt_iff {a : Attempt α β ts}
    {next : β → (rest : List (Token α)) → Outcome α γ rest} {value : γ}
    : (Outcome.afterAttempt a next).told = ([], .ok (value, rest))
      ↔ ∃ start left, a.bare = .ok (start, left)
        ∧ (next start left).told = ([], .ok (value, rest)) := by
  rw [Outcome.told_afterAttempt, told_andThen_iff]
  simp only [Prod.mk.injEq, true_and]

theorem told_orRecover_iff {t : Token α} {more : List (Token α)} {record : β}
    {o : Outcome α β (t :: more)}
    : (orRecover t more record o).told = ([], .ok (value, rest))
      ↔ o.told = ([], .ok (value, rest)) := by
  rw [Outcome.told_orRecover]
  rcases o.told with ⟨reports, (found | fault) | r⟩ <;> simp

end Silent

-----------------------------------------------------------------------------------------
-- Items between braces
-----------------------------------------------------------------------------------------

/-- The token is a closing brace. -/
def Closes (t : Token α) : Prop :=
  t.isSign .rbrace = true

/-- Items are read into a record between braces. -/
def bracedItems (item : ItemTaking α σ) (record : σ) : Taking α σ :=
  fun ts last rest => ∃ opening more closing, ts = opening :: more
    ∧ opening.isSign .lbrace = true ∧ Run item Closes record more last (closing :: rest)

/-- Items are spelled between braces. -/
inductive Braced (item : ItemSpelling α σ) (record : σ) : Template α → σ → Prop
  | intro {opening closing : Token α} {p : Template α} {last : σ}
      (opens : opening.isSign .lbrace = true) (row : Row item record p last)
      (closes : closing.isSign .rbrace = true)
    : Braced item record (some opening :: (p ++ [some closing])) last

theorem bracedItems_elastic {item : ItemTaking α σ} {spelling : ItemSpelling α σ} {record : σ}
    (runs : Elastic (StopsHere Closes) (Run item Closes record) (Row spelling record))
    : Elastic anywhere (bracedItems item record) (Braced spelling record) where
  sound := by
    rintro _ last _ rest (@⟨opening, closing, p, _, opens, row, closes⟩) (_ | ⟨_, fills⟩) -
    obtain ⟨us, vs, rfl, filled, end_⟩ := fills.of_append
    obtain _ | ⟨_, _ | _⟩ := end_
    have plain : closing.isSeparator = false := by
      simp [Token.isSeparator, Token.isSign, Token.isSign_iff.mp closes]
    refine ⟨opening, us ++ closing :: rest, closing, by simp, opens, ?_⟩
    exact runs.sound p last us _ row filled ⟨closing, rest, rfl, closes, plain⟩
  spelled := by
    rintro _ last rest ⟨opening, more, closing, rfl, opens, run⟩
    obtain ⟨p, taken, rfl, fills, row⟩ := runs.spelled more last _ run
    obtain ⟨_, _, same, closes, -⟩ := run.stopsHere
    cases same
    exact ⟨some opening :: (p ++ [some closing]), opening :: (taken ++ [closing]), by simp,
      .token _ (fills.append (.token _ .nil)), .intro opens row closes⟩

/-- A loop over items reads them without a report if it reads each of them so. By induction on the
number of tokens, and along the items.
-/
theorem loop_silently {told : σ → List (Token α) → Told α σ}
    {item : σ → Token α → List (Token α) → Told α σ} {unended : Failure}
    (step : ∀ record ts, told record ts
      = match skipSeparators ts with
        | [] => ([], .error unended)
        | t :: rest =>
            if t.isSign .rbrace then ([], .ok (record, rest))
            else (item record t rest).andThen fun r => told r.1 r.2)
    (progresses : ∀ record t ts next rest, item record t ts = ([], .ok (next, rest))
      → rest.length ≤ ts.length)
    {record last : σ} {ts rest : List (Token α)}
    : told record ts = ([], .ok (last, rest))
      ↔ ∃ closing, Run (fun record t => silently (item record t)) Closes record ts last
          (closing :: rest) := by
  constructor
  case mp =>
    intro read
    induction fewer : ts.length using Nat.strong_induction_on generalizing record ts with
    | _ length ih =>
        have shorter := skipSeparators_length ts
        rw [step] at read
        match skipped : skipSeparators ts with
        | [] => simp [skipped] at read
        | t :: more =>
            simp only [skipped] at read shorter
            split at read
            case isTrue closes =>
              cases read
              exact ⟨t, .stop skipped closes⟩
            case isFalse other =>
              obtain ⟨next, left, first, others⟩ := told_andThen_iff.mp read
              have less := progresses record t more next left first
              simp only [List.length_cons] at shorter
              obtain ⟨closing, run⟩ := ih left.length (by omega) others rfl
              exact ⟨closing, .item skipped other first run⟩
  case mpr =>
    rintro ⟨closing, run⟩
    generalize ends : closing :: rest = left at run
    induction run with
    | stop skipped closes =>
        cases ends
        rw [step, skipped]
        exact if_pos closes
    | item skipped other first _ ih =>
        rw [step, skipped]
        exact (if_neg other).trans (told_andThen_iff.mpr ⟨_, _, first, ih ends⟩)

-----------------------------------------------------------------------------------------
-- Tokens that start items
-----------------------------------------------------------------------------------------

/-- No token comes first that goes on with an expression or names the date of a value. -/
structure Apart (ts : List (Token α)) : Prop where
  ends : Ends ts
  undated : atWord ts "by" = false

theorem apart_nil : Apart ([] : List (Token α)) :=
  ⟨ends_nil, rfl⟩

theorem apart_of_sign {t : Token α} {sign : Sign} (is : t.isSign sign = true)
    (free : sign ∈ [Sign.comma, .semicolon, .rbracket, .lbrace, .rbrace]) (more : List (Token α))
    : Apart (t :: more) :=
  ⟨ends_of_sign is free more,
    by simp [atWord, Token.isWord, Token.isAnyWord, Token.isSign_iff.mp is]⟩

/-- The token can start an item: a number, a date, or a word that goes on with no value. -/
def Initial (t : Token α) : Prop :=
  (t.isAnyWord = true ∧ t.text ∉ ["and", "or", "by"])
    ∨ (∃ value, t.kind = .number value) ∨ ∃ value, t.kind = .date value

namespace Initial

variable {t : Token α}

theorem isSign (initial : Initial t) (sign : Sign) : t.isSign sign = false := by
  rcases initial with ⟨word, -⟩ | ⟨_, kind⟩ | ⟨_, kind⟩
  · simp [Token.isSign, Token.isAnyWord_iff.mp word]
  · simp [Token.isSign, kind]
  · simp [Token.isSign, kind]

theorem isSeparator (initial : Initial t) : t.isSeparator = false := by
  simp [Token.isSeparator, initial.isSign]

theorem apart (initial : Initial t) (more : List (Token α)) : Apart (t :: more) := by
  have other (word : t.isAnyWord = false) (writesNone : ∀ sign, t.kind ≠ .sign sign)
      : Apart (t :: more) := by
    refine ⟨?_, by simp [atWord, Token.isWord, word]⟩
    rintro _ ⟨⟩ (dot | opening | ⟨op, writes⟩)
    · exact writesNone _ dot
    · exact writesNone _ opening
    · rw [← Bool.not_eq_true, Token.isAnyWord_iff] at word
      cases op <;> first | exact writesNone _ writes | exact word writes.1
  rcases initial with ⟨word, free⟩ | ⟨_, kind⟩ | ⟨_, kind⟩
  · simp only [List.mem_cons, List.not_mem_nil, or_false, not_or] at free
    exact ⟨ends_of_word word ⟨free.1, free.2.1⟩ more, by simp [atWord, Token.isWord, free.2.2]⟩
  · exact other (by simp [Token.isAnyWord, kind]) (by simp [kind])
  · exact other (by simp [Token.isAnyWord, kind]) (by simp [kind])

end Initial

section Starts

variable {item : ItemTaking α σ} {record last : σ} {ts rest : List (Token α)}

theorem apart_of_separator {t : Token α} (separator : t.isSeparator = true)
    (more : List (Token α))
    : Apart (t :: more) := by
  rcases Bool.or_eq_true_iff.mp separator with is | is <;> exact apart_of_sign is (by decide) more

/-- Values end where items are read. -/
theorem Run.apart (initial : ∀ record t ts next rest, item record t ts next rest → Initial t)
    (run : Run item Closes record ts last rest)
    : Apart ts := by
  obtain ⟨gap, t, more, rfl, separated, first⟩ := run.starts
  cases gap with
  | cons u gap => exact apart_of_separator (separated u List.mem_cons_self) _
  | nil =>
      rcases first with closes | ⟨next, left, read⟩
      · exact apart_of_sign closes (by decide) _
      · exact (initial _ _ _ _ _ read).apart more

/-- Names end where items are read of which words have a colon behind them. -/
theorem Run.namesEnd (initial : ∀ record t ts next rest, item record t ts next rest → Initial t)
    (colon : ∀ record t ts next rest, item record t ts next rest → t.isAnyWord = true
      → atSign ts .colon = true)
    (run : Run item Closes record ts last rest)
    : NamesEnd ts := by
  have ends := (run.apart initial).ends
  obtain ⟨gap, t, more, rfl, separated, first⟩ := run.starts
  -- a word that comes first is no name, because a colon is behind it
  have nameless : t.isAnyWord = true → atSign more .colon = true := by
    intro word
    rcases first with closes | ⟨next, left, read⟩
    · simp [Token.isAnyWord, Token.isSign_iff.mp closes] at word
    · exact colon _ _ _ _ _ read word
  have plain (sign : Sign) (other : sign ≠ .rbrace) : t.isSign sign = false := by
    rcases first with closes | ⟨next, left, read⟩
    · simpa [Token.isSign, Token.isSign_iff.mp closes] using other.symm
    · exact (initial _ _ _ _ _ read).isSign sign
  cases gap with
  | nil =>
      refine ⟨ends, plain .colon (by decide), ?_⟩
      cases more with
      | nil => rfl
      | cons u more => simp [continuesNames, plain .comma (by decide)]
  | cons u gap =>
      have kind : u.kind = .sign .semicolon ∨ u.kind = .sign .comma := by
        simpa only [Token.isSeparator, Bool.or_eq_true, Token.isSign_iff]
          using separated u List.mem_cons_self
      refine ⟨ends, by rcases kind with is | is <;> simp [atSign, Token.isSign, is], ?_⟩
      cases gap with
      | nil =>
          rw [List.singleton_append, continuesNames]
          cases word : t.isAnyWord with
          | false => simp
          | true => simp [nameless word]
      | cons v gap =>
          have other : v.isAnyWord = false := by
            have separator := separated v (by simp)
            simp only [Token.isSeparator, Bool.or_eq_true, Token.isSign_iff] at separator
            rcases separator with is | is <;> simp [Token.isAnyWord, is]
          simp [continuesNames, other]

end Starts

end Prognosis.Grammar
