import Prognosis.Proofs.Grammar.Seam.Declaration
import Prognosis.Proofs.Scalar.Exact

/-! Faults stay inside the declaration that has them. Declarations are cut out of a scenario one by
one: a declaration that is read alone leaves what follows it as if it stood in its place.
-/

namespace Prognosis

namespace Grammar

variable {α β γ : Type}

-----------------------------------------------------------------------------------------
-- Starts of declarations
-----------------------------------------------------------------------------------------

/-- The token may follow the keyword of a declaration: a name, a text or an opening brace. -/
def Opens (t : Token α) : Prop :=
  t.isAnyWord = true ∨ (textValue? t).isSome = true ∨ t.isSign .lbrace = true

theorem Opens.isSign {t : Token α} (opens : Opens t) {sign : Sign} (other : sign ≠ .lbrace)
    : t.isSign sign = false := by
  rcases opens with word | text | brace
  · simp only [Token.isAnyWord] at word
    split at word
    case h_1 is => simp [Token.isSign, is]
    case h_2 => cases word
  · simp only [textValue?] at text
    split at text
    case h_1 is => simp [Token.isSign, is]
    case h_2 => cases text
  · rw [Token.isSign_iff] at brace
    simp [Token.isSign, brace, other.symm]

/-- The tokens start with one that may follow the keyword of a declaration. -/
def Opened (ts : List (Token α)) : Prop :=
  ∃ t rest, ts = t :: rest ∧ Opens t

theorem identifier_opened {ts : List (Token α)} (read : (identifier ts).isOk = true)
    : Opened ts := by
  cases ts with
  | nil => cases read
  | cons t rest =>
      simp only [identifier] at read
      split at read
      case isTrue word => exact ⟨t, rest, rfl, Or.inl word⟩
      case isFalse => cases read

theorem quotedString_opened {ts : List (Token α)} (read : (quotedString ts).isOk = true)
    : Opened ts := by
  cases ts with
  | nil => cases read
  | cons t rest =>
      simp only [quotedString] at read
      split at read
      case h_1 text => exact ⟨t, rest, rfl, Or.inr (Or.inl (by rw [text]; rfl))⟩
      case h_2 => cases read

theorem wordOrString_opened {ts : List (Token α)} (read : (wordOrString ts).isOk = true)
    : Opened ts := by
  cases ts with
  | nil => cases read
  | cons t rest =>
      simp only [wordOrString] at read
      split at read
      case h_1 text => exact ⟨t, rest, rfl, Or.inr (Or.inl (by rw [text]; rfl))⟩
      case h_2 => exact identifier_opened read

theorem expectSign_opened {what : String} {ts : List (Token α)}
    (read : (expectSign .lbrace what ts).isOk = true)
    : Opened ts := by
  cases ts with
  | nil => cases read
  | cons t rest =>
      simp only [expectSign] at read
      split at read
      case isTrue brace => exact ⟨t, rest, rfl, Or.inr (Or.inr brace)⟩
      case isFalse => cases read

theorem Attempt.isOk_of_mapValue {ts : List (Token α)} {a : Attempt α β ts} {f : β → γ}
    (read : (a.mapValue f).isOk = true)
    : a.isOk = true := by
  cases a with
  | error e => cases read
  | ok p => rfl

theorem Attempt.isOk_of_andThen {ts : List (Token α)} {a : Attempt α β ts}
    {next : β → (rest : List (Token α)) → Attempt α γ rest}
    (read : (a.andThen next).isOk = true)
    : a.isOk = true := by
  cases a with
  | error e => cases read
  | ok p => rfl

theorem Attempt.isOk_of_andMaybe {ts : List (Token α)} {a : Attempt α β ts}
    {next : β → (rest : List (Token α)) → Except Failure (Continued α γ rest)}
    (read : (a.andMaybe next).isOk = true)
    : a.isOk = true := by
  cases a with
  | error e => cases read
  | ok p => rfl

theorem Outcome.isOk_of_afterAttempt {ts : List (Token α)} {a : Attempt α β ts}
    {next : β → (rest : List (Token α)) → Outcome α γ rest}
    (read : (afterAttempt a next).attempt.isOk = true)
    : a.isOk = true := by
  cases a with
  | error e => cases read
  | ok p => rfl

/-- A declaration that is read has a name, a text or a block after its keyword. -/
theorem declaration?_opened [Scalar α] {keyword : String} {span : Span} {ts : List (Token α)}
    {outcome : Outcome α (Declaration α) ts}
    (found : declaration? keyword span ts = some outcome)
    (read : outcome.attempt.isOk = true)
    : Opened ts := by
  unfold declaration? at found
  split at found
  case h_1 =>
    cases found
    exact wordOrString_opened (Outcome.isOk_of_afterAttempt (Attempt.isOk_of_mapValue read))
  case h_2 =>
    cases found
    exact expectSign_opened (Outcome.isOk_of_afterAttempt (Attempt.isOk_of_mapValue read))
  case h_3 | h_4 =>
    cases found
    exact identifier_opened (Attempt.isOk_of_andMaybe
      (Outcome.isOk_of_afterAttempt (Attempt.isOk_of_mapValue read)))
  case h_5 =>
    cases found
    exact quotedString_opened (Attempt.isOk_of_andThen (Attempt.isOk_of_mapValue read))
  case h_6 =>
    obtain ⟨inner, known, rfl⟩ := Option.map_eq_some_iff.mp found
    have named : (identifier ts).isOk = true := by
      unfold quantity? at known
      split at known
      case h_1 | h_2 | h_3 | h_4 =>
        cases known
        exact Outcome.isOk_of_afterAttempt
          (Attempt.isOk_of_mapValue (Attempt.isOk_of_mapValue read))
      case h_5 => cases known
    exact identifier_opened named

section Frames

theorem metadataKeys_contains {t : Token α} (keyword : t.IsKeyword)
    : metadataKeys.contains t.text = false := by
  have apart : ∀ word ∈ declarationKeywords, metadataKeys.contains word = false := by decide
  exact apart _ keyword.2

/-- Nothing is imported where another word stands. -/
theorem imports_none {t : Token α} (word : t.kind = .word) (other : t.isWord "import" = false)
    (rest : List (Token α))
    : imports (t :: rest) = .ok ⟨[], [], t :: rest⟩ := by
  have stays : skipSeparators (t :: rest) = t :: rest := by
    rw [skipSeparators,
      List.dropWhile_cons_of_neg (by simp [Token.isSeparator, Token.isSign, word])]
  rw [imports]
  split
  case h_1 skipped => cases stays.symm.trans skipped
  case h_2 u more skipped =>
    cases stays.symm.trans skipped
    simp only [other, Bool.false_eq_true, if_false]

variable [Scalar α]

/-- Where nothing is reported of a declaration, it was read. -/
theorem bodyItems_opened {name : String} {header : Span} {body : Body α} {keyword : Token α}
    (starts : keyword.IsKeyword) {rest : List (Token α)} {r : Body α × List (Token α)}
    (read : (bodyItems name header body (keyword :: rest)).told = ([], .ok r))
    : Opened rest := by
  have delimits : keyword.Delimits := Or.inr starts
  have brace : keyword.isSign .rbrace = false := by simp [Token.isSign, starts.1]
  rw [bodyItems_told, skipSeparators,
    List.dropWhile_cons_of_neg (by simp [delimits.isSeparator])] at read
  simp only [brace, Bool.false_eq_true, if_false] at read
  obtain ⟨first, firstRead, silent, -⟩ := Told.ok_of_andThen_ok read
  have quiet := (List.append_eq_nil_iff.mp silent.symm).1
  rw [Outcome.told_orRecover] at firstRead quiet
  cases known : declaration? keyword.text keyword.span rest with
  | none =>
      have plain : bodyItem body keyword rest
          = .silent (failHere (keyword :: rest) (.unexpectedInBody (some keyword.text))) := by
        simp only [bodyItem, metadataKeys_contains starts, Token.isAnyWord, starts.1, known]
        rfl
      rw [plain] at quiet
      cases quiet
  | some outcome =>
      apply declaration?_opened known
      have plain : bodyItem body keyword rest = (outcome.mapValue fun d =>
          { body with declarations := body.declarations ++ [d] }).afterToken keyword := by
        simp only [bodyItem, metadataKeys_contains starts, Token.isAnyWord, starts.1, known]
        rfl
      rw [plain] at firstRead quiet
      obtain ⟨reports, attempt⟩ := outcome
      cases attempt with
      | ok p => rfl
      | error e =>
          cases e with
          | finding found =>
              exact absurd quiet (List.append_ne_nil_of_right_ne_nil _ (List.cons_ne_nil _ _))
          | fault fault => cases firstRead

/-- The tokens around the body of a scenario. -/
structure Frame (α : Type) where
  word : Token α
  label : Token α
  brace : Token α
  closing : Token α
  name : String
  isScenario : word.isWord "scenario" = true
  isName : textValue? label = some name
  opens : brace.isSign .lbrace = true
  closes : closing.kind = .sign .rbrace

namespace Frame

variable (frame : Frame α)

/-- The tokens of a scenario with the given body. -/
def around (ts : List (Token α)) : List (Token α) :=
  frame.word :: frame.label :: frame.brace :: (ts ++ [frame.closing])

/-- The reading of the body up to its closing brace. -/
def read (ts : List (Token α)) : Told α (Body α) :=
  (bodyItems frame.name frame.word.span ⟨.empty, []⟩ ts).told

theorem read_closing : frame.read [frame.closing] = ([], .ok (⟨.empty, []⟩, [])) := by
  have closing : frame.closing.Delimits := Or.inl frame.closes
  rw [read, bodyItems_told, skipSeparators,
    List.dropWhile_cons_of_neg (by simp [closing.isSeparator])]
  simp [Token.isSign, frame.closes]

/-- What is reported of tokens behind a scenario. -/
def surplus (rest : List (Token α)) : List (Located SyntaxFinding) :=
  match skipSeparators rest with
  | [] => []
  | u :: _ => [⟨.unexpectedAfterScenario (some u.text), some u.span⟩]

theorem file_around (ts : List (Token α))
    : file (frame.around ts)
      = match frame.read (ts ++ [frame.closing]) with
        | (_, .error (.fault fault)) => .error fault
        | (reports, .error (.finding found)) => .ok (none, reports ++ [found])
        | (reports, .ok (body, rest)) =>
            .ok (some ⟨frame.name, body.metadata, body.declarations, frame.word.span⟩,
              reports ++ surplus rest) := by
  have scenario := frame.isScenario
  rw [Token.isWord, Bool.and_eq_true] at scenario
  have other : frame.word.isWord "import" = false := by
    rw [Token.isWord, eq_of_beq scenario.2]
    exact Bool.and_false _
  rw [around, file, imports_none (Token.isAnyWord_iff.mp scenario.1) other]
  simp only [frame.isScenario, if_true, scenarioBlock, frame.isName, frame.opens]
  unfold read Outcome.told
  generalize bodyItems frame.name frame.word.span ⟨.empty, []⟩ (ts ++ [frame.closing]) = outcome
  obtain ⟨reports, attempt⟩ := outcome
  cases attempt with
  | error e => cases e <;> simp
  | ok p =>
      simp only [Attempt.bare_ok, surplus, List.nil_append]
      cases skipSeparators p.rest <;> simp

/-- The declarations that are read where the tokens stand alone; none where nothing is read. -/
def declarations (part : List (Token α)) : List (Declaration α) :=
  match file (frame.around part) with
  | .ok (some s, _) => s.declarations
  | _ => []

/-- The finding lies within the scenario, and asks for no word where its closing brace stands. -/
def Inside (l : Located SyntaxFinding) : Prop :=
  l.span ≠ none ∧ (∀ found, l.finding ≠ .unexpectedAfterScenario found)
    ∧ (l.finding.AsksForWord → l.span ≠ some frame.closing.span)

variable {frame} {part : List (Token α)} {reports : List (Located SyntaxFinding)}

/-- Where a scenario is read and nothing stands behind it, its body ends with the last brace. -/
theorem read_of_alone {s : Scenario α} (alone : file (frame.around part) = .ok (some s, reports))
    (last : ∀ l ∈ reports, ∀ found, l.finding ≠ .unexpectedAfterScenario found)
    : ∃ body rest, frame.read (part ++ [frame.closing]) = (reports, .ok (body, rest))
      ∧ skipSeparators rest = [] ∧ s.declarations = body.declarations := by
  rw [file_around] at alone
  generalize frame.read (part ++ [frame.closing]) = read at alone ⊢
  match read with
  | (_, .error (.fault _)) => cases alone
  | (_, .error (.finding _)) => cases alone
  | (told, .ok (body, rest)) =>
      simp only [Except.ok.injEq, Prod.mk.injEq, Option.some.injEq] at alone
      obtain ⟨rfl, rfl⟩ := alone
      have none : skipSeparators rest = [] := by
        cases behind : skipSeparators rest with
        | nil => rfl
        | cons u more =>
            have reported : (⟨.unexpectedAfterScenario (some u.text), some u.span⟩ :
                Located SyntaxFinding) ∈ told ++ surplus rest := by
              simp [surplus, behind]
            exact absurd rfl (last _ reported _)
      exact ⟨body, rest, by simp [surplus, none], none, rfl⟩

/-- The seam behind a part whose faults lie inside it. -/
def seam (frame : Frame α) {next : Token α} {after : List (Token α)} (delimits : next.Delimits)
    (inside : ∀ l ∈ reports, frame.Inside l)
    (apart : reports ≠ []
      → atSign after .colon = false ∧ atSign after .assign = false ∧ atSign after .eq = false)
    : Seam α := {
  closing := frame.closing
  next := next
  after := after
  tolerates := (· ∈ reports)
  closes := frame.closes
  delimits := delimits
  placed := fun l is => (inside l is).1
  unasked := fun l is => (inside l is).2.2
  apart := fun _ is => apart (List.ne_nil_of_mem is)
}

/-- A part whose faults lie inside it is read as if it stood alone, and what follows it as if it
came first.
-/
theorem read_append {s : Scenario α} (alone : file (frame.around part) = .ok (some s, reports))
    (inside : ∀ l ∈ reports, frame.Inside l) {next : Token α} {after : List (Token α)}
    (delimits : next.Delimits)
    (apart : reports ≠ []
      → atSign after .colon = false ∧ atSign after .assign = false ∧ atSign after .eq = false)
    : declares [] (frame.read (part ++ next :: after)).2
      = declares s.declarations (frame.read (next :: after)).2 := by
  obtain ⟨body, rest, read, spent, same⟩ :=
    read_of_alone alone fun l is => (inside l is).2.1
  have continues : (frame.read (part ++ next :: after)).2
      = (bodyItems frame.name frame.word.span body (next :: after)).told.2 :=
    Seam.bodyItems_continues frame.name frame.word.span
      ((frame.seam delimits inside apart).meets_append part) read spent fun _ is => is
  rw [continues, same]
  exact bodyItems_shift frame.name frame.word.span (by simp) _

end Frame

/-- The tokens start with the keyword of a declaration. -/
def StartsDeclaration (part : List (Token α)) : Prop :=
  ∃ keyword content, part = keyword :: content ∧ keyword.IsKeyword

omit [Scalar α] in
/-- A declaration or the end comes first in a row of parts. -/
theorem delimits_flatten {parts : List (List (Token α))}
    (starts : ∀ part ∈ parts, StartsDeclaration part) {next : Token α} (delimits : next.Delimits)
    (after : List (Token α))
    : ∃ first rest, parts.flatten ++ next :: after = first :: rest ∧ first.Delimits := by
  cases parts with
  | nil => exact ⟨next, after, rfl, delimits⟩
  | cons part parts =>
      obtain ⟨keyword, content, rfl, is⟩ := starts part List.mem_cons_self
      exact ⟨keyword, _, rfl, Or.inr is⟩

namespace Frame

variable {frame : Frame α} {parts : List (List (Token α))}

/-- Declarations without reports are read one after the other, each as if it stood alone. By
induction on their number.
-/
theorem read_flatten (starts : ∀ part ∈ parts, StartsDeclaration part)
    (clean : ∀ part ∈ parts, ∃ s, file (frame.around part) = .ok (some s, []))
    {next : Token α} (delimits : next.Delimits) (after : List (Token α))
    : declares [] (frame.read (parts.flatten ++ next :: after)).2
      = declares (parts.flatMap frame.declarations) (frame.read (next :: after)).2 := by
  induction parts with
  | nil => rfl
  | cons part parts ih =>
      rw [List.forall_mem_cons] at starts clean
      obtain ⟨s, alone⟩ := clean.1
      have own : frame.declarations part = s.declarations := by rw [declarations, alone]
      have later := ih starts.2 clean.2
      obtain ⟨first, rest, same, delimitsFirst⟩ := delimits_flatten starts.2 delimits after
      rw [List.flatten_cons, List.append_assoc, List.flatMap_cons, own]
      rw [same] at later ⊢
      exact (read_append alone nofun delimitsFirst fun some => absurd rfl some).trans
        (declares_trans later _)

/-- No sign stands behind the keyword of a declaration without reports. -/
theorem atSign_behind_keyword (starts : ∀ part ∈ parts, StartsDeclaration part)
    (clean : ∀ part ∈ parts, ∃ s, file (frame.around part) = .ok (some s, []))
    {first : Token α} {rest : List (Token α)}
    (same : parts.flatten ++ [frame.closing] = first :: rest) {sign : Sign}
    (other : sign ≠ .lbrace)
    : atSign rest sign = false := by
  cases parts with
  | nil =>
      cases same
      rfl
  | cons part parts =>
      rw [List.forall_mem_cons] at starts clean
      obtain ⟨keyword, content, rfl, is⟩ := starts.1
      obtain ⟨s, alone⟩ := clean.1
      obtain ⟨body, left, read, -, -⟩ := read_of_alone alone nofun
      obtain ⟨t, more, behind, opens⟩ := bodyItems_opened is read
      cases content with
      | nil =>
          cases behind
          have closes : frame.closing.isSign .rbrace = false := opens.isSign nofun
          simp [Token.isSign, frame.closes] at closes
      | cons u us =>
          cases same
          cases behind
          exact opens.isSign other

end Frame

/-- The declarations around a part whose faults lie inside it are read as if each stood alone. -/
theorem file_around_contains (frame : Frame α) {before after : List (List (Token α))}
    {broken : List (Token α)} (starts : ∀ part ∈ before ++ broken :: after, StartsDeclaration part)
    (clean : ∀ part ∈ before ++ after, ∃ s, file (frame.around part) = .ok (some s, []))
    {s : Scenario α} {reports : List (Located SyntaxFinding)}
    (alone : file (frame.around broken) = .ok (some s, reports))
    (inside : ∀ l ∈ reports, frame.Inside l)
    : ∃ whole found, file (frame.around (before.flatten ++ broken ++ after.flatten))
        = .ok (some whole, found)
      ∧ whole.declarations = before.flatMap frame.declarations ++ s.declarations
        ++ after.flatMap frame.declarations := by
  rw [List.forall_mem_append, List.forall_mem_cons] at starts
  rw [List.forall_mem_append] at clean
  have closing : frame.closing.Delimits := Or.inl frame.closes
  have broken_first : ∀ part ∈ broken :: after, StartsDeclaration part :=
    List.forall_mem_cons.mpr starts.2
  obtain ⟨first, more, sameFirst, delimitsFirst⟩ := delimits_flatten broken_first closing []
  obtain ⟨next, rest, sameNext, delimitsNext⟩ := delimits_flatten starts.2.2 closing []
  have others (sign : Sign) (other : sign ≠ .lbrace) : atSign rest sign = false :=
    Frame.atSign_behind_keyword starts.2.2 clean.2 sameNext other
  have read : declares [] (frame.read
        ((before.flatten ++ broken ++ after.flatten) ++ [frame.closing])).2
      = .ok (before.flatMap frame.declarations ++ s.declarations
        ++ after.flatMap frame.declarations, []) :=
    calc
      _ = declares [] (frame.read (before.flatten ++ first :: more)).2 := by
        rw [← sameFirst]
        simp
      _ = declares (before.flatMap frame.declarations)
            (frame.read (broken ++ next :: rest)).2 := by
        rw [Frame.read_flatten starts.1 clean.1 delimitsFirst, ← sameFirst, ← sameNext]
        simp
      _ = declares (before.flatMap frame.declarations ++ s.declarations)
            (frame.read (after.flatten ++ [frame.closing])).2 := by
        rw [sameNext]
        exact declares_trans (Frame.read_append alone inside delimitsNext fun _ =>
          ⟨others .colon nofun, others .assign nofun, others .eq nofun⟩) _
      _ = declares (before.flatMap frame.declarations ++ s.declarations
            ++ after.flatMap frame.declarations) (frame.read [frame.closing]).2 :=
        declares_trans (Frame.read_flatten starts.2.2 clean.2 closing []) _
      _ = _ := by
        rw [Frame.read_closing]
        simp [declares, Except.map]
  rw [Frame.file_around]
  generalize frame.read ((before.flatten ++ broken ++ after.flatten) ++ [frame.closing]) = told
    at read ⊢
  rcases told with ⟨found, _ | ⟨body, rest⟩⟩
  case error => cases read
  case ok =>
      simp only [declares, Except.map, Except.ok.injEq, Prod.mk.injEq, List.nil_append] at read
      exact ⟨_, _, rfl, read.1⟩

end Frames

end Grammar

open Grammar

/-- Faults of a declaration leave its neighbours as they are. The tokens of a source are those of a
scenario with declarations in it, each from its keyword on. All but one of them are read without
reports where they stand alone in the scenario; that one is read too, and what is reported of it
lies within the scenario and does not ask for a word where the closing brace stands (the keyword of
the next declaration would be taken for it: `keyword_taken_for_name`). Then the source is read, and
declares in order what each of them declares where it stands alone.

Witness: `read_keeps_neighbours`
-/
theorem SourceText.read_contains_faults {α : Type} [Scalar α] {source : String} (frame : Frame α)
    {before after : List (List (Token α))} {broken : List (Token α)}
    (tokens : (TokenText.scan source).tokens
      = frame.around (before.flatten ++ broken ++ after.flatten))
    (starts : ∀ part ∈ before ++ broken :: after, StartsDeclaration part)
    (clean : ∀ part ∈ before ++ after, ∃ s, file (frame.around part) = .ok (some s, []))
    {s : Scenario α} {reports : List (Located SyntaxFinding)}
    (alone : file (frame.around broken) = .ok (some s, reports))
    (inside : ∀ l ∈ reports, frame.Inside l)
    : ∃ text whole, SourceText.read source = .ok text ∧ text.scenario = some whole
      ∧ whole.declarations = before.flatMap frame.declarations ++ s.declarations
        ++ after.flatMap frame.declarations := by
  obtain ⟨whole, found, read, declared⟩ :=
    file_around_contains frame starts clean alone inside
  rw [← tokens] at read
  have result : SourceText.read source = .ok ⟨some whole,
      (TokenText.scan source : TokenText α).findings.map (·.ofText)
        ++ found.map (·.ofGrammar (TokenText.scan source : TokenText α).stop)⟩ := by
    simp only [SourceText.read, read]
  exact ⟨_, whole, result, rfl, declared⟩

/-- The frame of a scenario on five lines. -/
def fiveLines : Frame Int := {
  word := ⟨.word, "scenario", ⟨1, 1⟩⟩
  label := ⟨.text "s", "\"s\"", ⟨1, 10⟩⟩
  brace := ⟨.sign .lbrace, "\x7b", ⟨1, 14⟩⟩
  closing := ⟨.sign .rbrace, "\x7d", ⟨5, 1⟩⟩
  name := "s"
  isScenario := rfl
  isName := rfl
  opens := rfl
  closes := rfl
}

/-- An assumption with nothing in its block. -/
def emptyAssumption : List (Token Int) :=
  [⟨.word, "assumption", ⟨2, 1⟩⟩, ⟨.word, "a", ⟨2, 12⟩⟩, ⟨.sign .lbrace, "\x7b", ⟨2, 14⟩⟩,
    ⟨.sign .rbrace, "\x7d", ⟨2, 15⟩⟩]

/-- An assumption with a bracket in place of its value. -/
def faultyAssumption : List (Token Int) :=
  [⟨.word, "assumption", ⟨3, 1⟩⟩, ⟨.word, "b", ⟨3, 12⟩⟩, ⟨.sign .lbrace, "\x7b", ⟨3, 14⟩⟩,
    ⟨.word, "value", ⟨3, 16⟩⟩, ⟨.sign .colon, ":", ⟨3, 21⟩⟩, ⟨.sign .rbracket, "]", ⟨3, 23⟩⟩,
    ⟨.sign .rbrace, "\x7d", ⟨3, 25⟩⟩]

/-- Settings with nothing in their block. -/
def emptySettings : List (Token Int) :=
  [⟨.word, "simulate", ⟨4, 1⟩⟩, ⟨.sign .lbrace, "\x7b", ⟨4, 10⟩⟩,
    ⟨.sign .rbrace, "\x7d", ⟨4, 11⟩⟩]

/-- A malformed value leaves the declarations around it as they are. -/
theorem read_keeps_neighbours
    : ∃ text whole, SourceText.read ("scenario \"s\" \x7b\nassumption a \x7b\x7d\n"
        ++ "assumption b \x7b value: ] \x7d\nsimulate \x7b\x7d\n\x7d") = .ok text
      ∧ text.scenario = some whole
      ∧ whole.declarations
        = [.quantity (.assumption ⟨"a", none, none, none, none, none, none, none, ⟨2, 1⟩⟩),
            (.simulate ⟨none, none, none, none, none, none, none, ⟨4, 1⟩⟩ : Declaration Int)] := by
  have tokens : (TokenText.scan ("scenario \"s\" \x7b\nassumption a \x7b\x7d\n"
        ++ "assumption b \x7b value: ] \x7d\nsimulate \x7b\x7d\n\x7d")).tokens
      = fiveLines.around
          ([emptyAssumption].flatten ++ faultyAssumption ++ [emptySettings].flatten) := by
    cbv
  have starts : ∀ part ∈ [emptyAssumption] ++ faultyAssumption :: [emptySettings],
      StartsDeclaration part := by
    simp [StartsDeclaration, emptyAssumption, faultyAssumption, emptySettings, Token.IsKeyword,
      declarationKeywords]
  have first : file (fiveLines.around emptyAssumption) = .ok (some ⟨"s", .empty,
      [.quantity (.assumption ⟨"a", none, none, none, none, none, none, none, ⟨2, 1⟩⟩)],
      ⟨1, 1⟩⟩, []) := by
    cbv
  have last : file (fiveLines.around emptySettings) = .ok (some ⟨"s", .empty,
      [.simulate ⟨none, none, none, none, none, none, none, ⟨4, 1⟩⟩], ⟨1, 1⟩⟩, []) := by
    cbv
  have alone : file (fiveLines.around faultyAssumption)
      = .ok (some ⟨"s", .empty, [], ⟨1, 1⟩⟩,
          [⟨.expected "an expression" (some "]"), some ⟨3, 23⟩⟩]) := by
    cbv
  obtain ⟨text, whole, read, scenario, declared⟩ := SourceText.read_contains_faults fiveLines
    tokens starts (by simp [first, last]) alone (by simp [Frame.Inside, fiveLines])
  refine ⟨text, whole, read, scenario, ?_⟩
  rw [declared]
  simp [Frame.declarations, first, last]

/-- A declaration without its name takes the keyword behind it as one: two declarations, of which
the second one is read without reports where it stands alone, are read as one that is none of them.
-/
theorem keyword_taken_for_name
    : SourceText.read "scenario \"s\" \x7b\n          \nsimulate \x7b \x7d\n\x7d"
        = .ok ⟨some ⟨"s", .empty,
            [(.simulate ⟨none, none, none, none, none, none, none, ⟨3, 1⟩⟩ : Declaration Int)],
            ⟨1, 1⟩⟩, []⟩
      ∧ SourceText.read "scenario \"s\" \x7b\nassumption\nsimulate \x7b \x7d\n\x7d"
        = .ok ⟨some ⟨"s", .empty, [(.quantity (.assumption
            ⟨"simulate", none, none, none, none, none, none, none, ⟨2, 1⟩⟩) : Declaration Int)],
            ⟨1, 1⟩⟩, []⟩ :=
  ⟨by cbv, by cbv⟩

end Prognosis
