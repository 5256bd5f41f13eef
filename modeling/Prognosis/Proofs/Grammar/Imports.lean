import Prognosis.Proofs.Grammar.Layout.Scenario
import Prognosis.Proofs.Token.Lines

/-! Imports in front of a scenario, line by line. An import at fault is passed over up to the import
after it, so faults among imports cost no other import and not the scenario, as long as a whole one
stands last. Where none does, the scenario is passed over with the import at fault.
-/

namespace Prognosis

namespace Grammar

variable {α β γ : Type} {ts rest : List (Token α)}

-----------------------------------------------------------------------------------------
-- One import
-----------------------------------------------------------------------------------------

/-- The tokens are an import and nothing else, but for separators. -/
inductive IsImport : List (Token α) → Import → Prop
  | intro {keyword text as_ name : Token α} {path : String} {separators : List (Token α)}
      (isKeyword : keyword.isWord "import" = true) (isText : textValue? text = some path)
      (isAs : as_.isWord "as" = true) (isName : name.isAnyWord = true)
      (separated : ∀ t ∈ separators, t.isSeparator = true)
    : IsImport (keyword :: text :: as_ :: name :: separators) ⟨path, name.text, keyword.span⟩

/-- The tokens behind the keyword of an import name a path and go on to a name, which may be missing
at their end.
-/
def NamesImport (tail : List (Token α)) : Prop :=
  ∃ text as_ rest, tail = text :: as_ :: rest
    ∧ (textValue? text).isSome = true ∧ as_.isWord "as" = true
    ∧ ∀ t ∈ rest.head?, t.isAnyWord = true

/-- The tokens behind the keyword of an import are no import, and there is nothing among them where
reading could resume.
-/
structure GivenUp (tail : List (Token α)) : Prop where
  unnamed : ¬ NamesImport tail
  braceless : ∀ t ∈ tail, t.isSign .lbrace = false ∧ t.isSign .rbrace = false
  passed : ∀ t rest, t :: rest <:+ tail → resumesAt t rest = false

/-- The rows of tokens start with the keyword of an import each. They are whole imports, which are
given, or given up; the last one is a whole one.
-/
inductive Leads : List (List (Token α)) → List Import → Prop
  | nil : Leads [] []
  | whole {row : List (Token α)} {i : Import} {rows : List (List (Token α))}
      {given : List Import} (is : IsImport row i) (others : Leads rows given)
    : Leads (row :: rows) (i :: given)
  | givenUp {keyword : Token α} {tail row : List (Token α)} {rows : List (List (Token α))}
      {given : List Import} (isKeyword : keyword.isWord "import" = true) (up : GivenUp tail)
      (others : Leads (row :: rows) given)
    : Leads ((keyword :: tail) :: row :: rows) given

theorem Attempt.bare_andThen_iff {a : Attempt α β ts}
    {next : β → (rest : List (Token α)) → Attempt α γ rest} {r : γ × List (Token α)}
    : (a.andThen next).bare = .ok r
      ↔ ∃ value left, a.bare = .ok (value, left) ∧ (next value left).bare = .ok r := by
  rw [bare_andThen]
  cases a.bare with
  | error e => simp [Except.bind]
  | ok s =>
      obtain ⟨value, left⟩ := s
      simp [Except.bind]

theorem Attempt.bare_mapValue_iff {a : Attempt α β ts} {f : β → γ} {value : γ}
    : (a.mapValue f).bare = .ok (value, rest)
      ↔ ∃ inner, a.bare = .ok (inner, rest) ∧ f inner = value := by
  rw [bare_mapValue]
  cases a.bare with
  | error e => simp [Except.map]
  | ok r =>
      obtain ⟨inner, left⟩ := r
      simp [Except.map, and_comm]

theorem quotedString_reads_iff {value : String}
    : (quotedString ts).bare = .ok (value, rest)
      ↔ ∃ t, ts = t :: rest ∧ textValue? t = some value := by
  cases ts with
  | nil => simp [quotedString, failAtEnd]
  | cons t ts =>
      rw [quotedString]
      cases is : textValue? t <;> simp [failExpected, failHere, Parsed.single, and_comm, is]

theorem expectWord_reads_iff {word : String} {span : Span}
    : (expectWord word ts).bare = .ok (span, rest)
      ↔ ∃ t, ts = t :: rest ∧ t.isWord word = true ∧ t.span = span := by
  cases ts with
  | nil => simp [expectWord, failAtEnd]
  | cons t ts =>
      rw [expectWord]
      cases is : t.isWord word <;> simp [failExpected, failHere, Parsed.single, and_comm, is]

theorem identifier_reads_iff {name : String}
    : (identifier ts).bare = .ok (name, rest)
      ↔ ∃ t, ts = t :: rest ∧ t.isAnyWord = true ∧ t.text = name := by
  cases ts with
  | nil => simp [identifier, failAtEnd]
  | cons t ts =>
      rw [identifier]
      cases is : t.isAnyWord <;> simp [failExpected, failHere, Parsed.single, and_comm, is]

theorem imported_reads_iff {span : Span} {i : Import}
    : (imported span ts).bare = .ok (i, rest)
      ↔ ∃ text as_ name path, ts = text :: as_ :: name :: rest ∧ textValue? text = some path
        ∧ as_.isWord "as" = true ∧ name.isAnyWord = true ∧ i = ⟨path, name.text, span⟩ := by
  simp only [imported, Attempt.bare_andThen_iff, Attempt.bare_mapValue_iff,
    quotedString_reads_iff, expectWord_reads_iff, identifier_reads_iff]
  constructor
  · rintro ⟨path, _, ⟨text, rfl, isText⟩, _, _, ⟨as_, rfl, isAs, rfl⟩, _, ⟨name, rfl, isName, rfl⟩,
      rfl⟩
    exact ⟨text, as_, name, path, rfl, isText, isAs, isName, rfl⟩
  · rintro ⟨text, as_, name, path, rfl, isText, isAs, isName, rfl⟩
    exact ⟨path, _, ⟨text, rfl, isText⟩, _, _, ⟨as_, rfl, isAs, rfl⟩, _,
      ⟨name, rfl, isName, rfl⟩, rfl⟩

/-- Separators in front of imports are skipped. -/
theorem imports_separators {separators : List (Token α)}
    (separated : ∀ t ∈ separators, t.isSeparator = true) (ts : List (Token α))
    : imports (separators ++ ts) = imports ts := by
  have skipped : skipSeparators (separators ++ ts) = skipSeparators ts := by
    rw [skipSeparators, List.dropWhile_append_of_pos separated]
    rfl
  rw [imports_step, imports_step ts, skipped]

theorem isAnyWord_of_isWord {t : Token α} {word : String} (is : t.isWord word = true)
    : t.isAnyWord = true :=
  (Bool.and_eq_true_iff.mp is).1

theorem isSign_of_isWord {t : Token α} {word : String} (is : t.isWord word = true) (sign : Sign)
    : t.isSign sign = false := by
  simp [Token.isSign, Token.isAnyWord_iff.mp (isAnyWord_of_isWord is)]

theorem isSign_of_textValue {t : Token α} {value : String} (is : textValue? t = some value)
    (sign : Sign)
    : t.isSign sign = false := by
  unfold textValue? at is
  split at is
  case h_1 kind => simp [Token.isSign, kind]
  case h_2 => cases is

theorem skipSeparators_word {t : Token α} (word : t.isAnyWord = true) (ts : List (Token α))
    : skipSeparators (t :: ts) = t :: ts := by
  have is := Token.isAnyWord_iff.mp word
  rw [skipSeparators, List.dropWhile_cons_of_neg (by simp [Token.isSeparator, Token.isSign, is])]

/-- Where reading resumes nowhere among the tokens, it resumes behind them. By induction on their
number.
-/
theorem recover_passes {tail next : List (Token α)}
    (braceless : ∀ t ∈ tail, t.isSign .lbrace = false ∧ t.isSign .rbrace = false)
    (passed : ∀ t rest, t :: rest <:+ tail → resumesAt t rest = false)
    (apart : atSign next .colon = false)
    : recover 0 (tail ++ next) = recover 0 next := by
  induction tail with
  | nil => rfl
  | cons t tail ih =>
      rw [List.forall_mem_cons] at braceless
      have later := ih braceless.2 fun u rest suffix =>
        passed u rest (suffix.trans (List.suffix_cons t tail))
      have colon : atSign (tail ++ next) .colon = atSign tail .colon := by
        cases tail with
        | nil => exact apart
        | cons u tail => rfl
      have on : resumesAt t (tail ++ next) = false := by
        rw [resumesAt, colon]
        exact passed t tail (List.suffix_refl _)
      simp only [List.cons_append, recover, braceless.1.1, braceless.1.2, on, Bool.false_eq_true,
        if_false, Bool.and_false, later]

/-- Reading resumes at the keyword of an import, unless a colon stands behind it. -/
theorem recover_import {keyword : Token α} (isKeyword : keyword.isWord "import" = true)
    (ts : List (Token α))
    : recover 0 (keyword :: ts) = if atSign ts .colon then recover 0 ts else keyword :: ts := by
  have is := Bool.and_eq_true_iff.mp isKeyword
  have known : declarationKeywords.contains "import" = true := by decide
  have other : metadataKeys.contains "import" = false := by decide
  rw [recover]
  simp only [isSign_of_isWord isKeyword, resumesAt, is.1, eq_of_beq is.2, known, other]
  cases atSign ts .colon <;> rfl

/-- An import that is read is given, and the imports behind it. -/
theorem imports_reads {keyword : Token α} (isKeyword : keyword.isWord "import" = true) {i : Import}
    {left : List (Token α)} (read : (imported keyword.span ts).bare = .ok (i, left))
    : imports (keyword :: ts)
      = (imports left).map fun others => { others with value := .imported i :: others.value } := by
  rw [imports_step, skipSeparators_word (isAnyWord_of_isWord isKeyword)]
  simp only [isKeyword, if_true, read]

/-- An import that is not read is reported, and reading resumes behind it. -/
theorem imports_resumes {keyword : Token α} (isKeyword : keyword.isWord "import" = true)
    (unread : ∀ i left, (imported keyword.span ts).bare ≠ .ok (i, left))
    : ∃ found, imports (keyword :: ts)
      = (imports (recover 0 ts)).map fun others =>
          { others with reports := found :: others.reports } := by
  have finds : FaultsOnly (fun _ => False) (imported keyword.span ts).bare :=
    faultsOnly_bare.mpr (imported_faults keyword.span ts)
  rw [imports_step, skipSeparators_word (isAnyWord_of_isWord isKeyword)]
  simp only [isKeyword, if_true]
  match read : (imported keyword.span ts).bare with
  | .ok (i, left) => exact absurd read (unread i left)
  | .error (.fault fault) => exact (finds fault read).elim
  | .error (.finding found) => exact ⟨found, rfl⟩

-----------------------------------------------------------------------------------------
-- Imports line by line
-----------------------------------------------------------------------------------------

/-- The imports are read in front of those of a block. -/
def ReadBefore (given : List Import) (front : Progress α (List (Declaration α)))
    (ts : List (Token α)) : Prop :=
  ∃ read, imports ts = .ok read ∧ read.value = given.map .imported ++ front.value
    ∧ read.rest = front.rest

variable {given : List Import} {front : Progress α (List (Declaration α))}

theorem IsImport.readBefore {row more : List (Token α)} {i : Import} (is : IsImport row i)
    (later : ReadBefore given front more)
    : ReadBefore (i :: given) front (row ++ more) := by
  obtain @⟨keyword, text, as_, name, path, separators, isKeyword, isText, isAs, isName,
    separated⟩ := is
  obtain ⟨others, read, value, left⟩ := later
  refine ⟨{ others with value := .imported ⟨path, name.text, keyword.span⟩ :: others.value }, ?_,
    congrArg (_ :: ·) value, left⟩
  rw [List.cons_append, List.cons_append, List.cons_append, List.cons_append,
    imports_reads isKeyword (imported_reads_iff.mpr ⟨_, _, _, _, rfl, isText, isAs, isName, rfl⟩),
    imports_separators separated, read]
  rfl

/-- The keyword of the import behind it does not complete an import that is given up. -/
theorem GivenUp.unread {tail more : List (Token α)} (up : GivenUp tail) {next : Token α}
    (isNext : next.isWord "import" = true) (span : Span) (i : Import) (left : List (Token α))
    : (imported span (tail ++ next :: more)).bare ≠ .ok (i, left) := by
  intro read
  obtain ⟨text, as_, name, path, same, isText, isAs, isName, -⟩ := imported_reads_iff.mp read
  refine up.unnamed ?_
  rcases tail with _ | ⟨t, _ | ⟨u, _ | ⟨v, tail⟩⟩⟩ <;>
    simp only [List.nil_append, List.cons_append, List.cons.injEq] at same
  case nil =>
    obtain ⟨rfl, -⟩ := same
    simp [textValue?, Token.isAnyWord_iff.mp (isAnyWord_of_isWord isNext)] at isText
  case cons.nil =>
    obtain ⟨-, rfl, -⟩ := same
    simp only [Token.isWord, Bool.and_eq_true, beq_iff_eq] at isAs isNext
    exact absurd (isAs.2.symm.trans isNext.2) (by decide)
  case cons.cons.nil =>
    obtain ⟨rfl, rfl, -⟩ := same
    exact ⟨t, u, [], rfl, Option.isSome_of_eq_some isText, isAs,
      fun _ none => absurd none (Option.not_mem_none _)⟩
  case cons.cons.cons =>
    obtain ⟨rfl, rfl, rfl, -⟩ := same
    refine ⟨t, u, v :: tail, rfl, Option.isSome_of_eq_some isText, isAs, fun w is => ?_⟩
    cases is
    exact isName

theorem GivenUp.readBefore {keyword next : Token α} {tail more : List (Token α)}
    (up : GivenUp tail)
    (isKeyword : keyword.isWord "import" = true) (isNext : next.isWord "import" = true)
    (later : ReadBefore given front (recover 0 (next :: more)))
    : ReadBefore given front (keyword :: tail ++ next :: more) := by
  obtain ⟨others, read, value, left⟩ := later
  obtain ⟨found, resumed⟩ := imports_resumes isKeyword (up.unread isNext keyword.span)
  have apart : atSign (next :: more) .colon = false := isSign_of_isWord isNext _
  refine ⟨{ others with reports := found :: others.reports }, ?_, value, left⟩
  rw [List.cons_append, resumed, recover_passes up.braceless up.passed apart, read]
  rfl

theorem Leads.first {row : List (Token α)} {rows : List (List (Token α))}
    (leads : Leads (row :: rows) given) (block : List (Token α))
    : ∃ keyword after, (row :: rows).flatten ++ block = keyword :: after
      ∧ keyword.isWord "import" = true := by
  cases leads with
  | whole is others =>
      obtain ⟨isKeyword⟩ := is
      exact ⟨_, _, rfl, isKeyword⟩
  | givenUp isKeyword => exact ⟨_, _, rfl, isKeyword⟩

/-- Imports line by line are read in front of a block, and so they are where reading resumes in
front of them. By induction on the lines.
-/
theorem Leads.readBefore {rows : List (List (Token α))} (leads : Leads rows given)
    {block : List (Token α)} (read : imports block = .ok front)
    : ReadBefore given front (rows.flatten ++ block)
      ∧ (rows ≠ [] → ReadBefore given front (recover 0 (rows.flatten ++ block))) := by
  induction leads with
  | nil => exact ⟨⟨front, read, rfl, rfl⟩, absurd rfl⟩
  | @whole row i rows given is others ih =>
      have first := is.readBefore ih.1
      rw [List.flatten_cons, List.append_assoc]
      refine ⟨first, fun _ => ?_⟩
      obtain @⟨keyword, text, as_, name, path, separators, isKeyword, isText, isAs, isName, -⟩ := is
      have apart : text.isSign .colon = false := isSign_of_textValue isText _
      rw [List.cons_append, recover_import isKeyword]
      simp only [List.cons_append, atSign, apart]
      exact first
  | @givenUp keyword tail row rows given isKeyword up others ih =>
      obtain ⟨next, after, same, isNext⟩ := others.first block
      have later := ih.2 (List.cons_ne_nil _ _)
      rw [same] at later
      rw [List.flatten_cons, List.append_assoc, same]
      have first := up.readBefore isKeyword isNext later
      refine ⟨first, fun _ => ?_⟩
      rw [List.cons_append, recover_import isKeyword]
      split
      case isTrue =>
        have apart : atSign (next :: after) .colon = false := isSign_of_isWord isNext _
        rw [recover_passes up.braceless up.passed apart]
        exact later
      case isFalse => exact first

-----------------------------------------------------------------------------------------
-- Scenarios behind imports
-----------------------------------------------------------------------------------------

section Files

variable [Scalar α]

/-- A scenario is read from its name, the brace that opens it, and its body. -/
theorem scenarioBlock_reads_iff {span : Span} {first : List (Declaration α)} {s : Scenario α}
    {reports : List (Located SyntaxFinding)}
    : scenarioBlock span first ts = .ok ⟨some s, reports, rest⟩
      ↔ s.span = span ∧ ∃ label brace body, ts = label :: brace :: body
        ∧ textValue? label = some s.name ∧ brace.isSign .lbrace = true
        ∧ (bodyItems s.name span ⟨.empty, first⟩ body).told
          = (reports, .ok (⟨s.metadata, s.declarations⟩, rest)) := by
  constructor
  case mp =>
    intro read
    unfold scenarioBlock at read
    dsimp only at read
    split at read
    case h_1 => simp at read
    case h_2 label more =>
      split at read
      case h_1 => simp at read
      case h_2 name isName =>
        split at read
        case h_1 => simp at read
        case h_2 brace body =>
          split at read
          case isFalse => simp at read
          case isTrue opens =>
            split at read
            case h_1 => cases read
            case h_2 => simp at read
            case h_3 p items =>
              cases read
              refine ⟨rfl, label, brace, body, rfl, isName, opens, ?_⟩
              rw [Outcome.told, items]
              rfl
  case mpr =>
    rintro ⟨rfl, label, brace, body, rfl, isName, opens, told⟩
    simp only [scenarioBlock, isName, opens, if_true]
    generalize bodyItems s.name s.span ⟨.empty, first⟩ body = outcome at told ⊢
    obtain ⟨found, attempt⟩ := outcome
    cases attempt with
    | error e => cases told
    | ok p =>
        simp only [Outcome.told, Attempt.bare_ok, Prod.mk.injEq, Except.ok.injEq] at told
        obtain ⟨rfl, value, rfl⟩ := told
        simp only [value]

/-- A scenario that is read without a report is read wherever its tokens stand, and with more
imports in front of its declarations.
-/
theorem scenarioBlock_carried {span : Span} (span' : Span)
    {first first' more : List (Declaration α)} {s : Scenario α}
    (behind : first'.map Declaration.unplaced = (more ++ first).map Declaration.unplaced)
    {ts' : List (Token α)} (moved : Moved ts ts')
    (read : scenarioBlock span first ts = .ok ⟨some s, [], rest⟩)
    : ∃ whole left, scenarioBlock span' first' ts' = .ok ⟨some whole, [], left⟩
      ∧ whole.name = s.name ∧ whole.metadata = s.metadata
      ∧ whole.declarations.map Declaration.unplaced
        = (more ++ s.declarations).map Declaration.unplaced
      ∧ Moved rest left := by
  obtain ⟨-, label, brace, body, rfl, isName, opens, told⟩ := scenarioBlock_reads_iff.mp read
  have start : Body.Behind more ⟨.empty, first⟩ ⟨.empty, first'⟩ := ⟨rfl, behind⟩
  cases moved with
  | cons _ labelSpan moved =>
      cases moved with
      | @cons _ braceSpan _ body' others =>
          obtain ⟨whole, left, told', kept, behind⟩ :=
            bodyItems_carried s.name span span' start others _ _ told
          refine ⟨⟨s.name, whole.metadata, whole.declarations, span'⟩, left, ?_, rfl,
            kept.metadata, kept.declarations, behind⟩
          exact scenarioBlock_reads_iff.mpr ⟨rfl, label.movedTo labelSpan,
            brace.movedTo braceSpan, body', rfl, isName, opens, told'⟩

/-- A scenario is read where there are its header and its body behind imports. -/
theorem file_of_parts {s : Scenario α} {keyword : Token α}
    {front : Progress α (List (Declaration α))} {after : List (Token α)}
    (first : imports ts = .ok front) (behind : front.rest = keyword :: after)
    (isKeyword : keyword.isWord "scenario" = true)
    (read : scenarioBlock keyword.span front.value after = .ok ⟨some s, [], rest⟩)
    : ∃ reports, file ts = .ok (some s, reports) := by
  simp only [file, first, behind, isKeyword, if_true, read]
  cases skipSeparators rest <;> exact ⟨_, rfl⟩

/-- A scenario is read without a report where nothing is reported of the imports, of its header and
of its body, and nothing but separators comes behind.
-/
theorem file_reads_iff {s : Scenario α}
    : file ts = .ok (some s, [])
      ↔ ∃ front keyword after left, imports ts = .ok front ∧ front.reports = []
        ∧ front.rest = keyword :: after ∧ keyword.isWord "scenario" = true
        ∧ scenarioBlock keyword.span front.value after = .ok ⟨some s, [], left⟩
        ∧ skipSeparators left = [] := by
  constructor
  case mp =>
    intro read
    obtain ⟨front, first⟩ := imports_returns ts
    simp only [file, first] at read
    split at read
    case h_1 => cases read
    case h_2 keyword after behind =>
      split at read
      case isFalse => cases read
      case isTrue isKeyword =>
        split at read
        case h_1 => cases read
        case h_2 progress block =>
          obtain ⟨value, reports, left⟩ := progress
          split at read
          case h_1 => simp at read
          case h_2 free =>
            simp only [Except.ok.injEq, Prod.mk.injEq, List.append_eq_nil_iff] at read
            obtain ⟨rfl, silent, rfl⟩ := read
            refine ⟨front, keyword, after, left, first, silent, behind, isKeyword, block, ?_⟩
            cases ended : skipSeparators left with
            | nil => rfl
            | cons u more => exact (free s u more rfl ended).elim
  case mpr =>
    rintro ⟨front, keyword, after, left, first, silent, behind, isKeyword, read, ended⟩
    simp only [file, first, silent, behind, isKeyword, if_true, read, ended, List.append_nil]

/-- Imports line by line in front of a scenario. The scenario is read with the imports that are
given in front of its declarations, wherever the tokens stand.
-/
theorem Leads.file {rows : List (List (Token α))} {given : List Import} (leads : Leads rows given)
    {block moved : List (Token α)} {s : Scenario α} (alone : Grammar.file block = .ok (some s, []))
    (same : Moved (rows.flatten ++ block) moved)
    : ∃ whole reports, Grammar.file moved = .ok (some whole, reports)
      ∧ whole.name = s.name ∧ whole.metadata = s.metadata
      ∧ whole.declarations.map Declaration.unplaced
        = given.map (fun i => .imported i.unplaced) ++ s.declarations.map Declaration.unplaced := by
  obtain ⟨front, keyword, after, left, first, -, behind, isKeyword, body, -⟩ :=
    file_reads_iff.mp alone
  obtain ⟨read, imported, value, rest⟩ := (leads.readBefore first).1
  obtain ⟨read', imported', value', rest', -⟩ := imports_carried same imported
  have front' : read'.value.map Declaration.unplaced
      = (given.map Declaration.imported ++ front.value).map Declaration.unplaced := by
    rw [value', value]
  rw [rest, behind] at rest'
  generalize remaining : read'.rest = left' at rest'
  cases rest' with
  | cons _ span' others =>
      obtain ⟨whole, _, body', name, metadata, declarations, -⟩ :=
        scenarioBlock_carried span' front' others body
      obtain ⟨reports, read⟩ := file_of_parts imported' remaining isKeyword body'
      refine ⟨whole, reports, read, name, metadata, ?_⟩
      rw [declarations, List.map_append, List.map_map]
      rfl

end Files

-----------------------------------------------------------------------------------------
-- Texts line by line
-----------------------------------------------------------------------------------------

section Lines

variable [Scalar α]

/-- A text has the same tokens wherever it starts. By induction along the text. -/
theorem tokensFrom_moved (span span' : Span) (cs : List Char)
    : Moved (Token.tokensFrom span cs : List (Token α)) (Token.tokensFrom span' cs) := by
  match cs with
  | [] =>
      rw [Token.tokensFrom_nil, Token.tokensFrom_nil]
      exact .nil
  | c :: cs =>
      have shorter := (Token.read c cs : Token.Reading α).width_pos
      rw [Token.tokensFrom_cons, Token.tokensFrom_cons]
      dsimp only
      have later := tokensFrom_moved
        (span.past ((c :: cs).take (Token.read c cs : Token.Reading α).width))
        (span'.past ((c :: cs).take (Token.read c cs : Token.Reading α).width))
        ((c :: cs).drop (Token.read c cs : Token.Reading α).width)
      cases (Token.read c cs : Token.Reading α).kind with
      | none => exact later
      | some kind => exact .cons _ span' later
termination_by cs.length
decreasing_by
  simp only [List.length_drop, List.length_cons]
  omega

/-- The tokens of lines and of what is behind them, each as if it stood alone. By induction on the
lines.
-/
theorem tokensFrom_lines {lines : List String} (closed : ∀ line ∈ lines, Token.ClosedLine α line)
    (span : Span) (block : List Char)
    : Moved ((lines.map fun line => (TokenText.scan line).tokens).flatten
          ++ Token.tokensFrom ⟨1, 1⟩ block : List (Token α))
        (Token.tokensFrom span (lines.flatMap (fun line => line.toList ++ ['\n']) ++ block)) := by
  induction lines generalizing span with
  | nil => exact tokensFrom_moved ⟨1, 1⟩ span block
  | cons line lines ih =>
      rw [List.forall_mem_cons] at closed
      rw [List.map_cons, List.flatten_cons, List.append_assoc, List.flatMap_cons,
        List.append_assoc, List.append_assoc, List.singleton_append, closed.1.tokensFrom]
      exact (tokensFrom_moved ⟨1, 1⟩ span line.toList).append (ih closed.2 _)

end Lines

end Grammar

open Grammar

namespace SourceText

variable {α : Type} [Scalar α]

theorem read_of_file {source : String} {scenario : Option (Scenario α)}
    {reports : List (Located SyntaxFinding)}
    (file : Grammar.file (TokenText.scan source : TokenText α).tokens = .ok (scenario, reports))
    : read source = .ok ⟨scenario,
        (TokenText.scan source : TokenText α).findings.map (·.ofText)
          ++ reports.map (·.ofGrammar (TokenText.scan source : TokenText α).stop)⟩ := by
  simp only [read, file]

theorem file_of_clean {source : String} {scenario : Option (Scenario α)}
    (clean : read source = .ok ⟨scenario, []⟩)
    : Grammar.file (TokenText.scan source : TokenText α).tokens = .ok (scenario, []) := by
  unfold read at clean
  dsimp only at clean
  split at clean
  case h_1 => cases clean
  case h_2 reports file =>
    simp only [Except.ok.injEq, SourceText.mk.injEq, List.append_eq_nil_iff,
      List.map_eq_nil_iff] at clean
    obtain ⟨rfl, -, rfl⟩ := clean
    exact file

/-- Malformed imports cost no other import and not the scenario, as long as a whole import stands
last. None of the lines in front of a block leaves a comment or an escaped line end open. Their
tokens are rows that start with the keyword of an import each, as where every line is a row. Each
row is a whole import, or is given up and holds nothing where reading could resume; the last one is
whole (what is given up right in front of the scenario takes it along: `import_takes_scenario`). The
block alone is read as a scenario without reports. Then the whole text is read as that scenario, up
to places, with the whole imports in front of its declarations.

Witness: `read_keeps_scenario_behind_three`
-/
theorem read_keeps_scenario {lines : List String} {rows : List (List (Token α))}
    {given : List Import} {block : String} {s : Scenario α}
    (closed : ∀ line ∈ lines, Token.ClosedLine α line)
    (tokens : (lines.map fun line => (TokenText.scan line).tokens).flatten = rows.flatten)
    (leads : Leads rows given) (alone : read block = .ok ⟨some s, []⟩)
    : ∃ text whole, read (String.join (lines.map (· ++ "\n")) ++ block) = .ok text
      ∧ text.scenario = some whole ∧ whole.name = s.name ∧ whole.metadata = s.metadata
      ∧ whole.declarations.map Declaration.unplaced
        = given.map (fun i => .imported i.unplaced) ++ s.declarations.map Declaration.unplaced := by
  have clean := file_of_clean alone
  have moved := tokensFrom_lines closed ⟨1, 1⟩ block.toList
  rw [tokens] at moved
  obtain ⟨whole, reports, file, same⟩ := leads.file clean moved
  have chars : (String.join (lines.map (· ++ "\n")) ++ block).toList
      = lines.flatMap (fun line => line.toList ++ ['\n']) ++ block.toList := by
    rw [String.toList_append, String.toList_join, List.flatMap_map]
    simp
  rw [← chars] at file
  exact ⟨_, whole, read_of_file file, rfl, same⟩

/-- An import without a name between two whole ones costs neither of them, nor the scenario. -/
theorem read_keeps_scenario_behind_three
    : ∃ text whole, read (String.join
          (["import \"a\" as a", "import \"b\"", "import \"c\" as c"].map (· ++ "\n"))
            ++ "scenario \"s\" \x7b simulate \x7b\x7d \x7d") = .ok text
      ∧ text.scenario = some whole ∧ whole.name = "s" ∧ whole.metadata = .empty
      ∧ whole.declarations.map Declaration.unplaced
        = [.imported ⟨"a", "a", .nowhere⟩, .imported ⟨"c", "c", .nowhere⟩,
            .simulate (⟨none, none, none, none, none, none, none, .nowhere⟩ : Simulate Int)] := by
  have first : (TokenText.scan "import \"a\" as a" : TokenText Int)
      = ⟨[⟨.word, "import", ⟨1, 1⟩⟩, ⟨.text "a", "\"a\"", ⟨1, 8⟩⟩, ⟨.word, "as", ⟨1, 12⟩⟩,
          ⟨.word, "a", ⟨1, 15⟩⟩], ⟨1, 16⟩, []⟩ := by
    cbv
  have second : (TokenText.scan "import \"b\"" : TokenText Int)
      = ⟨[⟨.word, "import", ⟨1, 1⟩⟩, ⟨.text "b", "\"b\"", ⟨1, 8⟩⟩], ⟨1, 11⟩, []⟩ := by
    cbv
  have third : (TokenText.scan "import \"c\" as c" : TokenText Int)
      = ⟨[⟨.word, "import", ⟨1, 1⟩⟩, ⟨.text "c", "\"c\"", ⟨1, 8⟩⟩, ⟨.word, "as", ⟨1, 12⟩⟩,
          ⟨.word, "c", ⟨1, 15⟩⟩], ⟨1, 16⟩, []⟩ := by
    cbv
  have alone : read "scenario \"s\" \x7b simulate \x7b\x7d \x7d"
      = .ok ⟨some ⟨"s", .empty,
          [(.simulate ⟨none, none, none, none, none, none, none, ⟨1, 16⟩⟩ : Declaration Int)],
          ⟨1, 1⟩⟩, []⟩ := by
    cbv
  have leads : Leads (["import \"a\" as a", "import \"b\"", "import \"c\" as c"].map fun line =>
      (TokenText.scan line : TokenText Int).tokens) [⟨"a", "a", ⟨1, 1⟩⟩, ⟨"c", "c", ⟨1, 1⟩⟩] := by
    simp only [List.map_cons, List.map_nil, first, second, third]
    refine .whole (.intro rfl rfl rfl rfl (List.forall_mem_nil _)) (.givenUp rfl ?_
      (.whole (.intro rfl rfl rfl rfl (List.forall_mem_nil _)) .nil))
    refine ⟨?_, by simp [Token.isSign], ?_⟩
    · rintro ⟨_, _, _, ⟨⟩, -⟩
    · intro t rest suffix
      rcases List.suffix_cons_iff.mp suffix with same | none
      · cases same
        rfl
      · cases List.suffix_nil.mp none
  have closed : ∀ line ∈ ["import \"a\" as a", "import \"b\"", "import \"c\" as c"],
      Token.ClosedLine Int line := by
    simp only [List.forall_mem_cons]
    refine ⟨⟨by decide, ?_, by decide⟩, ⟨by decide, ?_, by decide⟩, ⟨by decide, ?_, by decide⟩,
      List.forall_mem_nil _⟩
    · simp [first]
    · simp [second]
    · simp [third]
  obtain ⟨text, whole, read, scenario, name, metadata, declarations⟩ :=
    read_keeps_scenario closed rfl leads alone
  exact ⟨text, whole, read, scenario, name, metadata, declarations⟩

/-- An import without a name takes the scenario behind it along: the scenario is read where it
stands alone, and behind the import there is none.
-/
theorem import_takes_scenario
    : read "scenario \"s\" \x7b\x7d"
        = .ok ⟨some (⟨"s", .empty, [], ⟨1, 1⟩⟩ : Scenario Int), []⟩
      ∧ ∃ text : SourceText Int, read "import \"a\"\nscenario \"s\" \x7b\x7d" = .ok text
        ∧ text.scenario = none := by
  have tokens : (TokenText.scan "import \"a\"\nscenario \"s\" \x7b\x7d" : TokenText Int).tokens
      = [⟨.word, "import", ⟨1, 1⟩⟩, ⟨.text "a", "\"a\"", ⟨1, 8⟩⟩, ⟨.word, "scenario", ⟨2, 1⟩⟩,
          ⟨.text "s", "\"s\"", ⟨2, 10⟩⟩, ⟨.sign .lbrace, "\x7b", ⟨2, 14⟩⟩,
          ⟨.sign .rbrace, "\x7d", ⟨2, 15⟩⟩] := by
    cbv
  have file : Grammar.file (TokenText.scan "import \"a\"\nscenario \"s\" \x7b\x7d").tokens
      = .ok ((none : Option (Scenario Int)),
          [⟨.expected "'as'" (some "scenario"), some ⟨2, 1⟩⟩, ⟨.noScenario none, none⟩]) := by
    rw [tokens]
    cbv
  exact ⟨by cbv, _, read_of_file file, rfl⟩

end SourceText

end Prognosis
