import Prognosis.Proofs.Grammar.Imports

/-! Loops of the readers. Readers of lists, blocks and files take turns, and each turn starts where
the one before it ended. A construct that is given up may have been read far ahead, and reading
resumes right behind its first token; the turn that gave it up still ends behind the place where it
started. So no loop turns forever, and each of them ends with what its reader gives.
-/

namespace Prognosis.Grammar

open Attempt Seam

variable {α β σ ρ : Type} {ts rest : List (Token α)}

-----------------------------------------------------------------------------------------
-- Loops and their turns
-----------------------------------------------------------------------------------------

/-- The second row is what is left of the first one when some of its tokens are passed. -/
def Beyond (ts rest : List (Token α)) : Prop :=
  rest <:+ ts ∧ rest.length < ts.length

/-- How a turn of a loop ends: the loop ends with a result, or goes on in front of some tokens. -/
inductive Turn (α σ ρ : Type) where
  | leave (result : ρ)
  | goOn (state : σ) (rest : List (Token α))

/-- A turn of a loop by what was read so far and by the tokens in front of which it starts. -/
abbrev Loop (α σ ρ : Type) :=
  σ → List (Token α) → Turn α σ ρ

/-- The loop ends with the result after a finite number of turns. -/
inductive Loop.Ends (loop : Loop α σ ρ) : σ → List (Token α) → ρ → Prop where
  | leave {state ts result} (turn : loop state ts = .leave result) : Ends loop state ts result
  | goOn {state state' ts rest result} (turn : loop state ts = .goOn state' rest)
    (later : Ends loop state' rest result)
    : Ends loop state ts result

/-- Every turn that does not end the loop passes tokens, and the loop does what the reader does. -/
structure Progresses (loop : Loop α σ ρ) (reader : σ → List (Token α) → ρ) : Prop where
  beyond : ∀ {state ts state' rest}, loop state ts = .goOn state' rest → Beyond ts rest
  ends : ∀ state ts, loop.Ends state ts (reader state ts)

/-- What a reader makes of the end of a turn. -/
def Turn.result (reader : σ → List (Token α) → ρ) : Turn α σ ρ → ρ
  | .leave result => result
  | .goOn state rest => reader state rest

/-- A loop whose turns pass tokens ends with what is read turn by turn. By induction on the number
of tokens.
-/
theorem progresses_of_turns {loop : Loop α σ ρ} {reader : σ → List (Token α) → ρ}
    (beyond : ∀ {state ts state' rest}, loop state ts = .goOn state' rest → Beyond ts rest)
    (turns : ∀ state ts, reader state ts = (loop state ts).result reader)
    : Progresses loop reader := by
  refine ⟨beyond, fun state ts => ?_⟩
  induction size : ts.length using Nat.strong_induction_on generalizing state ts with
  | _ size' ih =>
      subst size
      rw [turns]
      cases turn : loop state ts with
      | leave result => exact .leave turn
      | goOn state' rest => exact .goOn turn (ih _ (beyond turn).2 state' rest rfl)

theorem beyond_cons (t : Token α) (rest : List (Token α)) : Beyond (t :: rest) rest :=
  ⟨List.suffix_cons t rest, Nat.lt_succ_self _⟩

namespace Beyond

variable {more : List (Token α)}

theorem suffix (beyond : Beyond ts rest) (left : more <:+ rest) : Beyond ts more :=
  ⟨left.trans beyond.1, Nat.lt_of_le_of_lt left.length_le beyond.2⟩

theorem within (beyond : Beyond ts rest) (inside : ts <:+ more) : Beyond more rest :=
  ⟨beyond.1.trans inside, Nat.lt_of_lt_of_le beyond.2 inside.length_le⟩

theorem trans (first : Beyond ts rest) (second : Beyond rest more) : Beyond ts more :=
  first.suffix second.1

end Beyond

/-- A construct that was read is passed. -/
theorem Attempt.Yields.beyond {a : Attempt α β ts} {holds : β → Prop} (yields : a.Yields holds)
    {value : β} (read : a.bare = .ok (value, rest))
    : Beyond ts rest :=
  ⟨(yields.of_bare read).1, length_lt_of_bare read⟩

/-- So it is whatever is made of its value. -/
theorem Attempt.Yields.beyond_map {γ : Type} {a : Attempt α β ts} {holds : β → Prop}
    (yields : a.Yields holds) {f : β × List (Token α) → γ × List (Token α)} {value : γ}
    (read : a.bare.map f = .ok (value, rest)) (same : ∀ r, (f r).2 = r.2)
    : Beyond ts rest := by
  cases is : a.bare with
  | error e =>
      rw [is] at read
      cases read
  | ok r =>
      rw [is, Except.map, Except.ok.injEq] at read
      have left := same r
      rw [read] at left
      have passed : Beyond ts r.2 := yields.beyond is
      rwa [← left] at passed

-----------------------------------------------------------------------------------------
-- Tokens that are passed over
-----------------------------------------------------------------------------------------

/-- Separators one by one. -/
def skipping : Loop α Unit (List (Token α))
  | _, [] => .leave []
  | _, t :: rest => if t.isSeparator then .goOn () rest else .leave (t :: rest)

theorem skipping_progresses : Progresses (α := α) skipping fun _ => skipSeparators := by
  refine progresses_of_turns (fun {_ ts _ rest} turn => ?_) fun _ ts => ?_
  case refine_1 =>
    cases ts with
    | nil => cases turn
    | cons t ts =>
        rw [skipping] at turn
        split at turn <;> cases turn
        exact beyond_cons t rest
  case refine_2 =>
    cases ts with
    | nil => rfl
    | cons t ts =>
        rw [skipSeparators, skipping, List.dropWhile_cons]
        split <;> rfl

/-- The rest of a property that is unknown, token by token. -/
def passing (line : Nat) : Loop α Int (List (Token α))
  | _, [] => .leave []
  | depth, t :: rest =>
      if depth == 0 && (t.isSign .semicolon || t.isSign .rbrace || line < t.span.line) then
        .leave (t :: rest)
      else .goOn (depth + bracketDepth t) rest

theorem passing_progresses (line : Nat)
    : Progresses (α := α) (passing line) (afterProperty line) := by
  refine progresses_of_turns (fun {_ ts _ rest} turn => ?_) fun depth ts => ?_
  case refine_1 =>
    cases ts with
    | nil => cases turn
    | cons t ts =>
        rw [passing] at turn
        split at turn <;> cases turn
        exact beyond_cons t rest
  case refine_2 =>
    cases ts with
    | nil => rfl
    | cons t ts =>
        rw [afterProperty, passing]
        split <;> rfl

/-- What was given up, token by token up to where reading resumes. -/
def recovering : Loop α Nat (List (Token α))
  | _, [] => .leave []
  | depth, t :: rest =>
      if t.isSign .lbrace then .goOn (depth + 1) rest
      else if t.isSign .rbrace then
        match depth with
        | 0 => .leave (t :: rest)
        | 1 => .leave rest
        | depth + 2 => .goOn (depth + 1) rest
      else if depth == 0 && resumesAt t rest then .leave (t :: rest)
      else .goOn depth rest

theorem recovering_progresses : Progresses (α := α) recovering recover := by
  refine progresses_of_turns (fun {depth ts _ rest} turn => ?_) fun depth ts => ?_
  case refine_1 =>
    cases ts with
    | nil => cases turn
    | cons t ts =>
        suffices same : rest = ts by
          rw [same]
          exact beyond_cons t ts
        rw [recovering.eq_def] at turn
        dsimp only at turn
        split at turn
        case isTrue =>
          cases turn
          rfl
        case isFalse =>
          split at turn
          case isTrue =>
            split at turn <;> cases turn
            rfl
          case isFalse =>
            split at turn <;> cases turn
            rfl
  case refine_2 =>
    cases ts with
    | nil => rfl
    | cons t ts =>
        rw [recover.eq_def, recovering.eq_def]
        dsimp only
        split
        case isTrue => rfl
        case isFalse =>
          split
          case isTrue => split <;> rfl
          case isFalse => split <;> rfl

-----------------------------------------------------------------------------------------
-- Lists
-----------------------------------------------------------------------------------------

/-- What a loop has read so far and the tokens in front of which it stops, unless it is given up. -/
abbrev Sofar (α σ : Type) :=
  Except Failure (σ × List (Token α))

/-- Parts as long as one starts. -/
def repeated (part? : σ → List (Token α) → Option (Sofar α σ)) : Loop α σ (Sofar α σ) :=
  fun state ts =>
    match part? state ts with
    | none => .leave (.ok (state, ts))
    | some (.error e) => .leave (.error e)
    | some (.ok (state', rest)) => .goOn state' rest

theorem repeated_progresses {part? : σ → List (Token α) → Option (Sofar α σ)}
    {reader : σ → List (Token α) → Sofar α σ}
    (beyond : ∀ {state ts state' rest}, part? state ts = some (.ok (state', rest))
      → Beyond ts rest)
    (turns : ∀ state ts, reader state ts
      = match part? state ts with
        | none => .ok (state, ts)
        | some read => read.bind fun r => reader r.1 r.2)
    : Progresses (repeated part?) reader := by
  refine progresses_of_turns (fun {state ts _ _} turn => ?_) fun state ts => ?_
  case refine_1 =>
    rw [repeated] at turn
    split at turn
    case h_1 | h_2 => cases turn
    case h_3 read =>
      cases turn
      exact beyond read
  case refine_2 =>
    rw [turns, repeated]
    cases part? state ts with
    | none => rfl
    | some read => cases read <;> rfl

/-- Parts up to a closing sign, with commas between them and maybe after the last one. -/
def listed (close : Sign) (what : String) (part : σ → List (Token α) → Sofar α σ)
    : Loop α σ (Sofar α σ) :=
  fun state ts =>
    if atSign ts close then .leave (.ok (state, ts.tail))
    else
      match part state ts with
      | .error e => .leave (.error e)
      | .ok (state', rest) =>
          if atSign rest close then .goOn state' rest
          else
            match (expectSign .comma what rest).bare with
            | .error e => .leave (.error e)
            | .ok (_, more) => .goOn state' more

theorem listed_progresses {close : Sign} {what : String}
    {part : σ → List (Token α) → Sofar α σ} {reader : σ → List (Token α) → Sofar α σ}
    (beyond : ∀ {state ts state' rest}, part state ts = .ok (state', rest) → Beyond ts rest)
    (turns : ∀ state ts, reader state ts
      = if atSign ts close then .ok (state, ts.tail)
        else (part state ts).bind fun r =>
          if atSign r.2 close then .ok (r.1, r.2.tail)
          else (expectSign .comma what r.2).bare.bind fun c => reader r.1 c.2)
    : Progresses (listed close what part) reader := by
  refine progresses_of_turns (fun {state ts _ _} turn => ?_) fun state ts => ?_
  case refine_1 =>
    rw [listed] at turn
    split at turn
    case isTrue => cases turn
    case isFalse =>
      split at turn
      case h_1 => cases turn
      case h_2 rest read =>
        split at turn
        case isTrue =>
          cases turn
          exact beyond read
        case isFalse =>
          split at turn
          case h_1 => cases turn
          case h_2 comma =>
            cases turn
            exact (beyond read).trans ((expectSign_yields _ _ _).beyond comma)
  case refine_2 =>
    rw [turns, listed]
    split
    case isTrue => rfl
    case isFalse =>
      cases part state ts with
      | error e => rfl
      | ok r =>
          simp only [Except.bind]
          split
          case isTrue closes => rw [Turn.result, turns, if_pos closes]
          case isFalse => cases (expectSign .comma what r.2).bare <;> rfl

/-- The items that are read next behind those that were read. -/
def joined (first : List β) (read : Sofar α (List β)) : Sofar α (List β) :=
  read.map fun r => (first ++ r.1, r.2)

/-- The item that is read next behind those that were read. -/
def appended (first : List β) (read : Sofar α β) : Sofar α (List β) :=
  read.map fun r => (first ++ [r.1], r.2)

theorem joined_next (first : List β) (item : Sofar α β)
    (others : List (Token α) → Sofar α (List β))
    : joined first (item.bind fun r => (others r.2).map fun s => (r.1 :: s.1, s.2))
      = (appended first item).bind fun r => joined r.1 (others r.2) := by
  cases item with
  | error e => rfl
  | ok r => cases read : others r.2 <;> simp [joined, appended, Except.bind, Except.map, read]

/-- A dot and the name behind it. -/
def segment? (names : List String) : List (Token α) → Option (Sofar α (List String))
  | [] => none
  | t :: rest => if t.isSign .dot then some (appended names (identifier rest).bare) else none

theorem segments_progresses
    : Progresses (α := α) (repeated segment?) fun names ts =>
        joined names (bare (segments ts)) := by
  refine repeated_progresses (fun {names ts _ rest} read => ?_) fun names ts => ?_
  case refine_1 =>
    cases ts with
    | nil => cases read
    | cons t ts =>
        rw [segment?] at read
        split at read
        case isFalse => cases read
        case isTrue =>
          have next := Option.some.inj read
          exact (beyond_cons t ts).trans (identifier_yields.beyond_map next fun _ => rfl)
  case refine_2 =>
    cases ts with
    | nil => simp [segments, joined, segment?, Continued.stay, Except.map]
    | cons t ts =>
        by_cases dot : t.isSign .dot = true
        case neg =>
          simp [segments_other (Bool.eq_false_iff.mpr dot), joined, segment?, dot, Except.map]
        case pos =>
          have next : bare (segments (t :: ts)) = (identifier ts).bare.bind fun r =>
              (bare (segments r.2)).map fun s => (r.1 :: s.1, s.2) := by
            cases ts with
            | nil =>
                rw [segments, if_pos dot]
                rfl
            | cons u ts =>
                rw [segments_dot dot, identifier]
                split <;> rfl
          rw [next, segment?, if_pos dot]
          exact joined_next names (identifier ts).bare fun rest => bare (segments rest)

/-- A comma and the name behind it. -/
def listedName? (names : List Path) : List (Token α) → Option (Sofar α (List Path))
  | [] => none
  | t :: rest =>
      if continuesNames (t :: rest) then some (appended names (dottedName rest).bare) else none

theorem moreNames_progresses
    : Progresses (α := α) (repeated listedName?) fun names ts =>
        joined names (bare (moreNames ts)) := by
  refine repeated_progresses (fun {names ts _ rest} read => ?_) fun names ts => ?_
  case refine_1 =>
    cases ts with
    | nil => cases read
    | cons t ts =>
        rw [listedName?] at read
        split at read
        case isFalse => cases read
        case isTrue =>
          have next := Option.some.inj read
          exact (beyond_cons t ts).trans ((dottedName_yields ts).beyond_map next fun _ => rfl)
  case refine_2 =>
    cases ts with
    | nil => simp [moreNames, joined, listedName?, Continued.stay, Except.map]
    | cons t ts =>
        rw [moreNames_bare, listedName?]
        split
        case isFalse => simp [joined, Except.map]
        case isTrue =>
          exact joined_next names (dottedName ts).bare fun rest => bare (moreNames rest)

/-- An operator of the level and the operand behind it. -/
def operation? (level : Level) (left : Expr α)
    : List (Token α) → Option (Sofar α (Expr α))
  | [] => none
  | t :: rest =>
      (operator? level t).map fun op =>
        (operand level rest).bare.map fun r => (.binary op left r.1 (some t.span), r.2)

theorem chain_progresses (level : Level)
    : Progresses (α := α) (repeated (operation? level)) fun left ts =>
        bare (chain level left ts) := by
  refine repeated_progresses (fun {left ts _ rest} read => ?_) fun left ts => ?_
  case refine_1 =>
    cases ts with
    | nil => cases read
    | cons t ts =>
        obtain ⟨op, -, read⟩ := Option.map_eq_some_iff.mp read
        exact (beyond_cons t ts).trans ((operand_yields level ts).beyond_map read fun _ => rfl)
  case refine_2 =>
    cases ts with
    | nil => simp [chain, operation?, Continued.stay]
    | cons t ts =>
        rw [chain_bare, operation?]
        cases operator? level t with
        | none => rfl
        | some op => cases (operand level ts).bare <;> simp [Except.bind, Except.map]

/-- An item and what closes the list, or the items behind a comma. -/
theorem afterItem_eq (item : (ts : List (Token α)) → Attempt α β ts) (first : β)
    (ts : List (Token α))
    : afterItem item first ts
      = (if atSign ts .rbracket then .ok ([], ts.tail)
          else (expectSign .comma "',' or ']'" ts).bare.bind fun c => (items item c.2).bare).map
            fun s => (first :: s.1, s.2) := by
  cases ts with
  | nil => rfl
  | cons u more =>
      by_cases closes : u.isSign .rbracket = true
      case pos => simp [afterItem, atSign, closes, Except.map]
      case neg =>
        simp only [afterItem, atSign, closes, expectSign, Bool.false_eq_true, if_false]
        split <;> rfl

theorem items_progresses {item : (ts : List (Token α)) → Attempt α β ts}
    (yields : ∀ ts, (item ts).Yields fun _ => True)
    : Progresses (listed .rbracket "',' or ']'" fun first ts => appended first (item ts).bare)
        fun first ts => joined first (items item ts).bare := by
  refine listed_progresses (fun read => (yields _).beyond_map read fun _ => rfl) fun first ts => ?_
  cases ts with
  | nil =>
      have none : ∃ e, item [] = .error e := by
        cases read : item [] with
        | error e => exact ⟨e, rfl⟩
        | ok p => exact absurd p.shorter (Nat.not_lt_zero _)
      obtain ⟨e, none⟩ := none
      simp [items, none, mapValue, atSign, joined, appended, Except.map, Except.bind]
  | cons t ts =>
      rw [items_bare]
      by_cases closes : t.isSign .rbracket = true
      case pos => simp [closes, atSign, joined, Except.map]
      case neg =>
        have open_ : atSign (t :: ts) .rbracket = false := Bool.eq_false_iff.mpr closes
        simp only [closes, open_, Bool.false_eq_true, if_false, afterItem_eq]
        rw [joined_next first (item (t :: ts)).bare fun rest =>
          if atSign rest .rbracket then .ok ([], rest.tail)
          else (expectSign .comma "',' or ']'" rest).bare.bind fun c => (items item c.2).bare]
        congr 1
        funext r
        split
        case isTrue => simp [joined, Except.map]
        case isFalse => cases (expectSign .comma "',' or ']'" r.2).bare <;> rfl

/-- The arguments that are read next behind those that were read. -/
def joinedArguments (first : Arguments α) (read : Sofar α (Arguments α)) : Sofar α (Arguments α) :=
  read.map fun r => ((first.1 ++ r.1.1, first.2 ++ r.1.2), r.2)

/-- The next argument of a call. A named one is followed by named ones only. -/
def nextArgument (first : Arguments α) (ts : List (Token α)) : Sofar α (Arguments α) :=
  match argumentName? ts with
  | some (name, value) =>
      (expression value).bare.map fun r => ((first.1, first.2 ++ [(name, r.1)]), r.2)
  | none =>
      if first.2.isEmpty then
        (expression ts).bare.map fun r => ((first.1 ++ [r.1], first.2), r.2)
      else failHere ts .positionalAfterNamed

/-- What follows an argument closes the call, or there are more arguments behind a comma. -/
theorem moreArguments_eq (afterNamed : Bool) (ts : List (Token α))
    : (moreArguments afterNamed ts).bare
      = if atSign ts .rparen then .ok (([], []), ts.tail)
        else (expectSign .comma "',' or ')'" ts).bare.bind fun c =>
          (arguments afterNamed c.2).bare := by
  cases ts with
  | nil => simp [moreArguments, atSign, expectSign, failAtEnd, Except.bind]
  | cons t ts =>
      rw [moreArguments_bare]
      by_cases closes : t.isSign .rparen = true
      case pos => simp [atSign, closes]
      case neg =>
        simp only [atSign, closes, expectSign, Bool.false_eq_true, if_false]
        split <;> rfl

theorem nextArgument_beyond {first all : Arguments α}
    (read : nextArgument first ts = .ok (all, rest))
    : Beyond ts rest := by
  unfold nextArgument at read
  split at read
  case h_1 name value named =>
    have passed := (expression_yields value).beyond_map read fun _ => rfl
    exact passed.within (argumentName?_suffix named)
  case h_2 =>
    split at read
    case isTrue =>
      exact (expression_yields ts).beyond_map read fun _ => rfl
    case isFalse => cases read

/-- No expression is read where the text ends. -/
theorem expression_nil : expression (α := α) [] = failAtEnd "an expression" := by
  simp [expression, binary, operand, Level.next?, unary, primary, failAtEnd]

theorem nextArgument_nil (first : Arguments α)
    : nextArgument first [] = (arguments (!first.2.isEmpty) []).bare.map fun r => (first, r.2) := by
  unfold arguments nextArgument
  cases first.2 with
  | nil => simp [argumentName?, expression_nil, failAtEnd, Except.map]
  | cons => simp [argumentName?, failHere, here, Except.map]

/-- Arguments up to the closing parenthesis: the next one, and those behind it. -/
theorem arguments_next (first : Arguments α) {t : Token α} (closes : t.isSign .rparen = false)
    : joinedArguments first (arguments (!first.2.isEmpty) (t :: ts)).bare
      = (nextArgument first (t :: ts)).bind fun r =>
          joinedArguments r.1 (moreArguments (!r.1.2.isEmpty) r.2).bare := by
  rw [arguments_bare, closes, nextArgument]
  cases argumentName? (t :: ts) with
  | some entry =>
      simp only [expression, Bool.false_eq_true, if_false]
      cases (binary .disjunction entry.2).bare with
      | error e => rfl
      | ok r =>
          have named : (first.2 ++ [(entry.1, r.1)]).isEmpty = false := by simp
          cases read : (moreArguments true r.2).bare <;>
            simp [joinedArguments, Except.bind, Except.map, named, read]
  | none =>
      simp only [expression, Bool.false_eq_true, if_false]
      cases named : first.2 with
      | cons => rfl
      | nil =>
          simp only [List.isEmpty_nil, Bool.not_true, Bool.false_eq_true, if_false, if_true]
          cases (binary .disjunction (t :: ts)).bare with
          | error e => rfl
          | ok r =>
              cases read : (moreArguments false r.2).bare <;>
                simp [joinedArguments, Except.bind, Except.map, named, read]

theorem arguments_progresses
    : Progresses (α := α) (listed .rparen "',' or ')'" nextArgument) fun first ts =>
        joinedArguments first (arguments (!first.2.isEmpty) ts).bare := by
  refine listed_progresses nextArgument_beyond fun first ts => ?_
  cases ts with
  | nil =>
      rw [nextArgument_nil]
      cases read : arguments (!first.2.isEmpty) [] with
      | error e => rfl
      | ok p => exact absurd p.shorter (Nat.not_lt_zero _)
  | cons t ts =>
      by_cases closes : t.isSign .rparen = true
      case pos => simp [arguments_bare, closes, atSign, joinedArguments, Except.map]
      case neg =>
        rw [arguments_next first (Bool.eq_false_iff.mpr closes), atSign, if_neg closes]
        congr 1
        funext r
        rw [moreArguments_eq]
        split
        case isTrue => simp [joinedArguments, Except.map]
        case isFalse => cases (expectSign .comma "',' or ')'" r.2).bare <;> rfl

-----------------------------------------------------------------------------------------
-- Blocks and bodies
-----------------------------------------------------------------------------------------

/-- What is told next behind what was reported. -/
def Told.behind (reports : List (Located SyntaxFinding)) (told : Told α β) : Told α β :=
  (reports ++ told.1, told.2)

/-- Items up to a closing brace, with separators in front of each, for a record and the reports so
far. The finding reports a missing brace.
-/
def braced (missing : Located SyntaxFinding) (item : σ → Token α → List (Token α) → Told α σ)
    : Loop α (σ × List (Located SyntaxFinding)) (Told α σ) :=
  fun (record, reports) ts =>
    match skipSeparators ts with
    | [] => .leave (reports, .error (.finding missing))
    | t :: rest =>
        if t.isSign .rbrace then .leave (reports, .ok (record, rest))
        else
          match item record t rest with
          | (more, .error e) => .leave (reports ++ more, .error e)
          | (more, .ok (record', left)) => .goOn (record', reports ++ more) left

theorem braced_progresses {missing : Located SyntaxFinding}
    {item : σ → Token α → List (Token α) → Told α σ} {reader : σ → List (Token α) → Told α σ}
    (beyond : ∀ {record t rest record' left}, (item record t rest).2 = .ok (record', left)
      → Beyond (t :: rest) left)
    (turns : ∀ record ts, reader record ts
      = match skipSeparators ts with
        | [] => ([], .error (.finding missing))
        | t :: rest =>
            if t.isSign .rbrace then ([], .ok (record, rest))
            else (item record t rest).andThen fun r => reader r.1 r.2)
    : Progresses (braced missing item) fun state ts =>
        Told.behind state.2 (reader state.1 ts) := by
  refine progresses_of_turns (fun {state ts _ _} turn => ?_) fun state ts => ?_
  case refine_1 =>
    obtain ⟨record, reports⟩ := state
    have inside := skipSeparators_suffix ts
    simp only [braced] at turn
    split at turn
    case h_1 => cases turn
    case h_2 t rest skipped =>
      rw [skipped] at inside
      split at turn
      case isTrue => cases turn
      case isFalse =>
        split at turn
        case h_1 => cases turn
        case h_2 more record' left read =>
          cases turn
          exact (beyond (congrArg Prod.snd read)).within inside
  case refine_2 =>
    obtain ⟨record, reports⟩ := state
    rw [turns]
    unfold braced
    cases skipSeparators ts with
    | nil => simp [Told.behind, Turn.result]
    | cons t rest =>
        dsimp only
        split
        case isTrue => simp [Told.behind, Turn.result]
        case isFalse =>
          obtain ⟨more, read⟩ := item record t rest
          cases read with
          | error e => rfl
          | ok r => simp [Told.andThen, Told.behind, Turn.result]

/-- The blocks of the language. -/
inductive IsBlock [Scalar α] : {σ : Type} → BlockForm α σ → Prop where
  | binding : IsBlock bindingForm
  | trigger : IsBlock triggerForm
  | watch (target : Option Path) : IsBlock (watchForm target)
  | assumption (name : String) : IsBlock (assumptionForm name)
  | varying (name : String) : IsBlock (variableForm name)
  | parameter (name : String) : IsBlock (parameterForm name)
  | impact (name : String) : IsBlock (impactForm name)
  | branch (name : String) : IsBlock (branchForm name)
  | simulate : IsBlock simulateForm
  | calibrate (target : Path) : IsBlock (calibrateForm target)

section Blocks

variable [Scalar α]

/-- An item of a block leaves an end of the tokens, whatever the block holds already. -/
theorem IsBlock.item_yields {form : BlockForm α σ} (is : IsBlock form) (record : σ) (t : Token α)
    (rest : List (Token α))
    : (blockItem form record t rest).Yields fun _ => True := by
  have any {holds : σ → Prop} (keeps : form.Keeps holds) (right : holds record)
      : (blockItem form record t rest).Yields fun _ => True :=
    Attempt.Yields.any (blockItem_yields keeps right t rest)
  cases is with
  | binding => exact any bindingForm_keeps trivial
  | trigger => exact any triggerForm_keeps trivial
  | watch target => exact any (watchForm_keeps target) trivial
  | assumption name => exact any (assumptionForm_keeps name) rfl
  | varying name => exact any (variableForm_keeps name) rfl
  | parameter name => exact any (parameterForm_keeps name) rfl
  | impact name => exact any (impactForm_keeps name) rfl
  | branch name => exact any (branchForm_keeps name) trivial
  | simulate => exact any simulateForm_keeps trivial
  | calibrate target => exact any (calibrateForm_keeps target) trivial

theorem IsBlock.progresses {form : BlockForm α σ} (is : IsBlock form)
    : Progresses
        (braced ⟨.unterminated form.owner, none⟩ fun record t rest =>
          (blockItem form record t rest).told)
        fun state ts => Told.behind state.2 (blockItems form state.1 ts).told :=
  braced_progresses
    (fun {record t rest _ _} read => Attempt.Yields.beyond (is.item_yields record t rest) read)
    (blockItems_told form)

/-- An item of the body of a scenario leaves an end of the tokens, also where it is given up. -/
theorem bodyItem_leaves (body : Body α) (t : Token α) (rest : List (Token α))
    : (orRecover t rest body (bodyItem body t rest)).Yields fun _ => True := by
  refine orRecover_yields trivial ?_
  unfold bodyItem
  split
  case isTrue =>
    refine Outcome.yields_silent (Attempt.Yields.afterToken ?_ t)
    exact (expectSign_yields _ _ _).andThen fun _ more _ _ =>
      (metadataValue_yields t.text body.metadata more).mapValue fun _ _ => trivial
  case isFalse =>
    split
    case h_2 => exact Outcome.yields_silent (failHere_yields _)
    case h_1 outcome found =>
      split at found
      case isFalse => cases found
      case isTrue => exact ((declaration?_yields found).mapValue fun _ _ => trivial).afterToken t

theorem bodyItems_progresses (name : String) (header : Span)
    : Progresses (α := α)
        (braced ⟨.unterminatedScenario name, some header⟩ fun body t rest =>
          (orRecover t rest body (bodyItem body t rest)).told)
        fun state ts => Told.behind state.2 (bodyItems name header state.1 ts).told :=
  braced_progresses
    (fun {body t rest _ _} read => Attempt.Yields.beyond (bodyItem_leaves body t rest) read)
    (bodyItems_told name header)

end Blocks

-----------------------------------------------------------------------------------------
-- Imports
-----------------------------------------------------------------------------------------

/-- Imports as long as one starts, with the separators behind each; one at fault is reported and
passed over.
-/
def importing
    : Loop α (List (Declaration α) × List (Located SyntaxFinding))
        (Except Fault (Progress α (List (Declaration α))))
  | (given, reports), [] => .leave (.ok ⟨given, reports, []⟩)
  | (given, reports), t :: rest =>
      if t.isWord "import" then
        match (imported t.span rest).bare with
        | .error (.fault fault) => .leave (.error fault)
        | .error (.finding found) =>
            .goOn (given, reports ++ [found]) (skipSeparators (recover 0 rest))
        | .ok (i, left) => .goOn (given ++ [.imported i], reports) (skipSeparators left)
      else .leave (.ok ⟨given, reports, t :: rest⟩)

/-- The imports that are read next behind those that were read. -/
def importsNext (state : List (Declaration α) × List (Located SyntaxFinding))
    (ts : List (Token α))
    : Except Fault (Progress α (List (Declaration α))) :=
  (imports ts).map fun p => ⟨state.1 ++ p.value, state.2 ++ p.reports, p.rest⟩

/-- The imports that start at the first token, if one does. -/
def importsHere (state : List (Declaration α) × List (Located SyntaxFinding))
    (ts : List (Token α))
    : Except Fault (Progress α (List (Declaration α))) :=
  if atWord ts "import" then importsNext state ts else .ok ⟨state.1, state.2, ts⟩

/-- Imports are read behind the separators in front of them. -/
theorem importsHere_skipSeparators
    (state : List (Declaration α) × List (Located SyntaxFinding)) (ts : List (Token α))
    : importsHere state (skipSeparators ts) = importsNext state ts := by
  have again : skipSeparators (skipSeparators ts) = skipSeparators ts :=
    List.dropWhile_idempotent _ _
  unfold importsHere importsNext
  rw [imports_step (skipSeparators ts), imports_step ts, again]
  cases skipSeparators ts with
  | nil => simp [atWord, Except.map]
  | cons t rest =>
      by_cases word : t.isWord "import" = true
      case pos => simp only [atWord, word, if_true]
      case neg => simp [atWord, word, Except.map]

theorem importing_progresses : Progresses (α := α) importing importsHere := by
  refine progresses_of_turns (fun {state ts _ _} turn => ?_) fun state ts => ?_
  case refine_1 =>
    cases ts with
    | nil => cases turn
    | cons t ts =>
        have passed {left : List (Token α)} (inside : left <:+ ts)
            : Beyond (t :: ts) (skipSeparators left) :=
          (beyond_cons t ts).suffix ((skipSeparators_suffix left).trans inside)
        rw [importing] at turn
        split at turn
        case isFalse => cases turn
        case isTrue =>
          split at turn
          case h_1 => cases turn
          case h_2 =>
            cases turn
            exact passed (recover_suffix 0 ts)
          case h_3 i left read =>
            cases turn
            exact passed ((imported_yields t.span ts).beyond read).1
  case refine_2 =>
    obtain ⟨given, reports⟩ := state
    cases ts with
    | nil => rfl
    | cons t ts =>
        rw [importing, importsHere, atWord]
        split
        case isFalse => rfl
        case isTrue isImport =>
          rw [importsNext, imports_step, skipSeparators_word (isAnyWord_of_isWord isImport)]
          simp only [isImport, if_true]
          cases (imported t.span ts).bare with
          | error e =>
              cases e with
              | fault fault => rfl
              | finding found =>
                  simp only [Turn.result, importsHere_skipSeparators, importsNext]
                  cases imports (recover 0 ts) <;> simp [Except.map]
          | ok r =>
              simp only [Turn.result, importsHere_skipSeparators, importsNext]
              cases imports r.2 <;> simp [Except.map]

-----------------------------------------------------------------------------------------
-- Files
-----------------------------------------------------------------------------------------

section Files

variable [Scalar α]

/-- The reading of a file, with the tokens in front of which it stops. -/
def fileTo (ts : List (Token α)) : Except Fault (Progress α (Option (Scenario α))) :=
  match imports ts with
  | .error fault => .error fault
  | .ok front =>
      match front.rest with
      | [] => .ok ⟨none, front.reports ++ [⟨.noScenario none, none⟩], []⟩
      | t :: rest =>
          if t.isWord "scenario" then
            match scenarioBlock t.span front.value rest with
            | .error fault => .error fault
            | .ok progress =>
                let reports := front.reports ++ progress.reports
                match progress.value, skipSeparators progress.rest with
                | some scenario, u :: more =>
                    let surplus := SyntaxFinding.unexpectedAfterScenario (some u.text)
                    .ok ⟨some scenario, reports ++ [⟨surplus, some u.span⟩], u :: more⟩
                | scenario, left => .ok ⟨scenario, reports, left⟩
          else .ok ⟨none, front.reports ++ [⟨.noScenario (some t.text), some t.span⟩], t :: rest⟩

theorem file_eq_fileTo (ts : List (Token α))
    : file ts = (fileTo ts).map fun stop => (stop.value, stop.reports) := by
  unfold file fileTo
  cases imports ts with
  | error fault => rfl
  | ok front =>
      obtain ⟨value, reports, rest⟩ := front
      cases rest with
      | nil => rfl
      | cons t rest =>
          dsimp only
          split
          case isFalse => rfl
          case isTrue =>
            cases scenarioBlock t.span value rest with
            | error fault => rfl
            | ok progress =>
                obtain ⟨scenario, found, left⟩ := progress
                cases scenario with
                | none => rfl
                | some s =>
                    cases behind : skipSeparators left <;> simp only [behind, Except.map]

/-- The reading of a file stops in front of an end of its tokens. -/
theorem fileTo_inside {stop : Progress α (Option (Scenario α))} (read : fileTo ts = .ok stop)
    : stop.rest <:+ ts := by
  unfold fileTo at read
  split at read
  case h_1 => cases read
  case h_2 front first =>
    obtain ⟨inside, any⟩ := imports_yield (fun _ => True) (fun _ => trivial) first
    split at read
    case h_1 =>
      cases read
      exact List.nil_suffix
    case h_2 t rest remaining =>
      rw [remaining] at inside
      split at read
      case isFalse =>
        cases read
        exact inside
      case isTrue =>
        split at read
        case h_1 => cases read
        case h_2 progress block =>
          have behind : rest <:+ ts := (List.suffix_cons t rest).trans inside
          have left := (scenarioBlock_yields (declares_any ts) any behind block).1.trans behind
          have skipped := (skipSeparators_suffix progress.rest).trans left
          split at read
          case h_1 surplus =>
            cases read
            exact surplus ▸ skipped
          case h_2 =>
            cases read
            exact skipped

variable (α) in
/-- No loop of the readers of a file turns without passing tokens, and each does what its reader
does.
-/
structure LoopsProgress : Prop where
  separators : Progresses (α := α) skipping fun _ => skipSeparators
  unknown : ∀ line, Progresses (α := α) (passing line) (afterProperty line)
  recovery : Progresses (α := α) recovering recover
  segments
    : Progresses (α := α) (repeated segment?) fun names ts => joined names (bare (segments ts))
  names
    : Progresses (α := α) (repeated listedName?) fun names ts =>
        joined names (bare (moreNames ts))
  operators
    : ∀ level, Progresses (α := α) (repeated (operation? level)) fun left ts =>
        bare (chain level left ts)
  nameItems
    : Progresses (α := α)
        (listed .rbracket "',' or ']'" fun first ts => appended first (dottedName ts).bare)
        fun first ts => joined first (items dottedName ts).bare
  textItems
    : Progresses (α := α)
        (listed .rbracket "',' or ']'" fun first ts => appended first (quotedString ts).bare)
        fun first ts => joined first (items quotedString ts).bare
  numberItems
    : Progresses (α := α)
        (listed .rbracket "',' or ']'" fun first ts => appended first (number false ts).bare)
        fun first ts => joined first (items (number false) ts).bare
  arguments
    : Progresses (α := α) (listed .rparen "',' or ')'" nextArgument) fun first ts =>
        joinedArguments first (arguments (!first.2.isEmpty) ts).bare
  blocks
    : ∀ {σ : Type} {form : BlockForm α σ}, IsBlock form
      → Progresses
          (braced ⟨.unterminated form.owner, none⟩ fun record t rest =>
            (blockItem form record t rest).told)
          fun state ts => Told.behind state.2 (blockItems form state.1 ts).told
  bodies
    : ∀ name header, Progresses (α := α)
        (braced ⟨.unterminatedScenario name, some header⟩ fun body t rest =>
          (orRecover t rest body (bodyItem body t rest)).told)
        fun state ts => Told.behind state.2 (bodyItems name header state.1 ts).told
  imports : Progresses (α := α) importing importsHere

variable (α) in
/-- Reading always gets on. Every loop ends after a finite number of turns, in each of which it
passes tokens or ends, also where a construct is given up; and the reading of a file stops in front
of an end of its tokens.
-/
theorem file_progresses
    : LoopsProgress α
      ∧ ∀ ts : List (Token α), file ts = (fileTo ts).map (fun stop => (stop.value, stop.reports))
        ∧ ∀ stop, fileTo ts = .ok stop → stop.rest <:+ ts := by
  refine ⟨?_, fun ts => ⟨file_eq_fileTo ts, fun _ => fileTo_inside⟩⟩
  exact {
    separators := skipping_progresses
    unknown := passing_progresses
    recovery := recovering_progresses
    segments := segments_progresses
    names := moreNames_progresses
    operators := chain_progresses
    nameItems := items_progresses dottedName_yields
    textItems := items_progresses quotedString_yields
    numberItems := items_progresses (number_yields false)
    arguments := arguments_progresses
    blocks := IsBlock.progresses
    bodies := bodyItems_progresses
    imports := importing_progresses
  }

end Files

end Prognosis.Grammar
