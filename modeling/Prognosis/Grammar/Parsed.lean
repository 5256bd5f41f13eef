import Prognosis.Syntax.Declaration

/-! Results of reading constructs from a row of tokens: what can be wrong with it and how that is
told, and what is read. Every construct takes at least one token, and this is part of its result, so
readers can be called until nothing is left.
-/

namespace Prognosis

/-- Faults of a scenario text in its grammar. The text of the token that was found is missing
where the text ended.
-/
inductive SyntaxFinding where
  | expected (what : String) (found : Option String)
  | expectedWhole (found : String)
  | unknownChoice (what value : String) (options : List String)
  | noDistribution
  | noModel
  | unnamedParameters (model : String)
  | keywordInExpression (word : String)
  | positionalAfterNamed
  | notInBranch (keyword : String)
  | unterminated (owner : String)
  | unknownProperty (property owner : String)
  | noScenario (found : Option String)
  | unnamedScenario
  | unopenedScenario (found : Option String)
  | unterminatedScenario (name : String)
  | unexpectedInBody (found : Option String)
  | unexpectedAfterScenario (found : Option String)
  deriving DecidableEq, Repr

namespace SyntaxFinding

/-- A token as it is named in messages. -/
def described : Option String → String
  | none => "end of input"
  | some text => "'" ++ text ++ "'"

/-- The finding in words. -/
def message : SyntaxFinding → String
  | expected what found => "Expected " ++ what ++ ", got " ++ described found
  | expectedWhole found => "Expected a whole number, got " ++ found
  | unknownChoice what value _ => "Unknown " ++ what ++ " '" ++ value ++ "'"
  | noDistribution => "Expected a distribution"
  | noModel => "Expected a model"
  | unnamedParameters model =>
      "Parameters of " ++ model ++ "() must be named, e.g. rate=0.05"
  | keywordInExpression word => "Unexpected keyword '" ++ word ++ "' in expression"
  | positionalAfterNamed => "Positional argument after named argument"
  | notInBranch keyword => "'" ++ keyword ++ "' cannot be declared inside a branch"
  | unterminated owner => "Unterminated " ++ owner ++ ": missing '\x7d'"
  | unknownProperty property owner => "Unknown property '" ++ property ++ "' in " ++ owner
  | noScenario found => "Expected 'scenario', got " ++ described found
  | unnamedScenario => "Scenario name must be a quoted string"
  | unopenedScenario found => "Expected '\x7b' after scenario name, got " ++ described found
  | unterminatedScenario name =>
      "Unterminated scenario block \"" ++ name ++ "\": missing '\x7d'"
  | unexpectedInBody found => "Unexpected " ++ described found ++ " in scenario body"
  | unexpectedAfterScenario found =>
      "Unexpected " ++ described found ++ " after scenario block"

/-- What may help. -/
def hint? : SyntaxFinding → Option String
  | unknownChoice _ _ options => some ("Expected one of: " ++ commaSeparated options)
  | noDistribution =>
      some ("Use ±X% or one of: "
        ++ commaSeparated (DistributionKind.all.map fun kind => kind.name ++ "(...)"))
  | noModel =>
      some ("Use one of: " ++ commaSeparated (ModelKind.all.map fun kind => kind.name ++ "(...)"))
  | noScenario _ =>
      some "A file must contain a block like: scenario \"Name\" \x7b ... \x7d"
  | unexpectedInBody _ => some "Expected metadata (key: value) or a declaration block."
  | _ => none

end SyntaxFinding

/-- A finding of the grammar as it is shown; without a place it lies where the text ends. -/
def Located.ofGrammar (stop : Span) (l : Located SyntaxFinding) : Diagnostic :=
  ⟨.error 1, l.finding.message, some (l.span.getD stop), l.finding.hint?⟩

end Prognosis

namespace Prognosis.Grammar

variable {α : Type}

/-- Why a construct was given up: the text is at fault, or a number is beyond what can be
converted.
-/
inductive Failure where
  | finding (found : Located SyntaxFinding)
  | fault (fault : Fault)
  deriving DecidableEq, Repr

/-- A value read from the start of some tokens, and the tokens after it. -/
structure Parsed (α β : Type) (ts : List (Token α)) where
  value : β
  rest : List (Token α)
  shorter : rest.length < ts.length

/-- A value that may have been read from no token at all, and the tokens after it. -/
structure Continued (α β : Type) (ts : List (Token α)) where
  value : β
  rest : List (Token α)
  notLonger : rest.length ≤ ts.length

/-- The reading of a construct. -/
abbrev Attempt (α β : Type) (ts : List (Token α)) :=
  Except Failure (Parsed α β ts)

/-- Place of the first token; none where the text ends. -/
def here (ts : List (Token α)) : Option Span :=
  ts.head?.map (·.span)

/-- Text of the first token; none where the text ends. -/
def found (ts : List (Token α)) : Option String :=
  ts.head?.map (·.text)

/-- Gives up at the first token. -/
def failHere {β : Type} (ts : List (Token α)) (finding : SyntaxFinding) : Except Failure β :=
  .error (.finding ⟨finding, here ts⟩)

/-- Gives up because something else was expected. -/
def failExpected {β : Type} (ts : List (Token α)) (what : String) : Except Failure β :=
  failHere ts (.expected what (found ts))

/-- Gives up because the text ended where something was expected. -/
def failAtEnd {β : Type} (what : String) : Except Failure β :=
  .error (.finding ⟨.expected what none, none⟩)

namespace Parsed

variable {β γ : Type} {ts : List (Token α)}

/-- One more token leaves fewer still. -/
theorem shorter_of_rest (p : Parsed α β ts) {t : Token α} {more : List (Token α)}
    (next : p.rest = t :: more)
    : more.length < ts.length := by
  have shorter := p.shorter
  rw [next, List.length_cons] at shorter
  exact Nat.lt_of_succ_lt shorter

/-- The value changed, the tokens as they are. -/
def map (p : Parsed α β ts) (f : β → γ) : Parsed α γ ts :=
  ⟨f p.value, p.rest, p.shorter⟩

/-- What was read after a first value is read from all the tokens. -/
def after (p : Parsed α β ts) (q : Parsed α γ p.rest) : Parsed α γ ts :=
  ⟨q.value, q.rest, Nat.lt_trans q.shorter p.shorter⟩

/-- What was read or not read after a first value is read from all the tokens. -/
def followed (p : Parsed α β ts) (q : Continued α γ p.rest) : Parsed α γ ts :=
  ⟨q.value, q.rest, Nat.lt_of_le_of_lt q.notLonger p.shorter⟩

/-- What was read after one token is read from all the tokens. -/
def afterToken (t : Token α) (p : Parsed α β ts) : Parsed α β (t :: ts) :=
  ⟨p.value, p.rest, Nat.lt_succ_of_lt p.shorter⟩

/-- One token on its own. -/
def single (t : Token α) (value : β) : Parsed α β (t :: ts) :=
  ⟨value, ts, Nat.lt_succ_self _⟩

/-- A construct that was read is a continuation. -/
def continued (p : Parsed α β ts) : Continued α β ts :=
  ⟨p.value, p.rest, Nat.le_of_lt p.shorter⟩

end Parsed

namespace Continued

variable {β : Type} {ts : List (Token α)}

/-- Nothing is read. -/
def stay (value : β) : Continued α β ts :=
  ⟨value, ts, Nat.le_refl _⟩

end Continued

namespace Attempt

variable {β γ : Type} {ts : List (Token α)}

/-- The value changed, where there is one. -/
def mapValue (a : Attempt α β ts) (f : β → γ) : Attempt α γ ts :=
  match a with
  | .error e => .error e
  | .ok p => .ok (p.map f)

/-- Reads on after a construct. -/
def andThen (a : Attempt α β ts) (next : β → (rest : List (Token α)) → Attempt α γ rest)
    : Attempt α γ ts :=
  match a with
  | .error e => .error e
  | .ok p =>
      match next p.value p.rest with
      | .error e => .error e
      | .ok q => .ok (p.after q)

/-- Reads on after a construct with what may be missing. -/
def andMaybe (a : Attempt α β ts)
    (next : β → (rest : List (Token α)) → Except Failure (Continued α γ rest))
    : Attempt α γ ts :=
  match a with
  | .error e => .error e
  | .ok p =>
      match next p.value p.rest with
      | .error e => .error e
      | .ok q => .ok (p.followed q)

/-- The reading of what follows one token, as a reading of all the tokens. -/
def afterToken (t : Token α) (a : Attempt α β ts) : Attempt α β (t :: ts) :=
  match a with
  | .error e => .error e
  | .ok p => .ok (p.afterToken t)

end Attempt

end Prognosis.Grammar

namespace Prognosis.Token

variable {α : Type}

/-- The token is the sign. -/
def isSign (t : Token α) (sign : Sign) : Bool :=
  match t.kind with
  | .sign s => s == sign
  | _ => false

/-- The token is a word of any spelling. -/
def isAnyWord (t : Token α) : Bool :=
  match t.kind with
  | .word => true
  | _ => false

/-- The token is this word. -/
def isWord (t : Token α) (word : String) : Bool :=
  t.isAnyWord && t.text == word

/-- The token may stand between any two items of a block. -/
def isSeparator (t : Token α) : Bool :=
  t.isSign .semicolon || t.isSign .comma

end Prognosis.Token

namespace Prognosis.Grammar

variable {α : Type}

/-- The first token is the sign. -/
def atSign (ts : List (Token α)) (sign : Sign) : Bool :=
  match ts with
  | [] => false
  | t :: _ => t.isSign sign

/-- The first token is the word. -/
def atWord (ts : List (Token α)) (word : String) : Bool :=
  match ts with
  | [] => false
  | t :: _ => t.isWord word

/-- The first token is a word of any spelling. -/
def atAnyWord (ts : List (Token α)) : Bool :=
  match ts with
  | [] => false
  | t :: _ => t.isAnyWord

/-- Reads one sign; the text says what was expected. -/
def expectSign (sign : Sign) (what : String) : (ts : List (Token α)) → Attempt α Unit ts
  | [] => failAtEnd what
  | t :: rest =>
      if t.isSign sign then .ok (.single t ()) else failExpected (t :: rest) what

/-- Reads one word and gives its place. -/
def expectWord (word : String) : (ts : List (Token α)) → Attempt α Span ts
  | [] => failAtEnd ("'" ++ word ++ "'")
  | t :: rest =>
      if t.isWord word then .ok (.single t t.span)
      else failExpected (t :: rest) ("'" ++ word ++ "'")

/-- The tokens after a sign, or all of them where it is missing. -/
def skipSign (sign : Sign) (ts : List (Token α)) : Continued α Unit ts :=
  match ts with
  | [] => .stay ()
  | t :: rest =>
      if t.isSign sign then ⟨(), rest, Nat.le_succ _⟩ else .stay ()

/-- Reads a name. -/
def identifier : (ts : List (Token α)) → Attempt α String ts
  | [] => failAtEnd "a name"
  | t :: rest =>
      if t.isAnyWord then .ok (.single t t.text) else failExpected (t :: rest) "a name"

/-- Reads the segments of a dotted name after its first one. -/
def segments : (ts : List (Token α)) → Except Failure (Continued α (List String) ts)
  | [] => .ok (.stay [])
  | t :: rest =>
      if t.isSign .dot then
        match rest with
        | [] => failAtEnd "a name"
        | u :: more =>
            if u.isAnyWord then
              match segments more with
              | .error e => .error e
              | .ok s =>
                  .ok ⟨u.text :: s.value, s.rest, by
                    have := s.notLonger
                    simp only [List.length_cons]
                    omega⟩
            else failExpected (u :: more) "a name"
      else .ok (.stay [])

/-- Reads a dotted name. -/
def dottedName (ts : List (Token α)) : Attempt α Path ts :=
  (identifier ts).andMaybe fun root rest =>
    match segments rest with
    | .error e => .error e
    | .ok s => .ok ⟨⟨root, s.value⟩, s.rest, s.notLonger⟩

end Prognosis.Grammar
