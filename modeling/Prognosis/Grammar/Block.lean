import Prognosis.Grammar.Value

/-! Blocks of properties between braces. Unknown properties are reported and passed over, so a
block is given up only where a known property is at fault.
-/

namespace Prognosis.Grammar

variable {α : Type}

/-- The reading of a construct that reports findings on the way. -/
structure Outcome (α β : Type) (ts : List (Token α)) where
  reports : List (Located SyntaxFinding)
  attempt : Attempt α β ts

namespace Outcome

variable {β γ : Type} {ts : List (Token α)}

/-- A reading without reports. -/
def silent (attempt : Attempt α β ts) : Outcome α β ts :=
  ⟨[], attempt⟩

/-- The value changed, where there is one. -/
def mapValue (o : Outcome α β ts) (f : β → γ) : Outcome α γ ts :=
  ⟨o.reports, o.attempt.mapValue f⟩

/-- Reads on after a construct without reports. -/
def afterAttempt (a : Attempt α β ts) (next : β → (rest : List (Token α)) → Outcome α γ rest)
    : Outcome α γ ts :=
  match a with
  | .error e => .silent (.error e)
  | .ok p =>
      let outcome := next p.value p.rest
      ⟨outcome.reports,
        match outcome.attempt with
        | .error e => .error e
        | .ok q => .ok (p.after q)⟩

/-- Reads on after an optional sign. -/
def afterSkipped (c : Continued α Unit ts) (o : Outcome α β c.rest) : Outcome α β ts :=
  ⟨o.reports,
    match o.attempt with
    | .error e => .error e
    | .ok p => .ok ⟨p.value, p.rest, Nat.lt_of_lt_of_le p.shorter c.notLonger⟩⟩

end Outcome

/-- Change of depth that a token makes among brackets of all kinds. -/
def bracketDepth (t : Token α) : Int :=
  if t.isSign .lbrace || t.isSign .lbracket || t.isSign .lparen then 1
  else if t.isSign .rbrace || t.isSign .rbracket || t.isSign .rparen then -1
  else 0

/-- The tokens after a property that started on the given line: outside brackets it ends at a
semicolon, a closing brace or the end of the line.
-/
def afterProperty (line : Nat) (depth : Int) : List (Token α) → List (Token α)
  | [] => []
  | t :: rest =>
      if depth == 0 && (t.isSign .semicolon || t.isSign .rbrace || line < t.span.line) then
        t :: rest
      else afterProperty line (depth + bracketDepth t) rest

theorem afterProperty_length (line : Nat) (depth : Int) (ts : List (Token α))
    : (afterProperty line depth ts).length ≤ ts.length := by
  induction ts generalizing depth with
  | nil => simp [afterProperty]
  | cons t rest ih =>
      unfold afterProperty
      split
      · exact Nat.le_refl _
      · exact Nat.le_succ_of_le (ih _)

/-- The tokens from the first one that is no separator. -/
def skipSeparators (ts : List (Token α)) : List (Token α) :=
  ts.dropWhile (·.isSeparator)

theorem skipSeparators_length (ts : List (Token α))
    : (skipSeparators ts).length ≤ ts.length :=
  (List.dropWhile_suffix _).length_le

/-- Reads the value of a property after its name, which is given, into a record. -/
abbrev Handler (α σ : Type) :=
  σ → Token α → (ts : List (Token α)) → Outcome α σ ts

/-- Reads an item that is no property into a record; none where no such item starts. -/
abbrev Extra (α σ : Type) :=
  σ → (ts : List (Token α)) → Option (Outcome α σ ts)

/-- A block has no other items than properties. -/
def noExtra {σ : Type} : Extra α σ :=
  fun _ _ => none

/-- What a block consists of: its name in messages, its properties and its other items. -/
structure BlockForm (α σ : Type) where
  owner : String
  properties : List (String × Handler α σ)
  extra : Extra α σ

/-- The property that the token names. -/
def BlockForm.handler? {σ : Type} (form : BlockForm α σ) (t : Token α)
    : Option (Handler α σ) :=
  if t.isAnyWord then form.properties.lookup t.text else none

/-- Reads the items of a block into a record, up to its closing brace. -/
def blockItems {σ : Type} (form : BlockForm α σ) (record : σ) (ts : List (Token α))
    : Outcome α σ ts :=
  match hskip : skipSeparators ts with
  | [] => .silent (.error (.finding ⟨.unterminated form.owner, none⟩))
  | t :: rest =>
      have hlength : rest.length < ts.length := by
        have hle := skipSeparators_length ts
        simp only [hskip, List.length_cons] at hle
        omega
      if t.isSign .rbrace then .silent (.ok ⟨record, rest, hlength⟩)
      else
        match form.extra record (t :: rest) with
        | some outcome =>
            match outcome.attempt with
            | .error e => ⟨outcome.reports, .error e⟩
            | .ok p =>
                have hp : p.rest.length < ts.length := by
                  have := p.shorter
                  simp only [List.length_cons] at this
                  omega
                let others := blockItems form p.value p.rest
                ⟨outcome.reports ++ others.reports,
                  match others.attempt with
                  | .error e => .error e
                  | .ok q => .ok ⟨q.value, q.rest, Nat.lt_trans q.shorter hp⟩⟩
        | none =>
            match form.handler? t with
            | some handler =>
                let outcome := handler record t rest
                match outcome.attempt with
                | .error e => ⟨outcome.reports, .error e⟩
                | .ok p =>
                    have hp : p.rest.length < ts.length := Nat.lt_trans p.shorter hlength
                    let others := blockItems form p.value p.rest
                    ⟨outcome.reports ++ others.reports,
                      match others.attempt with
                      | .error e => .error e
                      | .ok q => .ok ⟨q.value, q.rest, Nat.lt_trans q.shorter hp⟩⟩
            | none =>
                let remaining := afterProperty t.span.line 0 rest
                have hr : remaining.length < ts.length :=
                  Nat.lt_of_le_of_lt (afterProperty_length _ _ _) hlength
                let others := blockItems form record remaining
                ⟨⟨.unknownProperty t.text form.owner, some t.span⟩ :: others.reports,
                  match others.attempt with
                  | .error e => .error e
                  | .ok q => .ok ⟨q.value, q.rest, Nat.lt_trans q.shorter hr⟩⟩
termination_by ts.length

/-- Reads a block into a record. -/
def block {σ : Type} (form : BlockForm α σ) (record : σ) (ts : List (Token α))
    : Outcome α σ ts :=
  .afterAttempt (expectSign .lbrace ("'\x7b' to open " ++ form.owner) ts) fun _ rest =>
    blockItems form record rest

/-- Reads a colon and a value, and puts the value into the record. -/
def field {σ β : Type} (key : String) (value : (ts : List (Token α)) → Attempt α β ts)
    (put : σ → β → σ) : String × Handler α σ :=
  (key, fun record _ ts =>
    .silent
      (Attempt.andThen (expectSign .colon ("':' after '" ++ key ++ "'") ts) fun _ rest =>
        (value rest).mapValue (put record)))

/-- Keywords that start a declaration. -/
def declarationKeywords : List String :=
  ["assumption", "variable", "parameter", "impact", "branch", "simulate", "watch",
    "calibrate", "import"]

/-- Keys of what is said about a scenario as a whole. -/
def metadataKeys : List String :=
  ["timeframe", "resolution", "confidence", "author", "version", "description", "tags",
    "subtitle", "category", "icon", "color", "difficulty"]

/-- A declaration or a metadata entry may start at the token, the rest being given. -/
def resumesAt (t : Token α) (rest : List (Token α)) : Bool :=
  t.isAnyWord
    && (declarationKeywords.contains t.text && !atSign rest .colon
      || metadataKeys.contains t.text && atSign rest .colon)

/-- The tokens after a construct that was given up, its first token left out: reading resumes
after its body in balanced braces, or where a declaration or a metadata entry may start outside
braces, or at a closing brace that has no opening one.
-/
def recover (depth : Nat) : List (Token α) → List (Token α)
  | [] => []
  | t :: rest =>
      if t.isSign .lbrace then recover (depth + 1) rest
      else if t.isSign .rbrace then
        match depth with
        | 0 => t :: rest
        | 1 => rest
        | depth + 2 => recover (depth + 1) rest
      else if depth == 0 && resumesAt t rest then t :: rest
      else recover depth rest

theorem recover_length (depth : Nat) (ts : List (Token α))
    : (recover depth ts).length ≤ ts.length := by
  induction ts generalizing depth with
  | nil => simp [recover]
  | cons t rest ih =>
      unfold recover
      split
      · exact Nat.le_succ_of_le (ih _)
      · split
        · split
          · exact Nat.le_refl _
          · exact Nat.le_succ _
          · exact Nat.le_succ_of_le (ih _)
        · split
          · exact Nat.le_refl _
          · exact Nat.le_succ_of_le (ih _)

end Prognosis.Grammar
