import Prognosis.Grammar.Declaration
import Prognosis.Token.Scan

/-! A whole scenario read from a text: imports, a header, and a body of metadata and
declarations. What is wrong is reported, and reading goes on with the next declaration.
-/

namespace Prognosis

namespace Grammar

variable {α : Type} [Scalar α]

/-- Reads the value of a metadata entry whose key is given. -/
def metadataValue (key : String) (m : Metadata α) (ts : List (Token α))
    : Attempt α (Metadata α) ts :=
  match key with
  | "timeframe" =>
      Attempt.andThen (date ts) fun start rest =>
      Attempt.andThen (expectSign .arrow "'->' between timeframe dates" rest) fun _ rest =>
      (date rest).mapValue fun finish => { m with timeframe := some ⟨start, finish⟩ }
  | "resolution" =>
      (choice Resolution.all Resolution.word "resolution" ts).mapValue fun v =>
        { m with resolution := some v }
  | "confidence" => (share ts).mapValue fun v => { m with confidence := some v }
  | "tags" => (stringList ts).mapValue fun v => { m with tags := v }
  | "category" => (wordOrString ts).mapValue fun v => { m with category := some v }
  | "difficulty" => (wordOrString ts).mapValue fun v => { m with difficulty := some v }
  | "author" => (quotedString ts).mapValue fun v => { m with author := some v }
  | "version" => (quotedString ts).mapValue fun v => { m with version := some v }
  | "description" => (quotedString ts).mapValue fun v => { m with description := some v }
  | "subtitle" => (quotedString ts).mapValue fun v => { m with subtitle := some v }
  | "icon" => (quotedString ts).mapValue fun v => { m with icon := some v }
  | _ => (quotedString ts).mapValue fun v => { m with color := some v }

/-- What is read of the body of a scenario: its metadata and its declarations in order. -/
structure Body (α : Type) where
  metadata : Metadata α
  declarations : List (Declaration α)

/-- Reads one item of the body, from its first token on. -/
def bodyItem (body : Body α) (t : Token α) (rest : List (Token α))
    : Outcome α (Body α) (t :: rest) :=
  if t.isAnyWord && metadataKeys.contains t.text && atSign rest .colon then
    .silent (Attempt.afterToken t
      (Attempt.andThen (expectSign .colon "':'" rest) fun _ more =>
        (metadataValue t.text body.metadata more).mapValue fun m =>
          { body with metadata := m }))
  else
    match (if t.isAnyWord then declaration? t.text t.span rest else none) with
    | some outcome =>
        (outcome.mapValue fun d =>
          { body with declarations := body.declarations ++ [d] }).afterToken t
    | none => .silent (failHere (t :: rest) (.unexpectedInBody (some t.text)))

/-- Reads the body of a scenario up to its closing brace. The header is given for the report of
a missing one.
-/
def bodyItems (name : String) (header : Span) (body : Body α) (ts : List (Token α))
    : Outcome α (Body α) ts :=
  match hskip : skipSeparators ts with
  | [] => .silent (.error (.finding ⟨.unterminatedScenario name, some header⟩))
  | t :: rest =>
      have hlength : rest.length < ts.length := by
        have hle := skipSeparators_length ts
        simp only [hskip, List.length_cons] at hle
        omega
      if t.isSign .rbrace then .silent (.ok ⟨body, rest, hlength⟩)
      else
        let outcome := orRecover t rest body (bodyItem body t rest)
        match outcome.attempt with
        | .error e => ⟨outcome.reports, .error e⟩
        | .ok p =>
            have hp : p.rest.length < ts.length := by
              have := p.shorter
              simp only [List.length_cons] at this
              omega
            let others := bodyItems name header p.value p.rest
            ⟨outcome.reports ++ others.reports,
              match others.attempt with
              | .error e => .error e
              | .ok q => .ok ⟨q.value, q.rest, Nat.lt_trans q.shorter hp⟩⟩
termination_by ts.length

/-- What was read of a file so far, with the reports on it. -/
structure Progress (α β : Type) where
  value : β
  reports : List (Located SyntaxFinding)
  rest : List (Token α)

/-- Reads the imports in front of the header; one at fault is reported and passed over. -/
def imports (ts : List (Token α)) : Except Fault (Progress α (List (Declaration α))) :=
  match hskip : skipSeparators ts with
  | [] => .ok ⟨[], [], []⟩
  | t :: rest =>
      have hlength : rest.length < ts.length := by
        have hle := skipSeparators_length ts
        simp only [hskip, List.length_cons] at hle
        omega
      if t.isWord "import" then
        match imported t.span rest with
        | .error (.fault fault) => .error fault
        | .error (.finding found) =>
            have hr : (recover 0 rest).length < ts.length :=
              Nat.lt_of_le_of_lt (recover_length 0 rest) hlength
            match imports (recover 0 rest) with
            | .error fault => .error fault
            | .ok others => .ok { others with reports := found :: others.reports }
        | .ok p =>
            have hp : p.rest.length < ts.length := Nat.lt_trans p.shorter hlength
            match imports p.rest with
            | .error fault => .error fault
            | .ok others => .ok { others with value := .imported p.value :: others.value }
      else .ok ⟨[], [], t :: rest⟩
termination_by ts.length

/-- Reads a scenario after its header word. -/
def scenarioBlock (header : Span) (imports : List (Declaration α)) (ts : List (Token α))
    : Except Fault (Progress α (Option (Scenario α))) :=
  let missing (finding : SyntaxFinding) (at_ : List (Token α)) :=
    .ok ⟨none, [⟨finding, here at_⟩], at_⟩
  match ts with
  | [] => missing .unnamedScenario []
  | t :: rest =>
      match textValue? t with
      | none => missing .unnamedScenario (t :: rest)
      | some name =>
          match rest with
          | [] => missing (.unopenedScenario none) []
          | u :: more =>
              if u.isSign .lbrace then
                let outcome := bodyItems name header ⟨.empty, imports⟩ more
                match outcome.attempt with
                | .error (.fault fault) => .error fault
                | .error (.finding found) => .ok ⟨none, outcome.reports ++ [found], []⟩
                | .ok p =>
                    let scenario : Scenario α :=
                      ⟨name, p.value.metadata, p.value.declarations, header⟩
                    .ok ⟨some scenario, outcome.reports, p.rest⟩
              else missing (.unopenedScenario (some u.text)) (u :: more)

/-- Reads a file. A scenario is missing where its header is at fault or its block does not
end.
-/
def file (ts : List (Token α))
    : Except Fault (Option (Scenario α) × List (Located SyntaxFinding)) :=
  match imports ts with
  | .error fault => .error fault
  | .ok front =>
      match front.rest with
      | [] => .ok (none, front.reports ++ [⟨.noScenario none, none⟩])
      | t :: rest =>
          if t.isWord "scenario" then
            match scenarioBlock t.span front.value rest with
            | .error fault => .error fault
            | .ok progress =>
                let reports := front.reports ++ progress.reports
                match progress.value, skipSeparators progress.rest with
                | some scenario, u :: _ =>
                    let surplus := SyntaxFinding.unexpectedAfterScenario (some u.text)
                    .ok (some scenario, reports ++ [⟨surplus, some u.span⟩])
                | scenario, _ => .ok (scenario, reports)
          else .ok (none, front.reports ++ [⟨.noScenario (some t.text), some t.span⟩])

end Grammar

/-- A scenario as far as its text could be read, and what is wrong with the text. -/
structure SourceText (α : Type) where
  scenario : Option (Scenario α)
  diagnostics : List Diagnostic

namespace SourceText

variable {α : Type} [Scalar α]

/-- Reads a text. Reading stops without an answer only where a number is beyond what can be
converted.
-/
def read (source : String) : Except Fault (SourceText α) :=
  let scanned : TokenText α := .scan source
  match Grammar.file scanned.tokens with
  | .error fault => .error fault
  | .ok (scenario, reports) =>
      .ok ⟨scenario,
        scanned.findings.map (·.ofText) ++ reports.map (·.ofGrammar scanned.stop)⟩

/-- The text holds a scenario and nothing is wrong with it. -/
def isClean (s : SourceText α) : Bool :=
  s.scenario.isSome && !s.diagnostics.any (·.isError)

end SourceText

end Prognosis
