import Prognosis.Grammar.Block

/-! The declarations of a scenario read from tokens. Each starts with its keyword; a property
that is given twice keeps its last value.
-/

namespace Prognosis.Grammar

variable {α : Type} [Scalar α]

/-- Reads a number that may be a percentage. -/
def share (ts : List (Token α)) : Attempt α α ts :=
  number true ts

/-- Properties of a binding. -/
def bindingForm : BlockForm α (Binding α) := {
  owner := "bind block"
  properties := [
    field "source" quotedString fun b v => { b with source := some v },
    field "refresh" (choice RefreshRate.all RefreshRate.word "refresh rate")
      fun b v => { b with refresh := some v },
    field "field" quotedString fun b v => { b with field := some v },
    field "transform" expression fun b v => { b with transform := some v },
    field "fallback" expression fun b v => { b with fallback := some v }
  ]
  extra := noExtra
}

/-- Reads a binding after its keyword; a colon may stand in front of the block. -/
def binding (span : Span) (ts : List (Token α)) : Outcome α (Binding α) ts :=
  .afterSkipped (skipSign .colon ts)
    (block bindingForm {
      source := none
      refresh := none
      field := none
      transform := none
      fallback := none
      span := span
    } (skipSign .colon ts).rest)

/-- Properties of what a satisfied rule starts. -/
def triggerForm : BlockForm α Trigger := {
  owner := "on_trigger block"
  properties := [
    field "recalculate" boolean fun t v => { t with recalculate := some v },
    field "notify" stringList fun t v => { t with notify := v },
    field "suggest" quotedString fun t v => { t with suggest := some v }
  ]
  extra := noExtra
}

/-- Reads the condition of a rule after its severity. -/
def ruleHandler (severity : AlertSeverity) : String × Handler α (Watch α) :=
  (severity.word, fun watch _ ts =>
    .silent
      (Attempt.andThen
        (Attempt.andMaybe (expectWord "when" ts) fun _ rest => .ok (skipSign .colon rest))
        fun _ rest =>
          (expression rest).mapValue fun condition =>
            { watch with rules := watch.rules ++ [⟨severity, condition⟩] }))

/-- Reads what a satisfied rule starts. -/
def triggerHandler : String × Handler α (Watch α) :=
  ("on_trigger", fun watch _ ts =>
    (Outcome.afterSkipped (skipSign .colon ts)
      (block triggerForm ⟨none, [], none⟩ (skipSign .colon ts).rest)).mapValue fun trigger =>
        { watch with onTrigger := some trigger })

/-- Properties of a watch block. -/
def watchForm (target : Option Path) : BlockForm α (Watch α) := {
  owner :=
    match target with
    | none => "watch block"
    | some path => "watch '" ++ path.text ++ "'"
  properties := [ruleHandler .warn, ruleHandler .error, triggerHandler]
  extra := noExtra
}

/-- Reads the rules on a target. -/
def watchBody (target : Option Path) (span : Span) (ts : List (Token α))
    : Outcome α (Watch α) ts :=
  block (watchForm target) ⟨target, [], none, span⟩ ts

/-- Reads a value and the date by which it is reached. -/
def assumedHandler : String × Handler α (Assumption α) :=
  ("value", fun record _ ts =>
    .silent
      (Attempt.andMaybe
        (Attempt.andThen (expectSign .colon "':' after 'value'" ts) fun _ rest =>
          expression rest)
        fun value rest =>
          let valued := { record with value := some value }
          if atWord rest "by" then
            match Attempt.andThen (expectWord "by" rest) fun _ more => date more with
            | .error e => .error e
            | .ok by_ =>
                .ok (by_.map fun d => { valued with byDate := some d }).continued
          else .ok (.stay valued)))

/-- Properties of an assumption. -/
def assumptionForm (name : String) : BlockForm α (Assumption α) := {
  owner := "assumption '" ++ name ++ "'"
  properties := [
    assumedHandler,
    field "source" quotedString fun a v => { a with source := some v },
    field "confidence" share fun a v => { a with confidence := some v },
    field "uncertainty" distribution fun a v => { a with uncertainty := some v },
    ("bind", fun a key ts =>
      (binding key.span ts).mapValue fun v => { a with binding := some v }),
    ("watch", fun a key ts =>
      (watchBody none key.span ts).mapValue fun v => { a with watch := some v })
  ]
  extra := noExtra
}

/-- Reads an assumption after its keyword. -/
def assumption (span : Span) (ts : List (Token α)) : Outcome α (Assumption α) ts :=
  .afterAttempt (identifier ts) fun name rest =>
    block (assumptionForm name) {
      name := name
      value := none
      byDate := none
      source := none
      confidence := none
      uncertainty := none
      binding := none
      watch := none
      span := span
    } rest

/-- An anchor starts here: a date or a number with a colon after it. -/
def startsAnchor : List (Token α) → Bool
  | t :: rest =>
      match t.kind with
      | .number _ => atSign rest .colon
      | .date _ => atSign rest .colon
      | _ => false
  | [] => false

/-- Reads an anchor. -/
def anchorItem : Extra α (Variable α) :=
  fun record ts =>
    if startsAnchor ts then
      some (.silent
        (Attempt.andThen (date ts) fun day rest =>
        Attempt.andThen (expectSign .colon "':'" rest) fun _ rest =>
        (expression rest).mapValue fun value =>
          { record with anchors := record.anchors ++ [⟨day, value⟩] }))
    else none

/-- Properties of a variable. -/
def variableForm (name : String) : BlockForm α (Variable α) := {
  owner := "variable '" ++ name ++ "'"
  properties := [
    field "description" quotedString fun x v => { x with description := some v },
    field "unit" quotedString fun x v => { x with unit := some v },
    field "label" quotedString fun x v => { x with label := some v },
    field "icon" quotedString fun x v => { x with icon := some v },
    field "color" quotedString fun x v => { x with color := some v },
    field "depends_on" nameList fun x v => { x with dependsOn := v },
    field "model" model fun x v => { x with model := some v },
    field "uncertainty" distribution fun x v => { x with uncertainty := some v },
    field "interpolation" (choice Interpolation.all Interpolation.word "interpolation")
      fun x v => { x with interpolation := some v }
  ]
  extra := anchorItem
}

/-- Reads a variable after its keyword. -/
def varying (span : Span) (ts : List (Token α)) : Outcome α (Variable α) ts :=
  .afterAttempt (identifier ts) fun name rest =>
    block (variableForm name) {
      name := name
      anchors := []
      dependsOn := []
      model := none
      uncertainty := none
      interpolation := none
      description := none
      unit := none
      label := none
      icon := none
      color := none
      span := span
    } rest

/-- Properties of a parameter. -/
def parameterForm (name : String) : BlockForm α (Parameter α) := {
  owner := "parameter '" ++ name ++ "'"
  properties := [
    field "value" expression fun p v => { p with value := some v },
    field "range" range fun p v => { p with range := some v },
    field "uncertainty" distribution fun p v => { p with uncertainty := some v },
    field "description" quotedString fun p v => { p with description := some v },
    field "label" quotedString fun p v => { p with label := some v },
    field "unit" quotedString fun p v => { p with unit := some v },
    field "step" expression fun p v => { p with step := some v },
    field "source" quotedString fun p v => { p with source := some v },
    field "format" quotedString fun p v => { p with format := some v },
    field "control" (choice Control.all Control.word "control")
      fun p v => { p with control := some v },
    field "icon" quotedString fun p v => { p with icon := some v },
    field "color" quotedString fun p v => { p with color := some v }
  ]
  extra := noExtra
}

/-- Reads a parameter after its keyword. -/
def parameter (span : Span) (ts : List (Token α)) : Outcome α (Parameter α) ts :=
  .afterAttempt (identifier ts) fun name rest =>
    block (parameterForm name) {
      name := name
      value := none
      range := none
      uncertainty := none
      description := none
      label := none
      unit := none
      step := none
      source := none
      format := none
      control := none
      icon := none
      color := none
      span := span
    } rest

/-- Properties of an impact. -/
def impactForm (name : String) : BlockForm α (Impact α) := {
  owner := "impact '" ++ name ++ "'"
  properties := [
    field "description" quotedString fun i v => { i with description := some v },
    field "unit" quotedString fun i v => { i with unit := some v },
    field "label" quotedString fun i v => { i with label := some v },
    field "icon" quotedString fun i v => { i with icon := some v },
    field "color" quotedString fun i v => { i with color := some v },
    field "derives_from" nameList fun i v => { i with derivesFrom := v },
    field "formula" expression fun i v => { i with formula := some v }
  ]
  extra := noExtra
}

/-- Reads an impact after its keyword. -/
def impact (span : Span) (ts : List (Token α)) : Outcome α (Impact α) ts :=
  .afterAttempt (identifier ts) fun name rest =>
    block (impactForm name) {
      name := name
      derivesFrom := []
      formula := none
      description := none
      unit := none
      label := none
      icon := none
      color := none
      span := span
    } rest

/-- Reads a named value whose keyword is given; none where the keyword declares none. -/
def quantity? (keyword : String) (span : Span) (ts : List (Token α))
    : Option (Outcome α (Quantity α) ts) :=
  match keyword with
  | "assumption" => some ((assumption span ts).mapValue .assumption)
  | "variable" => some ((varying span ts).mapValue .varying)
  | "parameter" => some ((parameter span ts).mapValue .parameter)
  | "impact" => some ((impact span ts).mapValue .impact)
  | _ => none

/-- Goes on after a construct, or after what is passed over when it was given up for a fault of
the text, which is then reported.
-/
def orRecover {σ : Type} (t : Token α) (rest : List (Token α)) (record : σ)
    (o : Outcome α σ (t :: rest)) : Outcome α σ (t :: rest) :=
  match o.attempt with
  | .error (.finding found) =>
      ⟨o.reports ++ [found],
        .ok ⟨record, recover 0 rest, Nat.lt_succ_of_le (recover_length 0 rest)⟩⟩
  | attempt => ⟨o.reports, attempt⟩

/-- The reading of a construct after its keyword, as a reading from the keyword on. -/
def Outcome.afterToken {β : Type} {ts : List (Token α)} (t : Token α) (o : Outcome α β ts)
    : Outcome α β (t :: ts) :=
  ⟨o.reports, Attempt.afterToken t o.attempt⟩

/-- Reads a declaration inside a branch; one at fault is reported and passed over. -/
def overrideItem : Extra α (Branch α) :=
  fun record ts =>
    match ts with
    | [] => none
    | t :: rest =>
        if t.isAnyWord && declarationKeywords.contains t.text && !atSign rest .colon then
          some (orRecover t rest record
            (match quantity? t.text t.span rest with
            | none => .silent (failHere (t :: rest) (.notInBranch t.text))
            | some outcome =>
                (outcome.mapValue fun q =>
                  { record with overrides := record.overrides ++ [q] }).afterToken t))
        else none

/-- Properties of a branch. -/
def branchForm (name : String) : BlockForm α (Branch α) := {
  owner := "branch \"" ++ name ++ "\""
  properties := [
    field "probability" share fun b v => { b with probability := some v },
    ("fork", fun b _ ts =>
      .silent
        (Attempt.andThen (expectSign .colon "':' after 'fork'" ts) fun _ rest =>
        Attempt.andThen (expectWord "scenario" rest) fun _ rest =>
        (quotedString rest).mapValue fun v => { b with fork := some v }))
  ]
  extra := overrideItem
}

/-- Reads a branch after its keyword. -/
def branch (span : Span) (ts : List (Token α)) : Outcome α (Branch α) ts :=
  .afterAttempt (wordOrString ts) fun name rest =>
  .afterAttempt
    (Attempt.andThen (expectWord "when" rest) fun _ more => expression more)
    fun condition rest =>
      block (branchForm name) {
        name := name
        condition := condition
        probability := none
        fork := none
        overrides := []
        span := span
      } rest

/-- Properties of simulation settings. -/
def simulateForm : BlockForm α (Simulate α) := {
  owner := "simulate block"
  properties := [
    field "runs" wholeNumber fun s v => { s with runs := some v },
    field "method" (choice SamplingMethod.all SamplingMethod.word "simulation method")
      fun s v => { s with method := some v },
    field "seed" wholeNumber fun s v => { s with seed := some v },
    field "output" (choice OutputKind.all OutputKind.word "output")
      fun s v => { s with output := some v },
    field "percentiles" numberList fun s v => { s with percentiles := some v },
    field "convergence" (number false) fun s v => { s with convergence := some v },
    field "timeout" duration fun s v => { s with timeout := some v }
  ]
  extra := noExtra
}

/-- Reads simulation settings after their keyword. -/
def simulate (span : Span) (ts : List (Token α)) : Outcome α (Simulate α) ts :=
  block simulateForm {
    runs := none
    method := none
    seed := none
    output := none
    percentiles := none
    convergence := none
    timeout := none
    span := span
  } ts

/-- Reads watched rules after their keyword. -/
def watch (span : Span) (ts : List (Token α)) : Outcome α (Watch α) ts :=
  .afterAttempt (dottedName ts) fun target rest => watchBody (some target) span rest

/-- Properties of a calibration. -/
def calibrateForm (target : Path) : BlockForm α (Calibrate α) := {
  owner := "calibrate '" ++ target.text ++ "'"
  properties := [
    field "historical" quotedString fun c v => { c with historical := some v },
    field "method" (choice CalibrationMethod.all CalibrationMethod.word "calibration method")
      fun c v => { c with method := some v },
    field "window" duration fun c v => { c with window := some v },
    field "prior" distribution fun c v => { c with prior := some v },
    field "update_frequency" (choice RefreshRate.all RefreshRate.word "update frequency")
      fun c v => { c with updateFrequency := some v }
  ]
  extra := noExtra
}

/-- Reads a calibration after its keyword. -/
def calibrate (span : Span) (ts : List (Token α)) : Outcome α (Calibrate α) ts :=
  .afterAttempt (dottedName ts) fun target rest =>
    block (calibrateForm target) {
      target := target
      historical := none
      method := none
      window := none
      prior := none
      updateFrequency := none
      span := span
    } rest

/-- Reads an import after its keyword. -/
def imported (span : Span) (ts : List (Token α)) : Attempt α Import ts :=
  Attempt.andThen (quotedString ts) fun path rest =>
  Attempt.andThen (expectWord "as" rest) fun _ rest =>
  (identifier rest).mapValue fun name => ⟨path, name, span⟩

/-- Reads a declaration whose keyword is given; none where the word is no keyword. -/
def declaration? (keyword : String) (span : Span) (ts : List (Token α))
    : Option (Outcome α (Declaration α) ts) :=
  match keyword with
  | "branch" => some ((branch span ts).mapValue .branch)
  | "simulate" => some ((simulate span ts).mapValue .simulate)
  | "watch" => some ((watch span ts).mapValue .watch)
  | "calibrate" => some ((calibrate span ts).mapValue .calibrate)
  | "import" => some (.silent ((imported span ts).mapValue .imported))
  | _ => (quantity? keyword span ts).map fun outcome => outcome.mapValue .quantity

end Prognosis.Grammar
