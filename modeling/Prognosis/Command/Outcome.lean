import Prognosis.Check.Scenario
import Prognosis.Command.Invocation
import Prognosis.Grammar.Scenario
import Prognosis.Pulse
import Prognosis.Sensitivity

/-! What command lines come to: findings and failures for the reader, and a result that is
printed or written to a file.
-/

namespace Prognosis.Command

open Decimal

variable {σ α : Type} [Scalar α]

/-- Why there is no text to a path. -/
inductive FileTrouble where
  | missing
  | folder
  deriving DecidableEq, Repr

/-- The trouble in words, with its number. -/
def FileTrouble.message : FileTrouble → String
  | missing => "[Errno 2] No such file or directory"
  | folder => "[Errno 21] Is a directory"

/-- Where a command line is carried out: the texts of files, a source of random numbers, and the
surroundings of a pulse.
-/
structure Workspace (σ α : Type) where
  read : String → Except FileTrouble String
  random : RandomSource σ α
  context : PulseContext α

/-- What comes of a task: the status it ends with, lines for the reader, and a text that is
printed or written to a file.
-/
structure Outcome where
  status : Nat
  lines : List String
  printed : Option String
  written : Option (String × String)
  deriving DecidableEq, Repr

namespace Outcome

/-- The task ended early. -/
def failed (lines : List String) : Outcome :=
  ⟨1, lines, none, none⟩

/-- Lines that come first. -/
def after (lines : List String) (o : Outcome) : Outcome :=
  { o with lines := lines ++ o.lines }

end Outcome

/-- Path of a file without parts that say nothing. -/
def pathText (path : String) : String :=
  let parts := (path.splitOn "/").filter fun part => part != "" && part != "."
  let leading := path.toList.takeWhile (· == '/')
  let root := if leading.isEmpty then "" else if leading.length == 2 then "//" else "/"
  let text := root ++ "/".intercalate parts
  if text == "" then "." else text

/-- Ends of lines as single characters. -/
def withPlainLines : List Char → List Char
  | [] => []
  | '\r' :: '\n' :: rest => '\n' :: withPlainLines rest
  | '\r' :: rest => '\n' :: withPlainLines rest
  | c :: rest => c :: withPlainLines rest

/-- Lines for findings about a file, each with its hint. -/
def findingLines (file : String) (found : List Diagnostic) : List String :=
  found.flatMap fun d =>
    d.line file :: (d.shownHint?.map fun hint => "    hint: " ++ hint).toList

/-- The result of a task, printed or written to the file that was asked for. -/
def emitted (options : Options) (status : Nat) (result : Json α) : Outcome :=
  let text := result.printed ""
  match options.output.filter (· != "") with
  | none => ⟨status, [], some text, none⟩
  | some path =>
      ⟨status, ["Wrote " ++ pathText path], none, some (pathText path, text ++ "\n")⟩

/-- Status of a task by whether all is well. -/
def statusOf (isWell : Bool) : Nat :=
  if isWell then 0 else 1

/-- Line for a failure. -/
def errorLine (message : String) : String :=
  "Error: " ++ message

/-- Line for a simulation without a report; what is no finding about the scenario stops the
program.
-/
def failureLine : SimulationFailure → Except Fault String
  | .refused reason => .ok (errorLine reason.message)
  | .stopped (.error e) => .ok (errorLine e.message)
  | .stopped (.fault fault) => .error fault

/-- The scenario that a task reads. -/
structure Loaded (α : Type) where
  text : SourceText α
  lines : List String

/-- Reads the file of a task. -/
def load (w : Workspace σ α) (file : String) : Except Fault (Except FileTrouble (Loaded α)) :=
  match w.read (pathText file) with
  | .error trouble => .ok (.error trouble)
  | .ok content => do
      let text ← SourceText.read (String.ofList (withPlainLines content.toList))
      return .ok ⟨text, findingLines file text.diagnostics⟩

/-- Line for a file that cannot be read. -/
def troubleLine (file : String) (trouble : FileTrouble) : String :=
  errorLine ("cannot read " ++ file ++ ": " ++ trouble.message ++ ": "
    ++ Text.quoted (pathText file))

/-- Prints what could be read. -/
def parse (loaded : Loaded α) (options : Options) : Outcome :=
  let view : Json α := .record [
    ("ast", (loaded.text.scenario.map Scenario.view).getD .null),
    ("diagnostics", Diagnostic.viewAll loaded.text.diagnostics)
  ]
  emitted options (statusOf loaded.text.isClean) view

/-- Prints the findings about a scenario and its causal graph. -/
def validate (loaded : Loaded α) (options : Options) (file : String) (s : Scenario α)
    : Outcome :=
  let checked := s.check
  (emitted options (statusOf (checked.isValid && loaded.text.isClean))
    (checked.viewAfter loaded.text.diagnostics)).after
    (findingLines file checked.diagnostics)

/-- The scenario with its uncertainties calibrated, if that is asked for and changes any, and
what is told about it.
-/
def calibratedFor (w : Workspace σ α) (options : Options) (s : Scenario α)
    : Except Fault (Scenario α × List String) := do
  if !options.calibrate then return (s, [])
  let pulse ←
    if options.offline then s.fastPulse w.context .bundled .nothing
    else s.pulse w.context [] none .nothing
  match pulse.calibrated, pulse.calibrations with
  | some calibrated, first :: rest =>
      let count := (first :: rest).length
      return (calibrated,
        ["Calibrated " ++ wholeText count ++ " target(s) (" ++ pulse.phase.word ++ " data)"])
  | _, _ => return (s, [])

/-- Simulates a scenario without findings that forbid it. -/
def simulate (w : Workspace σ α) (options : Options) (s : Scenario α) : Except Fault Outcome := do
  let (s, lines) ← calibratedFor w options s
  let request : SimulationRequest α := {
    SimulationRequest.unspecified α with
    runs := options.runs
    seed := options.seed
    workers := options.workers
  }
  match simulateChecked w.random w.context.settings request s s.check with
  | .error failure => return Outcome.failed (lines ++ [← failureLine failure])
  | .ok (result, _) => return (emitted options 0 result.view).after lines

/-- Ranks the parameters of a scenario by their influence. -/
def sensitivity (w : Workspace σ α) (options : Options) (s : Scenario α)
    : Except Halt Outcome := do
  let knobs ← Knob.ofScenario s
  let lines :=
    if knobs.isEmpty then ["No interactive parameters (control: slider or range) declared"]
    else []
  let request : Sensitivity.Request α := {
    knobs := knobs
    observables := none
    runs := options.runs
    seed := options.seed
  }
  match Sensitivity.analyse w.random w.context.settings request s s.check with
  | .error failure =>
      return Outcome.failed (lines ++ [← Halt.lift (failureLine failure)])
  | .ok influences =>
      let view : Json α := .record [
        ("parameters", .list (knobs.map (·.view))),
        ("results", .list (influences.map (·.view)))
      ]
      return (emitted options 0 view).after lines

/-- Observes the data of a scenario, calibrates and watches it. -/
def pulse (w : Workspace σ α) (loaded : Loaded α) (options : Options) (s : Scenario α)
    : Except Fault Outcome := do
  let result ←
    if options.offline then s.fastPulse w.context .bundled .nothing
    else s.pulse w.context [] (options.timeout.map Scalar.ofReading) .nothing
  let failures := result.failures.map fun f =>
    "warning: no data for '" ++ f.target ++ "': " ++ f.error.message
  let alerts := result.alerts.map fun a => a.severity.word ++ ": " ++ a.message
  return (emitted options (statusOf loaded.text.isClean) result.view).after (failures ++ alerts)

/-- Carries out a task that needs a scenario without findings that forbid it. -/
def withValid (loaded : Loaded α) (file : String) (s : Scenario α)
    (act : Scenario α → Except Halt Outcome) : Except Halt Outcome :=
  if loaded.text.isClean then
    let checked := s.check
    let lines := findingLines file checked.diagnostics
    if checked.isValid then (act s).map (·.after lines) else .ok (Outcome.failed lines)
  else .ok (Outcome.failed [])

/-- Carries out a task on what was read. -/
def onLoaded (w : Workspace σ α) (i : Invocation) (loaded : Loaded α) : Except Halt Outcome :=
  match i.task, loaded.text.scenario with
  | .parse, _ => .ok (parse loaded i.options)
  | _, none => .ok (Outcome.failed [])
  | .validate, some s => .ok (validate loaded i.options i.file s)
  | .simulate, some s =>
      withValid loaded i.file s fun s => Halt.lift (simulate w i.options s)
  | .sensitivity, some s => withValid loaded i.file s (sensitivity w i.options)
  | .pulse, some s => Halt.lift (pulse w loaded i.options s)

/-- Carries out a task. -/
def Invocation.run (w : Workspace σ α) (i : Invocation) : Except Halt Outcome := do
  match ← Halt.lift (load w i.file) with
  | .error trouble => return Outcome.failed [troubleLine i.file trouble]
  | .ok loaded => return (← onLoaded w i loaded).after loaded.lines

end Prognosis.Command
