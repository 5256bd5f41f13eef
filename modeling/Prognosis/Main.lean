import Prognosis.Command.Outcome
import Prognosis.Random.Stream
import Prognosis.Scalar.Double
import Std.Time

/-! The command line: reads the file of a task, carries the task out, and prints or writes what
comes of it.
-/

namespace Prognosis.Command

/-- How the command line is used. -/
def usage : String :=
  "usage: prognosis [-h] [-v] [--log-file FILE] \x7bparse,validate,simulate,sensitivity,pulse\x7d "
    ++ "FILE [options]"

/-- The text of a file, or why there is none. -/
def readText (path : String) : IO (Except FileTrouble String) := do
  try
    return .ok (← IO.FS.readFile path)
  catch
  | .inappropriateType .. => return .error .folder
  | _ => return .error .missing

/-- Folder of a path. -/
def folderOf (path : String) : String :=
  let parts := path.splitOn "/"
  if parts.length ≤ 1 then "." else "/".intercalate parts.dropLast ++ "/"

/-- Writes a text to a file, in a folder that is made if need be. -/
def writeText (path text : String) : IO Unit := do
  IO.FS.createDirAll (folderOf path)
  IO.FS.writeFile path text

/-- Today as a day of the calendar. -/
def today : IO Date := do
  let now ← Std.Time.PlainDate.now
  let day := Date.ofNumbers? now.year.toInt.toNat now.month.val.toNat now.day.val.toNat
  match day with
  | some date => return date
  | none => throw (IO.userError "the clock shows no day of the calendar")

/-- The settings of the place where the command line is used. -/
def settings : IO (Json Float) := do
  let content ← readText "config/sdl.yaml"
  return (content.toOption.bind Settings.readDocument?).getD Settings.standard

/-- The surroundings of a task on a file. Nothing is asked over a network. -/
def workspaceFor (file : String) : IO (Workspace Generator Float) := do
  let content ← readText (pathText file)
  let context : PulseContext Float :=
    ⟨← settings, ← today, fun _ => .failed "no network is in use"⟩
  let read (path : String) : Except FileTrouble String :=
    if path == pathText file then content else .error .missing
  return ⟨read, .standard, context⟩

/-- Line for a task that broke down. -/
def haltLine : Halt → String
  | .error e => errorLine e.message
  | .fault _ => errorLine "a computation broke down"

/-- Shows what comes of a task. -/
def Outcome.present (o : Outcome) : IO UInt32 := do
  match o.written with
  | some (path, text) => writeText path text
  | none => pure ()
  for line in o.lines do
    IO.eprintln line
  match o.printed with
  | some text => IO.println text
  | none => pure ()
  return o.status.toUInt32

end Prognosis.Command

open Prognosis Prognosis.Command in
/-- Carries out a command line. -/
def main (arguments : List String) : IO UInt32 := do
  match Invocation.ofArguments arguments with
  | .error .help => IO.println usage; return 0
  | .error .misuse => IO.eprintln usage; return 2
  | .ok none => IO.println usage; return 1
  | .ok (some invocation) =>
      match invocation.run (← workspaceFor invocation.file) with
      | .ok outcome => outcome.present
      | .error halt => IO.eprintln (haltLine halt); return 1
