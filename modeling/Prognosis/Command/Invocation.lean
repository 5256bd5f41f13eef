import Prognosis.Decimal.Reading

/-! Command lines: what is to be done with a file, and how. Options come with and without values
and may be shortened as long as they stay clear.
-/

namespace Prognosis.Command

/-- What an option sets. -/
inductive OptionKey where
  | help | verbose | logFile | output | runs | seed | workers | calibrate | offline | timeout
  deriving DecidableEq, Repr

/-- An option: its spellings, what it sets, and whether a value comes with it. -/
structure OptionSpec where
  spellings : List String
  key : OptionKey
  takesValue : Bool
  deriving DecidableEq, Repr

/-- Why a command line is not carried out: help is asked for, or it is not understood. -/
inductive Refusal where
  | help | misuse
  deriving DecidableEq, Repr

/-- Role of an argument. -/
inductive Role where
  | plain
  /-- No options come after this one. -/
  | divider
  | option (spec : OptionSpec) (isShort : Bool) (attached : Option (List Char))
  | unknownOption
  deriving DecidableEq, Repr

/-- The option with exactly this spelling. -/
def spelled? (specs : List OptionSpec) (spelling : List Char) : Option OptionSpec :=
  specs.find? fun spec => spec.spellings.contains (String.ofList spelling)

/-- A name and what is attached to it by an equals sign. -/
def splitAttached (argument : List Char) : List Char × Option (List Char) :=
  match argument.dropWhile (· != '=') with
  | [] => (argument, none)
  | _ :: attached => (argument.takeWhile (· != '='), some attached)

/-- The options whose spellings begin so, one for each such spelling. -/
def completions (specs : List OptionSpec) (beginning : List Char) : List OptionSpec :=
  specs.flatMap fun spec =>
    (spec.spellings.filter fun s => beginning.isPrefixOf s.toList).map fun _ => spec

/-- A negative number is no option. -/
def isNegativeNumber (afterHyphen : List Char) : Bool :=
  match afterHyphen.dropWhile Char.isDigit with
  | [] => !afterHyphen.isEmpty
  | '.' :: places => !places.isEmpty && places.all Char.isDigit
  | _ => false

/-- Role of an argument that begins with a hyphen and is no complete option. -/
def roleOfUnclear (specs : List OptionSpec) (second : Char) (rest : List Char)
    : Except Refusal Role :=
  let argument := '-' :: second :: rest
  let (name, attached) := splitAttached argument
  let candidates : List Role :=
    if second == '-' then
      (completions specs name).map fun spec => .option spec false attached
    else ((spelled? specs ['-', second]).map fun spec => .option spec true (some rest)).toList
  match candidates with
  | [role] => .ok role
  | _ :: _ => .error .misuse
  | [] =>
      .ok (if isNegativeNumber (second :: rest) || argument.contains ' ' then .plain
        else .unknownOption)

/-- Role of an argument. -/
def roleOf (specs : List OptionSpec) (argument : String) : Except Refusal Role :=
  match argument.toList with
  | '-' :: second :: rest =>
      let isShort := second != '-'
      let (name, attached) := splitAttached ('-' :: second :: rest)
      match spelled? specs ('-' :: second :: rest), attached.bind fun _ => spelled? specs name with
      | some spec, _ => .ok (.option spec isShort none)
      | none, some spec => .ok (.option spec isShort attached)
      | none, none => roleOfUnclear specs second rest
  | _ => .ok .plain

/-- Roles of all arguments. -/
def rolesOf (specs : List OptionSpec) : List String → Except Refusal (List (String × Role))
  | [] => .ok []
  | argument :: rest =>
      if argument == "--" then .ok ((argument, .divider) :: rest.map fun a => (a, .plain))
      else do
        let role ← roleOf specs argument
        let roles ← rolesOf specs rest
        return (argument, role) :: roles

/-- An option as it is set. -/
structure Setting where
  key : OptionKey
  value : Option String
  deriving DecidableEq, Repr

/-- The settings of an option by what is attached to it. Short options may share a hyphen. The
key is that of an option whose value is yet to come.
-/
def attachedSettings (specs : List OptionSpec) (spec : OptionSpec) (isShort : Bool)
    : List Char → Except Refusal (List Setting × Option OptionKey)
  | [] => .ok (if spec.takesValue then ([], some spec.key) else ([⟨spec.key, none⟩], none))
  | c :: rest =>
      if spec.takesValue then .ok ([⟨spec.key, some (String.ofList (c :: rest))⟩], none)
      else if isShort then
        match spelled? specs ['-', c] with
        | none => .error .misuse
        | some other =>
            (attachedSettings specs other isShort rest).map fun (settings, awaited) =>
              (⟨spec.key, none⟩ :: settings, awaited)
      else .error .misuse

/-- The settings of an option; an empty text that is attached is a value. -/
def settingsOf (specs : List OptionSpec) (spec : OptionSpec) (isShort : Bool)
    : Option (List Char) → Except Refusal (List Setting × Option OptionKey)
  | some [] => if spec.takesValue then .ok ([⟨spec.key, some ""⟩], none) else .error .misuse
  | some attached => attachedSettings specs spec isShort attached
  | none => attachedSettings specs spec isShort []

/-- What a command line gives: options as a value of their own, the words that are no options,
and whether there is more than is asked for.
-/
structure Given (ω : Type) where
  options : ω
  words : Option (List String)
  surplus : Bool

namespace Given

variable {ω : Type}

/-- There is more than is asked for. -/
def withSurplus (g : Given ω) : Given ω :=
  { g with surplus := true }

/-- Sets options, one after the other. -/
def setAll (set : ω → Setting → Except Refusal ω) (g : Given ω) (settings : List Setting)
    : Except Refusal (Given ω) :=
  (settings.foldlM set g.options).map fun options => { g with options := options }

/-- Reads arguments by their roles. One word is asked for, or a first word with everything that
follows it.
-/
def read (specs : List OptionSpec) (set : ω → Setting → Except Refusal ω) (takesRest : Bool)
    (g : Given ω) (arguments : List (String × Role)) : Except Refusal (Given ω) :=
  match arguments with
  | [] => .ok g
  | (_, .unknownOption) :: rest => read specs set takesRest g.withSurplus rest
  | (_, .option spec isShort attached) :: rest =>
      match settingsOf specs spec isShort attached with
      | .error refusal => .error refusal
      | .ok (settings, none) =>
          match g.setAll set settings with
          | .error refusal => .error refusal
          | .ok g => read specs set takesRest g rest
      | .ok (settings, some key) =>
          match rest.head? with
          | some (value, .plain) =>
              match g.setAll set (settings ++ [⟨key, some value⟩]) with
              | .error refusal => .error refusal
              | .ok g => read specs set takesRest g (rest.drop 1)
          | _ => .error .misuse
  | (word, .plain) :: rest =>
      if g.words.isSome then read specs set takesRest g.withSurplus rest
      else if takesRest then .ok { g with words := some (word :: rest.map (·.1)) }
      else
        let dividers := if (rest.head?.map (·.2)) == some .divider then 1 else 0
        read specs set takesRest { g with words := some [word] } (rest.drop dividers)
  | (_, .divider) :: [] => .ok g.withSurplus
  | (_, .divider) :: (word, _) :: rest =>
      if g.words.isSome then read specs set takesRest g.withSurplus rest
      else if takesRest then .error .misuse
      else read specs set takesRest { g with words := some [word] } rest
termination_by arguments.length
decreasing_by all_goals (simp only [List.length_cons, List.length_drop]; omega)

end Given

open Decimal

/-- What can be done with a scenario. -/
inductive Task where
  | parse | validate | simulate | sensitivity | pulse
  deriving DecidableEq, Repr

namespace Task

/-- All tasks. -/
def all : List Task :=
  [parse, validate, simulate, sensitivity, pulse]

/-- Word for the task. -/
def word : Task → String
  | parse => "parse"
  | validate => "validate"
  | simulate => "simulate"
  | sensitivity => "sensitivity"
  | pulse => "pulse"

/-- The task with this word. -/
def ofWord? (word : String) : Option Task :=
  all.find? (·.word == word)

end Task

/-- Option that asks for help. -/
def helpOption : OptionSpec :=
  ⟨["-h", "--help"], .help, false⟩

/-- Options in front of the task. -/
def generalOptions : List OptionSpec :=
  [helpOption, ⟨["-v", "--verbose"], .verbose, false⟩, ⟨["--log-file"], .logFile, true⟩]

/-- Options of every task. -/
def commonOptions : List OptionSpec :=
  [helpOption, ⟨["--output", "-o"], .output, true⟩]

/-- Options of tasks that simulate. -/
def engineOptions : List OptionSpec :=
  [⟨["--runs"], .runs, true⟩, ⟨["--seed"], .seed, true⟩, ⟨["--workers"], .workers, true⟩]

/-- Option that keeps to the datasets at hand. -/
def offlineOption : OptionSpec :=
  ⟨["--offline"], .offline, false⟩

/-- Options of a task. -/
def Task.options : Task → List OptionSpec
  | .parse => commonOptions
  | .validate => commonOptions
  | .simulate =>
      commonOptions ++ engineOptions ++ [⟨["--calibrate"], .calibrate, false⟩, offlineOption]
  | .sensitivity => commonOptions ++ engineOptions
  | .pulse => commonOptions ++ [offlineOption, ⟨["--timeout"], .timeout, true⟩]

/-- How a task is to be done. -/
structure Options where
  output : Option String
  runs : Option Int
  seed : Option Int
  workers : Option Int
  calibrate : Bool
  offline : Bool
  timeout : Option Reading
  deriving DecidableEq, Repr

namespace Options

/-- Nothing is said. -/
def unspecified : Options :=
  ⟨none, none, none, none, false, false, none⟩

/-- The whole number of a setting. -/
def wholeOf (value : Option String) : Except Refusal (Option Int) :=
  match value.bind readWhole? with
  | some n => .ok (some n)
  | none => .error .misuse

/-- The number of a setting. -/
def numberOf (value : Option String) : Except Refusal (Option Reading) :=
  match value.bind readNumber? with
  | some reading => .ok (some reading)
  | none => .error .misuse

/-- Sets an option; a value that is no number where one is needed is not understood. -/
def set (o : Options) (s : Setting) : Except Refusal Options :=
  match s.key with
  | .help => .error .help
  | .verbose => .ok o
  | .logFile => .ok o
  | .output => .ok { o with output := s.value }
  | .runs => (wholeOf s.value).map fun n => { o with runs := n }
  | .seed => (wholeOf s.value).map fun n => { o with seed := n }
  | .workers => (wholeOf s.value).map fun n => { o with workers := n }
  | .calibrate => .ok { o with calibrate := true }
  | .offline => .ok { o with offline := true }
  | .timeout => (numberOf s.value).map fun x => { o with timeout := x }

end Options

/-- A task on a file. -/
structure Invocation where
  task : Task
  file : String
  options : Options
  deriving DecidableEq, Repr

namespace Invocation

/-- Reads the arguments of a task. -/
def ofTask (task : Task) (arguments : List String) : Except Refusal (Given Options) := do
  let roles ← rolesOf task.options arguments
  Given.read task.options Options.set false ⟨.unspecified, none, false⟩ roles

/-- Reads a command line; none where it names no task. -/
def ofArguments (arguments : List String) : Except Refusal (Option Invocation) := do
  let roles ← rolesOf generalOptions arguments
  let general ←
    Given.read generalOptions Options.set true ⟨.unspecified, none, false⟩ roles
  match general.words with
  | none => if general.surplus then .error .misuse else .ok none
  | some [] => .error .misuse
  | some (word :: rest) =>
      match Task.ofWord? word with
      | none => .error .misuse
      | some task =>
          let given ← ofTask task rest
          match given.words with
          | some [file] =>
              if general.surplus || given.surplus then .error .misuse
              else .ok (some ⟨task, file, given.options⟩)
          | _ => .error .misuse

end Invocation

end Prognosis.Command
