/-
The command line: it renders a template, checks all templates below a path, or shows what a template is compiled to.
A command is a function of what stands at its paths; its outcome is an exit code and the text of the two output streams.
-/
import TemplateView.FileTree
import TemplateView.Template.Json
import TemplateView.View

namespace TemplateView

/-- what the program is asked to do -/
inductive Command where
  /-- renders a file with a model and options from files -/
  | render (file : String) (model config : Option String)
  /-- compiles all templates at and below a path -/
  | check (path : String)
  /-- shows the program of a file, or its parsed form -/
  | program (file : String) (parsed : Bool)
deriving DecidableEq, Repr

/-- what a command leaves behind -/
structure Outcome where
  code : Nat
  output : String
  errors : String
deriving DecidableEq, Repr

namespace Command

/-! ## Arguments -/

/-- arguments sorted into operands, options with their values, and switches -/
structure Arguments where
  operands : List String
  values : List (String × String)
  switches : List String

/-- the parts before and behind the first equals sign -/
def splitOption (argument : String) : String × Option String :=
  match Text.breakAt ['='] argument.toList with
  | some (name, value) => (String.ofList name, some (String.ofList value))
  | none => (argument, none)

/-- sorts arguments by the options that take a value and those that take none; all behind `--` are operands -/
def sortArguments (valued plain : List String) : List String → Option Arguments
  | [] => some ⟨[], [], []⟩
  | "--" :: rest => some ⟨rest, [], []⟩
  | argument :: rest =>
    if argument.startsWith "-" && argument != "-" then
      match splitOption argument, rest with
      | (name, some value), rest =>
        if valued.contains name then
          (sortArguments valued plain rest).map fun a => { a with values := (name, value) :: a.values }
        else none
      | (name, none), value :: rest =>
        if plain.contains name then
          (sortArguments valued plain (value :: rest)).map fun a => { a with switches := name :: a.switches }
        else if valued.contains name && (!value.startsWith "-" || value == "-") then
          (sortArguments valued plain rest).map fun a => { a with values := (name, value) :: a.values }
        else none
      | (name, none), [] => if plain.contains name then some ⟨[], [], [name]⟩ else none
    else (sortArguments valued plain rest).map fun a => { a with operands := argument :: a.operands }

/-- no option is given twice -/
def Arguments.isPlain (a : Arguments) : Bool :=
  (a.values.map Prod.fst ++ a.switches).Nodup

/-- `-v`, also repeated, and `--verbose` -/
def isVerbose (argument : String) : Bool :=
  argument == "--verbose" ||
    match argument.toList with
    | '-' :: 'v' :: cs => cs.all (· == 'v')
    | _ => false

/-- arguments without the switches for a log, which change no outcome -/
def withoutVerbose : List String → List String
  | [] => []
  | "--" :: rest => "--" :: rest
  | argument :: rest => if isVerbose argument then withoutVerbose rest else argument :: withoutVerbose rest

/-- the command that plain arguments ask for -/
def ofPlainArguments? : List String → Option Command
  | "render" :: rest =>
    match sortArguments ["--model", "--config"] [] rest with
    | some a =>
      match a.operands with
      | [file] => if a.isPlain then some (.render file (a.values.lookup "--model") (a.values.lookup "--config")) else none
      | _ => none
    | none => none
  | "check" :: rest =>
    match sortArguments [] [] rest with
    | some ⟨[path], _, _⟩ => some (.check path)
    | _ => none
  | "program" :: rest =>
    match sortArguments [] ["--json"] rest with
    | some a =>
      match a.operands with
      | [file] => if a.isPlain then some (.program file (a.switches.contains "--json")) else none
      | _ => none
    | none => none
  | _ => none

/-- the command that arguments ask for -/
def ofArguments? (arguments : List String) : Option Command :=
  ofPlainArguments? (withoutVerbose arguments)

/-- the paths that a command looks at -/
def paths : Command → List String
  | render file model config => [file] ++ model.toList ++ config.toList
  | check path => [path]
  | program file _ => [file]

/-! ## Outcomes -/

/-- an outcome with warnings at most -/
def success (output errors : String) : Outcome := ⟨0, output, errors⟩

/-- a failure that was reported -/
def failure (errors : String) : Outcome := ⟨1, "", errors⟩

/-- a failure in one sentence, behind what was reported before it -/
def failed (before message : String) : Outcome := failure (before ++ "Error: " ++ message ++ "\n")

/-- what a command finds at a path, or why there is nothing -/
abbrev Finder := String → Except String FileTree

/-- the text of a file, or the sentence that says why there is none -/
def textOf (find : Finder) (path : String) : Except String String :=
  match find path >>= FileTree.content with
  | .ok text => .ok text
  | .error reason => .error s!"cannot read {path}: {reason}"

/-- an outcome that may fail early -/
def outcomeOf : Except String Outcome → Outcome
  | .ok o => o
  | .error message => failed "" message

/-! ## Commands -/

/-- the options in a file, or those without one -/
def optionsOf (find : Finder) : Option String → Except String Options
  | none => .ok .default
  | some path => do
    match Options.read? (← textOf find path) with
    | some o => return o
    | none => throw s!"invalid config {path}"

/-- the model in a file, or an empty one -/
def modelOf (find : Finder) : Option String → Except String Json
  | none => .ok (.object [])
  | some path => do
    match Json.parse? (← textOf find path) with
    | some j => return j
    | none => throw s!"invalid model {path}"

/-- why a rendering ended early, in one sentence -/
def haltMessage : Halt → String
  | .error e => e.message
  | .outOfSteps => "a loop did not end"

/-- one warning for every helper that nothing defines -/
def warnings (v : View) : String :=
  String.join (v.missingHelpers.map fun name => s!"warning: helper `{name}` is not defined\n")

/-- renders a file; options and model are read before the template -/
def runRender (steps : Nat) (find : Finder) (file : String) (model config : Option String) : Except String Outcome := do
  let options ← optionsOf find config
  let model ← modelOf find model
  let source ← textOf find file
  match compile options source with
  | .error e => return failure (e.render source file)
  | .ok view =>
    match view.render steps model with
    | .ok html => return success html (warnings view)
    | .error h => return failed (warnings view) (haltMessage h)

/-- the endings of the names of templates -/
def extensions : List String := ["cshtml", "razor"]

/-- a file name with one of the endings behind a point that is not its first character -/
def isTemplate (path : String) : Bool :=
  extensions.any fun e =>
    (Text.stripSuffix ('.' :: e.toList) (FileTree.lastPart path).toList).any fun stem => !stem.isEmpty

/-- the progress of a check: how many templates were compiled, how many of them failed, what was reported -/
structure Tally where
  checked : Nat
  failed : Nat
  report : String

/-- compiles one more template -/
def checkFile (t : Tally) (path source : String) : Tally :=
  match compile .default source with
  | .ok _ => ⟨t.checked + 1, t.failed, t.report ++ s!"  ✓ {path}\n"⟩
  | .error e => ⟨t.checked + 1, t.failed + 1, t.report ++ e.render source path⟩

/-- compiles templates in order; one that cannot be read ends the check -/
def checkFiles (t : Tally) : List (String × Except String String) → Except (Tally × String) Tally
  | [] => .ok t
  | (path, content) :: rest =>
    match content with
    | .ok source => checkFiles (checkFile t path source) rest
    | .error reason => .error (t, s!"cannot read {path}: {reason}")

/-- the last line of a check -/
def summary (t : Tally) (elapsed : String) : String :=
  let noun := if t.checked = 1 then "template" else "templates"
  s!"\nChecked {t.checked} {noun} in {elapsed}, {t.failed} failed\n"

/-- a time in the unit that suits it, milliseconds to one place and seconds to two -/
def durationText (microseconds : Nat) : String :=
  if microseconds < 1000 then s!"{microseconds}μs"
  else if microseconds < 1000000 then
    let tenths := (microseconds + 50) / 100
    s!"{tenths / 10}.{tenths % 10}ms"
  else
    let hundredths := (microseconds + 5000) / 10000
    s!"{hundredths / 100}.{hundredths / 10 % 10}{hundredths % 10}s"

/-- checks the templates at and below a path; it is a failure to find none -/
def runCheck (elapsed : String) (find : Finder) (path : String) : Outcome :=
  match find path with
  | .error _ => failed "" s!"{path} does not exist"
  | .ok t =>
    match checkFiles ⟨0, 0, ""⟩ ((FileTree.filesAt path t).filter fun f => isTemplate f.1) with
    | .error (t, message) => failed t.report message
    | .ok t =>
      if t.checked = 0 then failed "" s!"no templates found in {path}"
      else ⟨if t.failed = 0 then 0 else 1, "", t.report ++ summary t elapsed⟩

/-- what a template is compiled to, or its parsed form -/
def shown (source : String) (parsed : Bool) : Except CompileError String :=
  if parsed then
    match Template.parse source with
    | .ok t => .ok (t.toJson.pretty 0)
    | .error e => .error (.source e)
  else do return (← compile .default source).source

/-- shows what the template in a file is compiled to -/
def runProgram (find : Finder) (file : String) (parsed : Bool) : Except String Outcome := do
  let source ← textOf find file
  match shown source parsed with
  | .ok text => return success (text ++ "\n") ""
  | .error e => return failure (e.render source file)

/-- the outcome of a command for what it finds; `elapsed` is what a check reports as its time -/
def run (steps : Nat) (elapsed : String) (find : Finder) : Command → Outcome
  | render file model config => outcomeOf (runRender steps find file model config)
  | check path => runCheck elapsed find path
  | program file parsed => outcomeOf (runProgram find file parsed)

/-- the outcome for arguments that ask for nothing known -/
def usage : Outcome :=
  ⟨2, "", "usage: render <file> [--model <path>] [--config <path>] | check <path> | program <file> [--json]\n"⟩

end Command

end TemplateView
