/-
The program: it reads the files that a command looks at, runs the command on them, and writes its outcome.
-/
import TemplateView.CommandLine

namespace TemplateView.Main

/-- why a file could not be read, in the words of the operating system -/
def reason : IO.Error → String
  | .permissionDenied .. => "Permission denied (os error 13)"
  | .noFileOrDirectory .. => FileTree.missing
  | .inappropriateType .. => FileTree.notFolder
  | .invalidArgument .. => FileTree.tooLong
  | _ => "stream did not contain valid UTF-8"

/-- the text of a file, or the reason why it has none -/
def readContent (path : String) : IO (Except String String) := do
  try
    return .ok (← IO.FS.readFile path)
  catch e =>
    return .error (reason e)

/-- what stands at a path, folders taken at most `depth` deep; nothing if there is no such path -/
def load : Nat → String → IO (Option FileTree)
  | 0, _ => return none
  | depth + 1, path => do
    try
      let place ← IO.FS.realPath path
      if ← place.isDir then
        let mut entries := []
        for entry in ← place.readDir do
          match ← load depth (FileTree.entryPath path entry.fileName) with
          | some t => entries := (entry.fileName, t) :: entries
          | none => pure ()
        return some (.folder entries.reverse)
      else
        return some (.file (← readContent path))
    catch _ =>
      return none

/-- how deep a check descends into folders -/
def folderDepth : Nat := 4096

/-- what stands at a path, or why nothing does -/
def look (path : String) : IO (Except String FileTree) := do
  match ← load folderDepth path with
  | some t => return .ok t
  | none => return (← readContent path).map fun text => .file (.ok text)

/-- runs a command; the time that a check reports is that of finding and reading the files -/
def perform (command : Command) : IO Outcome := do
  let start ← IO.monoNanosNow
  let found ← command.paths.mapM fun path => return (path, ← look path)
  let finish ← IO.monoNanosNow
  let find := fun path => (found.lookup path).getD (.error FileTree.missing)
  return command.run View.ample (Command.durationText ((finish - start) / 1000)) find

end TemplateView.Main

def main (arguments : List String) : IO UInt32 := do
  let outcome ←
    match TemplateView.Command.ofArguments? arguments with
    | some command => TemplateView.Main.perform command
    | none => pure TemplateView.Command.usage
  IO.print outcome.output
  IO.eprint outcome.errors
  return outcome.code.toUInt32
