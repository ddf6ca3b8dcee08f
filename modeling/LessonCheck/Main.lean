import LessonCheck.Command.Run

/-!
The program: it looks at the paths that a command line names, runs the command on what it has seen,
and carries out the outcome.
-/

namespace LessonCheck

/-- The system's code for reading a directory as if it were a file. -/
def directoryCode : UInt32 := 21

/-- The state of a path on disk. A file that cannot be opened counts as absent. -/
def observe (path : String) : IO FileState := do
  try
    return .file (← IO.FS.readBinFile path)
  catch
    | .inappropriateType _ code _ =>
      return if code = directoryCode then .directory else .blocked
    | .invalidArgument .. => return .tooLong
    | _ => return .absent

namespace Command

/-- The paths that running a command looks at. -/
def paths : Command → List String
  | .check path _ _ settingsDir =>
    [path, filePath (settingsDir.getD Surroundings.workingDir) Settings.fileName]
  | .init dir =>
    let dir := dir.getD Surroundings.workingDir
    [dir, filePath dir Settings.fileName]
  | .methods _ | .version => []

def readsInput : Command → Bool
  | .check path .. => Surroundings.isInput path
  | _ => false

end Command

/-- What the command line can see of the machine. -/
def surroundings (args : List String) : IO Surroundings := do
  let command := Command.ofArguments? args
  let states ← (command.elim [] Command.paths).mapM fun path => return (path, ← observe path)
  let input ← if command.any Command.readsInput then (← IO.getStdin).readBinToEnd else pure .empty
  return ⟨fun path => (states.lookup path).getD .absent, input⟩

end LessonCheck

open LessonCheck

def main (args : List String) : IO UInt32 := do
  let outcome := Command.run (← surroundings args) args
  if let some (path, text) := outcome.written then
    IO.FS.writeFile path text
  IO.print outcome.output
  IO.eprint outcome.errors
  return UInt32.ofNat outcome.exit
