import LessonCheck.Command.Arguments
import LessonCheck.Settings.Loading
import LessonCheck.Settings.Writing

/-!
Running a command. A command sees its surroundings only through the states of the paths it looks at
and the bytes on its input, and it answers with an outcome; carrying that out is left to the
program. The exit status is 0 for success, 1 for a negative answer and 2 for an error.
-/

namespace LessonCheck

structure Surroundings where
  look : String → FileState
  input : ByteArray

structure Outcome where
  exit : Nat
  output : String
  errors : String
  /-- The path and the text of a file to be written. -/
  written : Option (String × String)
  deriving DecidableEq

namespace Outcome

def success (output : String) : Outcome := ⟨0, output, "", none⟩

def negative (output : String) : Outcome := ⟨1, output, "", none⟩

end Outcome

inductive CommandError
  | read (path : String) (cause : ReadError)
  | settings (error : SettingsError)
  | source (error : SourceError)
  deriving DecidableEq

namespace CommandError

def message : CommandError → String
  | .read path cause => "failed to read " ++ path ++ ": " ++ cause.message
  | .settings e => e.message
  | .source e => e.message

def outcome (e : CommandError) : Outcome := ⟨2, "", "error: " ++ e.message ++ "\n", none⟩

end CommandError

namespace Surroundings

/-- The directory that a command is started in. -/
def workingDir : String := "."

/-- Strict settings from a named directory, lenient ones from the working directory. -/
def settings (s : Surroundings) : Option String → Except CommandError Settings
  | some dir =>
    let path := filePath dir Settings.fileName
    match Settings.load (s.look path) with
    | .ok found => .ok found
    | .error (.read cause) => .error (.read path cause)
    | .error (.invalid e) => .error (.settings e)
  | none => .ok (Settings.loadOrStandard (s.look (filePath workingDir Settings.fileName)))

/-- The path is `-`, perhaps with empty steps behind it, which stands for the input. -/
def isInput (path : String) : Bool :=
  match path.splitOn "/" with
  | name :: steps => name = "-" && steps.all fun step => step = "" || step = "."
  | [] => false

def source (s : Surroundings) (path : String) : Except CommandError String :=
  if isInput path then (decodeText s.input).mapError (.read "<stdin>")
  else (s.look path).text.mapError (.read path)

end Surroundings

namespace Command

/-- The report of a single check. -/
def report (settings : Settings) (formOnly : Bool) (source : String) :
    Except CommandError Report :=
  let session := Session.new settings
  if formOnly then
    ((session.checkForm source).1.map FormAnalysis.report).mapError .source
  else ((session.analyze source).1.map Analysis.report).mapError .source

/-- What a report looks like on the output, a line end behind JSON included. -/
def shown (r : Report) (format : ReportFormat) : String :=
  match format with
  | .text => r.render .text
  | .json => r.render .json ++ "\n"

def runCheck (s : Surroundings) (path : String) (formOnly : Bool) (format : ReportFormat)
    (settingsDir : Option String) : Except CommandError Outcome := do
  let settings ← s.settings settingsDir
  let source ← s.source path
  let r ← report settings formOnly source
  return if r.isClean then .success (shown r format) else .negative (shown r format)

def runMethods : Option String → Outcome
  | none => .success (String.join (Vocabulary.stringMethods.map (· ++ "\n")))
  | some name =>
    if Vocabulary.isStringMethod name then .success ("'" ++ name ++ "' is a String method\n")
    else .negative ("'" ++ name ++ "' is not a String method\n")

/-- Writes a settings file with the standard settings unless there is one already. -/
def runInit (s : Surroundings) (dir : String) : Except CommandError Outcome :=
  let path := filePath dir Settings.fileName
  if (s.look path).isPresent then .ok ⟨1, "", path ++ " already exists\n", none⟩
  else match (s.look path).refusal? (s.look dir) with
    | some cause => .error (.read path cause)
    | none =>
      .ok ⟨0, "Initialised " ++ path ++ "\n", "", some (path, Settings.standard.toDocument)⟩

def outcome (s : Surroundings) : Command → Except CommandError Outcome
  | .check path formOnly format settingsDir => runCheck s path formOnly format settingsDir
  | .methods name => .ok (runMethods name)
  | .init dir => runInit s (dir.getD Surroundings.workingDir)
  | .version => .ok (.success "jcheck 0.1.0\n")

def usage : String :=
  "usage: jcheck [-v] check PATH [--syntax-only] [--format text|json] [--config-dir DIR]\n" ++
  "       jcheck [-v] methods [NAME]\n" ++
  "       jcheck [-v] init [PATH]\n"

/-- Runs a whole command line. -/
def run (s : Surroundings) (args : List String) : Outcome :=
  match ofArguments? args with
  | none => ⟨2, "", usage, none⟩
  | some command =>
    match command.outcome s with
    | .ok outcome => outcome
    | .error e => e.outcome

end Command

end LessonCheck
