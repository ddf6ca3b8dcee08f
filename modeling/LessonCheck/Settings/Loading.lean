import LessonCheck.Files.FileState
import LessonCheck.Settings.Reading

/-!
Settings from a file. Strict loading says what is wrong with the file; lenient loading takes the
standard settings then.
-/

namespace LessonCheck

inductive LoadError
  | read (cause : ReadError)
  | invalid (error : SettingsError)
  deriving DecidableEq

namespace Settings

/-- The name of a settings file in its directory. -/
def fileName : String := "jcheck.toml"

def load (state : FileState) : Except LoadError Settings :=
  match state.text with
  | .error cause => .error (.read cause)
  | .ok text => (ofDocument text).mapError .invalid

def loadOrStandard (state : FileState) : Settings :=
  match load state with
  | .ok s => s
  | .error _ => standard

end Settings

end LessonCheck
