/-!
What a path leads to, and what comes of reading it as text.
-/

namespace LessonCheck

inductive FileState
  | absent
  /-- Something on the way to the path is not a directory. -/
  | blocked
  /-- The path, or a name that it comes to, has too many bytes. -/
  | tooLong
  | directory
  | file (content : ByteArray)

inductive ReadError
  | notFound
  | notADirectory
  | isADirectory
  | nameTooLong
  /-- The content is not UTF-8. -/
  | invalidText
  deriving DecidableEq

namespace ReadError

/-- The cause as the system words it. -/
def message : ReadError → String
  | .notFound => "No such file or directory (os error 2)"
  | .notADirectory => "Not a directory (os error 20)"
  | .isADirectory => "Is a directory (os error 21)"
  | .nameTooLong => "File name too long (os error 36)"
  | .invalidText => "stream did not contain valid UTF-8"

end ReadError

/-- The text that the bytes encode. -/
def decodeText (content : ByteArray) : Except ReadError String :=
  match String.fromUTF8? content with
  | some text => .ok text
  | none => .error .invalidText

namespace FileState

def text : FileState → Except ReadError String
  | .absent => .error .notFound
  | .blocked => .error .notADirectory
  | .tooLong => .error .nameTooLong
  | .directory => .error .isADirectory
  | .file content => decodeText content

/-- The path leads to something. -/
def isPresent : FileState → Bool
  | .directory | .file _ => true
  | .absent | .blocked | .tooLong => false

/-- Why a new file cannot be made at a path of state `path`, if so; `parent` is the state of the
directory that the path lies in. -/
def refusal? (path parent : FileState) : Option ReadError :=
  match path, parent with
  | .tooLong, _ | _, .tooLong => some .nameTooLong
  | _, .directory => none
  | _, .absent => some .notFound
  | _, .blocked | _, .file _ => some .notADirectory

end FileState

/-- The path of a file in a directory. -/
def filePath (directory name : String) : String :=
  if directory.endsWith "/" then directory ++ name else directory ++ "/" ++ name

end LessonCheck
