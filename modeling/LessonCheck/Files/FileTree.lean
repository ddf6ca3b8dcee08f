import LessonCheck.Files.FileState

/-!
A directory tree held in memory, for looking paths up. A place in it is given by the names on the
way from the root; paths start at the root or at the working directory. Besides the directories that
are named, every directory on the way to one of them or to a file exists. Names and paths are
limited in their number of bytes; a path is measured before it is followed, a name when it is come
to.
-/

namespace LessonCheck

structure FileTree where
  workingDir : List String
  directories : List (List String)
  files : List (List String × ByteArray)

namespace FileTree

/-- The names on a path; a first or last slash leaves an empty name. -/
def names (path : String) : List String := path.splitOn "/"

/-- The place where following a path starts. -/
def start (workingDir : List String) (path : String) : List String :=
  if path.startsWith "/" then [] else workingDir

/-- The place of a path that has no dots and no empty names, a first slash aside. -/
def place (workingDir : List String) (path : String) : List String :=
  start workingDir path ++ (names path).filter (· ≠ "")

/-- A tree with the given directories and files, by such paths. -/
def ofPaths (workingDir : List String) (directories : List String)
    (files : List (String × ByteArray)) : FileTree where
  workingDir
  directories := workingDir :: directories.map (place workingDir)
  files := files.map fun f => (place workingDir f.1, f.2)

def isDirectory (t : FileTree) (place : List String) : Bool :=
  place.isEmpty || t.directories.any (place.isPrefixOf ·) ||
    t.files.any fun f => place.isPrefixOf f.1 && f.1 ≠ place

/-- What stands at a place. -/
def stateAt (t : FileTree) (place : List String) : FileState :=
  match t.files.lookup place with
  | some content => .file content
  | none => if t.isDirectory place then .directory else .absent

/-- The most bytes that a name may have. -/
def maxNameSize : Nat := 255

/-- The most bytes that a path may have. -/
def maxPathSize : Nat := 4095

/-- The place that the names lead to from another, or what stops the way. -/
def walk (t : FileTree) (here : List String) : List String → Except FileState (List String)
  | [] => .ok here
  | name :: names =>
    match t.stateAt here with
    | .directory =>
      if name = "" || name = "." then t.walk here names
      else if name = ".." then t.walk here.dropLast names
      else if name.utf8ByteSize > maxNameSize then .error .tooLong
      else t.walk (here ++ [name]) names
    | .file _ => .error .blocked
    | other => .error other

/-- The place that a path leads to, or what stops the way. -/
def follow (t : FileTree) (path : String) : Except FileState (List String) :=
  if path.isEmpty then .error .absent
  else if path.utf8ByteSize > maxPathSize then .error .tooLong
  else t.walk (start t.workingDir path) (names path)

/-- What a path leads to. -/
def look (t : FileTree) (path : String) : FileState :=
  match t.follow path with
  | .ok place => t.stateAt place
  | .error stop => stop

/-- Puts a file at the place that a path leads to. -/
def write (t : FileTree) (path : String) (content : ByteArray) : FileTree :=
  match t.follow path with
  | .ok place => { t with files := (place, content) :: t.files.filter (·.1 ≠ place) }
  | .error _ => t

end FileTree

end LessonCheck
