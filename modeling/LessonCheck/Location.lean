/-!
Positions in a source text. Lines and columns count from one; a column counts characters, so a tab
or a letter of any script moves it by one, and only a line feed starts a new line.
-/

namespace LessonCheck

structure Location where
  line : Nat
  column : Nat
  deriving DecidableEq

namespace Location

def start : Location := ⟨1, 1⟩

def advance (l : Location) : Location := { l with column := l.column + 1 }

def newline (l : Location) : Location := ⟨l.line + 1, 1⟩

/-- The position behind one character. -/
def step (l : Location) (c : Char) : Location :=
  if c = '\n' then l.newline else l.advance

/-- The position behind a whole text that begins at `l`. -/
def after (l : Location) (text : List Char) : Location :=
  text.foldl step l

@[simp] theorem after_nil (l : Location) : l.after [] = l := rfl

@[simp] theorem after_cons (l : Location) (c : Char) (text : List Char) :
    l.after (c :: text) = (l.step c).after text := rfl

theorem after_append (l : Location) (a b : List Char) :
    l.after (a ++ b) = (l.after a).after b := by
  simp [after, List.foldl_append]

/-- Reading order: by line, then by column. -/
def le (a b : Location) : Bool :=
  a.line < b.line || (a.line == b.line && a.column ≤ b.column)

/-- The position as it is written, `line:column`. -/
def text (l : Location) : String :=
  l.line.repr ++ ":" ++ l.column.repr

end Location

end LessonCheck
