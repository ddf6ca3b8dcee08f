import LessonCheck.Location

/-!
Problems and their places. A pass answers with `Located` problems of its own type, and only a report
turns them into text, so that a statement about a pass speaks of causes and not of wordings.
-/

namespace LessonCheck

/-- A problem together with the place of the token it is reported at. -/
structure Located (α : Type) where
  location : Location
  problem : α
  deriving DecidableEq

/-- The kinds of problem that have a wording. -/
class Described (α : Type) where
  message : α → String

/-- A problem as a report shows it. -/
structure Diagnostic where
  location : Location
  message : String
  deriving DecidableEq

namespace Located

def map {α β : Type} (f : α → β) (p : Located α) : Located β := ⟨p.location, f p.problem⟩

def diagnostic {α : Type} [Described α] (p : Located α) : Diagnostic :=
  ⟨p.location, Described.message p.problem⟩

@[simp] theorem location_map {α β : Type} (f : α → β) (p : Located α) :
    (p.map f).location = p.location := rfl

@[simp] theorem location_diagnostic {α : Type} [Described α] (p : Located α) :
    p.diagnostic.location = p.location := rfl

end Located

namespace Diagnostic

/-- The line of text that shows the diagnostic to a reader. -/
def text (d : Diagnostic) : String :=
  "line " ++ d.location.line.repr ++ ": " ++ d.message

/-- Order by place, and by message at the same place. -/
def le (a b : Diagnostic) : Bool :=
  if a.location = b.location then !(b.message < a.message : Bool) else a.location.le b.location

/-- The diagnostics in that order; equal ones all stay. -/
def sort (ds : List Diagnostic) : List Diagnostic := ds.mergeSort le

end Diagnostic

end LessonCheck
