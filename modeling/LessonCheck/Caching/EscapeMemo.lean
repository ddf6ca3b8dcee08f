import LessonCheck.Lexing.Escape
import Std.Data.HashMap

/-!
A memory of the string literals whose escapes have been looked at. What it remembers is always what
a new look would find; the type carries that fact, so no use of it can go stale.
-/

namespace LessonCheck

structure EscapeMemo where
  caching : Bool
  known : Std.HashMap String (List InvalidEscape)
  exact : ∀ literal escapes, known[literal]? = some escapes →
    escapes = InvalidEscape.ofLiteral literal

namespace EscapeMemo

def new (caching : Bool) : EscapeMemo := ⟨caching, ∅, by simp⟩

/-- Remembers the escapes of one more literal. -/
def remember (m : EscapeMemo) (literal : String) : EscapeMemo where
  caching := m.caching
  known := m.known.insert literal (InvalidEscape.ofLiteral literal)
  exact := by
    intro other escapes h
    rw [Std.HashMap.getElem?_insert] at h
    split at h
    · next same =>
      cases h
      rw [eq_of_beq same]
    · exact m.exact other escapes h

def invalidEscapes (m : EscapeMemo) (literal : String) : List InvalidEscape × EscapeMemo :=
  if m.caching then
    match m.known[literal]? with
    | some escapes => (escapes, m)
    | none => (InvalidEscape.ofLiteral literal, m.remember literal)
  else (InvalidEscape.ofLiteral literal, m)

/-- The answer is the same with and without a memory, and whatever it holds. -/
@[simp] theorem fst_invalidEscapes (m : EscapeMemo) (literal : String) :
    (m.invalidEscapes literal).1 = InvalidEscape.ofLiteral literal := by
  unfold invalidEscapes
  split
  · split
    · next escapes h => exact m.exact literal escapes h
    · rfl
  · rfl

end EscapeMemo

end LessonCheck
