import LessonCheck.Meaning.Check

/-!
The settings of a check: which of the optional passes run, and whether texts are kept for reuse.
-/

namespace LessonCheck

structure Settings where
  checkCharRange : Bool
  charRange : CharRange
  checkStringMethods : Bool
  internLiterals : Bool
  deriving DecidableEq

namespace Settings

/-- What holds when nothing is said. -/
def standard : Settings where
  checkCharRange := true
  charRange := ⟨'a', 'z'⟩
  checkStringMethods := true
  internLiterals := true

def meaningOptions (s : Settings) : MeaningOptions where
  charRange := if s.checkCharRange then some s.charRange else none
  stringMethods := s.checkStringMethods

end Settings

end LessonCheck
