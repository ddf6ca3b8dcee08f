import LessonCheck.Diagnostic
import LessonCheck.Token.View

/-!
The range of characters that char literals may use.
-/

namespace LessonCheck

/-- The characters from `first` to `last`, none if `last` comes first. -/
structure CharRange where
  first : Char
  last : Char
  deriving DecidableEq

namespace CharRange

def contains (r : CharRange) (c : Char) : Bool := r.first ≤ c && c ≤ r.last

/-- No character lies in the range. -/
def isEmpty (r : CharRange) : Bool := r.last < r.first

end CharRange

inductive CharRangeProblem
  | outside (char : Char) (permitted : CharRange)
  deriving DecidableEq

namespace CharRangeProblem

def message : CharRangeProblem → String
  | .outside c r =>
    "char '" ++ String.ofList [c] ++ "' is outside the permitted range (" ++
      String.ofList [r.first, '-', r.last] ++ ")"

instance : Described CharRangeProblem := ⟨message⟩

end CharRangeProblem

namespace CharRange

/-- Only literals of exactly one character are judged. -/
def tokenProblems (r : CharRange) (t : Token) : List (Located CharRangeProblem) :=
  match t.kind, t.lexeme.toList with
  | .char, [c] => if r.contains c then [] else [⟨t.location, .outside c r⟩]
  | _, _ => []

def problems (r : CharRange) (ts : Tokens) : List (Located CharRangeProblem) :=
  ts.flatMap r.tokenProblems

end CharRange

end LessonCheck
