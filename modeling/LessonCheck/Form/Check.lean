import LessonCheck.Form.Brackets
import LessonCheck.Form.Concatenation
import LessonCheck.Form.Ending
import LessonCheck.Form.LoopForm
import LessonCheck.Lexing.Problem

/-!
The form of a program: the four checks that look at the arrangement of the tokens and know nothing
of declarations. They all see the same tokens and only add to the list of problems, so none hides
what another has found.
-/

namespace LessonCheck

inductive FormProblem
  | lexical (problem : LexicalProblem)
  | bracket (problem : BracketProblem)
  | ending (problem : EndingProblem)
  | loop (problem : LoopFormProblem)
  | concatenation (problem : ConcatenationProblem)
  deriving DecidableEq

namespace FormProblem

def message : FormProblem → String
  | .lexical p => p.message
  | .bracket p => p.message
  | .ending p => p.message
  | .loop p => p.message
  | .concatenation p => p.message

instance : Described FormProblem := ⟨message⟩

end FormProblem

namespace Tokens

/-- The problems of form, check by check. -/
def formProblems (ts : Tokens) : List (Located FormProblem) :=
  ts.bracketProblems.map (·.map .bracket) ++
    ts.endingProblems.map (·.map .ending) ++
    ts.loopFormProblems.map (·.map .loop) ++
    ts.concatenationProblems.map (·.map .concatenation)

end Tokens

end LessonCheck
