import LessonCheck.Meaning.CharRange
import LessonCheck.Meaning.Declaration
import LessonCheck.Meaning.LoopCounter
import LessonCheck.Meaning.StringMethod
import LessonCheck.Meaning.Usage

/-!
The meaning of a program: the scope of its variables, and what the five passes over its tokens find
wrong with their use. The declarations come first; the other passes read the finished scope and do
not change it.
-/

namespace LessonCheck

inductive MeaningProblem
  | declaration (problem : DeclarationProblem)
  | usage (problem : UsageProblem)
  | loop (problem : LoopProblem)
  | charRange (problem : CharRangeProblem)
  | stringMethod (problem : StringMethodProblem)
  deriving DecidableEq

namespace MeaningProblem

def message : MeaningProblem → String
  | .declaration p => p.message
  | .usage p => p.message
  | .loop p => p.message
  | .charRange p => p.message
  | .stringMethod p => p.message

instance : Described MeaningProblem := ⟨message⟩

end MeaningProblem

/-- Which of the optional passes run. -/
structure MeaningOptions where
  /-- The permitted characters; without a range char literals are not judged. -/
  charRange : Option CharRange
  stringMethods : Bool
  deriving DecidableEq

structure Meaning where
  scope : Scope
  problems : List (Located MeaningProblem)

namespace Tokens

def meaning (options : MeaningOptions) (ts : Tokens) : Meaning :=
  let declared := Scope.empty.declareAll ts
  let scope := declared.scope
  { scope
    problems :=
      declared.problems.map (·.map .declaration) ++
        (scope.usageProblems ts).map (·.map .usage) ++
        (scope.loopProblems ts).map (·.map .loop) ++
        (match options.charRange with
          | some r => (r.problems ts).map (·.map .charRange)
          | none => []) ++
        (if options.stringMethods then (scope.stringMethodProblems ts).map (·.map .stringMethod)
          else []) }

end Tokens

end LessonCheck
