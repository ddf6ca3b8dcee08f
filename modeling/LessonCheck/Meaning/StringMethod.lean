import LessonCheck.Diagnostic
import LessonCheck.Meaning.Scope
import LessonCheck.Token.View

/-!
Methods of strings. A name that a string variable has and a dot behind it are to be followed by one
of the methods that a string has.
-/

namespace LessonCheck

inductive StringMethodProblem
  | unknownMethod (name : String)
  deriving DecidableEq

namespace StringMethodProblem

def message : StringMethodProblem → String
  | .unknownMethod name => "'" ++ name ++ "' is not a valid String method"

instance : Described StringMethodProblem := ⟨message⟩

end StringMethodProblem

namespace Scope

def isString (scope : Scope) (name : String) : Bool :=
  (scope.lookup? name).any (·.type = .string)

/-- The problem of a member of `receiver`, given the tokens behind the receiver. -/
def memberProblems (scope : Scope) (receiver : Token) :
    Tokens → List (Located StringMethodProblem)
  | dot :: method :: _ =>
    if receiver.kind = .identifier && dot.kind = .dot && method.kind = .identifier &&
        scope.isString receiver.lexeme && !Vocabulary.isStringMethod method.lexeme then
      [⟨method.location, .unknownMethod method.lexeme⟩]
    else []
  | _ => []

def stringMethodProblems (scope : Scope) (ts : Tokens) :
    List (Located StringMethodProblem) :=
  ts.survey fun _ t rest => scope.memberProblems t rest

end Scope

end LessonCheck
