import LessonCheck.Diagnostic
import LessonCheck.Form.OutputCall

/-!
Texts are put together with `+`. Among the arguments of a print call, `++` next to a string or a
name is taken for a mistyped `+`, and so are the spaced form `+ +` and the `+` that `+++` leaves
over.
-/

namespace LessonCheck

inductive ConcatenationProblem
  | doubledPlus
  deriving DecidableEq

namespace ConcatenationProblem

def message : ConcatenationProblem → String
  | .doubledPlus => "use '+', not '++', to concatenate"

instance : Described ConcatenationProblem := ⟨message⟩

end ConcatenationProblem

namespace Token

/-- A string or a name, the operands that concatenation is about. -/
def isTextOperand (t : Token) : Bool := t.kind = .string || t.kind = .identifier

/-- The operator `t` is a misused one, judged by the tokens before and behind it. -/
def isDoubledPlus (before : Option Token) (t : Token) (rest : Tokens) : Bool :=
  if t.isOperator "++" then
    before.any isTextOperand || rest[0]?.any isTextOperand
  -- Of `+ +` the first sign is reported, of `+++` the one that `++` leaves over.
  else if t.isOperator "+" then
    (before.any (·.isOperator "++") && rest[0]?.any isTextOperand) ||
      (rest[0]?.any (·.isOperator "+") && rest[1]?.any isTextOperand)
  else false

end Token

namespace Tokens

/-- The misused operators among the arguments of one call; the tokens around them do not count. -/
def doubledPluses (arguments : Tokens) : List (Located ConcatenationProblem) :=
  arguments.survey fun before t rest =>
    if t.isDoubledPlus before rest then [⟨t.location, .doubledPlus⟩] else []

/-- The misused operators of every closed print call, call by call. -/
def concatenationProblems (ts : Tokens) : List (Located ConcatenationProblem) :=
  ts.outputCalls.flatMap fun call =>
    match call.2.arguments with
    | some e => doubledPluses e.inside
    | none => []

end Tokens

end LessonCheck
