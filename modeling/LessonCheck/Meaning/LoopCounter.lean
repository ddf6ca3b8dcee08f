import LessonCheck.Diagnostic
import LessonCheck.Form.LoopHeader
import LessonCheck.Meaning.Scope

/-!
The variable of a loop. The initialization names it; condition and increment must begin with the
same variable, and what it is compared with must suit its type. Headers that do not fall into three
parts are not looked at.
-/

namespace LessonCheck

/-- The parts of a header that repeat the loop variable. -/
inductive LoopPart
  | condition
  | increment
  deriving DecidableEq

def LoopPart.word : LoopPart → String
  | .condition => "condition"
  | .increment => "increment"

structure LoopCounter where
  name : String
  type : VariableType
  deriving DecidableEq

inductive LoopProblem
  | undeclared (name : String)
  | otherVariable (part : LoopPart) (found expected : String)
  | comparedVariable (counter : LoopCounter) (otherType : VariableType) (other : String)
  | comparedValue (counter : LoopCounter) (found : Token.Kind) (lexeme : String)
  | value (error : TypeClash)
  deriving DecidableEq

namespace LoopProblem

private def comparing (v : LoopCounter) : String :=
  "cannot compare " ++ v.type.word ++ " loop variable '" ++ v.name ++ "' with "

def message : LoopProblem → String
  | .undeclared name => "loop variable '" ++ name ++ "' is not declared"
  | .otherVariable part found expected =>
    part.word ++ " variable '" ++ found ++ "' does not match loop variable '" ++ expected ++ "'"
  | .comparedVariable v otherType other =>
    comparing v ++ otherType.word ++ " variable '" ++ other ++ "'"
  | .comparedValue v found lexeme => comparing v ++ found.name ++ " '" ++ lexeme ++ "'"
  | .value e => e.message

instance : Described LoopProblem := ⟨message⟩

end LoopProblem

namespace LoopCounter

/-- What an initialization says about the loop variable. -/
inductive Search
  | found (v : LoopCounter)
  | undeclared (name : Token)
  | none

/-- The loop variable of an initialization that begins with a name. -/
def ofName (scope : Scope) (name : Token) : Search :=
  if name.kind = .identifier then
    match scope.lookup? name.lexeme with
    | some v => .found ⟨name.lexeme, v.type⟩
    | none => .undeclared name
  else .none

/-- The loop variable of an initialization: declared there, or looked up in the scope. -/
def ofInit (scope : Scope) : Tokens → Search
  | [] => .none
  | first :: rest =>
    match first.typeNamed?, rest with
    | some declared, name :: _ =>
      if name.kind = .identifier then .found ⟨name.lexeme, declared⟩ else ofName scope first
    | _, _ => ofName scope first

/-- The name at the front of a part must be the loop variable. -/
def partProblems (v : LoopCounter) (part : LoopPart) : Tokens → List (Located LoopProblem)
  | [] => []
  | t :: _ =>
    if t.kind = .identifier && t.lexeme != v.name then
      [⟨t.location, .otherVariable part t.lexeme v.name⟩]
    else []

/-- A value that the loop variable is compared with. -/
def comparisonProblems (scope : Scope) (v : LoopCounter) (value : Token) :
    List (Located LoopProblem) :=
  if value.kind.isFaulty then []
  else if value.isReference then
    match scope.lookup? value.lexeme with
    | none => []
    | some other =>
      if v.type.comparesWith other.type then []
      else [⟨value.location, .comparedVariable v other.type value.lexeme⟩]
  else match Literal.ofToken v.name v.type value with
    | .ok _ => []
    -- Only a value that cannot be read keeps its own wording.
    | .error (.wrongKind ..) | .error (.notBoolean ..) =>
      [⟨value.location, .comparedValue v value.kind value.lexeme⟩]
    | .error e => [⟨value.location, .value e⟩]

/-- The value stands third in a condition. -/
def conditionProblems (scope : Scope) (v : LoopCounter) :
    Tokens → List (Located LoopProblem)
  | _ :: _ :: value :: _ => comparisonProblems scope v value
  | _ => []

end LoopCounter

namespace Scope

def headerProblems (scope : Scope) (h : LoopHeader) : List (Located LoopProblem) :=
  match LoopCounter.ofInit scope h.init with
  | .none => []
  | .undeclared name => [⟨name.location, .undeclared name.lexeme⟩]
  | .found v =>
    v.partProblems .condition h.condition ++ v.partProblems .increment h.increment ++
      v.conditionProblems scope h.condition

def loopProblems (scope : Scope) (ts : Tokens) : List (Located LoopProblem) :=
  ts.survey fun _ t rest =>
    if t.isKeyword "for" then
      match LoopHeader.ofTokens rest with
      | .ok h => scope.headerProblems h
      | .error _ => []
    else []

end Scope

end LessonCheck
