import LessonCheck.Diagnostic
import LessonCheck.Meaning.Scope
import LessonCheck.Token.View

/-!
The value behind an equals sign. Only its first token is judged: a literal by the type of the
variable that receives it, a variable by its own type. Calls, members, unknown names and literals
that the lexer has complained about are left alone.
-/

namespace LessonCheck

inductive AssignedValue
  | literal (value : Literal)
  | unchecked
  | refused (error : Located TypeClash)
  deriving DecidableEq

namespace AssignedValue

/-- Judges the value at the front of `ts`, given to a variable of type `declared`. -/
def ofTokens (scope : Scope) (name : String) (declared : VariableType) :
    Tokens → AssignedValue
  | [] => .unchecked
  | value :: rest =>
    -- A broken literal has been reported by the lexer.
    if value.kind.isFaulty then .unchecked
    else if value.isReference then
      -- The type of a call or a member is not known here.
      if rest[0]?.any (fun t => t.kind = .dot || t.kind = .lparen) then .unchecked
      else match scope.lookup? value.lexeme with
        -- An unknown name is the concern of the uses.
        | none => .unchecked
        | some source =>
          match source.checkAccepted name declared with
          | .ok () => .unchecked
          | .error e => .refused ⟨value.location, e⟩
    else match Literal.ofToken name declared value with
      | .ok found => .literal found
      | .error e => .refused ⟨value.location, e⟩

def literal? : AssignedValue → Option Literal
  | .literal value => some value
  | _ => none

def errors : AssignedValue → List (Located TypeClash)
  | .refused error => [error]
  | _ => []

end AssignedValue

end LessonCheck
