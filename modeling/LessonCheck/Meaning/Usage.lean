import LessonCheck.Meaning.AssignedValue

/-!
Uses of variables. An identifier is a use unless it is reserved, declares a name, or is a member
behind a dot. A use needs a declaration somewhere in the program, before or behind it; and a value
that a variable is given must fit its type.
-/

namespace LessonCheck

inductive UsageProblem
  | undeclared (name : String)
  | value (error : TypeClash)
  deriving DecidableEq

namespace UsageProblem

def message : UsageProblem → String
  | .undeclared name => "variable '" ++ name ++ "' used without declaring"
  | .value e => e.message

instance : Described UsageProblem := ⟨message⟩

end UsageProblem

namespace Token

/-- The token uses a variable, judged by the token before it. -/
def isUse (before : Option Token) (t : Token) : Bool :=
  t.isReference && !before.any isTypeKeyword && !before.any (·.kind = .dot)

theorem isReference_of_isUse {before : Option Token} {t : Token} (h : t.isUse before = true) :
    t.isReference = true := by
  simp only [isUse, Bool.and_eq_true] at h
  exact h.1.1

end Token

namespace Scope

/-- The problems of a use of a variable, given the tokens behind it. -/
def useProblems (scope : Scope) (t : Token) (rest : Tokens) : List (Located UsageProblem) :=
  match scope.lookup? t.lexeme with
  | none => [⟨t.location, .undeclared t.lexeme⟩]
  | some v =>
    if rest[0]?.any (·.isOperator "=") then
      (AssignedValue.ofTokens scope t.lexeme v.type (rest.drop 1)).errors.map (·.map .value)
    else []

def usageProblems (scope : Scope) (ts : Tokens) : List (Located UsageProblem) :=
  ts.survey fun before t rest => if t.isUse before then scope.useProblems t rest else []

end Scope

end LessonCheck
