import LessonCheck.Meaning.AssignedValue

/-!
Declarations. Every type keyword with an identifier behind it declares a variable, wherever it
stands. The first declaration of a name counts, with or without a usable value, so that a bad value
never makes a name unknown.
-/

namespace LessonCheck

inductive DeclarationProblem
  | alreadyDeclared (name : String) (firstLine : Nat)
  | value (error : TypeClash)
  deriving DecidableEq

namespace DeclarationProblem

def message : DeclarationProblem → String
  | .alreadyDeclared name firstLine =>
    "variable '" ++ name ++ "' is already declared (first declared at line " ++ firstLine.repr ++
      ")"
  | .value e => e.message

instance : Described DeclarationProblem := ⟨message⟩

end DeclarationProblem

/-- The scope after some declarations, and what is wrong with them. -/
structure Declared where
  scope : Scope
  problems : List (Located DeclarationProblem)

namespace Scope

/-- The initial value of a variable, given the tokens behind its name. -/
def initialValue (scope : Scope) (name : String) (declared : VariableType) (ts : Tokens) :
    AssignedValue :=
  if ts[0]?.any (·.isOperator "=") then .ofTokens scope name declared (ts.drop 1) else .unchecked

/-- Takes in the declaration of `name`, given the tokens behind the name. -/
def declareName (scope : Scope) (declared : VariableType) (name : Token) (ts : Tokens) :
    Declared :=
  match h : scope.lookup? name.lexeme with
  | some existing =>
    ⟨scope, [⟨name.location, .alreadyDeclared name.lexeme existing.line⟩]⟩
  | none =>
    -- A value that does not fit is reported and left out; the name is declared all the same.
    let value := scope.initialValue name.lexeme declared ts
    ⟨scope.add ⟨name.lexeme, declared, value.literal?, name.location.line⟩ h,
      value.errors.map (·.map .value)⟩

/-- Takes in the declaration that begins at `t`, if one does. -/
def declareAt (scope : Scope) (t : Token) (rest : Tokens) : Declared :=
  match t.typeNamed?, rest with
  | some declared, name :: ts =>
    if name.kind = .identifier then scope.declareName declared name ts else ⟨scope, []⟩
  | _, _ => ⟨scope, []⟩

/-- Takes in all declarations of a program, in order. -/
def declareAll (scope : Scope) : Tokens → Declared
  | [] => ⟨scope, []⟩
  | t :: rest =>
    let first := scope.declareAt t rest
    let others := first.scope.declareAll rest
    ⟨others.scope, first.problems ++ others.problems⟩

end Scope

end LessonCheck
