import LessonCheck.Diagnostic
import LessonCheck.Form.LoopHeader

/-!
The form of a loop. The initialization declares a variable with a literal of its type, names one, or
gives one a value; the condition compares a variable with a value; the increment steps a variable or
adds a single value to it; and a brace opens the body. Each part is judged by itself.
-/

namespace LessonCheck

inductive LoopFormProblem
  | missingOpenParen
  | missingCloseParen
  | semicolonCount (count : Nat)
  | emptyInit
  | initName (declared : VariableType)
  | initEquals
  | initLiteral (declared : VariableType) (name : String) (found : Token.Kind) (lexeme : String)
  | initValue (lexeme : String)
  | init
  | emptyCondition
  | incompleteCondition
  | conditionVariable (lexeme : String)
  | conditionOperator (lexeme : String)
  | conditionValue (lexeme : String)
  | emptyIncrement
  | incompleteIncrement
  | incrementVariable (lexeme : String)
  | incrementCompound (operator extra : String)
  | incrementExtra (operator extra : String)
  | incrementValueCount (operator : String)
  | incrementValue (operator lexeme : String)
  | incrementOperator (lexeme : String)
  | missingBody
  deriving DecidableEq

namespace LoopFormProblem

private def quoted (text : String) : String := "'" ++ text ++ "'"

@[simp] theorem toList_quoted (text : String) :
    (quoted text).toList = '\'' :: text.toList ++ ['\''] := by
  simp [quoted]

def message : LoopFormProblem → String
  | .missingOpenParen => "expected '(' after 'for'"
  | .missingCloseParen => "missing ')' to close the 'for' header"
  | .semicolonCount n => "'for' header must contain exactly 2 ';', found " ++ n.repr
  | .emptyInit => "empty for-loop initialization"
  | .initName t => "expected identifier after " ++ quoted t.word ++ " in for-loop initialization"
  | .initEquals => "expected '=' in for-loop initialization"
  | .initLiteral t name found lexeme =>
    "expected " ++ t.literalKind.name ++ " value for " ++ t.word ++ " loop variable " ++
      quoted name ++ ", found " ++ found.name ++ " " ++ quoted lexeme
  | .initValue lexeme => "invalid value " ++ quoted lexeme ++ " in for-loop initialization"
  | .init => "invalid for-loop initialization"
  | .emptyCondition => "empty for-loop condition"
  | .incompleteCondition => "incomplete for-loop condition"
  | .conditionVariable lexeme =>
    "expected variable in for-loop condition, found " ++ quoted lexeme
  | .conditionOperator lexeme => "invalid operator " ++ quoted lexeme ++ " in for-loop condition"
  | .conditionValue lexeme => "invalid value " ++ quoted lexeme ++ " in for-loop condition"
  | .emptyIncrement => "empty for-loop increment"
  | .incompleteIncrement => "incomplete for-loop increment"
  | .incrementVariable lexeme =>
    "expected variable in for-loop increment, found " ++ quoted lexeme
  | .incrementCompound op extra =>
    "invalid compound operator " ++ quoted (op ++ extra) ++ " in for-loop increment"
  | .incrementExtra op extra =>
    "unexpected " ++ quoted extra ++ " after " ++ quoted op ++ " in for-loop increment"
  | .incrementValueCount op =>
    "expected exactly one value after " ++ quoted op ++ " in for-loop increment"
  | .incrementValue op lexeme =>
    "invalid value " ++ quoted lexeme ++ " after " ++ quoted op ++ " in for-loop increment"
  | .incrementOperator lexeme => "invalid increment operator " ++ quoted lexeme ++ " in for-loop"
  | .missingBody => "expected '\x7b' after the for-loop header"

instance : Described LoopFormProblem := ⟨message⟩

end LoopFormProblem

namespace Token

def isRelational (t : Token) : Bool :=
  t.kind = .operator && ["<", "<=", ">", ">=", "==", "!="].contains t.lexeme

def isStep (t : Token) : Bool := t.isOperator "++" || t.isOperator "--"

def isStepBy (t : Token) : Bool := t.isOperator "+=" || t.isOperator "-="

end Token

namespace LoopHeader

/-- The problem `p`, reported at the token `t`. -/
def report (t : Token) (p : LoopFormProblem) : List (Located LoopFormProblem) :=
  [⟨t.location, p⟩]

/-- An initialization that declares its variable: only its first four tokens are looked at. -/
def declaredInitProblems (declared : VariableType) (name equals value : Token) :
    List (Located LoopFormProblem) :=
  if name.kind ≠ .identifier then report name (.initName declared)
  else if !equals.isOperator "=" then report equals .initEquals
  else if value.kind ≠ declared.literalKind then
    report value (.initLiteral declared name.lexeme value.kind value.lexeme)
  else []

/-- An initialization without a declaration. -/
def plainInitProblems (first : Token) (rest : Tokens) : List (Located LoopFormProblem) :=
  if first.kind = .identifier then
    match rest with
    | [] => []
    | equals :: value :: _ =>
      if equals.isOperator "=" then
        if value.kind.isValue then [] else report value (.initValue value.lexeme)
      else report first .init
    | [_] => report first .init
  else report first .init

def initProblems (keyword : Token) : Tokens → List (Located LoopFormProblem)
  | [] => report keyword .emptyInit
  | first :: rest =>
    match first.typeNamed?, rest with
    -- A type keyword with less behind it is judged like any other start.
    | some declared, name :: equals :: value :: _ => declaredInitProblems declared name equals value
    | _, _ => plainInitProblems first rest

/-- The three tokens of a condition are judged one by one; what follows them is not looked at. -/
def conditionProblems (keyword : Token) : Tokens → List (Located LoopFormProblem)
  | [] => report keyword .emptyCondition
  | name :: operator :: value :: _ =>
    (if name.kind = .identifier then [] else report name (.conditionVariable name.lexeme)) ++
    (if operator.isRelational then []
      else report operator (.conditionOperator operator.lexeme)) ++
    (if value.kind.isValue then [] else report value (.conditionValue value.lexeme))
  | first :: _ => report first .incompleteCondition

/-- What may stand behind `++` or `--`: nothing. -/
def stepProblems (operator : Token) : Tokens → List (Located LoopFormProblem)
  | [] => []
  | extra :: _ =>
    if extra.kind = .operator then report extra (.incrementCompound operator.lexeme extra.lexeme)
    else report extra (.incrementExtra operator.lexeme extra.lexeme)

/-- What may stand behind `+=` or `-=`: a single value. -/
def stepByProblems (operator : Token) : Tokens → List (Located LoopFormProblem)
  | [value] =>
    if value.kind.isValue then []
    else report value (.incrementValue operator.lexeme value.lexeme)
  | _ => report operator (.incrementValueCount operator.lexeme)

def incrementProblems (keyword : Token) : Tokens → List (Located LoopFormProblem)
  | [] => report keyword .emptyIncrement
  | [first] => report first .incompleteIncrement
  | name :: operator :: rest =>
    if name.kind ≠ .identifier then report name (.incrementVariable name.lexeme)
    else if operator.isStep then stepProblems operator rest
    else if operator.isStepBy then stepByProblems operator rest
    else report operator (.incrementOperator operator.lexeme)

/-- A brace must open the body right behind the closing parenthesis. -/
def bodyProblems (e : Enclosed) : List (Located LoopFormProblem) :=
  if e.after[0]?.any (·.kind = .lbrace) then [] else report e.closer .missingBody

/-- The problems of the parts between the parentheses. -/
def clauseProblems (keyword : Token) (e : Enclosed) : List (Located LoopFormProblem) :=
  match ofEnclosed e with
  | .ok header =>
    initProblems keyword header.init ++ conditionProblems keyword header.condition ++
      incrementProblems keyword header.increment
  | .error _ => report keyword (.semicolonCount (Tokens.semicolonCount e.inside))

/-- The problems of the loop that the token `keyword` begins. -/
def formProblems (keyword : Token) (rest : Tokens) : List (Located LoopFormProblem) :=
  match rest.parenthesis? with
  | .ok e => clauseProblems keyword e ++ bodyProblems e
  | .error .notClosed => report keyword .missingCloseParen
  | .error _ => report keyword .missingOpenParen

end LoopHeader

namespace Tokens

def loopFormProblems (ts : Tokens) : List (Located LoopFormProblem) :=
  ts.survey fun _ t rest => if t.isKeyword "for" then LoopHeader.formProblems t rest else []

end Tokens

end LessonCheck
