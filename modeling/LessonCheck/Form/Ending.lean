import LessonCheck.Diagnostic
import LessonCheck.Form.OutputCall

/-!
Statement ends. A declaration, an assignment and a print call need a semicolon. For the first two,
the statement is followed to the first token that ends it or begins something new; a print call
needs its semicolon right behind the closing parenthesis.
-/

namespace LessonCheck

inductive EndingProblem
  | declaration
  | assignment (name : String)
  | printCall (name : String)
  deriving DecidableEq

namespace EndingProblem

def message : EndingProblem → String
  | .declaration => "missing ';' after variable declaration"
  | .assignment name => "missing ';' after assignment to '" ++ name ++ "'"
  | .printCall name => "missing ';' after " ++ name ++ " statement"

instance : Described EndingProblem := ⟨message⟩

end EndingProblem

/-- How the tokens of a statement run out. -/
inductive StatementEnd
  | semicolon
  /-- A keyword or a brace begins something new first. -/
  | newStart
  | endOfText
  deriving DecidableEq

namespace StatementEnd

def ofTokens : Tokens → StatementEnd
  | [] => .endOfText
  | t :: rest =>
    match t.kind with
    | .semicolon => .semicolon
    | .keyword | .lbrace | .rbrace => .newStart
    | _ => ofTokens rest

end StatementEnd

namespace Tokens

/-- There is something left of the statement, and no semicolon ends it. -/
def isUnended (ts : Tokens) : Bool :=
  !ts.isEmpty && StatementEnd.ofTokens ts ≠ .semicolon

/-- The missing semicolon of a print call that begins at `t`. -/
def printEnding (before : Option Token) (t : Token) (rest : Tokens) :
    List (Located EndingProblem) :=
  match OutputCall.at? before t rest with
  | none => []
  | some call =>
    match call.arguments with
    | none => []
    | some e =>
      if e.after[0]?.any (·.kind = .semicolon) then []
      else [⟨call.method.location, .printCall call.name⟩]

/-- The missing semicolon of a declaration or assignment that begins at `t`. An assignment that
belongs to a declaration is left to it. -/
def statementEnding (before : Option Token) (t : Token) (rest : Tokens) :
    List (Located EndingProblem) :=
  if t.isTypeKeyword then
    if rest.isUnended then [⟨t.location, .declaration⟩] else []
  else if t.kind = .identifier && rest[0]?.any (·.isOperator "=") &&
      !before.any Token.isTypeKeyword then
    if isUnended (rest.drop 1) then [⟨t.location, .assignment t.lexeme⟩] else []
  else []

def endingProblems (ts : Tokens) : List (Located EndingProblem) :=
  ts.survey fun before t rest => printEnding before t rest ++ statementEnding before t rest

end Tokens

end LessonCheck
