import LessonCheck.Diagnostic
import LessonCheck.Lexing.Escape
import LessonCheck.Token.Basic

/-!
What the lexer complains about. Every complaint belongs to one token and stands at its place.
-/

namespace LessonCheck

inductive LexicalProblem
  | unterminatedString
  | invalidEscape (escape : InvalidEscape)
  | emptyChar
  | invalidChar (raw : String)
  | unrecognized (text : String)
  deriving DecidableEq

namespace LexicalProblem

def message : LexicalProblem → String
  | .unterminatedString => "unterminated string literal, missing closing '\"'"
  | .invalidEscape e => "illegal escape sequence '" ++ e.sequence ++ "' in string literal"
  | .emptyChar => "empty char literal"
  | .invalidChar raw => "invalid char literal " ++ raw ++ ", expected exactly one character"
  | .unrecognized text => "unrecognized character '" ++ text ++ "'"

instance : Described LexicalProblem := ⟨message⟩

/-- The complaints about a token whose illegal escapes, if it is a string, are given. -/
def ofToken (escapes : List InvalidEscape) (t : Token) : List LexicalProblem :=
  match t.kind with
  | .faulty .unterminatedString => [.unterminatedString]
  | .faulty .emptyChar => [.emptyChar]
  | .faulty .invalidChar => [.invalidChar t.lexeme]
  | .unknown => [.unrecognized t.lexeme]
  | .string => escapes.map .invalidEscape
  | _ => []

end LexicalProblem

end LessonCheck
