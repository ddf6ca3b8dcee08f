import LessonCheck.Number.Decimal
import LessonCheck.Token.Basic
import LessonCheck.Vocabulary

/-!
Literal values and the rule that ties them to declared types: a type takes the tokens of its literal
kind whose text can be read, and a boolean takes the words `true` and `false`.
-/

namespace LessonCheck

inductive Literal
  | int (value : Int)
  | float (value : Binary64)
  | char (value : Char)
  | str (value : String)
  | bool (value : Bool)
  deriving DecidableEq

inductive TypeClash
  | wrongKind (name : String) (declared : VariableType) (found : Token.Kind) (value : String)
  | unreadable (declared : VariableType) (value : String)
  | notBoolean (name value : String)
  | wrongType (name : String) (declared : VariableType) (sourceName : String)
      (sourceType : VariableType)
  deriving DecidableEq

namespace TypeClash

def message : TypeClash → String
  | .wrongKind name declared found value =>
    "cannot assign " ++ found.name ++ " '" ++ value ++ "' to " ++ declared.word ++ " variable '" ++
      name ++ "'"
  | .unreadable declared value => "value '" ++ value ++ "' is not a valid " ++ declared.word
  | .notBoolean name value =>
    "expected true or false for boolean variable '" ++ name ++ "', found '" ++ value ++ "'"
  | .wrongType name declared sourceName sourceType =>
    "cannot assign " ++ sourceType.word ++ " variable '" ++ sourceName ++ "' to " ++
      declared.word ++ " variable '" ++ name ++ "'"

end TypeClash

namespace Literal

/-- The value as it is shown, without escapes. -/
def text : Literal → String
  | .int n => n.repr
  | .float x => x.text
  | .char c => String.ofList ['\'', c, '\'']
  | .str s => "\"" ++ s ++ "\""
  | .bool b => if b then "true" else "false"

/-- Reads the text of a token as a literal of the type. -/
def read? (declared : VariableType) (text : String) : Option Literal :=
  match declared with
  | .int | .byte | .short | .long => (Number.integer? text).map .int
  | .float | .double => (Binary64.ofText? text).map .float
  | .char =>
    match text.toList with
    | [c] => some (.char c)
    | _ => none
  | .string => some (.str text)
  | .boolean =>
    if text == "true" then some (.bool true)
    else if text == "false" then some (.bool false)
    else none

/-- The value of a token that is given to the variable `name`. -/
def ofToken (name : String) (declared : VariableType) (value : Token) :
    Except TypeClash Literal :=
  if value.kind = declared.literalKind then
    match read? declared value.lexeme with
    | some literal => .ok literal
    | none =>
      .error (if declared = .boolean then .notBoolean name value.lexeme
        else .unreadable declared value.lexeme)
  else
    .error (if declared = .boolean then .notBoolean name value.lexeme
      else .wrongKind name declared value.kind value.lexeme)

end Literal

namespace Token

/-- The token names a variable, declared or not. -/
def isReference (t : Token) : Bool :=
  t.kind = .identifier && !Vocabulary.isReserved t.lexeme

theorem kind_of_isReference {t : Token} (h : t.isReference = true) : t.kind = .identifier := by
  simp only [isReference, Bool.and_eq_true, decide_eq_true_eq] at h
  exact h.1

end Token

end LessonCheck
