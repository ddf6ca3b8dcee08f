import LessonCheck.VariableType
import LessonCheck.Location

/-!
Tokens. The lexeme of a string or char literal is what stands between its quotes; of every other
token it is the text itself.
-/

namespace LessonCheck

structure Token where
  kind : Token.Kind
  lexeme : String
  location : Location
  deriving DecidableEq

namespace Token

def isOperator (t : Token) (symbol : String) : Bool :=
  t.kind = .operator && t.lexeme == symbol

/-- An identifier with this text. -/
def isName (t : Token) (word : String) : Bool :=
  t.kind = .identifier && t.lexeme == word

def isKeyword (t : Token) (word : String) : Bool :=
  t.kind = .keyword && t.lexeme == word

/-- The type that a type keyword names. -/
def typeNamed? (t : Token) : Option VariableType :=
  if t.kind = .keyword then VariableType.ofWord? t.lexeme else none

def isTypeKeyword (t : Token) : Bool := t.typeNamed?.isSome

theorem kind_of_isOperator {t : Token} {w : String} (h : t.isOperator w = true) :
    t.kind = .operator := by
  simp only [isOperator, Bool.and_eq_true, decide_eq_true_eq] at h
  exact h.1

theorem kind_of_isKeyword {t : Token} {w : String} (h : t.isKeyword w = true) :
    t.kind = .keyword := by
  simp only [isKeyword, Bool.and_eq_true, decide_eq_true_eq] at h
  exact h.1

theorem kind_of_typeNamed? {t : Token} {d : VariableType} (h : t.typeNamed? = some d) :
    t.kind = .keyword := by
  unfold typeNamed? at h
  split at h
  · assumption
  · cases h

theorem typeNamed?_of_ne {t : Token} (h : t.kind ≠ .keyword) : t.typeNamed? = none := by
  simp [typeNamed?, h]

/-- The text of the source that the token stands for. -/
def raw (t : Token) : List Char :=
  match t.kind with
  | .string => '"' :: t.lexeme.toList ++ ['"']
  | .char => '\'' :: t.lexeme.toList ++ ['\'']
  | _ => t.lexeme.toList

end Token

/-- The tokens of a program, in reading order. -/
abbrev Tokens := List Token

end LessonCheck
