import LessonCheck.Token.Kind

/-!
The types that a variable can be declared with.
-/

namespace LessonCheck

inductive VariableType
  | int
  | char
  | float
  | double
  | string
  | boolean
  | byte
  | short
  | long
  deriving DecidableEq

namespace VariableType

/-- The keyword that names the type in a program. -/
def word : VariableType → String
  | .int => "int"
  | .char => "char"
  | .float => "float"
  | .double => "double"
  | .string => "String"
  | .boolean => "boolean"
  | .byte => "byte"
  | .short => "short"
  | .long => "long"

def all : List VariableType :=
  [.int, .char, .float, .double, .string, .boolean, .byte, .short, .long]

def ofWord? (word : String) : Option VariableType :=
  all.find? (·.word == word)

theorem ofWord?_word (t : VariableType) : ofWord? t.word = some t := by
  cases t <;> decide

theorem word_of_ofWord? {w : String} {t : VariableType} (h : ofWord? w = some t) : t.word = w := by
  simpa using List.find?_some h

/-- The kind of token that a literal of the type has. -/
def literalKind : VariableType → Token.Kind
  | .int | .byte | .short | .long => .number
  | .float | .double => .float
  | .char => .char
  | .string => .string
  | .boolean => .identifier

def isIntegral (t : VariableType) : Bool := t.literalKind = .number

def isNumeric (t : VariableType) : Bool :=
  t.literalKind = .number || t.literalKind = .float

/-- The place of a numeric type in the order of widening. -/
def rank? : VariableType → Option Nat
  | .byte => some 0
  | .short => some 1
  | .int => some 2
  | .long => some 3
  | .float => some 4
  | .double => some 5
  | .char | .string | .boolean => none

/-- A variable of type `source` may be stored in one of type `target`: numbers only widen, and any
other type goes with itself alone. -/
def accepts (target source : VariableType) : Bool :=
  match target.rank?, source.rank? with
  | some t, some s => s ≤ t
  | _, _ => target = source

/-- Two variables of these types can stand on the two sides of a comparison. -/
def comparesWith (left right : VariableType) : Bool :=
  left = right || (left.isNumeric && right.isNumeric)

end VariableType

end LessonCheck
