/-!
The kinds of token. A literal that is broken off or holds the wrong number of characters is a token
too, of a kind that names the fault.
-/

namespace LessonCheck

inductive LiteralFault
  | unterminatedString
  | emptyChar
  | invalidChar
  deriving DecidableEq

inductive Token.Kind
  | identifier
  | keyword
  | number
  | float
  | string
  | char
  | operator
  | semicolon
  | lparen
  | rparen
  | lbrace
  | rbrace
  | comma
  | dot
  | faulty (fault : LiteralFault)
  | unknown
  deriving DecidableEq

namespace Token.Kind

/-- The word for the kind in messages; all faulty literals share one. -/
def name : Token.Kind → String
  | .identifier => "identifier"
  | .keyword => "keyword"
  | .number => "number"
  | .float => "float"
  | .string => "string"
  | .char => "char"
  | .operator => "operator"
  | .semicolon => "semicolon"
  | .lparen => "lparen"
  | .rparen => "rparen"
  | .lbrace => "lbrace"
  | .rbrace => "rbrace"
  | .comma => "comma"
  | .dot => "dot"
  | .faulty _ => "error"
  | .unknown => "unknown"

/-- A single token of such a kind can stand where a value is expected. -/
def isValue : Token.Kind → Bool
  | .identifier | .number | .float | .string | .char => true
  | _ => false

def isFaulty : Token.Kind → Bool
  | .faulty _ => true
  | _ => false

end Token.Kind

end LessonCheck
