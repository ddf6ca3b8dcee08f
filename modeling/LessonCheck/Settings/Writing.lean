import LessonCheck.Settings.Reading

/-!
Settings written as a document, every key on a line of its own. A character is written between
double quotes where it can stand there; a double quote or a backslash goes between single quotes, a
line feed into a block, and the other control characters are escaped.
-/

namespace LessonCheck.Settings

def hexDigit (n : Nat) : Char := Number.hexDigit 'A' n

/-- The escape of an ASCII control character. -/
def escapeControl (c : Char) : List Char :=
  match c with
  | '\x08' => ['\\', 'b']
  | '\t' => ['\\', 't']
  | '\x0c' => ['\\', 'f']
  | '\r' => ['\\', 'r']
  | _ => ['\\', 'u', '0', '0', hexDigit (c.toNat / 16), hexDigit (c.toNat % 16)]

/-- The notation of a text of one character. -/
def writeChar (c : Char) : List Char :=
  if c = '"' || c = '\\' then ['\'', c, '\'']
  else if c = '\n' then ['"', '"', '"', '\n', '\n', '"', '"', '"']
  else if isControl c || c = '\t' then '"' :: escapeControl c ++ ['"']
  else ['"', c, '"']

def writeBool (b : Bool) : List Char := if b then "true".toList else "false".toList

def writeLine (key : String) (value : List Char) : List Char :=
  key.toList ++ " = ".toList ++ value ++ ['\n']

/-- The settings as a document that `ofDocument` reads. -/
def toDocument (s : Settings) : String :=
  String.ofList (
    writeLine charRangeKey (writeBool s.checkCharRange) ++
    writeLine firstCharKey (writeChar s.charRange.first) ++
    writeLine lastCharKey (writeChar s.charRange.last) ++
    writeLine stringMethodsKey (writeBool s.checkStringMethods) ++
    writeLine internKey (writeBool s.internLiterals))

end LessonCheck.Settings
