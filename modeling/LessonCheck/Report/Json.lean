import LessonCheck.Number.Digits

/-!
JSON values and their indented notation: two blanks a level, a space behind the colon, every item on
a line of its own, and `[]` for an empty list. Numbers are naturals, the only ones a report has.
-/

namespace LessonCheck

inductive Json
  | bool (value : Bool)
  | number (value : Nat)
  | text (value : String)
  | list (items : List Json)
  | object (fields : List (String × Json))

namespace Json

def hexDigit (n : Nat) : Char := Number.hexDigit 'a' n

/-- A character as it stands between quotes. Only quotes, backslashes and the control characters
below the blank are escaped. -/
def escapeChar (c : Char) : List Char :=
  match c with
  | '"' => ['\\', '"']
  | '\\' => ['\\', '\\']
  | '\n' => ['\\', 'n']
  | '\r' => ['\\', 'r']
  | '\t' => ['\\', 't']
  | '\x08' => ['\\', 'b']
  | '\x0c' => ['\\', 'f']
  | c =>
    if c.toNat < 0x20 then
      ['\\', 'u', '0', '0', hexDigit (c.toNat / 16), hexDigit (c.toNat % 16)]
    else [c]

def quote (text : String) : List Char := '"' :: text.toList.flatMap escapeChar ++ ['"']

/-- The start of a new line at a depth. -/
def indent (depth : Nat) : List Char := '\n' :: List.replicate (2 * depth) ' '

mutual

/-- The notation of a value that stands at a depth. -/
def write (depth : Nat) : Json → List Char
  | .bool b => if b then "true".toList else "false".toList
  | .number n => Nat.toDigits 10 n
  | .text s => quote s
  | .list [] => ['[', ']']
  | .list (item :: items) =>
    '[' :: indent (depth + 1) ++ write (depth + 1) item ++ writeItems (depth + 1) items ++
      indent depth ++ [']']
  | .object [] => ['{', '}']
  | .object ((key, value) :: fields) =>
    '{' :: indent (depth + 1) ++ quote key ++ [':', ' '] ++ write (depth + 1) value ++
      writeFields (depth + 1) fields ++ indent depth ++ ['}']

/-- The items behind the first one. -/
def writeItems (depth : Nat) : List Json → List Char
  | [] => []
  | item :: items => ',' :: indent depth ++ write depth item ++ writeItems depth items

/-- The fields behind the first one. -/
def writeFields (depth : Nat) : List (String × Json) → List Char
  | [] => []
  | (key, value) :: fields =>
    ',' :: indent depth ++ quote key ++ [':', ' '] ++ write depth value ++ writeFields depth fields

end

/-- The value as a text of its own. -/
def render (j : Json) : String := String.ofList (j.write 0)

end Json

end LessonCheck
