/-!
Escape sequences inside a string literal. A backslash and the character behind it form a sequence;
reading goes from the left, so the second of two backslashes starts no sequence of its own.
-/

namespace LessonCheck

/-- The characters that may follow a backslash. -/
def legalEscapes : List Char := ['n', 't', 'r', '\\', '"', '\'']

/-- A backslash in front of a character that it does not go with. -/
structure InvalidEscape where
  escaped : Char
  /-- How many characters of the literal stand before the backslash. -/
  offset : Nat
  deriving DecidableEq

namespace InvalidEscape

/-- The sequence as it stands in the source. -/
def sequence (e : InvalidEscape) : String := String.ofList ['\\', e.escaped]

/-- The illegal sequences of a text that has `offset` characters before it. A backslash at the very
end has nothing to go with and is none. -/
def scan (offset : Nat) : List Char → List InvalidEscape
  | [] => []
  | '\\' :: c :: text =>
    if legalEscapes.contains c then scan (offset + 2) text
    else ⟨c, offset⟩ :: scan (offset + 2) text
  | _ :: text => scan (offset + 1) text

/-- The illegal sequences of a literal, given what stands between its quotes. -/
def ofLiteral (literal : String) : List InvalidEscape := scan 0 literal.toList

end InvalidEscape

end LessonCheck
