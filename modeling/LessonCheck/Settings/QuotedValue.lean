import LessonCheck.Lexing.Quoted
import LessonCheck.Number.Digits

/-!
The four notations of a text value. Between single quotes a text stands as it is, between double
quotes a backslash begins an escape; three quotes of either sort enclose a block, which may have
several lines and drops a line end right behind its opening. No control character but the tab, and
in a block the line end, may stand in the notation itself.
-/

namespace LessonCheck.Settings

def isSpace (c : Char) : Bool := c = ' ' || c = '\t'

/-- The control characters of ASCII that must not stand in a document, line ends among them. -/
def isControl (c : Char) : Bool := (c.toNat < 0x20 && c ≠ '\t') || c.toNat = 0x7F

/-! ### Escapes -/

/-- The character that a backslash and `c` stand for. -/
def shortEscape? (c : Char) : Option Char :=
  match c with
  | 'b' => some '\x08'
  | 't' => some '\t'
  | 'n' => some '\n'
  | 'f' => some '\x0c'
  | 'r' => some '\r'
  | '"' => some '"'
  | '\\' => some '\\'
  | _ => none

/-- A backslash stands at the end of its line, blanks aside. -/
def endsLine (text : List Char) : Bool := (text.dropWhile isSpace).head? = some '\n'

/-- Resolves the escapes of a text. A backslash at the end of a line takes all blanks and line ends
behind it away; `trimming` says that such a stretch is being passed. -/
def unescape? (trimming : Bool) : List Char → Option (List Char)
  | [] => some []
  | '\\' :: 'u' :: a :: b :: c :: d :: text =>
    (Number.hexChar? [a, b, c, d]).bind fun x => (unescape? false text).map (x :: ·)
  | '\\' :: 'U' :: a :: b :: c :: d :: e :: f :: g :: h :: text =>
    (Number.hexChar? [a, b, c, d, e, f, g, h]).bind fun x => (unescape? false text).map (x :: ·)
  | '\\' :: c :: text =>
    if endsLine (c :: text) then unescape? true (c :: text)
    else (shortEscape? c).bind fun x => (unescape? false text).map (x :: ·)
  -- A backslash that gets here has nothing behind it.
  | c :: text =>
    if c = '\\' then none
    else if trimming && (isSpace c || c = '\n') then unescape? true text
    else (unescape? false text).map (c :: ·)

/-! ### Notations on one line -/

/-- Reads a text up to the closing double quote. -/
def basic? (text : List Char) : Option (List Char × List Char) :=
  let q := Quoted.scan '"' isControl text
  if q.closed then (unescape? false q.inside).map (·, q.rest) else none

/-- Reads a text up to the closing single quote. -/
def literal? : List Char → Option (List Char × List Char)
  | [] => none
  | c :: text =>
    if c = '\'' then some ([], text)
    else if isControl c then none
    else (literal? text).map fun r => (c :: r.1, r.2)

/-! ### Blocks -/

/-- Up to two quotes more than the closing three belong to the text. -/
def blockEnd? (quote : Char) (rest : List Char) : Option (List Char × List Char) :=
  let extra := rest.takeWhile (· = quote)
  if extra.length ≤ 2 then some (extra, rest.dropWhile (· = quote)) else none

def startsWithQuotes (quote : Char) (text : List Char) : Bool :=
  text.take 3 = [quote, quote, quote]

/-- Reads a block up to its closing quotes; its escapes, if it has any, stay as they are. -/
def block? (quote : Char) : List Char → Option (List Char × List Char)
  | [] => none
  | c :: text =>
    if startsWithQuotes quote (c :: text) then blockEnd? quote (text.drop 2)
    else if isControl c && c ≠ '\n' then none
    else if quote = '"' && c = '\\' then
      match text with
      | [] => none
      | d :: text => (block? quote text).map fun r => (c :: d :: r.1, r.2)
    else (block? quote text).map fun r => (c :: r.1, r.2)

def dropLineEnd : List Char → List Char
  | '\n' :: text => text
  | text => text

def literalBlock? (text : List Char) : Option (List Char × List Char) :=
  block? '\'' (dropLineEnd text)

def basicBlock? (text : List Char) : Option (List Char × List Char) :=
  (block? '"' (dropLineEnd text)).bind fun r => (unescape? false r.1).map (·, r.2)

/-- Reads a text in any notation. -/
def text? (text : List Char) : Option (List Char × List Char) :=
  if startsWithQuotes '"' text then basicBlock? (text.drop 3)
  else if startsWithQuotes '\'' text then literalBlock? (text.drop 3)
  else match text with
    | '"' :: rest => basic? rest
    | '\'' :: rest => literal? rest
    | _ => none

end LessonCheck.Settings
