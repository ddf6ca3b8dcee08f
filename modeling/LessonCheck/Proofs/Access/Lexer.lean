import LessonCheck.Caching.TextCache
import LessonCheck.Proofs.Access.Cursor

/-!
The lexer by offsets. It moves a cursor through the text, cuts every lexeme out between two offsets,
complains as it goes and keeps a second token back when one step has read two. Each slice and each
subtraction is a checked one.
-/

namespace LessonCheck

open Unicode Cut

structure Lexer where
  cursor : Cursor
  cache : TextCache
  /-- A token that has been read and not yet been handed out. -/
  pending : Option Token
  problems : List (Located LexicalProblem)

namespace Lexer

def start (cache : TextCache) (text : List Char) : Lexer := ⟨.start text, cache, none, []⟩

def moveTo (s : Lexer) (k : Cursor) : Lexer := { s with cursor := k }

def bump (s : Lexer) : Lexer := s.moveTo s.cursor.bump

def skipWhile (p : Char → Bool) (s : Lexer) : Lexer := s.moveTo (s.cursor.skipWhile p)

def keep (queue : Option Token) (s : Lexer) : Lexer := { s with pending := queue }

def complain (s : Lexer) (l : Location) (problem : LexicalProblem) : Lexer :=
  { s with problems := s.problems ++ [⟨l, problem⟩] }

/-- The token with this lexeme, which goes to the pool. -/
def intern (s : Lexer) (kind : Token.Kind) (lexeme : List Char) (l : Location) : Token × Lexer :=
  let (lexeme, cache) := s.cache.intern (String.ofList lexeme)
  (⟨kind, lexeme.text, l⟩, { s with cache })

section
variable (content : List Char)

/-- The token that begins at offset `first` and ends in front of the cursor. -/
def make (kind : Token.Kind) (first : Nat) (l : Location) (s : Lexer) :
    Checked (Token × Lexer) := do
  let lexeme ← sliceText content first s.cursor.offset
  return s.intern kind lexeme l

/-- The token `++` or `--`, once the cursor is behind it. -/
def readIncrement (sign : Char) (first : Nat) (l : Location) (s : Lexer) :
    Checked (Token × Lexer) := do
  let (t, s) ← make content .operator first l s
  match s.cursor.unread with
  | [] => return (t, s)
  | c :: _ =>
    if c = sign then
      let (single, behind) ← make content .operator s.cursor.offset s.cursor.location s.bump
      return (t, behind.keep (some single))
    else return (t, s)

def readOperator (c : Char) (first : Nat) (l : Location) (s : Lexer) : Checked (Token × Lexer) :=
  match s.cursor.unread with
  | [] => make content .operator first l s
  | d :: _ =>
    if c = d && ['+', '-'].contains c then readIncrement content c first l s.bump
    else if joins c d then make content .operator first l s.bump
    else make content .operator first l s

def readWord (first : Nat) (l : Location) (s : Lexer) : Checked (Token × Lexer) := do
  let s := s.skipWhile isWordChar
  let word ← sliceText content first s.cursor.offset
  make content (wordKind word) first l s

def readNumber (first : Nat) (l : Location) (s : Lexer) : Checked (Token × Lexer) :=
  let s := s.skipWhile Char.isDigit
  match s.cursor.unread with
  | '.' :: d :: _ =>
    if d.isDigit then make content .float first l (s.bump.skipWhile Char.isDigit)
    else make content .number first l s
  | _ => make content .number first l s

def readString (first : Nat) (l : Location) (s : Lexer) : Checked (Token × Lexer) :=
  match s.cursor.seek '"' (fun _ => false) with
  | (none, cursor) =>
    make content (.faulty .unterminatedString) first l
      ((s.moveTo cursor).complain l .unterminatedString)
  | (some close, cursor) => do
    let literal ← sliceText content (first + 1) close
    let (escapes, cache) := s.cache.invalidEscapes (String.ofList literal)
    let problems := s.problems ++ escapes.map fun e => ⟨l, .invalidEscape e⟩
    return { s.moveTo cursor with cache, problems }.intern .string literal l

def readChar (first : Nat) (l : Location) (s : Lexer) : Checked (Token × Lexer) := do
  let (close, cursor) := s.cursor.seek '\'' (· == '\n')
  let s := s.moveTo cursor
  let raw ← sliceText content first cursor.offset
  let last ← if close.isSome then Checked.difference cursor.offset 1 else pure cursor.offset
  let inside ← sliceText content (first + 1) last
  match close.isSome, inside with
  | true, [] => make content (.faulty .emptyChar) first l (s.complain l .emptyChar)
  | true, [c] => return s.intern .char [c] l
  | _, _ =>
    make content (.faulty .invalidChar) first l
      (s.complain l (.invalidChar (String.ofList raw)))

/-- The token that begins with `c` at offset `first`, once the cursor is behind that character. -/
def readToken (c : Char) (first : Nat) (l : Location) (s : Lexer) : Checked (Token × Lexer) :=
  if isOperatorChar c then readOperator content c first l s
  else match punctuation? c with
  | some kind => make content kind first l s
  | none =>
    if c = '"' then readString content first l s
    else if c = '\'' then readChar content first l s
    else if isWordStart c then readWord content first l s
    else if c.isDigit then readNumber content first l s
    else make content .unknown first l (s.complain l (.unrecognized (String.ofList [c])))

/-- The next token, if there is one. -/
def next (s : Lexer) : Checked (Option Token × Lexer) :=
  match s.pending with
  | some t => return (some t, s.keep none)
  | none => do
    let s := s.skipWhile isBlank
    match s.cursor.unread with
    | [] => return (none, s)
    | c :: _ =>
      let (t, s) ← readToken content c s.cursor.offset s.cursor.location s.bump
      return (some t, s)

/-- What the lexer still has to hand out is at most as much. -/
def size (s : Lexer) : Nat := s.cursor.unread.length + s.pending.toList.length

/-- All tokens up to the end of the text. -/
def run (s : Lexer) : Checked (Tokens × Lexer) :=
  match next content s with
  | .error fault => .error fault
  | .ok (none, s') => .ok ([], s')
  | .ok (some t, s') =>
    if s'.size < s.size then do
      let (ts, last) ← run s'
      return (t :: ts, last)
    else .error .noProgress
termination_by s.size

end

end Lexer

/-- Lexes a text by offsets, through the cache. -/
def TextCache.lexByOffset (cache : TextCache) (source : String) :
    Checked (LexedText × TextCache) := do
  let (tokens, s) ← Lexer.run source.toList (.start cache source.toList)
  return (⟨tokens, s.problems⟩, s.cache)

end LessonCheck
