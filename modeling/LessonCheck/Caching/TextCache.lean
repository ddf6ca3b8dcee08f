import LessonCheck.Caching.EscapeMemo
import LessonCheck.Caching.Pool
import LessonCheck.Lexing.Problem
import LessonCheck.Lexing.Tokens

/-!
The text support of a session: a pool for the lexemes and a memory for the escapes, both handed on
from one text to the next. Lexing goes through them, and `lex_eq` says that its result does not
depend on what they hold.
-/

namespace LessonCheck

/-- The tokens of a text and the complaints about them, both in reading order. -/
structure LexedText where
  tokens : Tokens
  problems : List (Located LexicalProblem)
  deriving DecidableEq

namespace LexedText

def append (a b : LexedText) : LexedText := ⟨a.tokens ++ b.tokens, a.problems ++ b.problems⟩

/-- The result for a single token. -/
def ofToken (t : Token) (escapes : List InvalidEscape) : LexedText :=
  ⟨[t], (LexicalProblem.ofToken escapes t).map (⟨t.location, ·⟩)⟩

/-- What is known of a text without any cache. -/
def ofText (source : String) : LexedText where
  tokens := Token.ofText source
  problems := (Token.ofText source).flatMap fun t =>
    (ofToken t (InvalidEscape.ofLiteral t.lexeme)).problems

end LexedText

structure TextCache where
  pool : Pool
  memo : EscapeMemo

namespace TextCache

def new (caching : Bool) : TextCache := ⟨.new caching, .new caching⟩

def intern (cache : TextCache) (text : String) : Interned × TextCache :=
  let (text, pool) := cache.pool.intern text
  (text, { cache with pool })

def invalidEscapes (cache : TextCache) (literal : String) :
    List InvalidEscape × TextCache :=
  let (escapes, memo) := cache.memo.invalidEscapes literal
  (escapes, { cache with memo })

/-- The number of texts in the pool. -/
def size (cache : TextCache) : Nat := cache.pool.size

/-- Takes a token in: its lexeme goes to the pool, and a string is looked through for escapes. -/
def takeIn (cache : TextCache) (t : Token) : LexedText × TextCache :=
  let (escapes, cache) := if t.kind = .string then cache.invalidEscapes t.lexeme else ([], cache)
  let (lexeme, cache) := cache.intern t.lexeme
  (.ofToken { t with lexeme := lexeme.text } escapes, cache)

def takeInAll (cache : TextCache) : Tokens → LexedText × TextCache
  | [] => (⟨[], []⟩, cache)
  | t :: ts =>
    let (first, cache) := cache.takeIn t
    let (others, cache) := cache.takeInAll ts
    (first.append others, cache)

def lex (cache : TextCache) (source : String) : LexedText × TextCache :=
  cache.takeInAll (Token.ofText source)

@[simp] theorem text_intern (cache : TextCache) (text : String) :
    (cache.intern text).1.text = text := by
  simp [intern]

@[simp] theorem fst_invalidEscapes (cache : TextCache) (literal : String) :
    (cache.invalidEscapes literal).1 = InvalidEscape.ofLiteral literal := by
  simp [invalidEscapes]

theorem fst_takeIn (cache : TextCache) (t : Token) :
    (cache.takeIn t).1 = .ofToken t (InvalidEscape.ofLiteral t.lexeme) := by
  by_cases h : t.kind = .string
  · simp only [takeIn, if_pos h, text_intern, fst_invalidEscapes]
  · have : ∀ escapes, LexicalProblem.ofToken escapes t =
        LexicalProblem.ofToken (InvalidEscape.ofLiteral t.lexeme) t := by
      intro escapes
      unfold LexicalProblem.ofToken
      split <;> simp_all
    simp [takeIn, h, LexedText.ofToken, this []]

/-- Lexing through a cache gives what lexing without one gives. -/
theorem lex_eq (cache : TextCache) (source : String) :
    (cache.lex source).1 = LexedText.ofText source := by
  have all : ∀ (ts : List Token) (cache : TextCache), (cache.takeInAll ts).1 =
      ⟨ts, ts.flatMap fun t =>
        (LexedText.ofToken t (InvalidEscape.ofLiteral t.lexeme)).problems⟩ := by
    intro ts
    induction ts with
    | nil => intro cache; rfl
    | cons t ts ih =>
      intro cache
      simp [takeInAll, fst_takeIn, ih, LexedText.append, LexedText.ofToken]
  exact all _ cache

end TextCache

end LessonCheck
