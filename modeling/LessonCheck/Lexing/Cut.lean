import LessonCheck.Lexing.Quoted
import LessonCheck.Token.Kind
import LessonCheck.Unicode.Alphabetic
import LessonCheck.Unicode.Numeric
import LessonCheck.Vocabulary

/-!
One step of the lexer. Given the first character of a token and the text behind it, a step says
which pieces it cuts off and what text is left. Every character of a piece comes from the text, so
a step loses nothing: `raw_append_rest` is the fact that the rest of the lexer rests on.
-/

namespace LessonCheck

open Unicode Vocabulary

/-- A token without its place. -/
structure Piece where
  kind : Token.Kind
  lexeme : List Char
  deriving DecidableEq

/-- The text that the piece was cut from: a whole string or char literal keeps its quotes there. -/
def Piece.raw (p : Piece) : List Char :=
  match p.kind with
  | .string => '"' :: p.lexeme ++ ['"']
  | .char => '\'' :: p.lexeme ++ ['\'']
  | _ => p.lexeme

structure Cut where
  pieces : List Piece
  rest : List Char
  deriving DecidableEq

namespace Cut

/-- A step that cuts a single piece. -/
def one (kind : Token.Kind) (lexeme rest : List Char) : Cut := ⟨[⟨kind, lexeme⟩], rest⟩

/-- All the text that the step took. -/
def raw (s : Cut) : List Char := s.pieces.flatMap Piece.raw

/-! ### Operators -/

def isOperatorChar (c : Char) : Bool :=
  ['+', '-', '*', '/', '<', '>', '=', '!', '&', '|'].contains c

/-- The two characters make one operator, `++` and `--` aside. -/
def joins (c d : Char) : Bool :=
  (d = '=' && ['+', '-', '*', '/', '<', '>', '=', '!'].contains c) ||
    (c = d && ['&', '|'].contains c)

/-- Behind `++` or `--` the same sign once more is an operator by itself, whatever follows it. -/
def increment (sign : Char) (text : List Char) : Cut :=
  match text with
  | [] => one .operator [sign, sign] []
  | c :: rest =>
    if c = sign then ⟨[⟨.operator, [sign, sign]⟩, ⟨.operator, [sign]⟩], rest⟩
    else one .operator [sign, sign] (c :: rest)

def operator (c : Char) (text : List Char) : Cut :=
  match text with
  | [] => one .operator [c] []
  | d :: rest =>
    if c = d && ['+', '-'].contains c then increment c rest
    else if joins c d then one .operator [c, d] rest
    else one .operator [c] (d :: rest)

/-! ### Punctuation, words and numbers -/

def punctuation? : Char → Option Token.Kind
  | ';' => some .semicolon
  | '(' => some .lparen
  | ')' => some .rparen
  | '{' => some .lbrace
  | '}' => some .rbrace
  | ',' => some .comma
  | '.' => some .dot
  | _ => none

def isWordStart (c : Char) : Bool := isAlphabetic c || c = '_'

def isWordChar (c : Char) : Bool := isAlphabetic c || isNumeric c || c = '_'

def wordKind (word : List Char) : Token.Kind :=
  if isKeyword (String.ofList word) then .keyword else .identifier

def word (c : Char) (text : List Char) : Cut :=
  let lexeme := c :: text.takeWhile isWordChar
  one (wordKind lexeme) lexeme (text.dropWhile isWordChar)

/-- A point belongs to a number only when a digit follows it. -/
def number (c : Char) (text : List Char) : Cut :=
  let digits := c :: text.takeWhile Char.isDigit
  match text.dropWhile Char.isDigit with
  | '.' :: d :: rest =>
    if d.isDigit then
      one .float (digits ++ '.' :: d :: rest.takeWhile Char.isDigit) (rest.dropWhile Char.isDigit)
    else one .number digits ('.' :: d :: rest)
  | rest => one .number digits rest

/-! ### Literals in quotes -/

/-- A string goes on over line ends; without a closing quote it takes the whole text. -/
def string (text : List Char) : Cut :=
  let q := Quoted.scan '"' (fun _ => false) text
  if q.closed then one .string q.inside q.rest
  else one (.faulty .unterminatedString) ('"' :: q.inside) q.rest

/-- A char literal stays on its line and holds exactly one character. -/
def char (text : List Char) : Cut :=
  let q := Quoted.scan '\'' (· == '\n') text
  match q.closed, q.inside with
  | true, [] => one (.faulty .emptyChar) ['\'', '\''] q.rest
  | true, [c] => one .char [c] q.rest
  | _, _ => one (.faulty .invalidChar) ('\'' :: q.raw '\'') q.rest

/-! ### All kinds -/

/-- The step at a character that is not blank. -/
def ofText (c : Char) (text : List Char) : Cut :=
  if isOperatorChar c then operator c text
  else match punctuation? c with
  | some kind => one kind [c] text
  | none =>
    if c = '"' then string text
    else if c = '\'' then char text
    else if isWordStart c then word c text
    else if c.isDigit then number c text
    else one .unknown [c] text

@[simp] theorem raw_one (kind : Token.Kind) (lexeme rest : List Char) :
    (one kind lexeme rest).raw = (⟨kind, lexeme⟩ : Piece).raw := by
  simp [raw, one]

@[simp] theorem rest_one (kind : Token.Kind) (lexeme rest : List Char) :
    (one kind lexeme rest).rest = rest := rfl

theorem raw_append_rest_increment (sign : Char) (text : List Char) :
    (increment sign text).raw ++ (increment sign text).rest = sign :: sign :: text := by
  unfold increment
  split
  · rfl
  · split
    · next h => subst h; rfl
    · rfl

theorem raw_append_rest_operator (c : Char) (text : List Char) :
    (operator c text).raw ++ (operator c text).rest = c :: text := by
  unfold operator
  split
  · rfl
  · next d rest =>
    split
    · next h =>
      rw [raw_append_rest_increment]
      simp only [Bool.and_eq_true, decide_eq_true_eq] at h
      rw [h.1]
    · split <;> rfl

theorem raw_append_rest_word (c : Char) (text : List Char) :
    (word c text).raw ++ (word c text).rest = c :: text := by
  have h : ∀ l, (⟨wordKind l, l⟩ : Piece).raw = l := by
    intro l
    by_cases hk : isKeyword (String.ofList l) <;> simp [Piece.raw, wordKind, hk]
  simp [word, h, List.takeWhile_append_dropWhile]

theorem raw_append_rest_number (c : Char) (text : List Char) :
    (number c text).raw ++ (number c text).rest = c :: text := by
  have split_digits : ∀ l : List Char, l.takeWhile Char.isDigit ++ l.dropWhile Char.isDigit = l :=
    fun l => List.takeWhile_append_dropWhile
  unfold number
  split
  · next d rest h =>
    split
    · simp only [raw_one, Piece.raw, rest_one, List.append_assoc, List.cons_append, split_digits]
      rw [← h, split_digits]
    · simp only [raw_one, Piece.raw, rest_one, List.cons_append]
      rw [← h, split_digits]
  · simp only [raw_one, Piece.raw, rest_one, List.cons_append, split_digits]

theorem raw_append_rest_string (text : List Char) :
    (string text).raw ++ (string text).rest = '"' :: text := by
  have h := Quoted.raw_append_rest '"' (fun _ => false) text
  unfold string
  cases hc : (Quoted.scan '"' (fun _ => false) text).closed
  · simpa [Piece.raw, Quoted.raw, hc] using h
  · simpa [Piece.raw, Quoted.raw, hc] using h

theorem raw_append_rest_char (text : List Char) :
    (char text).raw ++ (char text).rest = '\'' :: text := by
  have h := Quoted.raw_append_rest '\'' (· == '\n') text
  unfold char
  simp only
  split
  · next hc hi => simpa [Piece.raw, Quoted.raw, hc, hi] using h
  · next c hc hi => simpa [Piece.raw, Quoted.raw, hc, hi] using h
  · simpa [Piece.raw] using h

/-- A step loses nothing of the text and adds nothing to it. -/
theorem raw_append_rest (c : Char) (text : List Char) :
    (ofText c text).raw ++ (ofText c text).rest = c :: text := by
  unfold ofText
  split
  · exact raw_append_rest_operator c text
  · split
    · next kind h =>
      have : (⟨kind, [c]⟩ : Piece).raw = [c] := by
        unfold punctuation? at h
        split at h <;> cases h <;> rfl
      simp [this]
    · split
      · next h => subst h; exact raw_append_rest_string text
      · split
        · next h => subst h; exact raw_append_rest_char text
        · split
          · exact raw_append_rest_word c text
          · split
            · exact raw_append_rest_number c text
            · rfl

end Cut

end LessonCheck
