import LessonCheck.Diagnostic
import LessonCheck.Token.View

/-!
Brackets. Parentheses and braces are matched separately, so `( { ) }` has no fault. A closer with no
opener waiting is reported where it stands and then forgotten; the openers still waiting at the end
follow, parentheses before braces, each in reading order. The matching itself works on anything that
has a token kind, which lets a proof run it on tokens with their positions.
-/

namespace LessonCheck

inductive Bracket
  | paren
  | brace
  deriving DecidableEq

namespace Bracket

def opener : Bracket → String
  | .paren => "("
  | .brace => "\x7b"

def closer : Bracket → String
  | .paren => ")"
  | .brace => "\x7d"

/-- The bracket that a token of this kind opens. -/
def openedBy? : Token.Kind → Option Bracket
  | .lparen => some .paren
  | .lbrace => some .brace
  | _ => none

def closedBy? : Token.Kind → Option Bracket
  | .rparen => some .paren
  | .rbrace => some .brace
  | _ => none

end Bracket

inductive BracketProblem
  | unmatchedCloser (bracket : Bracket)
  | unmatchedOpener (bracket : Bracket)
  deriving DecidableEq

namespace BracketProblem

def message : BracketProblem → String
  | .unmatchedCloser b => "unmatched closing '" ++ b.closer ++ "'"
  | .unmatchedOpener b => "unmatched opening '" ++ b.opener ++ "'"

instance : Described BracketProblem := ⟨message⟩

end BracketProblem

/-- The openers that wait for their closers, and the closers met with none waiting, all with the
latest first. -/
structure Nesting (α : Type) where
  parens : List α
  braces : List α
  strays : List (α × Bracket)

namespace Nesting

variable {α : Type}

def empty : Nesting α := ⟨[], [], []⟩

def waiting (n : Nesting α) : Bracket → List α
  | .paren => n.parens
  | .brace => n.braces

def setWaiting (n : Nesting α) (b : Bracket) (openers : List α) : Nesting α :=
  match b with
  | .paren => { n with parens := openers }
  | .brace => { n with braces := openers }

/-- Takes one more item in. -/
def read (kind : α → Token.Kind) (n : Nesting α) (x : α) : Nesting α :=
  match Bracket.openedBy? (kind x), Bracket.closedBy? (kind x) with
  | some b, _ => n.setWaiting b (x :: n.waiting b)
  | none, some b =>
    match n.waiting b with
    | [] => { n with strays := (x, b) :: n.strays }
    | _ :: openers => n.setWaiting b openers
  | none, none => n

def readAll (kind : α → Token.Kind) (n : Nesting α) (xs : List α) : Nesting α :=
  xs.foldl (read kind) n

/-- The unmatched brackets once everything has been read. -/
def unmatched (n : Nesting α) : List (α × BracketProblem) :=
  n.strays.reverse.map (fun s => (s.1, .unmatchedCloser s.2)) ++
    n.parens.reverse.map (·, .unmatchedOpener .paren) ++
    n.braces.reverse.map (·, .unmatchedOpener .brace)

end Nesting

namespace Tokens

def bracketProblems (ts : Tokens) : List (Located BracketProblem) :=
  ((Nesting.empty.readAll Token.kind ts).unmatched).map fun u => ⟨u.1.location, u.2⟩

end Tokens

end LessonCheck
