import LessonCheck.Token.View

/-!
The header of a `for` loop: a parenthesis with exactly two semicolons in it, which part it into
initialization, condition and increment. Semicolons count wherever they stand, also inside further
parentheses.
-/

namespace LessonCheck

/-- The three parts of a loop header, with the parenthesis that closes it and what follows. -/
structure LoopHeader where
  init : Tokens
  condition : Tokens
  increment : Tokens
  closer : Token
  after : Tokens
  deriving DecidableEq

inductive HeaderFault
  | notOpened
  | notClosed
  | semicolons (count : Nat)
  deriving DecidableEq

namespace Tokens

/-- The parts between the semicolons, one more than there are semicolons. -/
def clauses : Tokens → List Tokens
  | [] => [[]]
  | t :: ts =>
    if t.kind = .semicolon then [] :: clauses ts
    else match clauses ts with
      | [] => [[t]]
      | part :: parts => (t :: part) :: parts

def semicolonCount (ts : Tokens) : Nat := ts.countP (·.kind = .semicolon)

theorem length_clauses (ts : Tokens) : (clauses ts).length = ts.semicolonCount + 1 := by
  induction ts with
  | nil => rfl
  | cons t ts ih =>
    unfold clauses
    split
    · next h => simp [ih, semicolonCount, h]
    · next h =>
      split
      · next hc => simp [hc] at ih
      · next hc => simpa [hc, semicolonCount, h] using ih

/-- The parenthesis that follows a `for`. -/
def parenthesis? : Tokens → Except HeaderFault Enclosed
  | [] => .error .notOpened
  | t :: rest =>
    if t.kind = .lparen then
      match Enclosed.ofTokens? rest with
      | some e => .ok e
      | none => .error .notClosed
    else .error .notOpened

/-- The positions of the `for` keywords. -/
def loopKeywords (ts : Tokens) : List Nat :=
  (ts.zipIdx.filter (·.1.isKeyword "for")).map (·.2)

end Tokens

namespace LoopHeader

def ofEnclosed (e : Enclosed) : Except HeaderFault LoopHeader :=
  match Tokens.clauses e.inside with
  | [init, condition, increment] => .ok ⟨init, condition, increment, e.closer, e.after⟩
  | _ => .error (.semicolons (Tokens.semicolonCount e.inside))

/-- The header at the front of the tokens that follow a `for`. -/
def ofTokens (ts : Tokens) : Except HeaderFault LoopHeader := do
  ofEnclosed (← ts.parenthesis?)

end LoopHeader

/-- A stretch of token positions, the end excluded. -/
structure Span where
  first : Nat
  last : Nat
  deriving DecidableEq

/-- Where the parts of a header stand in the token list. -/
structure HeaderLayout where
  keyword : Nat
  opener : Nat
  closer : Nat
  init : Span
  condition : Span
  increment : Span
  deriving DecidableEq

namespace LoopHeader

/-- The places of the parts, for the header behind token number `keyword`. -/
def layout (h : LoopHeader) (keyword : Nat) : HeaderLayout :=
  let init := keyword + 2
  let condition := init + h.init.length + 1
  let increment := condition + h.condition.length + 1
  let closer := increment + h.increment.length
  { keyword, opener := keyword + 1, closer
    init := ⟨init, condition - 1⟩
    condition := ⟨condition, increment - 1⟩
    increment := ⟨increment, closer⟩ }

end LoopHeader

/-- The places of the header parts behind token number `i`, which need not hold a `for`. -/
def Tokens.headerLayout (ts : Tokens) (i : Nat) : Except HeaderFault HeaderLayout :=
  (LoopHeader.ofTokens (ts.drop (i + 1))).map (·.layout i)

end LessonCheck
