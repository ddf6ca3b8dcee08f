import LessonCheck.Token.Basic

/-!
Matching parentheses. Behind an opening parenthesis, the tokens are split at the closing one that
belongs to it; parentheses opened in between take their own closers along.
-/

namespace LessonCheck

/-- The tokens behind an opening parenthesis, split at its closer. -/
structure Enclosed where
  inside : List Token
  closer : Token
  after : List Token
  deriving DecidableEq

namespace Enclosed

def prepend (t : Token) (e : Enclosed) : Enclosed := { e with inside := t :: e.inside }

/-- Splits the tokens at the closer of the outermost of `depth + 1` open parentheses. -/
def atDepth? (depth : Nat) : List Token → Option Enclosed
  | [] => none
  | t :: ts =>
    match t.kind, depth with
    | .rparen, 0 => some ⟨[], t, ts⟩
    | .rparen, depth + 1 => (atDepth? depth ts).map (prepend t)
    | .lparen, depth => (atDepth? (depth + 1) ts).map (prepend t)
    | _, depth => (atDepth? depth ts).map (prepend t)

/-- Splits the tokens behind an opening parenthesis; `none` when it never closes. -/
def ofTokens? (ts : List Token) : Option Enclosed := atDepth? 0 ts

theorem eq_of_atDepth? {depth : Nat} {ts : List Token} {e : Enclosed}
    (h : atDepth? depth ts = some e) : ts = e.inside ++ e.closer :: e.after := by
  induction ts generalizing depth e with
  | nil => simp [atDepth?] at h
  | cons t ts ih =>
    unfold atDepth? at h
    split at h
    · cases h
      rfl
    all_goals
      obtain ⟨inner, hi, rfl⟩ := Option.map_eq_some_iff.mp h
      simp [prepend, ih hi]

/-- The parts make up the tokens that were split. -/
theorem eq_of_ofTokens? {ts : List Token} {e : Enclosed} (h : ofTokens? ts = some e) :
    ts = e.inside ++ e.closer :: e.after :=
  eq_of_atDepth? h

end Enclosed

end LessonCheck
