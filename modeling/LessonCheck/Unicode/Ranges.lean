/-!
Sets of characters given as lists of code point ranges, the form in which character properties are
published.
-/

namespace LessonCheck.Unicode

/-- The code points from `first` to `last`, both included. -/
abbrev Range := Nat × Nat

def Range.holds (r : Range) (c : Char) : Bool :=
  r.1 ≤ c.toNat && c.toNat ≤ r.2

def anyHolds (ranges : List Range) (c : Char) : Bool :=
  ranges.any (·.holds c)

theorem anyHolds_iff {ranges : List Range} {c : Char} :
    anyHolds ranges c = true ↔ ∃ r ∈ ranges, r.1 ≤ c.toNat ∧ c.toNat ≤ r.2 := by
  simp [anyHolds, Range.holds]

end LessonCheck.Unicode
