/-!
Binary floating-point numbers of 64 bits: a sign, eleven bits of exponent and 52 of fraction. A
ratio of two naturals is rounded to the nearest of them, and of two equally near ones to the even
one, by exact arithmetic.
-/

namespace LessonCheck

-- Powers of naturals and integers are the core library's, whatever else is in scope.
attribute [local instance (high)] instPowNat

structure Binary64 where
  bits : UInt64
  deriving DecidableEq

namespace Binary64

/-- The weight of the sign in a bit pattern. -/
def signWeight : Nat := 2 ^ (63 : Nat)

/-- The weight of the exponent field; below it stands the fraction. -/
def exponentWeight : Nat := 2 ^ (52 : Nat)

/-- The first bit pattern, the sign aside, that stands for no finite number. -/
def infiniteBits : Nat := 2047 * exponentWeight

/-- A number by its sign and the other 63 bits. -/
def ofMagnitude (negative : Bool) (magnitude : Nat) : Binary64 :=
  ⟨UInt64.ofNat (if negative then signWeight + magnitude else magnitude)⟩

def zero (negative : Bool) : Binary64 := ofMagnitude negative 0

def infinity (negative : Bool) : Binary64 := ofMagnitude negative infiniteBits

/-- The number that is no number. -/
def nan : Binary64 := ofMagnitude false (infiniteBits + exponentWeight / 2)

def isNegative (x : Binary64) : Bool := signWeight ≤ x.bits.toNat

/-- All bits but the sign. -/
def magnitude (x : Binary64) : Nat := x.bits.toNat % signWeight

def exponentField (x : Binary64) : Nat := x.magnitude / exponentWeight

/-- A finite number is, but for its sign, `x.significand * 2 ^ x.exponent`. -/
def significand (x : Binary64) : Nat :=
  if x.exponentField = 0 then x.magnitude else exponentWeight + x.magnitude % exponentWeight

def exponent (x : Binary64) : Int :=
  if x.exponentField = 0 then -1074 else x.exponentField - 1075

/-- `n / d` rounded to a natural number, a half to the even neighbour. -/
def roundDiv (n d : Nat) : Nat :=
  let r := n % d
  if d < 2 * r ∨ (d = 2 * r ∧ n / d % 2 = 1) then n / d + 1 else n / d

/-- `⌊log₂ (n / d)⌋` for positive `n` and `d`. -/
def log2Ratio (n d : Nat) : Int :=
  let e : Int := (n.log2 : Int) - d.log2
  if d * 2 ^ e.toNat ≤ n * 2 ^ (-e).toNat then e else e - 1

/-- The number nearest to the ratio `n / d`. The exponent is that of the leading bit less 52, or the
least there is; a significand that rounding carries to the next power of two is right as it stands,
since it moves on into the exponent field. -/
def ofRatio (negative : Bool) (n d : Nat) : Binary64 :=
  if n = 0 then zero negative
  else
    let q : Int := max (log2Ratio n d - 52) (-1074)
    let m := roundDiv (n * 2 ^ (-q).toNat) (d * 2 ^ q.toNat)
    ofMagnitude negative (min infiniteBits ((q + 1074).toNat * exponentWeight + m))

end Binary64

end LessonCheck
