import LessonCheck.Number.Binary64
import LessonCheck.Number.Digits

/-!
Decimal notation. A numeral is read into digits and a power of ten, and only then rounded to a
binary number; in the other direction a number is shown by the fewest digits that read back to it.
-/

namespace LessonCheck

open Number

-- Powers of naturals and integers are the core library's, whatever else is in scope.
attribute [local instance (high)] instPowNat

/-- `digits * 10 ^ exponent`. -/
structure Decimal where
  digits : Nat
  exponent : Int
  deriving DecidableEq

namespace Decimal

/-- The nearest binary number. A decimal whose leading digit is far outside the range of the binary
numbers is settled by its size, so that no power of ten is formed for it. -/
def toBinary64 (negative : Bool) (x : Decimal) : Binary64 :=
  let lead : Int := x.exponent + x.digits.repr.length
  if x.digits = 0 ∨ lead < -330 then .zero negative
  else if lead > 310 then .infinity negative
  else .ofRatio negative (x.digits * 10 ^ x.exponent.toNat) (10 ^ (-x.exponent).toNat)

/-! ### Reading -/

/-- Reads the exponent of a numeral, where nothing stands for zero. -/
def exponent? : List Char → Option Int
  | [] => some 0
  | c :: text =>
    if c = 'e' || c = 'E' then
      let (negative, digits) := signed text
      (natural? digits).map fun n => if negative then -n else n
    else none

/-- Reads a numeral without a sign: digits, with a point anywhere among them, and an exponent. -/
def ofText? (text : List Char) : Option Decimal :=
  let whole := text.takeWhile Char.isDigit
  let (fraction, rest) : List Char × List Char := match text.dropWhile Char.isDigit with
    | '.' :: rest => (rest.takeWhile Char.isDigit, rest.dropWhile Char.isDigit)
    | rest => ([], rest)
  if whole.isEmpty && fraction.isEmpty then none
  else (exponent? rest).map fun e => ⟨ofDigits (whole ++ fraction), e - fraction.length⟩

/-! ### Writing -/

def zeros (n : Nat) : List Char := List.replicate n '0'

/-- The decimal in positional notation: no exponent, and no point without digits behind it. -/
def positional (x : Decimal) : List Char :=
  let digits := Nat.toDigits 10 x.digits
  if 0 ≤ x.exponent then digits ++ zeros x.exponent.toNat
  else
    let places := (-x.exponent).toNat
    -- At least one digit stands before the point.
    let digits := zeros (places + 1 - digits.length) ++ digits
    digits.take (digits.length - places) ++ '.' :: digits.drop (digits.length - places)

end Decimal

namespace Binary64

/-- Reads a number: an optional sign, then a numeral or, in letters of either case, `inf`,
`infinity` or `nan`. -/
def ofText? (text : String) : Option Binary64 :=
  let (negative, text) := signed text.toList
  let word := String.ofList (text.map Char.toLower)
  if word == "inf" || word == "infinity" then some (infinity negative)
  else if word == "nan" then some nan
  else (Decimal.ofText? text).map (·.toBinary64 negative)

/-- The ratio that a finite number is, but for its sign. -/
def ratio (x : Binary64) : Nat × Nat :=
  (x.significand * 2 ^ x.exponent.toNat, 2 ^ (-x.exponent).toNat)

/-- The least `k` with `n / d < 10 ^ k`, for a positive ratio that is no negative power of ten. -/
def decimalScale (n d : Nat) : Int :=
  if d ≤ n then (n / d).repr.length else 1 - (d / n).repr.length

/-- A decimal of the form `c * 10 ^ exponent` that reads back to `x`: one of the two neighbours of
`x`, the nearer one if both do, and the upper one if both are equally near. -/
def onGrid? (x : Binary64) (exponent : Int) : Option Decimal :=
  let (n, d) := x.ratio
  -- The number in units of the grid.
  let (n, d) := (n * 10 ^ (-exponent).toNat, d * 10 ^ exponent.toNat)
  let lower : Decimal := ⟨n / d, exponent⟩
  let upper : Decimal := ⟨n / d + 1, exponent⟩
  let readsBack := fun (c : Decimal) => c.toBinary64 x.isNegative = x
  if readsBack lower ∧ readsBack upper then some (if 2 * (n % d) < d then lower else upper)
  else if readsBack lower then some lower
  else if readsBack upper then some upper
  else none

/-- All digits of a finite number. -/
def allDigits (x : Binary64) : Decimal :=
  if 0 ≤ x.exponent then ⟨x.significand * 2 ^ x.exponent.toNat, 0⟩
  else ⟨x.significand * 5 ^ (-x.exponent).toNat, x.exponent⟩

/-- The shortest decimal that reads back to a finite number: the one on the coarsest grid. Seventeen
digits always suffice. -/
def shortest (x : Binary64) : Decimal :=
  if x.significand = 0 then ⟨0, 0⟩
  else
    let scale := decimalScale x.ratio.1 x.ratio.2
    ((List.range 18).findSome? fun (i : Nat) => x.onGrid? (scale - i)).getD x.allDigits

/-- The number in positional notation with the fewest digits that read back to it. -/
def text (x : Binary64) : String :=
  let sign := if x.isNegative then "-" else ""
  if x.magnitude > infiniteBits then "NaN"
  else if x.magnitude = infiniteBits then sign ++ "inf"
  else sign ++ String.ofList x.shortest.positional

end Binary64

end LessonCheck
