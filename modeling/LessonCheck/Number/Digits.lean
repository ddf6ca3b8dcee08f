/-!
Numbers written in ASCII digits: naturals in base ten, with the integers of 64 bits among them, and
the digits of base sixteen, which are read in either case and written in the one that is asked for.
-/

namespace LessonCheck.Number

-- Powers of naturals and integers are the core library's, whatever else is in scope.
attribute [local instance (high)] instPowNat

/-! ### Base ten -/

/-- The value of a digit; `'0'` stands for everything below it. -/
def digitValue (c : Char) : Nat := c.toNat - '0'.toNat

/-- The number that continues `start` by the given digits. -/
def ofDigitsFrom (start : Nat) (digits : List Char) : Nat :=
  digits.foldl (fun n c => 10 * n + digitValue c) start

def ofDigits (digits : List Char) : Nat := ofDigitsFrom 0 digits

/-- Reads a text that is nothing but digits and has at least one. -/
def natural? (text : List Char) : Option Nat :=
  if !text.isEmpty && text.all Char.isDigit then some (ofDigits text) else none

/-- Splits a sign off, `true` for a minus. -/
def signed : List Char → Bool × List Char
  | '-' :: text => (true, text)
  | '+' :: text => (false, text)
  | text => (false, text)

def minInteger : Int := -2 ^ (63 : Nat)

def maxInteger : Int := 2 ^ (63 : Nat) - 1

/-- Reads an integer with an optional sign; one that needs more than 64 bits is refused. -/
def integer? (text : String) : Option Int :=
  let (negative, digits) := signed text.toList
  (natural? digits).bind fun n =>
    let value : Int := if negative then -n else n
    if minInteger ≤ value ∧ value ≤ maxInteger then some value else none

/-! ### Base sixteen -/

/-- The digit of a number below sixteen, where `ten` is the digit of ten. -/
def hexDigit (ten : Char) (n : Nat) : Char :=
  if n < 10 then Char.ofNat ('0'.toNat + n) else Char.ofNat (ten.toNat + (n - 10))

def hexValue? (c : Char) : Option Nat :=
  if c.isDigit then some (c.toNat - '0'.toNat)
  else if 'a' ≤ c && c ≤ 'f' then some (c.toNat - 'a'.toNat + 10)
  else if 'A' ≤ c && c ≤ 'F' then some (c.toNat - 'A'.toNat + 10)
  else none

/-- The character whose code point the digits give. -/
def hexChar? (digits : List Char) : Option Char :=
  (digits.foldlM (fun n c => (hexValue? c).map (16 * n + ·)) 0).bind fun n =>
    if n.isValidChar then some (Char.ofNat n) else none

section
variable {ten : Char} (hten : ten = 'a' ∨ ten = 'A')
include hten

theorem hexValue?_hexDigit {n : Nat} (h : n < 16) : hexValue? (hexDigit ten n) = some n := by
  have hlower : ∀ m : Fin 16, hexValue? (hexDigit 'a' m) = some m.val := by decide
  have hupper : ∀ m : Fin 16, hexValue? (hexDigit 'A' m) = some m.val := by decide
  rcases hten with rfl | rfl
  · exact hlower ⟨n, h⟩
  · exact hupper ⟨n, h⟩

/-- A character below U+0100 is the one that its two digits behind two zeros stand for. -/
theorem hexChar?_hexDigit {c : Char} (h : c.toNat < 256) :
    hexChar? ['0', '0', hexDigit ten (c.toNat / 16), hexDigit ten (c.toNat % 16)] = some c := by
  have hzero : hexValue? '0' = some 0 := rfl
  have hhigh := hexValue?_hexDigit hten (show c.toNat / 16 < 16 by omega)
  have hlow := hexValue?_hexDigit hten (show c.toNat % 16 < 16 by omega)
  have hnumber : 16 * (c.toNat / 16) + c.toNat % 16 = c.toNat := Nat.div_add_mod c.toNat 16
  have hvalid : c.toNat.isValidChar := c.valid
  simp [hexChar?, hzero, hhigh, hlow, hnumber, hvalid, Char.ofNat_toNat]

end

end LessonCheck.Number
