import LessonCheck.Lexing.Cut
import LessonCheck.Unicode.Blank
import Mathlib.Tactic.ByContra

/-!
The classes of characters that the lexer tells apart do not overlap: what begins a word or a number
is no operator, no punctuation, no quote and no blank.
-/

namespace LessonCheck

open Unicode

/-- The code points of the blank characters, one by one. -/
def blankCodes : List Nat :=
  [0x9, 0xA, 0xB, 0xC, 0xD, 0x20, 0x85, 0xA0, 0x1680, 0x2000, 0x2001, 0x2002, 0x2003, 0x2004,
   0x2005, 0x2006, 0x2007, 0x2008, 0x2009, 0x200A, 0x2028, 0x2029, 0x202F, 0x205F, 0x3000]

theorem toNat_mem_blankCodes {c : Char} (h : isBlank c = true) : c.toNat ∈ blankCodes := by
  obtain ⟨r, hr, hlow, hhigh⟩ := anyHolds_iff.mp h
  simp only [blanks, List.mem_cons, List.not_mem_nil, or_false] at hr
  simp only [blankCodes, List.mem_cons, List.not_mem_nil, or_false]
  rcases hr with rfl | rfl | rfl | rfl | rfl | rfl | rfl | rfl | rfl | rfl <;>
    simp only at hlow hhigh <;> omega

/-- A property of characters fails on all blanks if it fails on each of the code points. -/
theorem eq_false_of_isBlank {p : Char → Bool}
    (hp : ∀ n ∈ blankCodes, p (Char.ofNat n) = false) {c : Char} (h : isBlank c = true) :
    p c = false := by
  have hc := hp c.toNat (toNat_mem_blankCodes h)
  rwa [Char.ofNat_toNat] at hc

namespace Cut

theorem not_isBlank_of_isWordStart {c : Char} (h : isWordStart c = true) : isBlank c = false := by
  cases hblank : isBlank c with
  | false => rfl
  | true =>
      have := eq_false_of_isBlank (p := isWordStart) (by decide +kernel) hblank
      simp [h] at this

theorem isOperatorChar_of_isBlank {c : Char} (h : isBlank c = true) : isOperatorChar c = false :=
  eq_false_of_isBlank (by decide) h

theorem isDigit_of_isBlank {c : Char} (h : isBlank c = true) : c.isDigit = false :=
  eq_false_of_isBlank (by decide) h

/-- A character that only its own branch of the lexer looks at. -/
structure IsPlainStart (c : Char) : Prop where
  operator : isOperatorChar c = false
  punctuation : punctuation? c = none
  quote : c ≠ '"'
  apostrophe : c ≠ '\''

theorem eq_of_isOperatorChar {c : Char} (h : isOperatorChar c = true) :
    c ∈ ['+', '-', '*', '/', '<', '>', '=', '!', '&', '|'] := by
  simpa [isOperatorChar] using h

theorem eq_of_punctuation? {c : Char} (h : punctuation? c ≠ none) :
    c ∈ [';', '(', ')', '{', '}', ',', '.'] := by
  unfold punctuation? at h
  split at h <;> simp at h ⊢

/-- The characters that stand for themselves: operators, punctuation and quotes. -/
def signs : List Char :=
  ['+', '-', '*', '/', '<', '>', '=', '!', '&', '|', ';', '(', ')', '{', '}', ',', '.', '"', '\'']

/-- A class of characters without signs. -/
theorem IsPlainStart.of_class {p : Char → Bool} {c : Char} (h : p c = true)
    (hp : (signs.all fun d => !p d) = true) : IsPlainStart c := by
  have hne {d : Char} (hd : d ∈ signs) : c ≠ d := by
    rintro rfl
    simpa [h] using List.all_eq_true.mp hp c hd
  refine ⟨?_, ?_, hne (by decide), hne (by decide)⟩
  · by_contra hop
    have hmem := eq_of_isOperatorChar (by simpa using hop)
    exact hne (List.mem_append_left [';', '(', ')', '{', '}', ',', '.', '"', '\''] hmem) rfl
  · by_contra hpunct
    have hmem := eq_of_punctuation? hpunct
    exact hne (List.mem_append_right ['+', '-', '*', '/', '<', '>', '=', '!', '&', '|']
      (List.mem_append_left ['"', '\''] hmem)) rfl

theorem isPlainStart_of_isWordStart {c : Char} (h : isWordStart c = true) : IsPlainStart c :=
  .of_class h (by decide +kernel)

theorem isPlainStart_of_isDigit {c : Char} (h : c.isDigit = true) : IsPlainStart c :=
  .of_class (p := Char.isDigit) h (by decide)

theorem isWordStart_of_isDigit {c : Char} (h : c.isDigit = true) : isWordStart c = false := by
  have hcode : c.toNat ∈ List.range' 48 10 := by
    simp only [Char.isDigit, Bool.and_eq_true, decide_eq_true_eq] at h
    have hlow : '0'.toNat ≤ c.toNat := h.1
    have hhigh : c.toNat ≤ '9'.toNat := h.2
    simp only [List.mem_range'_1]
    simp at hlow hhigh
    omega
  have hall : ∀ n ∈ List.range' 48 10, isWordStart (Char.ofNat n) = false := by decide +kernel
  have hc := hall c.toNat hcode
  rwa [Char.ofNat_toNat] at hc

theorem ofText_quote (text : List Char) : ofText '"' text = string text := by
  simp [ofText, isOperatorChar, punctuation?]

theorem ofText_apostrophe (text : List Char) : ofText '\'' text = char text := by
  simp [ofText, isOperatorChar, punctuation?]

end Cut

end LessonCheck
