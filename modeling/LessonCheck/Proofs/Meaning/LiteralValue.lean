import LessonCheck.Form.LoopForm
import LessonCheck.Meaning.Literal
import LessonCheck.Proofs.Lexing.CharLiteral
import LessonCheck.Proofs.Lexing.LongestMatch
import LessonCheck.Proofs.Program.Values
import Mathlib.Data.Nat.Digits.Defs

/-!
Which values a variable takes. Every literal that the lexer makes has the form of its kind: a number
is digits, a float is digits on both sides of a point, a char is one character. So a literal that
goes with the type can be read, but for an integer that needs more than 64 bits. What is accepted
has the kind of token that a loop initialization demands for the type.
-/

namespace LessonCheck

open Program

/-! ### Digits -/

namespace Number

theorem ofDigits_concat (digits : List Char) (c : Char) :
    ofDigits (digits ++ [c]) = 10 * ofDigits digits + digitValue c := by
  simp [ofDigits, ofDigitsFrom]

theorem ofDigits_eq (digits : List Char) :
    ofDigits digits = Nat.ofDigits 10 (digits.map digitValue).reverse := by
  induction digits using List.reverseRecOn with
  | nil => rfl
  | append_singleton digits c ih =>
      rw [ofDigits_concat, ih, List.map_append, List.map_singleton, List.reverse_append,
        List.reverse_singleton, List.singleton_append, Nat.ofDigits_cons, Nat.add_comm]

/-- A numeral without a sign is refused if it is too large. -/
theorem integer?_eq_none {digits : List Char} (h : isNumeral digits = true)
    (hmax : maxInteger < (ofDigits digits : Int)) : integer? (String.ofList digits) = none := by
  have hsigned := signed_of_isNumeral h []
  rw [List.append_nil] at hsigned
  simp [integer?, hsigned, natural?_of_isNumeral h, Int.not_le.mpr hmax]

end Number

/-! ### The literals of the lexer -/

namespace Token

/-- The number that the digits of a token stand for. -/
def decimalValue (t : Token) : Nat :=
  Nat.ofDigits 10 (t.lexeme.toList.map Number.digitValue).reverse

/-- A literal has the form of its kind. -/
structure IsWellFormed (t : Token) : Prop where
  number : t.kind = .number → isNumeral t.lexeme.toList = true
  float : t.kind = .float → ∃ whole fraction, isNumeral whole = true ∧ isNumeral fraction = true ∧
    t.lexeme.toList = whole ++ '.' :: fraction
  char : t.kind = .char → ∃ c, t.lexeme.toList = [c]

theorem not_mem_of_isNumeral {digits : List Char} (h : isNumeral digits = true) : '.' ∉ digits :=
  fun hmem => Bool.false_ne_true (List.all_eq_true.mp (all_isDigit_of_isNumeral h) '.' hmem)

theorem exists_matchesNumber {source : String} {t : Token} (ht : t ∈ ofText source)
    (hkind : t.IsNumber) : ∃ text, t.MatchesNumber text := by
  obtain ⟨before, c, text, hstarts⟩ := exists_startsAt ht
  have hbegins := hstarts.beginsWith
  have hdigit : c.isDigit = true := by
    rcases hkind with hkind | hkind <;> rw [hkind] at hbegins <;> exact hbegins
  exact ⟨c :: text, (hstarts.matchesNumber hdigit).2⟩

theorem isWellFormed_of_mem_ofText {source : String} {t : Token} (ht : t ∈ ofText source) :
    t.IsWellFormed where
  number hkind := by
    obtain ⟨text, hnumber⟩ := exists_matchesNumber ht (Or.inl hkind)
    rcases hnumber.longest.hasForm with hnumeral | ⟨whole, fraction, -, -, hlexeme⟩
    · exact hnumeral
    · have hfloat := hnumber.float_iff.mpr (by simp [hlexeme])
      rw [hkind] at hfloat
      cases hfloat
  float hkind := by
    obtain ⟨text, hnumber⟩ := exists_matchesNumber ht (Or.inr hkind)
    rcases hnumber.longest.hasForm with hnumeral | ⟨whole, fraction, hwhole, hfraction, hlexeme⟩
    · exact absurd (hnumber.float_iff.mp hkind) (not_mem_of_isNumeral hnumeral)
    · exact ⟨whole, fraction, hwhole, hfraction, hlexeme⟩
  char hkind := by
    obtain ⟨text, hreads⟩ := exists_readsChar ht (Or.inl hkind)
    obtain ⟨c, hlexeme, -⟩ := hreads.exists_single hkind
    exact ⟨c, hlexeme⟩

namespace IsWellFormed

variable {t : Token}

theorem integer? (h : t.IsWellFormed) (hkind : t.kind = .number)
    (hmax : (t.decimalValue : Int) ≤ Number.maxInteger) :
    Number.integer? t.lexeme = some (t.decimalValue : Int) := by
  rw [decimalValue, ← Number.ofDigits_eq] at hmax ⊢
  have hread := Number.integer?_of_isNumeral (h.number hkind) hmax
  rwa [String.ofList_toList] at hread

theorem integer?_eq_none (h : t.IsWellFormed) (hkind : t.kind = .number)
    (hmax : Number.maxInteger < (t.decimalValue : Int)) : Number.integer? t.lexeme = none := by
  rw [decimalValue, ← Number.ofDigits_eq] at hmax
  have hread := Number.integer?_eq_none (h.number hkind) hmax
  rwa [String.ofList_toList] at hread

theorem exists_float (h : t.IsWellFormed) (hkind : t.kind = .float) :
    ∃ x, Binary64.ofText? t.lexeme = some x := by
  obtain ⟨whole, fraction, hwhole, hfraction, hlexeme⟩ := h.float hkind
  rw [← String.ofList_toList (s := t.lexeme), hlexeme]
  exact Binary64.exists_ofText? hwhole hfraction

end IsWellFormed

end Token

/-! ### Answers -/

namespace VariableType

/-- The integer types. -/
def IsInteger (declared : VariableType) : Prop :=
  declared = .int ∨ declared = .byte ∨ declared = .short ∨ declared = .long

instance (declared : VariableType) : Decidable declared.IsInteger :=
  inferInstanceAs (Decidable (_ ∨ _))

theorem IsInteger.literalKind {declared : VariableType} (h : declared.IsInteger) :
    declared.literalKind = .number := by
  rcases h with rfl | rfl | rfl | rfl <;> rfl

end VariableType

namespace Literal

theorem read?_of_isInteger {declared : VariableType} (h : declared.IsInteger) (text : String) :
    read? declared text = (Number.integer? text).map .int := by
  rcases h with rfl | rfl | rfl | rfl <;> rfl

variable {declared : VariableType} {v : Token}

theorem ofToken_of_read {l : Literal} (hkind : v.kind = declared.literalKind)
    (hread : read? declared v.lexeme = some l) (name : String) :
    ofToken name declared v = .ok l := by
  simp only [ofToken, hkind, hread, if_true]

theorem ofToken_of_unread (hkind : v.kind = declared.literalKind)
    (hread : read? declared v.lexeme = none) (name : String) :
    ofToken name declared v = .error (if declared = .boolean then .notBoolean name v.lexeme
      else .unreadable declared v.lexeme) := by
  simp only [ofToken, hkind, hread, if_true]

theorem ofToken_of_kind_ne (hkind : v.kind ≠ declared.literalKind) (name : String) :
    ofToken name declared v = .error (if declared = .boolean then .notBoolean name v.lexeme
      else .wrongKind name declared v.kind v.lexeme) := by
  simp only [ofToken, hkind, if_false]

end Literal

/-- What is said of the value `v` for the variable `name`, with what it takes. -/
inductive ValueAnswer (name : String) (declared : VariableType) (v : Token) :
    Except TypeClash Literal → Prop
  | int : declared.IsInteger → v.kind = .number → (v.decimalValue : Int) ≤ Number.maxInteger →
      ValueAnswer name declared v (.ok (.int v.decimalValue))
  | tooLarge : declared.IsInteger → v.kind = .number →
      Number.maxInteger < (v.decimalValue : Int) →
      ValueAnswer name declared v (.error (.unreadable declared v.lexeme))
  | float {x : Binary64} : declared = .float ∨ declared = .double → v.kind = .float →
      Binary64.ofText? v.lexeme = some x → ValueAnswer name declared v (.ok (.float x))
  | char {c : Char} : declared = .char → v.kind = .char → v.lexeme.toList = [c] →
      ValueAnswer name declared v (.ok (.char c))
  | str : declared = .string → v.kind = .string → ValueAnswer name declared v (.ok (.str v.lexeme))
  | bool (value : Bool) : declared = .boolean → v.kind = .identifier →
      v.lexeme = (if value then "true" else "false") →
      ValueAnswer name declared v (.ok (.bool value))
  | notBoolean : declared = .boolean →
      ¬ (v.kind = .identifier ∧ (v.lexeme = "true" ∨ v.lexeme = "false")) →
      ValueAnswer name declared v (.error (.notBoolean name v.lexeme))
  | wrongKind : declared ≠ .boolean → v.kind ≠ declared.literalKind →
      ValueAnswer name declared v (.error (.wrongKind name declared v.kind v.lexeme))

section
variable {name : String} {declared : VariableType} {v : Token} {answer : Except TypeClash Literal}

theorem ValueAnswer.eq (hv : v.IsWellFormed) (h : ValueAnswer name declared v answer) :
    Literal.ofToken name declared v = answer := by
  cases h with
  | int hdeclared hkind hmax =>
      refine Literal.ofToken_of_read (hkind.trans hdeclared.literalKind.symm) ?_ name
      rw [Literal.read?_of_isInteger hdeclared, hv.integer? hkind hmax, Option.map_some]
  | tooLarge hdeclared hkind hmax =>
      have hread : Literal.read? declared v.lexeme = none := by
        rw [Literal.read?_of_isInteger hdeclared, hv.integer?_eq_none hkind hmax, Option.map_none]
      rw [Literal.ofToken_of_unread (hkind.trans hdeclared.literalKind.symm) hread, if_neg]
      rintro rfl
      cases hdeclared.literalKind
  | float hdeclared hkind hread =>
      rcases hdeclared with rfl | rfl
      all_goals exact Literal.ofToken_of_read hkind (by simp [Literal.read?, hread]) name
  | char hdeclared hkind hlexeme =>
      subst hdeclared
      exact Literal.ofToken_of_read hkind (by simp [Literal.read?, hlexeme]) name
  | str hdeclared hkind =>
      subst hdeclared
      exact Literal.ofToken_of_read hkind rfl name
  | bool value hdeclared hkind hlexeme =>
      subst hdeclared
      refine Literal.ofToken_of_read hkind ?_ name
      cases value <;> simp [Literal.read?, hlexeme]
  | notBoolean hdeclared hnot =>
      subst hdeclared
      by_cases hkind : v.kind = .identifier
      · obtain ⟨htrue, hfalse⟩ := not_or.mp fun hword => hnot ⟨hkind, hword⟩
        have hread : Literal.read? .boolean v.lexeme = none := by
          simp [Literal.read?, htrue, hfalse]
        rw [Literal.ofToken_of_unread hkind hread, if_pos rfl]
      · rw [Literal.ofToken_of_kind_ne hkind, if_pos rfl]
  | wrongKind hdeclared hkind => rw [Literal.ofToken_of_kind_ne hkind, if_neg hdeclared]

theorem exists_valueAnswer (name : String) (declared : VariableType) (hv : v.IsWellFormed) :
    ∃ answer, ValueAnswer name declared v answer := by
  by_cases hkind : v.kind = declared.literalKind
  · have hinteger (hdeclared : declared.IsInteger) (hnumber : v.kind = .number) :
        ∃ answer, ValueAnswer name declared v answer := by
      by_cases hmax : Number.maxInteger < (v.decimalValue : Int)
      · exact ⟨_, .tooLarge hdeclared hnumber hmax⟩
      · exact ⟨_, .int hdeclared hnumber (Int.not_lt.mp hmax)⟩
    have hfloating (hdeclared : declared = .float ∨ declared = .double) (hfloat : v.kind = .float) :
        ∃ answer, ValueAnswer name declared v answer := by
      obtain ⟨x, hread⟩ := hv.exists_float hfloat
      exact ⟨_, .float hdeclared hfloat hread⟩
    cases declared with
    | int => exact hinteger (by decide) hkind
    | byte => exact hinteger (by decide) hkind
    | short => exact hinteger (by decide) hkind
    | long => exact hinteger (by decide) hkind
    | float => exact hfloating (Or.inl rfl) hkind
    | double => exact hfloating (Or.inr rfl) hkind
    | char =>
        obtain ⟨c, hlexeme⟩ := hv.char hkind
        exact ⟨_, .char rfl hkind hlexeme⟩
    | string => exact ⟨_, .str rfl hkind⟩
    | boolean =>
        by_cases htrue : v.lexeme = "true"
        · exact ⟨_, .bool true rfl hkind htrue⟩
        · by_cases hfalse : v.lexeme = "false"
          · exact ⟨_, .bool false rfl hkind hfalse⟩
          · exact ⟨_, .notBoolean rfl fun h => not_or.mpr ⟨htrue, hfalse⟩ h.2⟩
  · by_cases hdeclared : declared = .boolean
    · subst hdeclared
      exact ⟨_, .notBoolean rfl fun h => hkind h.1⟩
    · exact ⟨_, .wrongKind hdeclared hkind⟩

theorem ofToken_eq_iff (hv : v.IsWellFormed) :
    Literal.ofToken name declared v = answer ↔ ValueAnswer name declared v answer := by
  refine ⟨?_, ValueAnswer.eq hv⟩
  rintro rfl
  obtain ⟨answer, hanswer⟩ := exists_valueAnswer name declared hv
  exact hanswer.eq hv ▸ hanswer

/-- What is accepted has the kind of a literal of the type. -/
theorem kind_of_ofToken {l : Literal} (h : Literal.ofToken name declared v = .ok l) :
    v.kind = declared.literalKind := by
  unfold Literal.ofToken at h
  split at h
  · assumption
  · cases h

/-- Behind a name and a sign of equality, an initialization demands the kind of token that a literal
of the type has, and nothing else. -/
theorem declaredInitProblems_eq_nil_iff {target equals : Token}
    (hname : target.kind = .identifier) (hequals : equals.isOperator "=" = true) :
    LoopHeader.declaredInitProblems declared target equals v = [] ↔
      v.kind = declared.literalKind := by
  simp [LoopHeader.declaredInitProblems, LoopHeader.report, hname, hequals]

/-- The value `v` for the variable `name`: what is said of it, when it is unreadable, and what an
initialization demands of it. -/
structure ValueChecked (name : String) (declared : VariableType) (v : Token) : Prop where
  answers (answer : Except TypeClash Literal) :
    Literal.ofToken name declared v = answer ↔ ValueAnswer name declared v answer
  unreadable : (∃ other text, Literal.ofToken name declared v = .error (.unreadable other text)) ↔
    declared.IsInteger ∧ v.kind = .number ∧ Number.maxInteger < (v.decimalValue : Int)
  float : declared = .float ∨ declared = .double → v.kind = .float →
    ∃ x, Literal.ofToken name declared v = .ok (.float x)
  bool : (∃ value, Literal.ofToken name declared v = .ok (.bool value)) ↔
    declared = .boolean ∧ v.kind = .identifier ∧ (v.lexeme = "true" ∨ v.lexeme = "false")
  demanded (l : Literal) : Literal.ofToken name declared v = .ok l →
    v.kind = declared.literalKind ∧
      ∀ target equals : Token, target.kind = .identifier → equals.isOperator "=" = true →
        LoopHeader.declaredInitProblems declared target equals v = []

theorem Token.IsWellFormed.valueChecked (hv : v.IsWellFormed) (name : String)
    (declared : VariableType) : ValueChecked name declared v where
  answers answer := ofToken_eq_iff hv
  unreadable := by
    constructor
    · rintro ⟨other, text, hread⟩
      cases (ofToken_eq_iff hv).mp hread with
      | tooLarge hdeclared hkind hmax => exact ⟨hdeclared, hkind, hmax⟩
    · rintro ⟨hdeclared, hkind, hmax⟩
      exact ⟨_, _, (ofToken_eq_iff hv).mpr (.tooLarge hdeclared hkind hmax)⟩
  float hdeclared hkind := by
    obtain ⟨x, hread⟩ := hv.exists_float hkind
    exact ⟨x, (ofToken_eq_iff hv).mpr (.float hdeclared hkind hread)⟩
  bool := by
    constructor
    · rintro ⟨value, hread⟩
      cases (ofToken_eq_iff hv).mp hread with
      | bool _ hdeclared hkind hlexeme =>
          refine ⟨hdeclared, hkind, ?_⟩
          cases value with
          | true => exact Or.inl hlexeme
          | false => exact Or.inr hlexeme
    · rintro ⟨hdeclared, hkind, htrue | hfalse⟩
      · exact ⟨true, (ofToken_eq_iff hv).mpr (.bool true hdeclared hkind htrue)⟩
      · exact ⟨false, (ofToken_eq_iff hv).mpr (.bool false hdeclared hkind hfalse)⟩
  demanded l hread := by
    have hkind := kind_of_ofToken hread
    exact ⟨hkind, fun _ _ hname hequals =>
      (declaredInitProblems_eq_nil_iff hname hequals).mpr hkind⟩

end

/-- Of the values that the lexer makes, only an integer that needs more than 64 bits goes with the
type and cannot be read. -/
theorem values_checked (cache : TextCache) (source : String) {v : Token}
    (hv : v ∈ (cache.lex source).1.tokens) (name : String) (declared : VariableType) :
    ValueChecked name declared v := by
  rw [TextCache.lex_eq] at hv
  exact (Token.isWellFormed_of_mem_ofText hv).valueChecked name declared

/-- The least number that is too large, with zeros in front, in a `byte` and in a `boolean`. -/
theorem values_checked_tooLarge :
    let v : Token := ⟨.number, "009223372036854775808", ⟨1, 1⟩⟩
    v ∈ ((TextCache.new true).lex "009223372036854775808").1.tokens ∧
      (∃ other text, Literal.ofToken "n" .byte v = .error (.unreadable other text)) ∧
      ¬ ∃ value, Literal.ofToken "n" .boolean v = .ok (.bool value) := by
  intro v
  have hv : v ∈ ((TextCache.new true).lex "009223372036854775808").1.tokens := by
    rw [TextCache.lex_eq]
    decide +kernel
  have htoo : Number.maxInteger < (v.decimalValue : Int) := by decide +kernel
  refine ⟨hv, (values_checked _ _ hv "n" .byte).unreadable.mpr ⟨by decide, rfl, htoo⟩, ?_⟩
  rw [(values_checked _ _ hv "n" .boolean).bool]
  rintro ⟨-, hkind, -⟩
  cases hkind

end LessonCheck
