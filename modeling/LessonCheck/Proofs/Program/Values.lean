import LessonCheck.Meaning.AssignedValue
import LessonCheck.Proofs.Meaning.Declared
import LessonCheck.Proofs.Program.Output
import Mathlib.Data.List.Nodup

/-!
The values of a program. A constant that fits a type is read as a literal of it, and a variable goes
into another if the types allow it, in whatever part of the final scope is known so far.
-/

namespace LessonCheck

namespace Number

theorem signed_of_isNumeral {digits : List Char} (h : isNumeral digits = true) (text : List Char) :
    signed (digits ++ text) = (false, digits ++ text) := by
  cases digits with
  | nil => cases h
  | cons c front =>
      simp only [isNumeral, Bool.and_eq_true] at h
      unfold signed
      split
      · next heq => simp [(List.cons.inj heq).1] at h
      · next heq => simp [(List.cons.inj heq).1] at h
      · rfl

theorem natural?_of_isNumeral {digits : List Char} (h : isNumeral digits = true) :
    natural? digits = some (ofDigits digits) := by
  cases digits with
  | nil => cases h
  | cons c front => simp_all [natural?, isNumeral]

/-- A numeral without a sign is read if it is not too large. -/
theorem integer?_of_isNumeral {digits : List Char} (h : isNumeral digits = true)
    (hmax : (ofDigits digits : Int) ≤ maxInteger) :
    integer? (String.ofList digits) = some (ofDigits digits : Int) := by
  have hsigned := signed_of_isNumeral h []
  rw [List.append_nil] at hsigned
  have hmin : minInteger ≤ (ofDigits digits : Int) :=
    Int.le_trans (by decide) (Int.natCast_nonneg _)
  simp [integer?, hsigned, natural?_of_isNumeral h, hmin, hmax]

end Number

namespace Decimal

theorem exists_ofText? {front fraction : List Char} (hfront : isNumeral front = true)
    (hfraction : isNumeral fraction = true) : ∃ x, ofText? (front ++ '.' :: fraction) = some x := by
  have hdigits {text : List Char} (h : isNumeral text = true) : text.all Char.isDigit = true := by
    cases text with
    | nil => cases h
    | cons c text => simpa [isNumeral] using h
  have hpoint : Stops Char.isDigit ('.' :: fraction) = true := by
    simp [Stops, show Char.isDigit '.' = false by decide]
  have hrest : fraction.dropWhile Char.isDigit = [] := by
    have hstops : Stops Char.isDigit [] = true := rfl
    have h := dropWhile_append_of_stops (hdigits hfraction) hstops
    rwa [List.append_nil] at h
  have hne : front.isEmpty = false := by
    cases front with
    | nil => cases hfront
    | cons c front => rfl
  unfold ofText?
  simp only [takeWhile_append_of_stops (hdigits hfront) hpoint,
    dropWhile_append_of_stops (hdigits hfront) hpoint, hrest, hne, Bool.false_and,
    Bool.false_eq_true, if_false]
  exact ⟨_, rfl⟩

end Decimal

theorem Binary64.exists_ofText? {front fraction : List Char} (hfront : isNumeral front = true)
    (hfraction : isNumeral fraction = true) :
    ∃ x, ofText? (String.ofList (front ++ '.' :: fraction)) = some x := by
  obtain ⟨decimal, hdecimal⟩ := Decimal.exists_ofText? hfront hfraction
  unfold ofText?
  rw [String.toList_ofList, Number.signed_of_isNumeral hfront]
  simp only [hdecimal]
  split
  · exact ⟨_, rfl⟩
  · split
    · exact ⟨_, rfl⟩
    · exact ⟨_, rfl⟩

namespace Program

variable {Γ : Signature} {t : Token} {T : VariableType} {scope : Scope}

/-- A constant that fits a type is read as a literal of the type. -/
theorem Constant.Fits.exists_ofToken {c : Constant} (h : c.Fits T) (ht : t.piece = c.piece)
    (name : String) : ∃ l, Literal.ofToken name T t = .ok l := by
  have hkind : t.kind = T.literalKind := (Token.kind_of_piece ht).trans h.kind_piece
  have hlexeme : t.lexeme = String.ofList c.piece.lexeme := by
    rw [← congrArg Piece.lexeme ht]
    simp [Token.piece]
  obtain ⟨l, hl⟩ : ∃ l, Literal.read? T t.lexeme = some l := by
    rw [hlexeme]
    cases c with
    | whole digits =>
        have hread := Number.integer?_of_isNumeral digits.property h.2
        have hnumber := h.1
        refine ⟨.int (Number.ofDigits digits.val), ?_⟩
        cases T with
        | int | byte | short | long => simp [Literal.read?, piece, hread]
        | _ => cases hnumber
    | decimal front fraction =>
        obtain ⟨x, hx⟩ := Binary64.exists_ofText? front.property fraction.property
        have hfloat : T.literalKind = .float := h
        refine ⟨.float x, ?_⟩
        cases T with
        | float | double =>
            simp only [Literal.read?, piece, hx]
            rfl
        | _ => cases hfloat
    | char c =>
        obtain rfl : T = .char := h
        simp [Literal.read?, piece]
    | text body =>
        obtain rfl : T = .string := h
        exact ⟨_, rfl⟩
    | truth value =>
        obtain rfl : T = .boolean := h
        cases value <;> simp [Literal.read?, piece, Piece.name]
    | null => exact h.elim
  exact ⟨l, by simp [Literal.ofToken, hkind, hl]⟩

/-! ### The signature and the scope -/

/-- No name is declared twice. -/
def Distinct (Γ : Signature) : Prop := (Γ.map (·.1.text)).Nodup

/-- The declared names as texts, with their types. -/
def Signature.words (Γ : Signature) : List (String × VariableType) :=
  Γ.map fun d => (d.1.text, d.2)

theorem Distinct.type_eq (hΓ : Distinct Γ) {x y : VariableName} {S : VariableType}
    (hx : (x, T) ∈ Γ) (hy : (y, S) ∈ Γ) (hname : x.text = y.text) : T = S := by
  have heq := List.inj_on_of_nodup_map hΓ hx hy hname
  exact congrArg Prod.snd heq

/-- What the scope knows of a declared name is its type. -/
theorem type_of_lookup? (hΓ : Distinct Γ) (hscope : scope.signature ⊆ Γ.words) {x : VariableName}
    (hx : (x, T) ∈ Γ) {v : Variable} (hv : scope.lookup? x.text = some v) : v.type = T := by
  have hmem : (v.name, v.type) ∈ scope.signature :=
    List.mem_map_of_mem (List.mem_of_find?_eq_some hv)
  have hname : v.name = x.text := by simpa using List.find?_some hv
  obtain ⟨⟨y, S⟩, hy, heq⟩ := List.mem_map.mp (hscope hmem)
  obtain ⟨hyname, rfl⟩ := Prod.mk.inj heq
  exact (hΓ.type_eq hx hy (hname.symm.trans hyname.symm)).symm

/-- No scope of a program knows a reserved word. -/
theorem lookup?_of_isReserved (hscope : scope.signature ⊆ Γ.words) {w : String}
    (hw : Vocabulary.isReserved w = true) : scope.lookup? w = none := by
  cases hv : scope.lookup? w with
  | none => rfl
  | some v =>
      have hmem : (v.name, v.type) ∈ scope.signature :=
        List.mem_map_of_mem (List.mem_of_find?_eq_some hv)
      have hname : v.name = w := by simpa using List.find?_some hv
      obtain ⟨⟨y, S⟩, -, heq⟩ := List.mem_map.mp (hscope hmem)
      obtain ⟨hyname, -⟩ := Prod.mk.inj heq
      exact absurd (hyname.trans hname) (y.ne_of_isReserved hw)

/-- A scope with the whole signature knows every declared name. -/
theorem exists_lookup? (hΓ : Distinct Γ) (hscope : scope.signature = Γ.words) {x : VariableName}
    (hx : (x, T) ∈ Γ) : ∃ v, scope.lookup? x.text = some v ∧ v.type = T := by
  cases hv : scope.lookup? x.text with
  | some v => exact ⟨v, rfl, type_of_lookup? hΓ (by simp [hscope]) hx hv⟩
  | none =>
      have hmem : (x.text, T) ∈ scope.signature := by
        rw [hscope]
        exact List.mem_map_of_mem hx
      obtain ⟨v, hentry, heq⟩ := List.mem_map.mp hmem
      have hname := congrArg Prod.fst heq
      exact absurd (List.mem_map.mpr ⟨v, hentry, hname⟩) (Scope.lookup?_eq_none_iff.mp hv)

/-! ### Values in their places -/

theorem VariableName.isReference {x : VariableName} (h : t.isName x.text = true) :
    t.isReference = true := by
  obtain ⟨hkind, hlexeme⟩ := Token.isName_iff.mp h
  simp [Token.isReference, hkind, hlexeme, x.notReserved]

theorem Constant.isReference {c : Constant} (h : t.piece = c.piece) : t.isReference = false := by
  cases c with
  | truth value =>
      have hname := Token.isName_iff.mp (Token.isName_of_piece h)
      cases value <;>
        simp [Token.isReference, hname, Vocabulary.isReserved, Vocabulary.literalWords]
  | null =>
      have hname := Token.isName_iff.mp (Token.isName_of_piece h)
      simp [Token.isReference, hname, Vocabulary.isReserved, Vocabulary.literalWords]
  | _ =>
      have hkind : t.kind ≠ .identifier := by
        rw [Token.kind_of_piece h]
        rintro ⟨⟩
      simp [Token.isReference, hkind]

theorem Operand.isFaulty {v : Operand} (h : t.piece = v.piece) : t.kind.isFaulty = false := by
  have hvalue := isValue_kind h
  cases hkind : t.kind <;> simp_all [Token.Kind.isValue, Token.Kind.isFaulty]

/-- A value that goes into a variable is not refused, however much of the scope is known. -/
theorem Operand.GoesInto.errors_eq_nil (hΓ : Distinct Γ) (hscope : scope.signature ⊆ Γ.words)
    {v : Operand} (hv : v.GoesInto Γ T) (ht : t.piece = v.piece) {semicolon : Token}
    (hsemicolon : semicolon.kind = .semicolon) (name : String) (rest : Tokens) :
    (AssignedValue.ofTokens scope name T (t :: semicolon :: rest)).errors = [] := by
  simp only [AssignedValue.ofTokens, Operand.isFaulty ht, Bool.false_eq_true, if_false]
  cases v with
  | literal c =>
      obtain ⟨l, hl⟩ := Constant.Fits.exists_ofToken hv ht name
      simp [Constant.isReference ht, hl, AssignedValue.errors]
  | var x =>
      obtain ⟨S, hS, haccepts⟩ := hv
      have hname := Token.isName_of_piece ht
      obtain ⟨-, hlexeme⟩ := Token.isName_iff.mp hname
      simp only [VariableName.isReference hname, hlexeme, if_true]
      cases hfound : scope.lookup? x.text with
      | none => simp [hsemicolon, AssignedValue.errors]
      | some source =>
          have htype : source.type = S := type_of_lookup? hΓ hscope hS hfound
          simp [hsemicolon, Variable.checkAccepted, htype, haccepts, AssignedValue.errors]

end Program

end LessonCheck
