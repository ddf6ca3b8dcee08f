import LessonCheck.Proofs.Program.Grammar
import LessonCheck.Proofs.Token.Flat

/-!
What is known of a token from the piece it stands for, and the kinds of the tokens that a program is
written with: a single token for every value, and nothing but words, values and operators inside
sums and inside the parts of a loop header.
-/

namespace LessonCheck

namespace Token

theorem kind_of_piece {t : Token} {p : Piece} (h : t.piece = p) : t.kind = p.kind :=
  congrArg Piece.kind h

theorem lexeme_of_piece {t : Token} {kind : Token.Kind} {w : String}
    (h : t.piece = ⟨kind, w.toList⟩) : t.lexeme = w :=
  String.toList_inj.mp (congrArg Piece.lexeme h)

theorem isName_iff {t : Token} {w : String} :
    t.isName w = true ↔ t.kind = .identifier ∧ t.lexeme = w := by
  simp [isName]

theorem isName_of_piece {t : Token} {w : String} (h : t.piece = .name w) : t.isName w = true :=
  isName_iff.mpr ⟨kind_of_piece h, lexeme_of_piece h⟩

theorem isKeyword_of_piece {t : Token} {w : String} (h : t.piece = .keyword w) :
    t.isKeyword w = true := by
  simp [isKeyword, show t.kind = .keyword from kind_of_piece h, lexeme_of_piece h]

theorem isOperator_of_piece {t : Token} {w : String} (h : t.piece = .operator w) (v : String) :
    t.isOperator v = (w == v) := by
  simp [isOperator, show t.kind = .operator from kind_of_piece h, lexeme_of_piece h]

theorem typeNamed?_of_piece {t : Token} {T : VariableType} (h : t.piece = .keyword T.word) :
    t.typeNamed? = some T := by
  simp [typeNamed?, show t.kind = .keyword from kind_of_piece h, lexeme_of_piece h,
    VariableType.ofWord?_word]

theorem isOperator_of_kind {t : Token} (h : t.kind ≠ .operator) (v : String) :
    t.isOperator v = false := by
  simp [isOperator, h]

end Token

namespace Program

variable {t : Token} {ts : Tokens}

theorem Constant.isValue_piece (c : Constant) : c.piece.kind.isValue = true := by
  cases c <;> rfl

theorem Operand.isValue_piece (v : Operand) : v.piece.kind.isValue = true := by
  cases v with
  | literal c => exact c.isValue_piece
  | var x => rfl

theorem Operand.isValue_kind {v : Operand} (h : t.piece = v.piece) : t.kind.isValue = true := by
  rw [Token.kind_of_piece h]
  exact v.isValue_piece

theorem Constant.Fits.kind_piece {T : VariableType} {c : Constant} (h : c.Fits T) :
    c.piece.kind = T.literalKind := by
  cases c with
  | whole digits => exact h.1.symm
  | decimal front fraction => exact h.symm
  | char c | text body | truth value =>
      obtain rfl := h
      rfl
  | null => exact h.elim

theorem isValue_of_isName {w : String} (h : t.isName w = true) : t.kind.isValue = true := by
  rw [(Token.isName_iff.mp h).1]
  rfl

theorem ne_keyword_of_isValue (h : t.kind.isValue = true) : t.kind ≠ .keyword := by
  rintro hkind
  simp [hkind, Token.Kind.isValue] at h

theorem isInner_of_isValue {kind : Token.Kind} (h : kind.isValue = true) :
    kind.isInner = true := by
  cases kind <;> first | rfl | cases h

/-- All pieces are of kinds that neither open, close nor end anything. -/
def AllInner (ps : List Piece) : Prop := ∀ p ∈ ps, p.kind.isInner = true

@[simp] theorem allInner_nil : AllInner [] := by simp [AllInner]

@[simp] theorem allInner_cons {p : Piece} {ps : List Piece} :
    AllInner (p :: ps) ↔ p.kind.isInner = true ∧ AllInner ps :=
  List.forall_mem_cons

@[simp] theorem isInner_operand (v : Operand) : v.piece.kind.isInner = true :=
  isInner_of_isValue v.isValue_piece

@[simp] theorem isInner_constant (c : Constant) : c.piece.kind.isInner = true :=
  isInner_of_isValue c.isValue_piece

theorem allInner_sum (es : List Operand) : AllInner (sum es) := by
  intro p hp
  rcases mem_sum hp with rfl | ⟨e, rfl⟩
  · rfl
  · exact isInner_operand e

theorem LoopHead.allInner (h : LoopHead) :
    AllInner h.initPieces ∧ AllInner h.conditionPieces ∧ AllInner h.changePieces := by
  refine ⟨?_, by simp [conditionPieces], ?_⟩
  · unfold initPieces
    split <;> simp
  · unfold changePieces
    split <;> simp

theorem AllInner.flat {ps : List Piece} (h : AllInner ps) (hts : ts.map Token.piece = ps) :
    ts.Flat := by
  intro t ht
  subst hts
  exact h t.piece (List.mem_map_of_mem ht)

end Program

end LessonCheck
