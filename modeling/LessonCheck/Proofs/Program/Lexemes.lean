import LessonCheck.Proofs.Program.Grammar

/-!
The pieces of a program are ones that the lexer cuts off as they are: words, numerals, operators,
marks and literals in quotes.
-/

namespace LessonCheck

open Unicode Vocabulary Program

namespace Piece.IsRegular

/-- Of most kinds of token the lexer never complains. -/
theorem of_silent {p : Piece}
    (hcut : ∀ text, p.endsBefore text = true → ∃ c front, p.raw = c :: front ∧
      isBlank c = false ∧ Cut.ofText c (front ++ text) = .one p.kind p.lexeme text)
    (hsilent : ∀ escapes lexeme l, LexicalProblem.ofToken escapes ⟨p.kind, lexeme, l⟩ = []) :
    p.IsRegular := by
  refine ⟨hcut, ?_⟩
  rintro ⟨kind, lexeme, l⟩ rfl
  exact hsilent _ lexeme l

theorem word {w : List Char} (hw : isWord w = true) :
    (⟨Cut.wordKind w, w⟩ : Piece).IsRegular := by
  have hkind : Cut.wordKind w = .keyword ∨ Cut.wordKind w = .identifier := by
    unfold Cut.wordKind
    split <;> simp
  have hsilent : ∀ escapes lexeme l,
      LexicalProblem.ofToken escapes ⟨Cut.wordKind w, lexeme, l⟩ = [] := by
    intro escapes lexeme l
    rcases hkind with h | h <;> rw [h] <;> rfl
  refine of_silent ?_ hsilent
  intro text hends
  have hstops : Stops Cut.isWordChar text = true := by
    rcases hkind with h | h <;> simpa [Piece.endsBefore, h] using hends
  cases w with
  | nil => cases hw
  | cons c front =>
      simp only [isWord, Bool.and_eq_true] at hw
      refine ⟨c, front, ?_, Cut.not_isBlank_of_isWordStart hw.1, Cut.ofText_word hw.1 hw.2 hstops⟩
      rcases hkind with h | h <;> simp [Piece.raw, h]

theorem name {w : String} (hw : isWord w.toList = true) (hkey : isKeyword w = false) :
    (Piece.name w).IsRegular := by
  have hkind : Cut.wordKind w.toList = .identifier := by simp [Cut.wordKind, hkey]
  have hword := word hw
  rwa [hkind] at hword

theorem keyword {w : String} (hw : isWord w.toList = true) (hkey : isKeyword w = true) :
    (Piece.keyword w).IsRegular := by
  have hkind : Cut.wordKind w.toList = .keyword := by simp [Cut.wordKind, hkey]
  have hword := word hw
  rwa [hkind] at hword

theorem not_isBlank_of_isOperatorChar {c : Char} (hc : Cut.isOperatorChar c = true) :
    isBlank c = false := by
  cases hblank : isBlank c with
  | false => rfl
  | true => simp [Cut.isOperatorChar_of_isBlank hblank] at hc

theorem not_isBlank_of_isDigit {c : Char} (hc : c.isDigit = true) : isBlank c = false := by
  cases hblank : isBlank c with
  | false => rfl
  | true => simp [Cut.isDigit_of_isBlank hblank] at hc

/-- An operator of one character. -/
theorem operator_single {c : Char} (hc : Cut.isOperatorChar c = true) :
    (⟨.operator, [c]⟩ : Piece).IsRegular := by
  refine of_silent ?_ (fun _ _ _ => rfl)
  intro text hends
  refine ⟨c, [], rfl, not_isBlank_of_isOperatorChar hc, ?_⟩
  rw [List.nil_append, Cut.ofText_operator hc, Cut.operator_single hc hends]

/-- An operator of two characters, `++` and `--` aside. -/
theorem operator_pair {c d : Char} (hc : Cut.isOperatorChar c = true)
    (hsign : (c = d && ['+', '-'].contains c) = false) (hjoins : Cut.joins c d = true) :
    (⟨.operator, [c, d]⟩ : Piece).IsRegular := by
  refine of_silent ?_ (fun _ _ _ => rfl)
  intro text _
  refine ⟨c, [d], rfl, not_isBlank_of_isOperatorChar hc, ?_⟩
  rw [List.singleton_append, Cut.ofText_operator hc]
  simp only [Cut.operator, hsign, hjoins, Bool.false_eq_true, if_false, if_true]

/-- `++` or `--`. -/
theorem operator_increment {c : Char} (hc : Cut.isOperatorChar c = true)
    (hsign : ['+', '-'].contains c = true) : (⟨.operator, [c, c]⟩ : Piece).IsRegular := by
  refine of_silent ?_ (fun _ _ _ => rfl)
  intro text hends
  refine ⟨c, [c], rfl, not_isBlank_of_isOperatorChar hc, ?_⟩
  rw [List.singleton_append, Cut.ofText_operator hc]
  simp only [Cut.operator, decide_true, hsign, Bool.and_true, if_true]
  exact Cut.increment_single hc hends

theorem mark {kind : Token.Kind} {c : Char} (hc : Cut.punctuation? c = some kind) :
    (⟨kind, [c]⟩ : Piece).IsRegular := by
  unfold Cut.punctuation? at hc
  split at hc <;> cases hc <;>
    exact of_silent (fun text _ => ⟨_, [], rfl, by decide, rfl⟩) (fun _ _ _ => rfl)

theorem number {digits : List Char} (h : isNumeral digits = true) :
    (⟨.number, digits⟩ : Piece).IsRegular := by
  refine of_silent ?_ (fun _ _ _ => rfl)
  intro text hends
  cases digits with
  | nil => cases h
  | cons c front =>
      simp only [isNumeral, Bool.and_eq_true] at h
      simp only [Piece.endsBefore, Bool.and_eq_true, Bool.not_eq_true'] at hends
      refine ⟨c, front, rfl, not_isBlank_of_isDigit h.1, ?_⟩
      rw [Cut.ofText_digit h.1, Cut.number_of_stops h.2 hends.1 hends.2]

theorem float {front fraction : List Char} (hfront : isNumeral front = true)
    (hfraction : isNumeral fraction = true) :
    (⟨.float, front ++ '.' :: fraction⟩ : Piece).IsRegular := by
  refine of_silent ?_ (fun _ _ _ => rfl)
  intro text hends
  cases front with
  | nil => cases hfront
  | cons c front =>
      cases fraction with
      | nil => cases hfraction
      | cons d tail =>
          simp only [isNumeral, Bool.and_eq_true] at hfront hfraction
          refine ⟨c, front ++ '.' :: d :: tail, rfl, not_isBlank_of_isDigit hfront.1, ?_⟩
          have hnumber := Cut.number_point (c := c) hfront.2 hfraction.1 hfraction.2 hends
          rw [Cut.ofText_digit hfront.1]
          simpa using hnumber

theorem string {body : List Char} (h : isQuotable body = true) :
    (⟨.string, body⟩ : Piece).IsRegular := by
  refine ⟨?_, ?_⟩
  · intro text _
    refine ⟨'"', body ++ ['"'], rfl, by decide, ?_⟩
    rw [List.append_assoc, List.singleton_append]
    exact Cut.ofText_string h text
  · rintro ⟨kind, lexeme, l⟩ ht
    obtain ⟨rfl, rfl⟩ := Piece.mk.inj ht
    simp [Token.IsWhole, LexicalProblem.ofToken, InvalidEscape.ofLiteral,
      InvalidEscape.scan_of_isQuotable h]

theorem char {c : Char} (h : isPlainChar c = true) : (⟨.char, [c]⟩ : Piece).IsRegular := by
  simp only [isPlainChar, Bool.and_eq_true, bne_iff_ne, ne_eq] at h
  refine of_silent ?_ (fun _ _ _ => rfl)
  intro text _
  refine ⟨'\'', [c, '\''], rfl, by decide, ?_⟩
  exact Cut.ofText_char h.1.1 h.1.2 h.2 text

end Piece.IsRegular

/-! ### All pieces of a program -/

namespace Program

@[simp] theorem VariableName.isRegular (x : VariableName) : (Piece.name x.text).IsRegular :=
  .name x.word x.notKeyword

@[simp] theorem Constant.isRegular (c : Constant) : c.piece.IsRegular := by
  cases c with
  | whole digits => exact .number digits.property
  | decimal front fraction => exact .float front.property fraction.property
  | char c => exact .char c.property
  | text body => exact .string body.property
  | truth value => cases value <;> exact .name (by decide +kernel) (by decide)
  | null => exact .name (by decide +kernel) (by decide)

@[simp] theorem Operand.isRegular (v : Operand) : v.piece.IsRegular := by
  cases v with
  | literal c => exact c.isRegular
  | var x => exact x.isRegular

@[simp] theorem isRegular_type (T : VariableType) : (Piece.keyword T.word).IsRegular := by
  cases T <;> exact .keyword (by decide +kernel) (by decide)

@[simp] theorem isRegular_equals : (Piece.operator "=").IsRegular :=
  .operator_single (by decide)

@[simp] theorem isRegular_plus : (Piece.operator "+").IsRegular :=
  .operator_single (by decide)

@[simp] theorem Direction.isRegular_step (d : Direction) : (Piece.operator d.step).IsRegular := by
  cases d <;> exact .operator_increment (by decide) (by decide)

@[simp] theorem Direction.isRegular_stepBy (d : Direction) :
    (Piece.operator d.stepBy).IsRegular := by
  cases d <;> exact .operator_pair (by decide) (by decide) (by decide)

@[simp] theorem Relation.isRegular (r : Relation) : (Piece.operator r.symbol).IsRegular := by
  cases r with
  | lt | gt => exact .operator_single (by decide)
  | le | ge | eq | ne => exact .operator_pair (by decide) (by decide) (by decide)

/-- Every piece of the list is regular. -/
def AllRegular (ps : List Piece) : Prop := ∀ p ∈ ps, p.IsRegular

@[simp] theorem allRegular_nil : AllRegular [] := by simp [AllRegular]

@[simp] theorem allRegular_cons {p : Piece} {ps : List Piece} :
    AllRegular (p :: ps) ↔ p.IsRegular ∧ AllRegular ps :=
  List.forall_mem_cons

@[simp] theorem allRegular_append {ps qs : List Piece} :
    AllRegular (ps ++ qs) ↔ AllRegular ps ∧ AllRegular qs :=
  List.forall_mem_append

@[simp] theorem isRegular_semicolon : Piece.semicolon.IsRegular := .mark rfl

@[simp] theorem isRegular_dot : Piece.dot.IsRegular := .mark rfl

@[simp] theorem isRegular_lparen : Piece.lparen.IsRegular := .mark rfl

@[simp] theorem isRegular_rparen : Piece.rparen.IsRegular := .mark rfl

@[simp] theorem isRegular_lbrace : Piece.lbrace.IsRegular := .mark rfl

@[simp] theorem isRegular_rbrace : Piece.rbrace.IsRegular := .mark rfl

@[simp] theorem isRegular_method (m : MethodName) : (Piece.name m.val).IsRegular := by
  have hall : ∀ w ∈ stringMethods, isWord w.toList = true ∧ isKeyword w = false := by
    decide +kernel
  obtain ⟨hword, hkey⟩ := hall m.val (by simpa [isStringMethod] using m.property)
  exact .name hword hkey

theorem allRegular_sum (es : List Operand) : AllRegular (sum es) := by
  intro p hp
  rcases mem_sum hp with rfl | ⟨e, rfl⟩
  · exact isRegular_plus
  · exact e.isRegular

theorem allRegular_outputPath (qualified : Bool) : AllRegular (outputPath qualified) := by
  cases qualified with
  | false => exact allRegular_nil
  | true =>
      have hsystem : (Piece.name "System").IsRegular := .name (by decide +kernel) (by decide)
      have hout : (Piece.name "out").IsRegular := .name (by decide +kernel) (by decide)
      simp [outputPath, hsystem, hout]

theorem isRegular_printMethod (line : Bool) : (Piece.name (printMethod line)).IsRegular := by
  cases line <;> exact .name (by decide +kernel) (by decide)

theorem Statement.allRegular (s : Statement) : AllRegular s.pieces := by
  cases s with
  | print qualified line arguments =>
      simp [Statement.pieces, allRegular_outputPath, isRegular_printMethod, allRegular_sum]
  | _ => simp [Statement.pieces]

theorem LoopHead.allRegular (h : LoopHead) : AllRegular h.pieces := by
  have hfor : (Piece.keyword "for").IsRegular := .keyword (by decide +kernel) (by decide)
  have hinit : AllRegular h.initPieces := by
    unfold LoopHead.initPieces
    split <;> simp
  have hchange : AllRegular h.changePieces := by
    unfold LoopHead.changePieces
    split <;> simp
  simp [LoopHead.pieces, LoopHead.conditionPieces, hfor, hinit, hchange]

/-- Every piece of a program is cut off as it is. -/
theorem allRegular_pieces (P : Program) : AllRegular P.pieces := by
  induction P with
  | done => simp [pieces]
  | statement first next ih => simp [pieces, first.allRegular, ih]
  | loop head body next ihbody ihnext => simp [pieces, head.allRegular, ihbody, ihnext]

end Program

end LessonCheck
