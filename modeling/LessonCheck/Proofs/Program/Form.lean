import LessonCheck.Form.Check
import LessonCheck.Proofs.Program.Output

/-!
The checks of form are silent on programs: each of them at every place, and the matching of brackets
along the structure.
-/

namespace LessonCheck

open Vocabulary

namespace Program

variable {Γ : Signature} {before : Option Token} {t : Token} {ts rest : Tokens}

/-! ### Ends of statements -/

theorem isTypeKeyword_of_ne (h : t.kind ≠ .keyword) : t.isTypeKeyword = false := by
  simp [Token.isTypeKeyword, Token.typeNamed?, h]

theorem ofTokens_cons_of_isValue (h : t.kind.isValue = true) :
    StatementEnd.ofTokens (t :: rest) = StatementEnd.ofTokens rest := by
  rw [StatementEnd.ofTokens]
  cases hkind : t.kind <;> simp_all [Token.Kind.isValue]

theorem ofTokens_cons_of_isOperator {w : String} (h : t.isOperator w = true) :
    StatementEnd.ofTokens (t :: rest) = StatementEnd.ofTokens rest := by
  simp [StatementEnd.ofTokens, Token.kind_of_isOperator h]

theorem ofTokens_cons_of_semicolon (h : t.kind = .semicolon) :
    StatementEnd.ofTokens (t :: rest) = .semicolon := by
  simp [StatementEnd.ofTokens, h]

theorem statementEnding_of_ne {next : Token} (hkey : t.kind ≠ .keyword)
    (hnext : next.isOperator "=" = false) :
    Tokens.statementEnding before t (next :: rest) = [] := by
  simp [Tokens.statementEnding, isTypeKeyword_of_ne hkey, hnext]

theorem Place.statementEnding (h : Place Γ before t rest) :
    Tokens.statementEnding before t rest = [] := by
  cases h with
  | mark hname hkey => simp [Tokens.statementEnding, isTypeKeyword_of_ne hkey, hname]
  | operand v hv _ _ hnext =>
      exact statementEnding_of_ne (ne_keyword_of_isValue (Operand.isValue_kind hv)) hnext
  | target v hx _ _ hv _ hsemicolon =>
      have hkey := isTypeKeyword_of_ne (ne_keyword_of_isValue (isValue_of_isName hx))
      simp [Tokens.statementEnding, hkey, Tokens.isUnended,
        ofTokens_cons_of_isValue (Operand.isValue_kind hv), ofTokens_cons_of_semicolon hsemicolon]
  | declaring htype hx _ hsemicolon =>
      simp [Tokens.statementEnding, Tokens.isUnended,
        ofTokens_cons_of_isValue (isValue_of_isName hx), ofTokens_cons_of_semicolon hsemicolon]
  | defining v htype hx _ hequals hv _ hsemicolon =>
      simp [Tokens.statementEnding, Tokens.isUnended,
        ofTokens_cons_of_isValue (isValue_of_isName hx), ofTokens_cons_of_isOperator hequals,
        ofTokens_cons_of_isValue (Operand.isValue_kind hv), ofTokens_cons_of_semicolon hsemicolon]
  | receiver hx _ hdot =>
      exact statementEnding_of_ne (ne_keyword_of_isValue (isValue_of_isName hx))
        (Token.isOperator_of_kind (by simp [hdot]) _)
  | member _ hmethod hopener =>
      exact statementEnding_of_ne (by simp [hmethod])
        (Token.isOperator_of_kind (by simp [hopener]) _)
  | out _ hout hdot =>
      exact statementEnding_of_ne (ne_keyword_of_isValue (isValue_of_isName hout))
        (Token.isOperator_of_kind (by simp [hdot]) _)
  | print es _ hmethod harguments =>
      obtain ⟨hopener, -⟩ := harguments
      exact statementEnding_of_ne (by simp [OutputCall.kind_of_isMethod hmethod])
        (Token.isOperator_of_kind (by simp [hopener]) _)
  | system es _ hsystem hdot =>
      exact statementEnding_of_ne (ne_keyword_of_isValue (isValue_of_isName hsystem))
        (Token.isOperator_of_kind (by simp [hdot]) _)
  | loop _ hfor =>
      simp only [Token.isKeyword, Bool.and_eq_true, decide_eq_true_eq, beq_iff_eq] at hfor
      have hword : VariableType.ofWord? "for" = none := by decide
      simp [Tokens.statementEnding, Token.isTypeKeyword, Token.typeNamed?, hfor, hword]

/-! ### Loops -/

theorem Relation.isRelational {r : Relation} (ht : t.piece = .operator r.symbol) :
    t.isRelational = true := by
  have hkind : t.kind = .operator := Token.kind_of_piece ht
  have hlexeme := Token.lexeme_of_piece ht
  cases r <;> simp [Token.isRelational, hkind, hlexeme, Relation.symbol]

theorem Direction.isStep {d : Direction} (ht : t.piece = .operator d.step) : t.isStep = true := by
  cases d <;> simp [Token.isStep, Token.isOperator_of_piece ht, Direction.step]

theorem Direction.isStepBy {d : Direction} (ht : t.piece = .operator d.stepBy) :
    t.isStep = false ∧ t.isStepBy = true := by
  cases d <;>
    simp [Token.isStep, Token.isStepBy, Token.isOperator_of_piece ht, Direction.stepBy]

namespace LoopHead

variable {h : LoopHead} {T : VariableType} {keyword : Token}

theorem initProblems_eq_nil (hinit : h.init.WellTyped T)
    (hts : ts.map Token.piece = h.initPieces) : LoopHeader.initProblems keyword ts = [] := by
  unfold initPieces at hts
  unfold LoopInit.WellTyped at hinit
  cases hi : h.init with
  | declare S c =>
      rw [hi] at hinit
      simp only [hi, List.map_eq_cons_iff, List.map_eq_nil_iff] at hts
      obtain ⟨type, _, rfl, htype, name, _, rfl, hname, equals, _, rfl, hequals, value, _, rfl,
        hvalue, rfl⟩ := hts
      obtain ⟨rfl, hc⟩ := hinit
      have hkind := (Token.kind_of_piece hvalue).trans hc.kind_piece
      simp [LoopHeader.initProblems, Token.typeNamed?_of_piece htype,
        LoopHeader.declaredInitProblems, Token.kind_of_piece hname, Piece.name,
        Token.isOperator_of_piece hequals, hkind]
  | assign c =>
      simp only [hi, List.map_eq_cons_iff, List.map_eq_nil_iff] at hts
      obtain ⟨name, _, rfl, hname, equals, _, rfl, hequals, value, _, rfl, hvalue, rfl⟩ := hts
      have hkind : name.kind = .identifier := Token.kind_of_piece hname
      have hv : value.kind.isValue = true := Operand.isValue_kind (v := .literal c) hvalue
      simp [LoopHeader.initProblems, Token.typeNamed?, LoopHeader.plainInitProblems, hkind,
        Token.isOperator_of_piece hequals, hv]
  | use =>
      simp only [hi, List.map_eq_cons_iff, List.map_eq_nil_iff] at hts
      obtain ⟨name, _, rfl, hname, rfl⟩ := hts
      have hkind : name.kind = .identifier := Token.kind_of_piece hname
      simp [LoopHeader.initProblems, Token.typeNamed?, LoopHeader.plainInitProblems, hkind]

theorem conditionProblems_eq_nil (hts : ts.map Token.piece = h.conditionPieces) :
    LoopHeader.conditionProblems keyword ts = [] := by
  simp only [conditionPieces, List.map_eq_cons_iff, List.map_eq_nil_iff] at hts
  obtain ⟨name, _, rfl, hname, sign, _, rfl, hsign, value, _, rfl, hvalue, rfl⟩ := hts
  have hkind : name.kind = .identifier := Token.kind_of_piece hname
  simp [LoopHeader.conditionProblems, hkind, Relation.isRelational hsign,
    Operand.isValue_kind hvalue]

theorem incrementProblems_eq_nil (hts : ts.map Token.piece = h.changePieces) :
    LoopHeader.incrementProblems keyword ts = [] := by
  unfold changePieces at hts
  cases hi : h.change with
  | step d =>
      simp only [hi, List.map_eq_cons_iff, List.map_eq_nil_iff] at hts
      obtain ⟨name, _, rfl, hname, sign, _, rfl, hsign, rfl⟩ := hts
      have hkind : name.kind = .identifier := Token.kind_of_piece hname
      simp [LoopHeader.incrementProblems, hkind, Direction.isStep hsign, LoopHeader.stepProblems]
  | stepBy d v =>
      simp only [hi, List.map_eq_cons_iff, List.map_eq_nil_iff] at hts
      obtain ⟨name, _, rfl, hname, sign, _, rfl, hsign, value, _, rfl, hvalue, rfl⟩ := hts
      have hkind : name.kind = .identifier := Token.kind_of_piece hname
      simp [LoopHeader.incrementProblems, hkind, Direction.isStepBy hsign,
        LoopHeader.stepByProblems, Operand.isValue_kind hvalue]

end LoopHead

/-- The header of a loop falls into the three parts that the loop was written with. -/
theorem Header.exists_enclosed {h : LoopHead} (hh : Header h rest) :
    ∃ e parts, rest.parenthesis? = .ok e ∧ LoopHeader.ofEnclosed e = .ok parts ∧
      parts.init.map Token.piece = h.initPieces ∧
      parts.condition.map Token.piece = h.conditionPieces ∧
      parts.increment.map Token.piece = h.changePieces ∧
      e.after[0]?.any (·.kind = .lbrace) = true := by
  obtain ⟨hopener, hinit, hfirst, hcondition, hsecond, hchange, hcloser, hbrace⟩ := hh
  next opener first second closer brace init condition change rest =>
    obtain ⟨hflatInit, hflatCondition, hflatChange⟩ := h.allInner
    have hinits := hflatInit.flat hinit
    have hconditions := hflatCondition.flat hcondition
    have hchanges := hflatChange.flat hchange
    have hinside : ∀ t ∈ init ++ first :: (condition ++ second :: change),
        t.kind ≠ .lparen ∧ t.kind ≠ .rparen := by
      have hplain {t : Token} (ht : t.kind.isInner = true) :=
        And.intro (Tokens.ne_of_isInner ht).1 (Tokens.ne_of_isInner ht).2.1
      intro t ht
      simp only [List.mem_append, List.mem_cons] at ht
      rcases ht with ht | rfl | ht | rfl | ht
      · exact hplain (hinits t ht)
      · simp [hfirst]
      · exact hplain (hconditions t ht)
      · simp [hsecond]
      · exact hplain (hchanges t ht)
    have hsplit := Enclosed.ofTokens?_append hinside hcloser (brace :: rest)
    simp only [List.append_assoc, List.cons_append] at hsplit
    have hclauses : Tokens.clauses (init ++ first :: (condition ++ second :: change)) =
        [init, condition, change] := by
      rw [hinits.clauses_append hfirst, hconditions.clauses_append hsecond, hchanges.clauses]
    refine ⟨⟨init ++ first :: (condition ++ second :: change), closer, brace :: rest⟩,
      ⟨init, condition, change, closer, brace :: rest⟩, ?_, ?_, hinit, hcondition, hchange, ?_⟩
    · simp only [Tokens.parenthesis?, hopener, if_true, hsplit]
    · simp only [LoopHeader.ofEnclosed, hclauses]
    · simp [hbrace]

/-- At a `for` of a program stands the header of one of its loops. -/
theorem Place.exists_header (h : Place Γ before t rest) (hfor : t.isKeyword "for" = true) :
    ∃ head, Header head rest ∧ head.WellTyped Γ := by
  have hkey : t.kind = .keyword ∧ t.lexeme = "for" := by simpa [Token.isKeyword] using hfor
  have hnone {p : Prop} (hvalue : t.kind.isValue = true) : p := by
    simp [hkey, Token.Kind.isValue] at hvalue
  cases h with
  | mark _ hne => exact absurd hkey.1 hne
  | operand v hv => exact hnone (Operand.isValue_kind hv)
  | target v hx | receiver hx | out _ hx => exact hnone (isValue_of_isName hx)
  | declaring htype | defining _ htype =>
      have hword : VariableType.ofWord? "for" = none := by decide
      simp [Token.typeNamed?, hkey, hword] at htype
  | member _ hmethod => simp [hkey] at hmethod
  | print _ _ hmethod => simp [OutputCall.kind_of_isMethod hmethod] at hkey
  | system _ _ hx => exact hnone (isValue_of_isName hx)
  | loop head _ hheader htyped => exact ⟨head, hheader, htyped⟩

theorem Place.loopForm (h : Place Γ before t rest) (hfor : t.isKeyword "for" = true) :
    LoopHeader.formProblems t rest = [] := by
  obtain ⟨head, hheader, T, -, hinit, -⟩ := h.exists_header hfor
  obtain ⟨e, parts, he, hparts, hinits, hconditions, hchanges, hbrace⟩ := hheader.exists_enclosed
  have hbody : LoopHeader.bodyProblems e = [] := if_pos hbrace
  simp only [LoopHeader.formProblems, he, LoopHeader.clauseProblems, hparts,
    LoopHead.initProblems_eq_nil hinit hinits, LoopHead.conditionProblems_eq_nil hconditions,
    LoopHead.incrementProblems_eq_nil hchanges, hbody, List.append_nil]

/-! ### Brackets -/

/-- Every bracket among the pieces has its partner. -/
inductive Balanced : List Piece → Prop
  | nil : Balanced []
  | cons {p : Piece} {ps : List Piece} : Bracket.openedBy? p.kind = none →
      Bracket.closedBy? p.kind = none → Balanced ps → Balanced (p :: ps)
  | parens {inside ps : List Piece} : Balanced inside → Balanced ps →
      Balanced (.lparen :: (inside ++ .rparen :: ps))
  | braces {inside ps : List Piece} : Balanced inside → Balanced ps →
      Balanced (.lbrace :: (inside ++ .rbrace :: ps))

theorem Balanced.neutral {ps : List Piece} (h : Balanced ps) (hts : ts.map Token.piece = ps) :
    ts.Neutral := by
  have hpair {b : Bracket} {opener closer : Token} {inside rest : Tokens} {p q : Piece}
      (hopener : opener.piece = p) (hcloser : closer.piece = q)
      (hopen : Bracket.openedBy? p.kind = some b) (hclosing : Bracket.openedBy? q.kind = none)
      (hclose : Bracket.closedBy? q.kind = some b) (hinside : inside.Neutral)
      (hrest : rest.Neutral) : Tokens.Neutral (opener :: (inside ++ closer :: rest)) := by
    rw [← Token.kind_of_piece hopener] at hopen
    rw [← Token.kind_of_piece hcloser] at hclosing hclose
    simpa using (hinside.enclosed hopen hclosing hclose).append hrest
  induction h generalizing ts with
  | nil =>
      obtain rfl := List.map_eq_nil_iff.mp hts
      exact Tokens.neutral_nil
  | cons hopen hclose _ ih =>
      obtain ⟨t, rest, rfl, ht, hrest⟩ := List.map_eq_cons_iff.mp hts
      rw [← Token.kind_of_piece ht] at hopen hclose
      exact (Tokens.neutral_singleton hopen hclose).append (ih hrest)
  | parens _ _ ihinside ihrest | braces _ _ ihinside ihrest =>
      obtain ⟨opener, _, rfl, hopener, hts⟩ := List.map_eq_cons_iff.mp hts
      obtain ⟨inside, _, rfl, hinside, hts⟩ := List.map_eq_append_iff.mp hts
      obtain ⟨closer, rest, rfl, hcloser, hrest⟩ := List.map_eq_cons_iff.mp hts
      exact hpair hopener hcloser rfl rfl rfl (ihinside hinside) (ihrest hrest)

namespace Balanced

variable {ps qs : List Piece}

theorem append (hps : Balanced ps) (hqs : Balanced qs) : Balanced (ps ++ qs) := by
  induction hps with
  | nil => exact hqs
  | cons hopen hclose _ ih => exact .cons hopen hclose ih
  | parens hinside _ _ ih =>
      rw [List.cons_append, List.append_assoc]
      exact .parens hinside ih
  | braces hinside _ _ ih =>
      rw [List.cons_append, List.append_assoc]
      exact .braces hinside ih

theorem inner {p : Piece} (hp : p.kind.isInner = true) (hps : Balanced ps) :
    Balanced (p :: ps) := by
  refine .cons ?_ ?_ hps <;> cases hkind : p.kind <;>
    simp_all [Token.Kind.isInner, Bracket.openedBy?, Bracket.closedBy?]

theorem of_allInner (hps : AllInner ps) : Balanced ps := by
  induction ps with
  | nil => exact .nil
  | cons p ps ih =>
      obtain ⟨hp, hps⟩ := allInner_cons.mp hps
      exact .inner hp (ih hps)

end Balanced

theorem Statement.balanced (s : Statement) : Balanced s.pieces := by
  have hend : Balanced [.semicolon] := .cons rfl rfl .nil
  cases s with
  | declare T x => exact .inner rfl (.inner rfl hend)
  | define T x v => exact .inner rfl (.inner rfl (.inner rfl (.inner (isInner_operand v) hend)))
  | assign x v => exact .inner rfl (.inner rfl (.inner (isInner_operand v) hend))
  | step x d => exact .inner rfl (.inner rfl hend)
  | call x m => exact .inner rfl (.cons rfl rfl (.inner rfl (.parens .nil hend)))
  | print qualified line es =>
      have hcall : Balanced (.lparen :: (sum es ++ [.rparen, .semicolon])) :=
        .parens (.of_allInner (allInner_sum es)) hend
      cases qualified with
      | false => exact .inner rfl hcall
      | true => exact .inner rfl (.cons rfl rfl (.inner rfl (.cons rfl rfl (.inner rfl hcall))))

theorem LoopHead.balanced (h : LoopHead) : Balanced h.pieces := by
  obtain ⟨hinit, hcondition, hchange⟩ := h.allInner
  have hinside : Balanced (h.initPieces ++ .semicolon :: (h.conditionPieces ++
      .semicolon :: h.changePieces)) :=
    (Balanced.of_allInner hinit).append (.cons rfl rfl
      ((Balanced.of_allInner hcondition).append (.cons rfl rfl (.of_allInner hchange))))
  have hparens : Balanced (.lparen :: (_ ++ [.rparen])) := .parens hinside .nil
  simp only [List.append_assoc, List.cons_append] at hparens
  exact .inner rfl hparens

theorem balanced_pieces (P : Program) : Balanced P.pieces := by
  induction P with
  | done => exact .nil
  | statement first next ih => exact first.balanced.append ih
  | loop head body next ihbody ihnext => exact head.balanced.append (.braces ihbody ihnext)

/-- No check of form has anything to say about a program. -/
theorem formProblems_eq_nil {P : Program} (hP : P.WellTyped P.declared)
    (hts : ts.map Token.piece = P.pieces) : ts.formProblems = [] := by
  have hplaced := placed_none hP hts
  refine Tokens.formProblems_eq_nil_iff.mpr ⟨?_, ?_, ?_, hplaced.concatenation⟩
  · exact (P.balanced_pieces.neutral hts).bracketProblems
  · apply hplaced.surveyFrom_eq_nil
    intro before t rest h
    rw [h.printEnding, h.statementEnding, List.append_nil]
  · apply hplaced.surveyFrom_eq_nil
    intro before t rest h
    split
    · next hfor => exact h.loopForm hfor
    · rfl

end Program

end LessonCheck
