import LessonCheck.Proofs.Program.Values

/-!
The declarations of a program. Its tokens declare its signature, variable by variable and in order;
and if no name occurs twice in the signature, every declaration takes effect and none is reported.
-/

namespace LessonCheck

namespace Program

variable {Γ : Signature} {before : Option Token} {t : Token} {ts rest : Tokens} {scope : Scope}
  {T : VariableType}

theorem typeNamed?_for (h : t.isKeyword "for" = true) : t.typeNamed? = none := by
  simp only [Token.isKeyword, Bool.and_eq_true, decide_eq_true_eq, beq_iff_eq] at h
  have hword : VariableType.ofWord? "for" = none := by decide
  simp [Token.typeNamed?, h, hword]

theorem declaration?_of_typeNamed? (h : t.typeNamed? = none) :
    Tokens.declaration? t rest = none := by
  simp [Tokens.declaration?, h]

theorem declarations_cons (h : t.typeNamed? = none) :
    Tokens.declarations (t :: rest) = Tokens.declarations rest := by
  simp [Tokens.declarations, declaration?_of_typeNamed? h]

/-- Tokens without keywords declare nothing. -/
theorem declarations_append {ps : List Piece} (hps : ∀ p ∈ ps, p.kind ≠ .keyword)
    (hts : ts.map Token.piece = ps) (rest : Tokens) :
    Tokens.declarations (ts ++ rest) = Tokens.declarations rest := by
  induction ps generalizing ts with
  | nil =>
      obtain rfl := List.map_eq_nil_iff.mp hts
      rfl
  | cons p ps ih =>
      obtain ⟨t, others, rfl, ht, hothers⟩ := List.map_eq_cons_iff.mp hts
      obtain ⟨hp, hps⟩ := List.forall_mem_cons.mp hps
      rw [← Token.kind_of_piece ht] at hp
      exact (declarations_cons (Token.typeNamed?_of_ne hp)).trans (ih hps hothers)

@[simp] theorem Operand.ne_keyword (v : Operand) : v.piece.kind ≠ .keyword := by
  have hvalue := v.isValue_piece
  rintro hkind
  simp [hkind, Token.Kind.isValue] at hvalue

@[simp] theorem Constant.ne_keyword (c : Constant) : c.piece.kind ≠ .keyword :=
  Operand.ne_keyword (.literal c)

/-- A type keyword with a name behind it, and tokens without keywords. -/
theorem declarations_define {x : VariableName} {ps : List Piece}
    (hps : ∀ p ∈ ps, p.kind ≠ .keyword)
    (hts : ts.map Token.piece = .keyword T.word :: .name x.text :: ps) :
    Tokens.declarations (ts ++ rest) = (x.text, T) :: Tokens.declarations rest := by
  obtain ⟨type, _, rfl, htype, hts⟩ := List.map_eq_cons_iff.mp hts
  have hname : ∀ p ∈ .name x.text :: ps, p.kind ≠ .keyword :=
    List.forall_mem_cons.mpr ⟨by simp, hps⟩
  have hrest := declarations_append hname hts rest
  obtain ⟨name, tail, rfl, hname, -⟩ := List.map_eq_cons_iff.mp hts
  obtain ⟨hkind, hlexeme⟩ := Token.isName_iff.mp (Token.isName_of_piece hname)
  rw [List.cons_append, Tokens.declarations, hrest]
  simp [Tokens.declaration?, Token.typeNamed?_of_piece htype, hkind, hlexeme]

theorem Statement.declarations_append {s : Statement} (hts : ts.map Token.piece = s.pieces) :
    Tokens.declarations (ts ++ rest) = Signature.words s.declared ++ Tokens.declarations rest := by
  cases s with
  | declare T x => exact declarations_define (by simp) hts
  | define T x v => exact declarations_define (by simp) hts
  | print qualified line es =>
      refine Program.declarations_append ?_ hts rest
      have hsum : ∀ p ∈ sum es, p.kind ≠ .keyword := by
        intro p hp
        rcases mem_sum hp with rfl | ⟨e, rfl⟩
        · nofun
        · exact e.ne_keyword
      cases qualified <;> simpa [pieces, outputPath, or_imp, forall_and] using hsum
  | assign x v | step x d | call x m =>
      exact Program.declarations_append (by simp [pieces]) hts rest

theorem LoopHead.declarations_init {h : LoopHead} (hts : ts.map Token.piece = h.initPieces) :
    Tokens.declarations (ts ++ rest) = Signature.words h.declared ++ Tokens.declarations rest := by
  unfold initPieces at hts
  unfold declared
  cases hi : h.init with
  | declare T c =>
      rw [hi] at hts
      exact declarations_define (by simp) hts
  | assign c =>
      rw [hi] at hts
      exact Program.declarations_append (by simp) hts rest
  | use =>
      rw [hi] at hts
      exact Program.declarations_append (by simp) hts rest

theorem LoopHead.declarations_append {h : LoopHead} (hts : ts.map Token.piece = h.pieces) :
    Tokens.declarations (ts ++ rest) = Signature.words h.declared ++ Tokens.declarations rest := by
  obtain ⟨keyword, _, rfl, hkeyword, hts⟩ := List.map_eq_cons_iff.mp hts
  obtain ⟨opener, _, rfl, hopener, hts⟩ := List.map_eq_cons_iff.mp hts
  obtain ⟨init, tail, rfl, hinit, htail⟩ := List.map_eq_append_iff.mp hts
  have hopen : opener.typeNamed? = none := by
    apply Token.typeNamed?_of_ne
    simp [Token.kind_of_piece hopener]
  have hend : Tokens.declarations (tail ++ rest) = Tokens.declarations rest := by
    refine Program.declarations_append ?_ htail rest
    have hchange : ∀ p ∈ h.changePieces, p.kind ≠ .keyword := by
      unfold changePieces
      split <;> simp
    simpa [conditionPieces, or_imp, forall_and] using hchange
  rw [List.cons_append, declarations_cons (typeNamed?_for (Token.isKeyword_of_piece hkeyword)),
    List.cons_append, declarations_cons hopen, List.append_assoc, declarations_init hinit, hend]

/-- A program declares its signature. -/
theorem declarations_pieces {P : Program} (hts : ts.map Token.piece = P.pieces) (rest : Tokens) :
    Tokens.declarations (ts ++ rest) = Signature.words P.declared ++ Tokens.declarations rest := by
  induction P generalizing ts rest with
  | done =>
      obtain rfl := List.map_eq_nil_iff.mp hts
      rfl
  | statement first next ih =>
      obtain ⟨front, others, rfl, hfront, hothers⟩ := List.map_eq_append_iff.mp hts
      rw [List.append_assoc, Statement.declarations_append hfront, ih hothers]
      simp [declared, Signature.words]
  | loop head body next ihbody ihnext =>
      obtain ⟨front, others, rfl, hfront, hothers⟩ := List.map_eq_append_iff.mp hts
      obtain ⟨opener, _, rfl, hopener, hothers⟩ := List.map_eq_cons_iff.mp hothers
      obtain ⟨inside, _, rfl, hinside, hothers⟩ := List.map_eq_append_iff.mp hothers
      obtain ⟨closer, others, rfl, hcloser, hothers⟩ := List.map_eq_cons_iff.mp hothers
      have hopen : opener.typeNamed? = none :=
        Token.typeNamed?_of_ne (by simp [Token.kind_of_piece hopener])
      have hclose : closer.typeNamed? = none :=
        Token.typeNamed?_of_ne (by simp [Token.kind_of_piece hcloser])
      simp only [List.append_assoc, List.cons_append]
      rw [LoopHead.declarations_append hfront, declarations_cons hopen, ihbody hinside,
        declarations_cons hclose, ihnext hothers]
      simp [declared, Signature.words]

/-! ### Their effect -/

theorem Place.declaration?_eq (h : Place Γ before t rest) :
    Tokens.declaration? t rest = none ∨ ∃ T name ts, t.typeNamed? = some T ∧ rest = name :: ts ∧
      name.kind = .identifier ∧ ∀ scope : Scope, scope.signature ⊆ Γ.words → Distinct Γ →
        (scope.initialValue name.lexeme T ts).errors = [] := by
  have hnone {p : Prop} (hne : t.kind ≠ .keyword) : Tokens.declaration? t rest = none ∨ p :=
    Or.inl (declaration?_of_typeNamed? (Token.typeNamed?_of_ne hne))
  cases h with
  | mark _ hne => exact hnone hne
  | operand v hv => exact hnone (ne_keyword_of_isValue (Operand.isValue_kind hv))
  | target v hx | receiver hx => exact hnone (ne_keyword_of_isValue (isValue_of_isName hx))
  | declaring htype hx _ hsemicolon =>
      refine Or.inr ⟨_, _, _, htype, rfl, (Token.isName_iff.mp hx).1, ?_⟩
      intro scope _ _
      simp [Scope.initialValue, Token.isOperator, hsemicolon, AssignedValue.errors]
  | defining v htype hx _ hequals hv hgoes hsemicolon =>
      refine Or.inr ⟨_, _, _, htype, rfl, (Token.isName_iff.mp hx).1, ?_⟩
      intro scope hscope hΓ
      simp only [Scope.initialValue, List.getElem?_cons_zero, Option.any_some, hequals, if_true]
      exact hgoes.errors_eq_nil hΓ hscope hv hsemicolon _ _
  | member _ hmethod => exact hnone (by simp [hmethod])
  | out _ hx => exact hnone (ne_keyword_of_isValue (isValue_of_isName hx))
  | print _ _ hmethod => exact hnone (by simp [OutputCall.kind_of_isMethod hmethod])
  | system _ _ hx => exact hnone (ne_keyword_of_isValue (isValue_of_isName hx))
  | loop _ hfor => exact Or.inl (declaration?_of_typeNamed? (typeNamed?_for hfor))

/-- While the variables are taken in, those that are in and those still to come make up the
signature; so no name is ever taken. -/
theorem Placed.declareAll (hΓ : Distinct Γ) (h : Placed Γ before ts)
    (hscope : scope.signature ++ Tokens.declarations ts = Γ.words) :
    (scope.declareAll ts).problems = [] ∧ (scope.declareAll ts).scope.signature = Γ.words := by
  induction ts generalizing before scope with
  | nil =>
      rw [Tokens.declarations, List.append_nil] at hscope
      exact ⟨rfl, hscope⟩
  | cons t rest ih =>
      obtain ⟨hplace, hrest⟩ := h
      rw [Tokens.declarations] at hscope
      rcases hplace.declaration?_eq with hnone | ⟨T, name, others, htype, rfl, hname, hvalue⟩
      · rw [hnone] at hscope
        simp only [Scope.declareAll, Scope.declareAt_of_none hnone, List.nil_append]
        exact ih hrest hscope
      · have hdeclaration : Tokens.declaration? t (name :: others) = some (name.lexeme, T) := by
          simp [Tokens.declaration?, htype, hname]
        rw [hdeclaration] at hscope
        -- A name that is taken would stand twice in the signature.
        have hfree : scope.lookup? name.lexeme = none := by
          apply Scope.lookup?_eq_none_of_signature
          have hnodup : ((scope.signature ++ ((some (name.lexeme, T)).toList ++
              Tokens.declarations (name :: others))).map Prod.fst).Nodup := by
            rw [hscope]
            simpa [Signature.words, Distinct, Function.comp_def] using hΓ
          rw [List.map_append, List.nodup_append] at hnodup
          intro hmem
          exact hnodup.2.2 _ hmem _ (by simp) rfl
        obtain ⟨hsignature, hproblems⟩ := Scope.declareAt_of_free htype hname hfree others
        have hwithin : scope.signature ⊆ Γ.words := by
          rw [← hscope]
          exact List.subset_append_left _ _
        rw [hvalue scope hwithin hΓ, List.map_nil] at hproblems
        obtain ⟨hsilent, hfinal⟩ := ih hrest (by rw [hsignature]; simpa using hscope)
        simp only [Scope.declareAll, hproblems, List.nil_append]
        exact ⟨hsilent, hfinal⟩

/-- The declarations of a program are not reported and leave its signature behind. -/
theorem declareAll_empty {P : Program} (hP : P.WellTyped P.declared) (hΓ : Distinct P.declared)
    (hts : ts.map Token.piece = P.pieces) :
    (Scope.empty.declareAll ts).problems = [] ∧
      (Scope.empty.declareAll ts).scope.signature = Signature.words P.declared := by
  apply Placed.declareAll hΓ (placed_none hP hts)
  have h := declarations_pieces hts []
  simp only [Tokens.declarations, List.append_nil] at h
  exact h

end Program

end LessonCheck
