import LessonCheck.Proofs.Loop.Agreement
import LessonCheck.Proofs.Program.Declarations
import LessonCheck.Proofs.Program.Form

/-!
The passes that read the finished scope are silent on programs: each of them at every place, given
that the scope has the signature of the program.
-/

namespace LessonCheck

open Vocabulary

namespace Program

variable {Γ : Signature} {before : Option Token} {t : Token} {ts rest : Tokens} {scope : Scope}
  {T : VariableType}

/-! ### Uses -/

theorem isUse_of_ne (h : t.kind ≠ .identifier) : t.isUse before = false := by
  simp [Token.isUse, Token.isReference, h]

theorem isUse_of_isReserved {w : String} (hw : isReserved w = true) (h : t.isName w = true) :
    t.isUse before = false := by
  obtain ⟨-, hlexeme⟩ := Token.isName_iff.mp h
  simp [Token.isUse, Token.isReference, hlexeme, hw]

theorem isUse_of_dot {dot : Token} (h : dot.kind = .dot) : t.isUse (some dot) = false := by
  simp [Token.isUse, h]

/-- A name that is not given a value only has to be declared. -/
theorem useProblems_of_ne (hΓ : Distinct Γ) (hscope : scope.signature = Γ.words) {x : VariableName}
    (hx : t.isName x.text = true) (hmem : (x, T) ∈ Γ) {next : Token}
    (hnext : next.isOperator "=" = false) : scope.useProblems t (next :: rest) = [] := by
  obtain ⟨-, hlexeme⟩ := Token.isName_iff.mp hx
  obtain ⟨v, hv, -⟩ := exists_lookup? hΓ hscope hmem
  simp [Scope.useProblems, hlexeme, hv, hnext]

theorem Place.useProblems (hΓ : Distinct Γ) (hscope : scope.signature = Γ.words)
    (h : Place Γ before t rest) (huse : t.isUse before = true) :
    scope.useProblems t rest = [] := by
  have hnone {p : Prop} (hno : t.isUse before = false) : p := by simp [hno] at huse
  cases h with
  | mark hne => exact hnone (isUse_of_ne hne)
  | operand v hv hknown _ hnext =>
      cases v with
      | literal c =>
          have hno : t.isUse before = false := by
            simp [Token.isUse, Constant.isReference (c := c) hv]
          exact hnone hno
      | var x =>
          obtain ⟨S, hS⟩ := hknown
          exact useProblems_of_ne hΓ hscope (Token.isName_of_piece hv) hS hnext
  | target v hx hmem hequals hv hgoes hsemicolon =>
      obtain ⟨-, hlexeme⟩ := Token.isName_iff.mp hx
      obtain ⟨found, hfound, htype⟩ := exists_lookup? hΓ hscope hmem
      have hwithin : scope.signature ⊆ Γ.words := by simp [hscope]
      have herrors := hgoes.errors_eq_nil hΓ hwithin hv hsemicolon
      simp [Scope.useProblems, hlexeme, hfound, hequals, htype, herrors]
  | declaring htype | defining _ htype =>
      exact hnone (isUse_of_ne (by simp [Token.kind_of_typeNamed? htype]))
  | receiver hx hmem hdot =>
      exact useProblems_of_ne hΓ hscope hx hmem (Token.isOperator_of_kind (by simp [hdot]) _)
  | member hdot | out hdot => exact hnone (isUse_of_dot hdot)
  | print _ _ hmethod =>
      simp only [OutputCall.isMethod, isPrintMethod, Bool.and_eq_true, decide_eq_true_eq,
        Bool.or_eq_true, beq_iff_eq] at hmethod
      rcases hmethod.2 with hword | hword
      · exact hnone (isUse_of_isReserved (by decide) (Token.isName_iff.mpr ⟨hmethod.1, hword⟩))
      · exact hnone (isUse_of_isReserved (by decide) (Token.isName_iff.mpr ⟨hmethod.1, hword⟩))
  | system _ _ hsystem => exact hnone (isUse_of_isReserved (by decide) hsystem)
  | loop _ hfor => exact hnone (isUse_of_ne (by simp [Token.kind_of_isKeyword hfor]))

/-! ### Loops -/

/-- A value that suits the loop variable is not reported. -/
theorem Operand.ComparesWith.comparisonProblems (hΓ : Distinct Γ)
    (hscope : scope.signature = Γ.words) {v : Operand} (hv : v.ComparesWith Γ T)
    (ht : t.piece = v.piece) (name : String) :
    LoopCounter.comparisonProblems scope ⟨name, T⟩ t = [] := by
  simp only [LoopCounter.comparisonProblems, Operand.isFaulty ht, Bool.false_eq_true, if_false]
  cases v with
  | literal c =>
      obtain ⟨l, hl⟩ := Constant.Fits.exists_ofToken hv ht name
      simp [Constant.isReference ht, hl]
  | var x =>
      obtain ⟨S, hS, hcompares⟩ := hv
      have hname := Token.isName_of_piece ht
      obtain ⟨-, hlexeme⟩ := Token.isName_iff.mp hname
      obtain ⟨other, hother, rfl⟩ := exists_lookup? hΓ hscope hS
      simp [VariableName.isReference hname, hlexeme, hother, hcompares]

theorem partProblems_of_name {x : VariableName} (ht : t.piece = .name x.text) (part : LoopPart) :
    LoopCounter.partProblems ⟨x.text, T⟩ part (t :: rest) = [] := by
  obtain ⟨-, hlexeme⟩ := Token.isName_iff.mp (Token.isName_of_piece ht)
  simp [LoopCounter.partProblems, hlexeme]

namespace LoopHead

variable {h : LoopHead}

/-- The loop variable is found, whichever way the loop gets it. -/
theorem ofInit (hΓ : Distinct Γ) (hscope : scope.signature = Γ.words)
    (hcounter : (h.counter, T) ∈ Γ) (hinit : h.init.WellTyped T)
    (hts : ts.map Token.piece = h.initPieces) :
    LoopCounter.ofInit scope ts = .found ⟨h.counter.text, T⟩ := by
  have hname {name : Token} {rest : Tokens} (hx : name.piece = .name h.counter.text) :
      LoopCounter.ofInit scope (name :: rest) = .found ⟨h.counter.text, T⟩ := by
    obtain ⟨hkind, hlexeme⟩ := Token.isName_iff.mp (Token.isName_of_piece hx)
    obtain ⟨v, hv, rfl⟩ := exists_lookup? hΓ hscope hcounter
    rw [← hlexeme] at hv
    rw [LoopCounter.ofInit_of_name rest hkind, LoopCounter.ofName_of_some hkind hv, hlexeme]
  unfold initPieces at hts
  unfold LoopInit.WellTyped at hinit
  cases hi : h.init with
  | declare S c =>
      rw [hi] at hinit hts
      obtain ⟨rfl, -⟩ := hinit
      obtain ⟨type, _, rfl, htype, hts⟩ := List.map_eq_cons_iff.mp hts
      obtain ⟨name, tail, rfl, hx, -⟩ := List.map_eq_cons_iff.mp hts
      obtain ⟨hkind, hlexeme⟩ := Token.isName_iff.mp (Token.isName_of_piece hx)
      rw [LoopCounter.ofInit_of_declared tail (Token.typeNamed?_of_piece htype) hkind, hlexeme]
  | assign c =>
      rw [hi] at hts
      obtain ⟨name, tail, rfl, hx, -⟩ := List.map_eq_cons_iff.mp hts
      exact hname hx
  | use =>
      rw [hi] at hts
      obtain ⟨name, tail, rfl, hx, -⟩ := List.map_eq_cons_iff.mp hts
      exact hname hx

theorem partProblems_change (hts : ts.map Token.piece = h.changePieces) :
    LoopCounter.partProblems ⟨h.counter.text, T⟩ .increment ts = [] := by
  unfold changePieces at hts
  split at hts
  all_goals
    obtain ⟨name, tail, rfl, hx, -⟩ := List.map_eq_cons_iff.mp hts
    exact partProblems_of_name hx _

end LoopHead

theorem Header.headerProblems (hΓ : Distinct Γ) (hscope : scope.signature = Γ.words) {h : LoopHead}
    (htyped : h.WellTyped Γ) (hh : Header h rest) :
    ∃ parts, LoopHeader.ofTokens rest = .ok parts ∧ scope.headerProblems parts = [] := by
  obtain ⟨T, hcounter, hinit, hbound, -⟩ := htyped
  obtain ⟨e, parts, he, hparts, hinits, hconditions, hchanges, -⟩ := hh.exists_enclosed
  refine ⟨parts, by simp [LoopHeader.ofTokens, he, hparts, bind, Except.bind], ?_⟩
  simp only [Scope.headerProblems, LoopHead.ofInit hΓ hscope hcounter hinit hinits,
    LoopHead.partProblems_change hchanges, List.append_nil]
  simp only [LoopHead.conditionPieces, List.map_eq_cons_iff, List.map_eq_nil_iff] at hconditions
  obtain ⟨name, _, heq, hname, sign, _, rfl, -, value, _, rfl, hvalue, rfl⟩ := hconditions
  simp only [heq, partProblems_of_name hname, LoopCounter.conditionProblems,
    hbound.comparisonProblems hΓ hscope hvalue, List.append_nil]

theorem Place.headerProblems (hΓ : Distinct Γ) (hscope : scope.signature = Γ.words)
    (h : Place Γ before t rest) (hfor : t.isKeyword "for" = true) :
    ∃ parts, LoopHeader.ofTokens rest = .ok parts ∧ scope.headerProblems parts = [] := by
  obtain ⟨head, hheader, htyped⟩ := h.exists_header hfor
  exact hheader.headerProblems hΓ hscope htyped

/-! ### Methods of strings -/

theorem memberProblems_of_ne (h : t.kind ≠ .identifier) : scope.memberProblems t rest = [] := by
  unfold Scope.memberProblems
  split <;> simp [h]

theorem memberProblems_of_next {next : Token} (h : next.kind ≠ .dot) :
    scope.memberProblems t (next :: rest) = [] := by
  unfold Scope.memberProblems
  split
  · next heq =>
      obtain ⟨rfl, -⟩ := List.cons.inj heq
      simp [h]
  · rfl

theorem memberProblems_of_isReserved (hscope : scope.signature = Γ.words) {w : String}
    (hw : isReserved w = true) (h : t.isName w = true) : scope.memberProblems t rest = [] := by
  obtain ⟨-, hlexeme⟩ := Token.isName_iff.mp h
  have hwithin : scope.signature ⊆ Γ.words := by simp [hscope]
  have hfree := lookup?_of_isReserved hwithin hw
  unfold Scope.memberProblems
  split <;> simp [Scope.isString, hlexeme, hfree]

theorem Place.memberProblems (hscope : scope.signature = Γ.words) (h : Place Γ before t rest) :
    scope.memberProblems t rest = [] := by
  cases h with
  | mark hne => exact memberProblems_of_ne hne
  | operand _ _ _ hdot => exact memberProblems_of_next hdot
  | target _ _ _ hequals =>
      exact memberProblems_of_next (by simp [Token.kind_of_isOperator hequals])
  | declaring htype | defining _ htype =>
      exact memberProblems_of_ne (by simp [Token.kind_of_typeNamed? htype])
  | receiver _ _ _ _ hmethod => simp [Scope.memberProblems, hmethod]
  | member _ _ hopener => exact memberProblems_of_next (by simp [hopener])
  | out _ hout => exact memberProblems_of_isReserved hscope (by decide) hout
  | print _ _ _ harguments =>
      obtain ⟨hopener, -⟩ := harguments
      exact memberProblems_of_next (by simp [hopener])
  | system _ _ hsystem => exact memberProblems_of_isReserved hscope (by decide) hsystem
  | loop _ hfor => exact memberProblems_of_ne (by simp [Token.kind_of_isKeyword hfor])

/-! ### Characters -/

/-- Every character between apostrophes lies in the permitted range, if there is one. -/
def Permitted (options : MeaningOptions) (P : Program) : Prop :=
  ∀ r ∈ options.charRange, ∀ p ∈ P.pieces, p.kind = .char → p.lexeme.all r.contains = true

theorem tokenProblems_of_contains {r : CharRange}
    (h : t.kind = .char → t.lexeme.toList.all r.contains = true) : r.tokenProblems t = [] := by
  unfold CharRange.tokenProblems
  split
  · next c hkind hlexeme =>
      have hc := h hkind
      rw [hlexeme] at hc
      rw [if_pos (by simpa using hc)]
  · rfl

/-- No pass over the meaning has anything to say about a program. -/
theorem problems_meaning_eq_nil {P : Program} {options : MeaningOptions}
    (hP : P.WellTyped P.declared) (hΓ : Distinct P.declared) (hchars : P.Permitted options)
    (hts : ts.map Token.piece = P.pieces) : (Tokens.meaning options ts).problems = [] := by
  have hplaced := placed_none hP hts
  obtain ⟨hdeclarations, hscope⟩ := declareAll_empty hP hΓ hts
  refine Tokens.problems_meaning_eq_nil_iff.mpr ⟨hdeclarations, ?_, ?_, ?_, fun _ => ?_⟩
  · apply hplaced.surveyFrom_eq_nil
    intro before t rest h
    split
    · next huse => exact h.useProblems hΓ hscope huse
    · rfl
  · apply hplaced.surveyFrom_eq_nil
    intro before t rest h
    split
    · next hfor =>
        obtain ⟨parts, hparts, hsilent⟩ := h.headerProblems hΓ hscope hfor
        rw [hparts]
        exact hsilent
    · rfl
  · intro r hr
    rw [CharRange.problems, List.flatMap_eq_nil_iff]
    intro t ht
    have hpiece : t.piece ∈ P.pieces := hts ▸ List.mem_map_of_mem ht
    exact tokenProblems_of_contains (hchars r hr t.piece hpiece)
  · apply hplaced.surveyFrom_eq_nil
    intro before t rest h
    exact h.memberProblems hscope

end Program

end LessonCheck
