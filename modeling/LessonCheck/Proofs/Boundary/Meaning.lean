import LessonCheck.Lexing.Tokens
import LessonCheck.Meaning.CharRange
import LessonCheck.Meaning.LoopCounter
import LessonCheck.Meaning.StringMethod
import LessonCheck.Proofs.Boundary.Form
import LessonCheck.Proofs.Meaning.Declared

/-!
The checks of meaning at a statement end. A value, a declaration, a use and a member are read inside
the stretch of tokens in which they begin, so the stretch can be checked without what follows it.
All checks together are `Tokens.CheckedApart`.
-/

namespace LessonCheck

variable {t last : Token} {ts rest : Tokens}

/-! ### Values and declarations -/

/-- The value at the front of a complete stretch is judged inside it. -/
theorem AssignedValue.ofTokens_append (h : Tokens.Complete ts) (scope : Scope) (name : String)
    (declared : VariableType) (more : Tokens) :
    ofTokens scope name declared (ts ++ more) = ofTokens scope name declared ts := by
  cases ts with
  | nil => cases h
  | cons value rest =>
      by_cases hname : value.kind = .identifier
      · have hrest := h.behind (Token.not_endsStatement hname rfl)
        rw [List.cons_append]
        simp only [ofTokens, Tokens.getElem?_zero_append hrest.ne_nil]
      · simp [ofTokens, Token.isReference, hname]

namespace Scope

theorem initialValue_append (h : Tokens.Complete ts) (scope : Scope) (name : String)
    (declared : VariableType) (more : Tokens) :
    scope.initialValue name declared (ts ++ more) = scope.initialValue name declared ts := by
  unfold initialValue
  rw [Tokens.getElem?_zero_append h.ne_nil]
  by_cases hequals : ts[0]?.any (·.isOperator "=") = true
  · obtain ⟨hvalue, hdrop⟩ := h.drop_one hequals
    rw [hdrop, AssignedValue.ofTokens_append hvalue]
  · rw [if_neg hequals, if_neg hequals]

theorem declareName_append (h : Tokens.Complete ts) (scope : Scope) (declared : VariableType)
    (name : Token) (more : Tokens) :
    scope.declareName declared name (ts ++ more) = scope.declareName declared name ts := by
  cases hname : scope.lookup? name.lexeme with
  | some existing => rw [declareName_of_some hname, declareName_of_some hname]
  | none =>
      rw [declareName_of_none hname, declareName_of_none hname]
      simp only [initialValue_append h]

theorem declareAt_append (h : Tokens.Complete (t :: rest)) (scope : Scope) (more : Tokens) :
    scope.declareAt t (rest ++ more) = scope.declareAt t rest := by
  unfold declareAt
  cases htype : t.typeNamed? with
  | none => rfl
  | some declared =>
      have hrest := h.behind (Token.not_endsStatement (Token.kind_of_typeNamed? htype) rfl)
      cases rest with
      | nil => exact absurd rfl hrest.ne_nil
      | cons name ts =>
          by_cases hname : name.kind = .identifier
          · have hts := hrest.behind (Token.not_endsStatement hname rfl)
            simp only [List.cons_append, declareName_append hts]
          · simp only [List.cons_append, hname, if_false]

/-- The declarations behind a statement end go on from the scope that was reached there. -/
theorem declareAll_append (h : Tokens.Complete ts) (scope : Scope) (more : Tokens) :
    scope.declareAll (ts ++ more) =
      ⟨((scope.declareAll ts).scope.declareAll more).scope,
        (scope.declareAll ts).problems ++
          ((scope.declareAll ts).scope.declareAll more).problems⟩ := by
  induction h generalizing scope with
  | @last t hend =>
      have hhere := declareAt_append (.last hend) scope more
      rw [List.nil_append] at hhere
      simp only [List.singleton_append, declareAll, hhere, List.append_nil]
  | @cons t ts hclose hrest ih =>
      have hhere := declareAt_append (.cons hclose hrest) scope more
      simp only [List.cons_append, declareAll, hhere, ih, List.append_assoc]

/-! ### Uses -/

theorem useProblems_append (h : Tokens.Complete rest) (scope : Scope) (t : Token) (more : Tokens) :
    scope.useProblems t (rest ++ more) = scope.useProblems t rest := by
  unfold useProblems
  rw [Tokens.getElem?_zero_append h.ne_nil]
  by_cases hequals : rest[0]?.any (·.isOperator "=") = true
  · obtain ⟨hvalue, hdrop⟩ := h.drop_one hequals
    simp only [hdrop, AssignedValue.ofTokens_append hvalue]
  · simp [hequals]

theorem usageProblems_append (h : Tokens.Complete ts) (scope : Scope) (more : Tokens) :
    scope.usageProblems (ts ++ more) = scope.usageProblems ts ++ scope.usageProblems more := by
  refine Tokens.survey_append ?_ ?_ h
  · intro before t rest hplace
    by_cases hname : t.kind = .identifier
    · rw [useProblems_append (hplace.behind (Token.not_endsStatement hname rfl))]
    · simp [Token.isUse, Token.isReference, hname]
  · intro last t rest hend
    have hdot : last.kind ≠ .dot := Token.ne_of_endsStatement hend rfl
    simp [Token.isUse, Token.isTypeKeyword_of_endsStatement hend, hdot]

/-! ### Loops -/

end Scope

theorem LoopHeader.ofTokens_append (h : Tokens.Complete ts) (more : Tokens) :
    ofTokens (ts ++ more) = (ofTokens ts).map (·.extend more) := by
  rcases Tokens.parenthesis?_append h more with ⟨e, he, -, hextend⟩ | ⟨fault, hfault, hextend⟩
  · rw [ofTokens, ofTokens, he, hextend]
    exact ofEnclosed_extend e more
  · rw [ofTokens, ofTokens, hfault, hextend]
    rfl

namespace Scope

theorem loopProblems_append (h : Tokens.Complete ts) (scope : Scope) (more : Tokens) :
    scope.loopProblems (ts ++ more) = scope.loopProblems ts ++ scope.loopProblems more := by
  refine Tokens.survey_append ?_ (fun _ => rfl) h
  intro before t rest hplace
  split
  · next hfor =>
      rw [LoopHeader.ofTokens_append (hplace.behind_keyword hfor)]
      -- The checks read the parts of a header and not what follows it.
      cases LoopHeader.ofTokens rest <;> rfl
  · rfl

/-! ### Members -/

theorem memberProblems_append (h : Tokens.Complete (t :: rest)) (scope : Scope) (more : Tokens) :
    scope.memberProblems t (rest ++ more) = scope.memberProblems t rest := by
  rcases rest with _ | ⟨dot, _ | ⟨method, rest⟩⟩
  · have hname : t.kind ≠ .identifier := Token.ne_of_endsStatement h.endsStatement rfl
    rcases more with _ | ⟨dot, _ | ⟨method, more⟩⟩ <;> simp [memberProblems, hname]
  · have hdot : dot.kind ≠ .dot := Token.ne_of_endsStatement h.tail.endsStatement rfl
    rcases more with _ | ⟨method, more⟩ <;> simp [memberProblems, hdot]
  · rfl

theorem stringMethodProblems_append (h : Tokens.Complete ts) (scope : Scope) (more : Tokens) :
    scope.stringMethodProblems (ts ++ more) =
      scope.stringMethodProblems ts ++ scope.stringMethodProblems more :=
  Tokens.survey_append (fun hplace => memberProblems_append hplace scope more) (fun _ => rfl) h

end Scope

/-! ### All checks -/

namespace Tokens

/-- The checks find in two stretches of tokens, put together, what they find in each: no problem of
one hides one of the other or brings it forth. Only the declarations carry something on, which is
the scope. -/
structure CheckedApart (ts more : Tokens) : Prop where
  brackets : (ts ++ more).bracketProblems = more.bracketProblems
  endings : (ts ++ more).endingProblems = ts.endingProblems ++ more.endingProblems
  loopForms : (ts ++ more).loopFormProblems = ts.loopFormProblems ++ more.loopFormProblems
  concatenations : (ts ++ more).concatenationProblems =
    ts.concatenationProblems ++ more.concatenationProblems
  scope (initial : Scope) : (initial.declareAll (ts ++ more)).scope =
    ((initial.declareAll ts).scope.declareAll more).scope
  declarations (initial : Scope) : (initial.declareAll (ts ++ more)).problems =
    (initial.declareAll ts).problems ++ ((initial.declareAll ts).scope.declareAll more).problems
  uses (scope : Scope) : scope.usageProblems (ts ++ more) =
    scope.usageProblems ts ++ scope.usageProblems more
  loops (scope : Scope) : scope.loopProblems (ts ++ more) =
    scope.loopProblems ts ++ scope.loopProblems more
  charRanges (r : CharRange) : r.problems (ts ++ more) = r.problems ts ++ r.problems more
  stringMethods (scope : Scope) : scope.stringMethodProblems (ts ++ more) =
    scope.stringMethodProblems ts ++ scope.stringMethodProblems more

/-- Behind a semicolon or a closing brace with every bracket in front of it matched, the checks
begin anew. -/
theorem checkedApart_of_bracketProblems {last : Token} {ts : Tokens}
    (hlast : ts.getLast? = some last) (hend : last.kind = .semicolon ∨ last.kind = .rbrace)
    (hbrackets : ts.bracketProblems = []) (more : Tokens) : CheckedApart ts more := by
  have hends : last.kind.endsStatement = true := by
    rcases hend with h | h <;> rw [h] <;> rfl
  have hts := complete_of_bracketProblems hlast hends hbrackets
  exact {
    brackets := bracketProblems_append hbrackets more
    endings := endingProblems_append hts more
    loopForms := loopFormProblems_append hts more
    concatenations := concatenationProblems_append hts more
    scope := fun initial => by rw [Scope.declareAll_append hts]
    declarations := fun initial => by rw [Scope.declareAll_append hts]
    uses := fun scope => Scope.usageProblems_append hts scope more
    loops := fun scope => Scope.loopProblems_append hts scope more
    charRanges := fun _ => List.flatMap_append
    stringMethods := fun scope => Scope.stringMethodProblems_append hts scope more }

/-- A faulty loop, and statements behind it that do not end. -/
theorem checkedApart_loop :
    let front := Token.ofText "for (int i = 'a'; i < 3) \x7b println(\"x\" ++ i) \x7d"
    let back := Token.ofText "int n = i; i = n s.size("
    front.getLast?.any (·.kind = .rbrace) = true ∧ front.bracketProblems = [] ∧
      CheckedApart front back := by
  intro front back
  have hlast : front.getLast? = some ⟨.rbrace, "\x7d", ⟨1, 46⟩⟩ := by decide +kernel
  have hbrackets : front.bracketProblems = [] := by decide +kernel
  exact ⟨by decide +kernel, hbrackets,
    checkedApart_of_bracketProblems hlast (Or.inr rfl) hbrackets back⟩

end Tokens

end LessonCheck
