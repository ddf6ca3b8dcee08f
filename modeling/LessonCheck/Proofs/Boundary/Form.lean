import LessonCheck.Form.Ending
import LessonCheck.Form.LoopForm
import LessonCheck.Proofs.Form.OutputCalls
import LessonCheck.Proofs.Token.Complete

/-!
The checks of form at a statement end. What a check reads from a token of a complete stretch, a
print call, the rest of a statement or the header of a loop, is the same whatever stands behind the
stretch; and a statement end has no influence on the token behind it.
-/

namespace LessonCheck

variable {before : Option Token} {t last : Token} {ts rest : Tokens}

theorem Token.isTypeKeyword_of_endsStatement (h : last.kind.endsStatement = true) :
    last.isTypeKeyword = false := by
  have hkind : last.kind ≠ .keyword := ne_of_endsStatement h rfl
  simp [isTypeKeyword, typeNamed?, hkind]

/-! ### Print calls -/

namespace OutputCall

def extend (call : OutputCall) (more : Tokens) : OutputCall :=
  { call with arguments := call.arguments.map (·.extend more) }

/-- No call goes on behind a statement end, which is no dot. -/
theorem at?_of_endsStatement (h : last.kind.endsStatement = true) :
    at? (some last) t rest = at? none t rest := by
  have hdot : last.kind ≠ .dot := Token.ne_of_endsStatement h rfl
  simp [at?, hdot]

theorem isMethod_of_endsStatement (h : t.kind.endsStatement = true) : isMethod t = false :=
  isMethod_eq_false_of_kind (Token.ne_of_endsStatement h rfl)

theorem ofMethod?_append {qualified : Bool} (h : Tokens.Complete (t :: rest)) (more : Tokens) :
    ofMethod? qualified t (rest ++ more) = (ofMethod? qualified t rest).map (·.extend more) := by
  cases rest with
  | nil =>
      have hmethod := isMethod_of_endsStatement h.endsStatement
      cases more <;> simp [ofMethod?, hmethod]
  | cons u rest =>
      by_cases hopen : (isMethod t && u.kind = .lparen) = true
      · have hkind : u.kind = .lparen := by simpa using (Bool.and_eq_true_iff.mp hopen).2
        obtain ⟨e, he, -⟩ := h.tail.exists_enclosed hkind
        simp [ofMethod?, hopen, he, Enclosed.ofTokens?_extend he, extend]
      · simp [ofMethod?, hopen]

/-- A call in a complete stretch does not depend on what follows the stretch. -/
theorem at?_append (h : Tokens.Complete (t :: rest)) (more : Tokens) :
    at? before t (rest ++ more) = (at? before t rest).map (·.extend more) := by
  unfold at?
  split
  · rfl
  · split
    · next hsystem =>
        have hname {u : Token} (hu : u.kind.endsStatement = true) (w : String) :
            u.isName w = false :=
          Token.isName_eq_false_of_kind (Token.ne_of_endsStatement hu rfl) w
        have hdot {u : Token} (hu : u.kind.endsStatement = true) : u.kind ≠ .dot :=
          Token.ne_of_endsStatement hu rfl
        -- The path to the method would have to go on past the end of the stretch.
        rcases rest with _ | ⟨first, _ | ⟨out, _ | ⟨second, _ | ⟨method, rest⟩⟩⟩⟩
        · simp [hname h.endsStatement] at hsystem
        · have hfirst := hdot h.tail.endsStatement
          rcases more with _ | ⟨a, _ | ⟨b, _ | ⟨c, more⟩⟩⟩ <;> simp [hfirst]
        · have hout := hname h.tail.tail.endsStatement "out"
          rcases more with _ | ⟨a, _ | ⟨b, more⟩⟩ <;> simp [hout]
        · have hsecond := hdot h.tail.tail.tail.endsStatement
          rcases more with _ | ⟨a, more⟩ <;> simp [hsecond]
        · simp only [List.cons_append]
          split
          · exact ofMethod?_append h.tail.tail.tail.tail more
          · rfl
    · exact ofMethod?_append h more

theorem ofMethod?_exists_enclosed {qualified : Bool} {call : OutputCall}
    (h : Tokens.Complete (t :: rest)) (hcall : ofMethod? qualified t rest = some call) :
    ∃ e, call.arguments = some e ∧ e.after ≠ [] := by
  unfold ofMethod? at hcall
  split at hcall
  · cases hcall
  · next u rest =>
      split at hcall
      · next hopen =>
          simp only [Bool.and_eq_true, decide_eq_true_eq] at hopen
          obtain ⟨e, he, hafter⟩ := h.tail.exists_enclosed hopen.2
          cases hcall
          exact ⟨e, he, hafter⟩
      · cases hcall

/-- A call in a complete stretch closes inside it. -/
theorem at?_exists_enclosed {call : OutputCall} (h : Tokens.Complete (t :: rest))
    (hcall : at? before t rest = some call) : ∃ e, call.arguments = some e ∧ e.after ≠ [] := by
  unfold at? at hcall
  split at hcall
  · cases hcall
  · split at hcall
    · split at hcall
      · split at hcall
        · exact ofMethod?_exists_enclosed h.tail.tail.tail.tail hcall
        · cases hcall
      · cases hcall
    · exact ofMethod?_exists_enclosed h hcall

end OutputCall

namespace Tokens

theorem getElem?_zero_append (hne : ts ≠ []) (more : Tokens) : (ts ++ more)[0]? = ts[0]? := by
  cases ts with
  | nil => exact absurd rfl hne
  | cons t ts => rfl

theorem Complete.ne_nil (h : Complete ts) : ts ≠ [] := by
  cases h <;> simp

theorem printEnding_append (h : Complete (t :: rest)) (more : Tokens) :
    printEnding before t (rest ++ more) = printEnding before t rest := by
  unfold printEnding
  rw [OutputCall.at?_append h]
  cases hcall : OutputCall.at? before t rest with
  | none => rfl
  | some call =>
      obtain ⟨e, he, hafter⟩ := OutputCall.at?_exists_enclosed h hcall
      simp only [Option.map_some, OutputCall.extend, he, Enclosed.extend,
        getElem?_zero_append hafter]
      rfl

theorem callConcatenation_extend (call : OutputCall) (more : Tokens) :
    callConcatenation (call.extend more) = callConcatenation call := by
  unfold callConcatenation OutputCall.extend
  cases call.arguments <;> rfl

theorem inCall_append (h : Complete (t :: rest)) (more : Tokens) :
    inCall callConcatenation before t (rest ++ more) = inCall callConcatenation before t rest := by
  unfold inCall
  rw [OutputCall.at?_append h]
  cases OutputCall.at? before t rest with
  | none => rfl
  | some call => exact callConcatenation_extend call more

/-! ### Declarations and assignments -/

theorem isUnended_append (h : Complete ts) (more : Tokens) :
    (ts ++ more).isUnended = ts.isUnended := by
  have hends : StatementEnd.ofTokens (ts ++ more) = StatementEnd.ofTokens ts := by
    induction h with
    | @last t hend =>
        cases hkind : t.kind <;> simp_all [StatementEnd.ofTokens, Token.Kind.endsStatement]
    | @cons t ts hclose hrest ih =>
        simp only [List.cons_append, StatementEnd.ofTokens, ih]
  have hempty : (ts ++ more).isEmpty = ts.isEmpty := by
    cases h <;> rfl
  rw [isUnended, isUnended, hends, hempty]

/-- Behind an equals sign in a complete stretch there is a value. -/
theorem Complete.drop_one (h : Complete ts) (hequals : ts[0]?.any (·.isOperator "=") = true) :
    Complete (ts.drop 1) ∧ ∀ more, (ts ++ more).drop 1 = ts.drop 1 ++ more := by
  cases ts with
  | nil => cases h
  | cons u us =>
      have hkind : u.kind = .operator := by
        simp only [Token.isOperator, List.getElem?_cons_zero, Option.any_some, Bool.and_eq_true,
          decide_eq_true_eq] at hequals
        exact hequals.1
      exact ⟨h.behind (Token.not_endsStatement hkind rfl), fun _ => rfl⟩

theorem statementEnding_append (h : Complete (t :: rest)) (more : Tokens) :
    statementEnding before t (rest ++ more) = statementEnding before t rest := by
  unfold statementEnding
  split
  · next htype =>
      obtain ⟨declared, htype⟩ := Option.isSome_iff_exists.mp htype
      have hrest := h.behind (Token.not_endsStatement (Token.kind_of_typeNamed? htype) rfl)
      rw [isUnended_append hrest]
  · by_cases hname : t.kind = .identifier
    · have hrest := h.behind (Token.not_endsStatement hname rfl)
      rw [getElem?_zero_append hrest.ne_nil]
      by_cases hequals : rest[0]?.any (·.isOperator "=") = true
      · obtain ⟨hvalue, hdrop⟩ := hrest.drop_one hequals
        rw [hdrop, isUnended_append hvalue]
      · simp [hequals]
    · simp [hname]

theorem endingProblems_append (h : Complete ts) (more : Tokens) :
    (ts ++ more).endingProblems = ts.endingProblems ++ more.endingProblems := by
  refine survey_append ?_ ?_ h
  · intro before t rest hplace
    rw [printEnding_append hplace, statementEnding_append hplace]
  · intro last t rest hend
    simp only [printEnding, OutputCall.at?_of_endsStatement hend, statementEnding,
      Option.any_some, Token.isTypeKeyword_of_endsStatement hend, Option.any_none]

/-! ### Loops -/

end Tokens

def LoopHeader.extend (h : LoopHeader) (more : Tokens) : LoopHeader :=
  { h with after := h.after ++ more }

theorem LoopHeader.ofEnclosed_extend (e : Enclosed) (more : Tokens) :
    ofEnclosed (e.extend more) = (ofEnclosed e).map (·.extend more) := by
  have hinside : (e.extend more).inside = e.inside := rfl
  unfold ofEnclosed
  rw [hinside]
  rcases Tokens.clauses e.inside with _ | ⟨init, _ | ⟨condition, _ | ⟨increment, _ | _⟩⟩⟩ <;> rfl

namespace Tokens

/-- The parenthesis behind a keyword closes in a complete stretch, and not with its last token. -/
theorem parenthesis?_append (h : Complete ts) (more : Tokens) :
    (∃ e, parenthesis? ts = .ok e ∧ e.after ≠ [] ∧
      parenthesis? (ts ++ more) = .ok (e.extend more)) ∨
    ∃ fault, parenthesis? ts = .error fault ∧ parenthesis? (ts ++ more) = .error fault := by
  cases ts with
  | nil => cases h
  | cons t ts =>
      by_cases hopen : t.kind = .lparen
      · obtain ⟨e, he, hafter⟩ := h.exists_enclosed hopen
        refine Or.inl ⟨e, ?_, hafter, ?_⟩
        · simp [parenthesis?, hopen, he]
        · simp [parenthesis?, hopen, Enclosed.ofTokens?_extend he]
      · exact Or.inr ⟨.notOpened, by simp [parenthesis?, hopen], by simp [parenthesis?, hopen]⟩

end Tokens

theorem LoopHeader.formProblems_append {keyword : Token} (h : Tokens.Complete ts) (more : Tokens) :
    formProblems keyword (ts ++ more) = formProblems keyword ts := by
  rcases Tokens.parenthesis?_append h more with
    ⟨e, he, hafter, hextend⟩ | ⟨fault, hfault, hextend⟩
  · have hclauses : clauseProblems keyword (e.extend more) = clauseProblems keyword e := by
      unfold clauseProblems
      rw [ofEnclosed_extend]
      cases ofEnclosed e <;> rfl
    have hbody : bodyProblems (e.extend more) = bodyProblems e := by
      simp only [bodyProblems, Enclosed.extend, Tokens.getElem?_zero_append hafter]
    simp only [formProblems, he, hextend, hclauses, hbody]
  · simp only [formProblems, hfault, hextend]

namespace Tokens

theorem Complete.behind_keyword {w : String} (h : Complete (t :: rest))
    (ht : t.isKeyword w = true) : Complete rest := by
  simp only [Token.isKeyword, Bool.and_eq_true, decide_eq_true_eq] at ht
  exact h.behind (Token.not_endsStatement ht.1 rfl)

theorem loopFormProblems_append (h : Complete ts) (more : Tokens) :
    (ts ++ more).loopFormProblems = ts.loopFormProblems ++ more.loopFormProblems := by
  refine survey_append ?_ (fun _ => rfl) h
  intro before t rest hplace
  split
  · next hfor => exact LoopHeader.formProblems_append (hplace.behind_keyword hfor) more
  · rfl

theorem concatenationProblems_append (h : Complete ts) (more : Tokens) :
    (ts ++ more).concatenationProblems =
      ts.concatenationProblems ++ more.concatenationProblems := by
  simp only [concatenationProblems_eq_survey]
  refine survey_append (fun hplace => inCall_append hplace more) ?_ h
  intro last t rest hend
  simp only [inCall, OutputCall.at?_of_endsStatement hend]

end Tokens

end LessonCheck
