import LessonCheck.Form.Ending
import LessonCheck.Proofs.Form.OutputCalls
import LessonCheck.Proofs.Program.Kinds
import LessonCheck.Proofs.Program.Places

/-!
The print calls of a program. Wherever a check recognizes one, it is a call that the program makes:
its parenthesis closes, a semicolon follows, and its arguments are put together with single plus
signs.
-/

namespace LessonCheck

open Vocabulary

namespace Program

variable {Γ : Signature} {before : Option Token} {t : Token} {ts rest : Tokens}

/-! ### Print calls -/

/-- A name that no program declares is on the path to standard output or stands for a value. -/
theorem VariableName.ne_of_isReserved (x : VariableName) {w : String} (hw : isReserved w = true) :
    x.text ≠ w := by
  rintro rfl
  simp [x.notReserved] at hw

theorem VariableName.isMethod_eq_false {x : VariableName} (h : t.isName x.text = true) :
    OutputCall.isMethod t = false := by
  obtain ⟨-, hx⟩ := Token.isName_iff.mp h
  have hprintln := x.ne_of_isReserved (w := "println") (by decide)
  have hprint := x.ne_of_isReserved (w := "print") (by decide)
  simp [OutputCall.isMethod, isPrintMethod, hx, hprintln, hprint]

theorem VariableName.isName_eq_false {x : VariableName} (h : t.isName x.text = true) :
    t.isName "System" = false := by
  obtain ⟨-, hx⟩ := Token.isName_iff.mp h
  have hsystem := x.ne_of_isReserved (w := "System") (by decide)
  simp [Token.isName, hx, hsystem]

theorem Operand.at?_eq_none {v : Operand} (h : t.piece = v.piece) :
    OutputCall.at? before t rest = none := by
  cases v with
  | var x =>
      have hx := Token.isName_of_piece h
      exact OutputCall.at?_eq_none (VariableName.isName_eq_false hx)
        (VariableName.isMethod_eq_false hx)
  | literal c =>
      cases c with
      | truth value =>
          have hx := Token.isName_iff.mp (Token.isName_of_piece h)
          cases value <;>
            exact OutputCall.at?_eq_none (by simp [Token.isName, hx])
              (by simp [OutputCall.isMethod, hx, isPrintMethod])
      | null =>
          have hx := Token.isName_iff.mp (Token.isName_of_piece h)
          exact OutputCall.at?_eq_none (by simp [Token.isName, hx])
            (by simp [OutputCall.isMethod, hx, isPrintMethod])
      | _ =>
          have hkind : t.kind ≠ .identifier := by
            rw [Token.kind_of_piece h]
            rintro ⟨⟩
          exact OutputCall.at?_of_kind hkind

/-- A print call that a program makes. -/
def IsOutput (call : OutputCall) : Prop :=
  ∃ es e, call.arguments = some e ∧ e.inside.map Token.piece = sum es ∧
    e.after[0]?.any (·.kind = .semicolon) = true

theorem Arguments.ofMethod? {es : List Operand} (h : Arguments es rest) {qualified : Bool}
    {call : OutputCall} (hcall : OutputCall.ofMethod? qualified t rest = some call) :
    IsOutput call := by
  obtain ⟨hopener, hinside, hcloser, hsemicolon⟩ := h
  next opener closer semicolon inside rest =>
    have hflat := (allInner_sum es).flat hinside
    have hsplit : Enclosed.ofTokens? (inside ++ closer :: semicolon :: rest) =
        some ⟨inside, closer, semicolon :: rest⟩ := by
      apply Enclosed.ofTokens?_append _ hcloser _
      intro u hu
      have hne := Tokens.ne_of_isInner (hflat u hu)
      exact ⟨hne.1, hne.2.1⟩
    simp only [OutputCall.ofMethod?, hopener, hsplit] at hcall
    split at hcall
    · cases hcall
      exact ⟨es, _, rfl, hinside, by simp [hsemicolon]⟩
    · cases hcall

/-- Whatever call begins at a place of a program is one that a program makes. -/
theorem Place.isOutput (h : Place Γ before t rest) {call : OutputCall}
    (hcall : OutputCall.at? before t rest = some call) : IsOutput call := by
  have hnone {p : Prop} (hat : OutputCall.at? before t rest = none) : p := by
    simp [hat] at hcall
  cases h with
  | mark hname _ =>
      exact hnone (OutputCall.at?_of_kind hname)
  | operand v hv => exact hnone (v.at?_eq_none hv)
  | target v hx | receiver hx =>
      exact hnone (OutputCall.at?_eq_none (VariableName.isName_eq_false hx)
        (VariableName.isMethod_eq_false hx))
  | declaring htype | defining _ htype =>
      have hkind : t.kind ≠ .identifier := by simp [Token.kind_of_typeNamed? htype]
      exact hnone (OutputCall.at?_of_kind hkind)
  | member hdot | out hdot => exact hnone (OutputCall.at?_of_dot (by simp [hdot]))
  | print es hbefore hmethod harguments =>
      have hsystem : t.isName "System" = false := by
        simp only [OutputCall.isMethod, isPrintMethod, Bool.and_eq_true, Bool.or_eq_true,
          beq_iff_eq] at hmethod
        rcases hmethod.2 with h | h <;> simp [Token.isName, h]
      simp only [OutputCall.at?, hbefore, hsystem, Bool.false_eq_true, if_false] at hcall
      exact harguments.ofMethod? hcall
  | system es hbefore hsystem hfirst hout hsecond hmethod harguments =>
      simp only [OutputCall.at?, hbefore, hsystem, hfirst, hout, hsecond, Bool.false_eq_true,
        if_false, if_true, decide_true, Bool.and_true] at hcall
      exact harguments.ofMethod? hcall
  | loop _ hfor =>
      have hkind : t.kind ≠ .identifier := by simp [Token.kind_of_isKeyword hfor]
      exact hnone (OutputCall.at?_of_kind hkind)

theorem Place.printEnding (h : Place Γ before t rest) : Tokens.printEnding before t rest = [] := by
  unfold Tokens.printEnding
  split
  · rfl
  · next call hcall =>
      obtain ⟨es, e, harguments, -, hsemicolon⟩ := h.isOutput hcall
      simp [harguments, hsemicolon]

/-! ### Concatenation -/

theorem Operand.isOperator_eq_false {v : Operand} (h : t.piece = v.piece) (w : String) :
    t.isOperator w = false := by
  have hvalue := Operand.isValue_kind h
  apply Token.isOperator_of_kind
  rintro hkind
  simp [hkind, Token.Kind.isValue] at hvalue

/-- A sum does not begin with an operator. -/
theorem isOperator_of_sum {es : List Operand} (hts : ts.map Token.piece = sum es) (w : String) :
    ts[0]?.any (·.isOperator w) = false := by
  cases es with
  | nil =>
      obtain rfl := List.map_eq_nil_iff.mp hts
      rfl
  | cons e es =>
      obtain ⟨others, hsum⟩ : ∃ others, sum (e :: es) = e.piece :: others := by
        cases es <;> exact ⟨_, rfl⟩
      rw [hsum] at hts
      obtain ⟨t, tail, rfl, ht, -⟩ := List.map_eq_cons_iff.mp hts
      simp [Operand.isOperator_eq_false ht]

/-- The plus signs of a sum are single. -/
theorem doubledPluses_sum {es : List Operand} (hts : ts.map Token.piece = sum es)
    (hbefore : before.any (·.isOperator "++") = false) :
    Tokens.surveyFrom (fun before t rest =>
      if t.isDoubledPlus before rest then
        [(⟨t.location, .doubledPlus⟩ : Located ConcatenationProblem)] else []) before ts = [] := by
  have hoperand {v : Operand} {before : Option Token} {t : Token} {rest : Tokens}
      (h : t.piece = v.piece) : t.isDoubledPlus before rest = false := by
    simp [Token.isDoubledPlus, Operand.isOperator_eq_false h]
  fun_induction sum es generalizing ts before with
  | case1 =>
      obtain rfl := List.map_eq_nil_iff.mp hts
      rfl
  | case2 e =>
      obtain ⟨t, tail, rfl, ht, htail⟩ := List.map_eq_cons_iff.mp hts
      obtain rfl := List.map_eq_nil_iff.mp htail
      simp [hoperand ht]
  | case3 e es _ ih =>
      obtain ⟨t, tail, rfl, ht, htail⟩ := List.map_eq_cons_iff.mp hts
      obtain ⟨plus, others, rfl, hplus, hothers⟩ := List.map_eq_cons_iff.mp htail
      have hsingle : plus.isDoubledPlus (some t) others = false := by
        simp [Token.isDoubledPlus, Token.isOperator_of_piece hplus,
          Operand.isOperator_eq_false ht, isOperator_of_sum hothers]
      have hbehind : Option.any (·.isOperator "++") (some plus) = false := by
        simp [Token.isOperator_of_piece hplus]
      simp only [Tokens.surveyFrom_cons, hoperand ht, hsingle, Bool.false_eq_true, if_false,
        List.nil_append]
      exact ih hothers hbehind

theorem IsOutput.doubledPluses {call : OutputCall} (h : IsOutput call) {e : Enclosed}
    (he : call.arguments = some e) : Tokens.doubledPluses e.inside = [] := by
  obtain ⟨es, e', he', hsum, -⟩ := h
  obtain rfl : e = e' := by simpa [he] using he'
  exact doubledPluses_sum hsum rfl

/-- All print calls that are found in a program are calls that it makes. -/
theorem Placed.isOutput {start : Nat} (h : Placed Γ before ts) :
    ∀ call ∈ Tokens.outputCallsFrom start before ts, IsOutput call.2 := by
  fun_induction Tokens.outputCallsFrom start before ts with
  | case1 => simp
  | case2 start before t rest call hcall ih =>
      have hplace : Place Γ before t rest := h.1
      obtain ⟨front, hsplit, -⟩ := OutputCall.exists_split_of_at? hcall
      -- The tokens that the search leaves out have their places too, so those behind keep theirs.
      have hbehind : Placed Γ (some call.method) (rest.drop (call.headLength - 1)) := by
        rw [hsplit] at h
        exact h.of_append
      intro found hfound
      rcases List.mem_cons.mp hfound with rfl | hfound
      · exact hplace.isOutput hcall
      · exact ih hbehind found hfound
  | case3 start before t rest _ ih => exact ih h.2

theorem Placed.concatenation (h : Placed Γ none ts) : ts.concatenationProblems = [] := by
  rw [Tokens.concatenationProblems, List.flatMap_eq_nil_iff]
  intro call hcall
  have houtput := h.isOutput call hcall
  split
  · next e he => exact houtput.doubledPluses he
  · rfl

end Program

end LessonCheck
