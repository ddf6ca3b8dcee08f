import LessonCheck.Form.Concatenation
import LessonCheck.Proofs.Token.Survey

/-!
Where print calls begin. The search for calls leaves out the tokens between `System` and the
parenthesis, and none of these could begin a call of its own. So what a check finds in the calls of
a token list is what a survey of the list finds at the places where one begins.
-/

namespace LessonCheck

theorem Token.isName_eq_false_of_kind {t : Token} (h : t.kind ≠ .identifier) (w : String) :
    t.isName w = false := by
  simp [isName, h]

namespace OutputCall

variable {before : Option Token} {t : Token} {rest : Tokens} {call : OutputCall}

/-- A word that is not on the path to standard output begins no print call. -/
theorem at?_eq_none (hsystem : t.isName "System" = false) (hmethod : isMethod t = false) :
    at? before t rest = none := by
  unfold at? ofMethod?
  rw [hsystem, hmethod]
  cases rest <;> simp

theorem kind_of_isMethod (h : isMethod t = true) : t.kind = .identifier := by
  simp only [isMethod, Bool.and_eq_true, decide_eq_true_eq] at h
  exact h.1

theorem isMethod_eq_false_of_kind (h : t.kind ≠ .identifier) : isMethod t = false := by
  simp [isMethod, h]

/-- Only a name begins a print call. -/
theorem at?_of_kind (h : t.kind ≠ .identifier) : at? before t rest = none :=
  at?_eq_none (Token.isName_eq_false_of_kind h _) (isMethod_eq_false_of_kind h)

theorem at?_of_dot (h : before.any (·.kind = .dot) = true) : at? before t rest = none := by
  simp [at?, h]

/-- The tokens behind the method begin with the parenthesis that holds the arguments. -/
def OpensIn (call : OutputCall) (ts : Tokens) : Prop :=
  ∃ opener behind, ts = opener :: behind ∧ opener.kind = .lparen ∧
    call.arguments = Enclosed.ofTokens? behind

theorem ofMethod?_eq_some {qualified : Bool} {method : Token}
    (h : ofMethod? qualified method rest = some call) :
    call.method = method ∧ call.qualified = qualified ∧ call.OpensIn rest := by
  unfold ofMethod? at h
  split at h
  · cases h
  · next opener behind =>
      split at h
      · next hopen =>
          simp only [Bool.and_eq_true, decide_eq_true_eq] at hopen
          cases h
          exact ⟨rfl, rfl, opener, behind, rfl, hopen.2, rfl⟩
      · cases h

/-- A call begins with its method, or with the path to it. -/
theorem at?_eq_some (h : at? before t rest = some call) :
    (call.headLength = 1 ∧ call.method = t ∧ call.OpensIn rest) ∨
      ∃ first out second tail, rest = first :: out :: second :: call.method :: tail ∧
        first.kind = .dot ∧ second.kind = .dot ∧ call.headLength = 5 ∧ call.OpensIn tail := by
  unfold at? at h
  split at h
  · cases h
  · split at h
    · split at h
      · next first out second method tail =>
          split at h
          · next hpath =>
              simp only [Bool.and_eq_true, decide_eq_true_eq] at hpath
              obtain ⟨rfl, hqualified, hopens⟩ := ofMethod?_eq_some h
              exact Or.inr ⟨first, out, second, tail, rfl, hpath.1.1, hpath.2,
                by simp [headLength, hqualified], hopens⟩
          · cases h
      · cases h
    · obtain ⟨hmethod, hqualified, hopens⟩ := ofMethod?_eq_some h
      exact Or.inl ⟨by simp [headLength, hqualified], hmethod, hopens⟩

/-- The search for print calls goes on at the parenthesis behind the method. -/
theorem exists_split_of_at? (h : at? before t rest = some call) :
    ∃ front, t :: rest = front ++ call.method :: rest.drop (call.headLength - 1) ∧
      front.length + 1 = call.headLength ∧ call.OpensIn (rest.drop (call.headLength - 1)) := by
  rcases at?_eq_some h with
    ⟨hlength, rfl, hopens⟩ | ⟨first, out, second, tail, rfl, -, -, hlength, hopens⟩
  · exact ⟨[], by simpa [hlength] using hopens⟩
  · exact ⟨[t, first, out, second], by simpa [hlength] using hopens⟩

theorem inside_subset (h : at? before t rest = some call) {e : Enclosed}
    (he : call.arguments = some e) : e.inside ⊆ t :: rest := by
  obtain ⟨front, hsplit, -, opener, behind, hbehind, -, harguments⟩ := exists_split_of_at? h
  rw [hsplit, hbehind, Enclosed.eq_of_ofTokens? (harguments.symm.trans he)]
  intro u hu
  simp [hu]

theorem method_mem (h : at? before t rest = some call) : call.method ∈ t :: rest := by
  obtain ⟨front, hsplit, -⟩ := exists_split_of_at? h
  rw [hsplit]
  exact List.mem_append_right _ List.mem_cons_self

theorem methodIndex_succ (call : OutputCall) (start : Nat) :
    call.methodIndex start + 1 = call.openIndex start := by
  cases hqualified : call.qualified <;> simp [methodIndex, openIndex, headLength, hqualified]

end OutputCall

namespace Tokens

/-- What `check` finds in the print call that begins at a place, if one does. -/
def inCall {α : Type} (check : OutputCall → List α) (before : Option Token) (t : Token)
    (rest : Tokens) : List α :=
  (OutputCall.at? before t rest).elim [] check

theorem inCall_of_kind {α : Type} (check : OutputCall → List α) {t : Token}
    (h : t.kind ≠ .identifier) (before : Option Token) (rest : Tokens) :
    inCall check before t rest = [] := by
  simp [inCall, OutputCall.at?_of_kind h]

theorem inCall_of_dot {α : Type} (check : OutputCall → List α) {dot : Token}
    (h : dot.kind = .dot) (t : Token) (rest : Tokens) : inCall check (some dot) t rest = [] := by
  simp [inCall, OutputCall.at?_of_dot, h]

/-- The tokens that the search leaves out begin no call. -/
theorem flatMap_outputCallsFrom {α : Type} (check : OutputCall → List α) (start : Nat)
    (before : Option Token) (ts : Tokens) :
    ((outputCallsFrom start before ts).flatMap fun call => check call.2) =
      surveyFrom (inCall check) before ts := by
  fun_induction outputCallsFrom start before ts with
  | case1 => rfl
  | case2 start before t rest call hcall ih =>
      have hhere : inCall check before t rest = check call := by simp [inCall, hcall]
      rw [List.flatMap_cons, surveyFrom_cons, hhere, ih]
      rcases OutputCall.at?_eq_some hcall with
        ⟨hlength, rfl, -⟩ | ⟨first, out, second, tail, rfl, hfirst, hsecond, hlength, -⟩
      · simp [hlength]
      · simp [hlength, inCall_of_dot check hfirst, inCall_of_dot check hsecond,
          inCall_of_kind check (show first.kind ≠ .identifier by simp [hfirst]),
          inCall_of_kind check (show second.kind ≠ .identifier by simp [hsecond])]
  | case3 start before t rest hcall ih =>
      have hhere : inCall check before t rest = [] := by simp [inCall, hcall]
      rw [surveyFrom_cons, hhere, ih]
      rfl

/-- The misused operators in the arguments of a call. -/
def callConcatenation (call : OutputCall) : List (Located ConcatenationProblem) :=
  call.arguments.elim [] fun e => doubledPluses e.inside

theorem concatenationProblems_eq_survey (ts : Tokens) :
    ts.concatenationProblems = ts.survey (inCall callConcatenation) := by
  rw [survey, ← flatMap_outputCallsFrom callConcatenation 0, concatenationProblems, outputCalls]
  congr 1
  funext call
  unfold callConcatenation
  cases call.2.arguments <;> rfl

/-! ### Calls by position -/

/-- The print call that begins at position `i`. -/
def outputCall? (ts : Tokens) (i : Nat) : Option OutputCall :=
  match ts.drop i with
  | [] => none
  | t :: rest => OutputCall.at? (ts.take i).getLast? t rest

theorem outputCall?_append (front : Tokens) (t : Token) (rest : Tokens) :
    outputCall? (front ++ t :: rest) front.length = OutputCall.at? front.getLast? t rest := by
  simp [outputCall?]

theorem exists_at?_of_outputCall? {ts : Tokens} {i : Nat} {call : OutputCall}
    (h : ts.outputCall? i = some call) :
    ∃ front t rest, ts = front ++ t :: rest ∧ front.length = i ∧
      OutputCall.at? front.getLast? t rest = some call := by
  unfold outputCall? at h
  split at h
  · cases h
  · next t rest hdrop =>
      obtain ⟨front, rfl, rfl⟩ := exists_split_of_drop hdrop
      exact ⟨front, t, rest, rfl, rfl, by simpa using h⟩

/-- The method of a call stands at the number that the call gives it, and the arguments open
behind. -/
theorem exists_split_of_outputCall? {ts : Tokens} {i : Nat} {call : OutputCall}
    (h : ts.outputCall? i = some call) :
    ∃ front rest, ts = front ++ call.method :: rest ∧ front.length = call.methodIndex i ∧
      call.OpensIn rest := by
  obtain ⟨front, t, rest, rfl, rfl, hcall⟩ := exists_at?_of_outputCall? h
  obtain ⟨path, hsplit, hlength, hopens⟩ := OutputCall.exists_split_of_at? hcall
  refine ⟨front ++ path, _, by rw [List.append_assoc, ← hsplit], ?_, hopens⟩
  simp only [OutputCall.methodIndex, List.length_append]
  omega

theorem getElem?_methodIndex {ts : Tokens} {i : Nat} {call : OutputCall}
    (h : ts.outputCall? i = some call) : ts[call.methodIndex i]? = some call.method := by
  obtain ⟨front, rest, rfl, hlength, -⟩ := exists_split_of_outputCall? h
  rw [← hlength, List.getElem?_append_right (Nat.le_refl _), Nat.sub_self,
    List.getElem?_cons_zero]

theorem outputCall?_of_mem_outputCallsFrom {front ts : Tokens} {start i : Nat}
    {before : Option Token} {call : OutputCall} (hstart : front.length = start)
    (hbefore : front.getLast? = before) (h : (i, call) ∈ outputCallsFrom start before ts) :
    outputCall? (front ++ ts) i = some call := by
  fun_induction outputCallsFrom start before ts generalizing front with
  | case1 => cases h
  | case2 start before t rest found hfound ih =>
      rcases List.mem_cons.mp h with hhere | h
      · obtain ⟨rfl, rfl⟩ := Prod.mk.inj hhere
        rw [← hstart, outputCall?_append, hbefore, hfound]
      · obtain ⟨path, hsplit, hlength, -⟩ := OutputCall.exists_split_of_at? hfound
        have hplace : (front ++ path ++ [found.method]).length = start + found.headLength := by
          simp only [List.length_append, List.length_singleton]
          omega
        have hbehind := ih hplace (by simp) h
        rw [hsplit]
        simpa using hbehind
  | case3 start before t rest _ ih =>
      have hplace : (front ++ [t]).length = start + 1 := by simp [hstart]
      have hbehind := ih hplace (by simp) h
      simpa using hbehind

/-- The calls that the search collects stand where it says. -/
theorem outputCall?_of_mem_outputCalls {ts : Tokens} {i : Nat} {call : OutputCall}
    (h : (i, call) ∈ ts.outputCalls) : ts.outputCall? i = some call := by
  have hplace : ([] : Tokens).length = 0 := rfl
  exact outputCall?_of_mem_outputCallsFrom hplace rfl h

end Tokens

end LessonCheck
