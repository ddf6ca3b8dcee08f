import LessonCheck.Proofs.Form.LoopParts
import LessonCheck.Proofs.Meaning.Declared
import LessonCheck.Proofs.Session.Clean
import Mathlib.Tactic.ByContra

/-!
Loops of programs without problems. The checks of form and of meaning take a loop header apart each
for itself, and the pass over the meaning leaves out what it cannot make sense of. Together they let
nothing through: in a program that neither reports, every `for` has a header whose three parts speak
of one declared variable.
-/

namespace LessonCheck

namespace LoopHeader

/-- The initialization makes the variable `x` of type `T` the loop variable. -/
inductive Starts (x : String) (T : VariableType) : Tokens → Prop
  | declaring {type name equals : Token} {rest : Tokens} :
      type.typeNamed? = some T → name.isName x = true → equals.isOperator "=" = true →
        Starts x T (type :: name :: equals :: rest)
  | naming {name : Token} : name.isName x = true → Starts x T [name]
  | assigning {name equals value : Token} {rest : Tokens} :
      name.isName x = true → equals.isOperator "=" = true → value.kind.isValue = true →
        Starts x T (name :: equals :: value :: rest)

/-- A value that a variable of type `T` can be compared with: a literal that the type accepts, or a
variable of a type that goes with it. -/
inductive Comparable (scope : Scope) (x : String) (T : VariableType) (value : Token) : Prop
  | literal (l : Literal) : Literal.ofToken x T value = .ok l → Comparable scope x T value
  | variable (other : Variable) : value.isReference = true →
      scope.lookup? value.lexeme = some other → T.comparesWith other.type = true →
        Comparable scope x T value

/-- The condition begins with a comparison of `x`. -/
inductive Compares (scope : Scope) (x : String) (T : VariableType) : Tokens → Prop
  | mk {name operator value : Token} {rest : Tokens} :
      name.isName x = true → operator.isRelational = true → Comparable scope x T value →
        Compares scope x T (name :: operator :: value :: rest)

/-- The increment steps `x`, or adds a single value to it or takes one away. -/
inductive Steps (x : String) : Tokens → Prop
  | step {name operator : Token} : name.isName x = true → operator.isStep = true →
      Steps x [name, operator]
  | stepBy {name operator value : Token} : name.isName x = true → operator.isStepBy = true →
      value.kind.isValue = true → Steps x [name, operator, value]

/-- All three parts of the header are about the variable `x` of type `T`. -/
structure Agrees (scope : Scope) (x : String) (T : VariableType) (h : LoopHeader) : Prop where
  init : Starts x T h.init
  condition : Compares scope x T h.condition
  increment : Steps x h.increment

/-- A header that has been read lies in the tokens behind its keyword part by part. -/
theorem eq_of_ofTokens {ts : Tokens} {h : LoopHeader} (hh : ofTokens ts = .ok h) :
    ∃ opener first second : Token, opener.kind = .lparen ∧ first.kind = .semicolon ∧
      second.kind = .semicolon ∧
      ts = opener :: (h.init ++ first :: (h.condition ++ second :: (h.increment ++
        h.closer :: h.after))) := by
  cases he : Tokens.parenthesis? ts with
  | error e => simp [ofTokens, he, bind, Except.bind] at hh
  | ok e =>
      have hof : ofEnclosed e = .ok h := by simpa [ofTokens, he, bind, Except.bind] using hh
      obtain ⟨opener, hopener, rfl⟩ := Tokens.eq_of_parenthesis? he
      obtain ⟨first, second, hfirst, hsecond, hinside, hcloser, hafter⟩ := eq_of_ofEnclosed hof
      exact ⟨opener, first, second, hopener, hfirst, hsecond, by simp [hinside, hcloser, hafter]⟩

end LoopHeader

namespace LoopCounter

theorem ofInit_of_declared {scope : Scope} {type name : Token} {declared : VariableType}
    (rest : Tokens) (htype : type.typeNamed? = some declared) (hname : name.kind = .identifier) :
    ofInit scope (type :: name :: rest) = .found ⟨name.lexeme, declared⟩ := by
  simp [ofInit, htype, hname]

/-- An initialization that begins with a name is about that name. -/
theorem ofInit_of_name {scope : Scope} {name : Token} (rest : Tokens)
    (hname : name.kind = .identifier) : ofInit scope (name :: rest) = ofName scope name := by
  have htype : name.typeNamed? = none := by simp [Token.typeNamed?, hname]
  simp [ofInit, htype]

theorem ofName_of_some {scope : Scope} {name : Token} {v : Variable}
    (hname : name.kind = .identifier) (hv : scope.lookup? name.lexeme = some v) :
    ofName scope name = .found ⟨name.lexeme, v.type⟩ := by
  simp [ofName, hname, hv]

/-- The name in front of an initialization that is not reported is in the scope. -/
theorem lookup?_of_headerProblems {scope : Scope} {h : LoopHeader} {name : Token} {rest : Tokens}
    (hinit : h.init = name :: rest) (hname : name.kind = .identifier)
    (hh : scope.headerProblems h = []) : ∃ v, scope.lookup? name.lexeme = some v := by
  cases hv : scope.lookup? name.lexeme with
  | none =>
      simp [Scope.headerProblems, hinit, ofInit_of_name rest hname, ofName, hname, hv] at hh
  | some v => exact ⟨v, rfl⟩

theorem lexeme_of_partProblems {v : LoopCounter} {part : LoopPart} {t : Token} {rest : Tokens}
    (h : v.partProblems part (t :: rest) = []) (ht : t.kind = .identifier) :
    t.isName v.name = true := by
  by_contra hne
  have hother : t.lexeme ≠ v.name := by simpa [Token.isName, ht] using hne
  simp [partProblems, ht, hother] at h

/-- A silent comparison is one with an accepted literal or with a variable that suits. -/
theorem comparable_of_comparisonProblems {scope : Scope} {v : LoopCounter} {value : Token}
    (h : v.comparisonProblems scope value = []) (hvalue : value.kind.isValue = true)
    (hknown : value.isReference = true → ∃ other, scope.lookup? value.lexeme = some other) :
    LoopHeader.Comparable scope v.name v.type value := by
  have hwhole : value.kind.isFaulty = false := by
    cases hkind : value.kind <;> simp_all [Token.Kind.isValue, Token.Kind.isFaulty]
  unfold comparisonProblems at h
  rw [hwhole] at h
  by_cases href : value.isReference = true
  · obtain ⟨other, hother⟩ := hknown href
    refine .variable other href hother ?_
    by_contra hcompare
    simp [href, hother, hcompare] at h
  · cases hl : Literal.ofToken v.name v.type value with
    | ok l => exact .literal l hl
    | error e => cases e <;> simp [href, hl] at h

end LoopCounter

/-! ### The parts of a silent header -/

namespace LoopHeader

variable {scope : Scope} {h : LoopHeader}

/-- The scope has every name that the tokens declare, with the type they declare it with. -/
def Declares (scope : Scope) (ts : Tokens) : Prop :=
  ∀ front type name rest declared, ts = front ++ type :: name :: rest →
    Token.typeNamed? type = some declared → name.kind = .identifier →
      ∃ v, scope.lookup? name.lexeme = some v ∧ v.type = declared

/-- The loop variable, for an initialization of one of the three shapes. -/
theorem exists_starts {keyword : Token} {ts front rest : Tokens}
    (hts : ts = front ++ (h.init ++ rest)) (hdeclares : Declares scope ts)
    (hinit : initProblems keyword h.init = []) (hh : scope.headerProblems h = []) :
    ∃ x v, scope.lookup? x = some v ∧ Starts x v.type h.init ∧
      LoopCounter.ofInit scope h.init = .found ⟨x, v.type⟩ := by
  have hself {name : Token} (hname : name.kind = .identifier) :
      name.isName name.lexeme = true := by
    simp [Token.isName, hname]
  rcases shape_of_initProblems hinit with
    ⟨declared, type, name, equals, value, tail, heq, htype, hname, hequals, -⟩ |
    ⟨name, heq, hname⟩ | ⟨name, equals, value, tail, heq, hname, hequals, hvalue⟩
  · rw [heq] at hts ⊢
    obtain ⟨v, hv, rfl⟩ := hdeclares front type name _ declared hts htype hname
    exact ⟨name.lexeme, v, hv, .declaring htype (hself hname) hequals,
      LoopCounter.ofInit_of_declared _ htype hname⟩
  · obtain ⟨v, hv⟩ := LoopCounter.lookup?_of_headerProblems heq hname hh
    rw [heq, LoopCounter.ofInit_of_name _ hname]
    exact ⟨name.lexeme, v, hv, .naming (hself hname), LoopCounter.ofName_of_some hname hv⟩
  · obtain ⟨v, hv⟩ := LoopCounter.lookup?_of_headerProblems heq hname hh
    rw [heq, LoopCounter.ofInit_of_name _ hname]
    exact ⟨name.lexeme, v, hv, .assigning (hself hname) hequals hvalue,
      LoopCounter.ofName_of_some hname hv⟩

/-- The condition of a silent header compares the loop variable. A name in it is a use, which is
what puts it into the scope. -/
theorem compares_of_silent {keyword : Token} {v : LoopCounter} {ts front rest : Tokens}
    (hts : ts = front ++ (h.condition ++ rest)) (husage : scope.usageProblems ts = [])
    (hcondition : conditionProblems keyword h.condition = [])
    (hpart : v.partProblems .condition h.condition = [])
    (hvalue : v.conditionProblems scope h.condition = []) :
    Compares scope v.name v.type h.condition := by
  obtain ⟨name, operator, value, tail, heq, hname, hoperator, hkind⟩ :=
    shape_of_conditionProblems hcondition
  rw [heq] at hts hpart hvalue ⊢
  refine .mk (LoopCounter.lexeme_of_partProblems hpart hname) hoperator ?_
  apply LoopCounter.comparable_of_comparisonProblems hvalue hkind
  intro href
  have hsplit : ts = (front ++ [name, operator]) ++ value :: (tail ++ rest) := by simp [hts]
  apply Scope.lookup?_of_isUse husage hsplit
  have hop : operator.kind = .operator := by
    simp only [Token.isRelational, Bool.and_eq_true, decide_eq_true_eq] at hoperator
    exact hoperator.1
  simp [Token.isUse, href, Token.isTypeKeyword, Token.typeNamed?, hop]

theorem steps_of_silent {keyword : Token} {v : LoopCounter}
    (hincrement : incrementProblems keyword h.increment = [])
    (hpart : v.partProblems .increment h.increment = []) : Steps v.name h.increment := by
  rcases shape_of_incrementProblems hincrement with
    ⟨name, operator, heq, hname, hoperator⟩ | ⟨name, operator, value, heq, hname, hoperator, hvalue⟩
  · rw [heq] at hpart ⊢
    exact .step (LoopCounter.lexeme_of_partProblems hpart hname) hoperator
  · rw [heq] at hpart ⊢
    exact .stepBy (LoopCounter.lexeme_of_partProblems hpart hname) hoperator hvalue

end LoopHeader

/-- The header of a loop in tokens in which no pass finds anything. -/
theorem Tokens.exists_agrees {scope : Scope} {ts front rest : Tokens} {keyword : Token}
    (hts : ts = front ++ keyword :: rest) (hfor : keyword.isKeyword "for" = true)
    (hdeclares : LoopHeader.Declares scope ts) (hform : ts.loopFormProblems = [])
    (husage : scope.usageProblems ts = []) (hloop : scope.loopProblems ts = []) :
    ∃ h x v, LoopHeader.ofTokens rest = .ok h ∧ h.after[0]?.any (·.kind = .lbrace) = true ∧
      scope.lookup? x = some v ∧ h.Agrees scope x v.type := by
  have hplace := eq_nil_of_survey hform hts
  rw [if_pos hfor] at hplace
  obtain ⟨e, h, he, hof, hinit, hcondition, hincrement, hbody⟩ :=
    LoopHeader.parts_of_formProblems hplace
  have hok : LoopHeader.ofTokens rest = .ok h := by
    simp [LoopHeader.ofTokens, he, hof, bind, Except.bind]
  have hheader := eq_nil_of_survey hloop hts
  rw [if_pos hfor, hok] at hheader
  obtain ⟨opener, first, second, -, -, -, hrest⟩ := LoopHeader.eq_of_ofTokens hok
  have hinitAt : ts = (front ++ [keyword, opener]) ++ (h.init ++ first :: (h.condition ++
      second :: (h.increment ++ h.closer :: h.after))) := by
    simp [hts, hrest]
  obtain ⟨x, v, hv, hstarts, hfound⟩ :=
    LoopHeader.exists_starts hinitAt hdeclares hinit hheader
  simp only [Scope.headerProblems, hfound, List.append_eq_nil_iff] at hheader
  obtain ⟨⟨hpart, hstep⟩, hvalue⟩ := hheader
  refine ⟨h, x, v, hok, ?_, hv, hstarts, ?_, ?_⟩
  · obtain ⟨brace, tail, hafter, hbrace⟩ := LoopHeader.brace_of_bodyProblems hbody
    obtain ⟨-, -, -, -, -, -, heq⟩ := LoopHeader.eq_of_ofEnclosed hof
    simp [heq, hafter, hbrace]
  · have hconditionAt : ts = (front ++ keyword :: opener :: (h.init ++ [first])) ++
        (h.condition ++ second :: (h.increment ++ h.closer :: h.after)) := by
      simp [hts, hrest]
    exact LoopHeader.compares_of_silent hconditionAt husage hcondition hpart hvalue
  · exact LoopHeader.steps_of_silent hincrement hstep

/-- The token behind the closing parenthesis of a header, found by its number. -/
theorem LoopHeader.getElem?_after {ts : Tokens} {k : Nat} {h : LoopHeader}
    (hh : ofTokens (ts.drop (k + 1)) = .ok h) :
    ts[(h.layout k).closer + 1]? = h.after[0]? := by
  obtain ⟨opener, first, second, -, -, -, heq⟩ := eq_of_ofTokens hh
  have hplace : (h.layout k).closer + 1 = k + 1 + ((opener :: (h.init ++ first ::
      (h.condition ++ second :: (h.increment ++ [h.closer])))).length) := by
    simp [layout]
    omega
  rw [hplace, ← List.getElem?_drop, heq]
  rw [show opener :: (h.init ++ first :: (h.condition ++ second :: (h.increment ++
      h.closer :: h.after))) = (opener :: (h.init ++ first :: (h.condition ++ second ::
      (h.increment ++ [h.closer])))) ++ h.after by simp]
  rw [List.getElem?_append_right (Nat.le_refl _), Nat.sub_self]

/-- In a program without problems every `for` has a header whose three parts agree on one declared
variable, and a brace opens its body. -/
theorem exists_agreeing_header {s : Session} {source : String} {a : Analysis}
    (ha : (s.analyze source).1 = .ok a) (hform : a.form.problems = [])
    (hmeaning : a.meaning.problems = []) {k : Nat} {keyword : Token}
    (hk : a.form.tokens[k]? = some keyword) (hfor : keyword.isKeyword "for" = true) :
    ∃ h x v, LoopHeader.ofTokens (a.form.tokens.drop (k + 1)) = .ok h ∧
      Tokens.hasKindAt a.form.tokens ((h.layout k).closer + 1) .lbrace = true ∧
      a.meaning.scope.lookup? x = some v ∧ h.Agrees a.meaning.scope x v.type := by
  rw [Session.fst_analyze] at ha
  obtain ⟨-, hforms, hpasses⟩ := (Analysis.clean_iff ha).mp ⟨hform, hmeaning⟩
  obtain ⟨-, -, hloopForm, -⟩ := Tokens.formProblems_eq_nil_iff.mp hforms
  obtain ⟨hdeclared, husage, hloop, -⟩ := Tokens.problems_meaning_eq_nil_iff.mp hpasses
  obtain rfl := Analysis.eq_of_ofSource ha
  have hat : (Token.ofText source)[k]? = some keyword := hk
  have hsplit : Token.ofText source = (Token.ofText source).take k ++
      keyword :: (Token.ofText source).drop (k + 1) := by
    obtain ⟨hlt, rfl⟩ := List.getElem?_eq_some_iff.mp hat
    simp
  obtain ⟨h, x, v, hok, hbrace, hv, hagrees⟩ := Tokens.exists_agrees hsplit hfor
    (fun _ _ _ _ _ hts htype hname => Scope.lookup?_declareAll hdeclared hts htype hname)
    hloopForm husage hloop
  refine ⟨h, x, v, hok, ?_, hv, hagrees⟩
  have hafter := LoopHeader.getElem?_after hok
  simp only [Tokens.hasKindAt, Tokens.kind?, LexedText.formAnalysis, LexedText.ofText, hafter]
  simpa [Option.any_eq_true] using hbrace

/-- A loop that counts to ten. -/
theorem exists_agreeing_header_count :
    ∃ a, ((Session.new .standard).analyze "for (int i = 0; i < 10; i++) { }").1 = .ok a ∧
      ∃ h x v, LoopHeader.ofTokens (a.form.tokens.drop 1) = .ok h ∧
        Tokens.hasKindAt a.form.tokens ((h.layout 0).closer + 1) .lbrace = true ∧
        a.meaning.scope.lookup? x = some v ∧ h.Agrees a.meaning.scope x v.type := by
  have ha : ((Session.new .standard).analyze "for (int i = 0; i < 10; i++) { }").1 = .ok _ :=
    (Session.fst_analyze _ _).trans (Analysis.ofSource_of_nonempty (by decide) _)
  have hk : (Token.ofText "for (int i = 0; i < 10; i++) { }")[0]? =
      some ⟨.keyword, "for", ⟨1, 1⟩⟩ := by decide +kernel
  exact ⟨_, ha, exists_agreeing_header ha (by decide +kernel) (by decide +kernel) hk (by decide)⟩

end LessonCheck
