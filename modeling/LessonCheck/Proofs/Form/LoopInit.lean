import LessonCheck.Lexing.Tokens
import LessonCheck.Proofs.Access.Loops

/-!
What the check of a loop says about its initialization. There are three forms: a declaration with a
literal of its type, a name, and a name that is given a value. A span of any length is accepted if
it has one of them, and also if it begins with a declaration or an assignment and goes on behind the
value, where the check no longer looks; every other span has exactly one problem.
-/

namespace LessonCheck

/-- A problem of the initialization, and not of another part of the loop. -/
def LoopFormProblem.isOfInit : LoopFormProblem → Bool
  | .emptyInit | .initName _ | .initEquals | .initLiteral _ _ _ _ | .initValue _ | .init => true
  | _ => false

namespace LoopHeader

/-- The forms of an initialization, with nothing in front of them or behind. -/
inductive InitForm : Tokens → Prop
  | declaring {declared : VariableType} {type name equals value : Token} :
      type.typeNamed? = some declared → name.kind = .identifier → equals.isOperator "=" = true →
        value.kind = declared.literalKind → InitForm [type, name, equals, value]
  | naming {name : Token} : name.kind = .identifier → InitForm [name]
  | assigning {name equals value : Token} : name.kind = .identifier →
      equals.isOperator "=" = true → value.kind.isValue = true → InitForm [name, equals, value]

theorem InitForm.length_le {ts : Tokens} (h : InitForm ts) : ts.length ≤ 4 := by
  cases h <;> simp

/-- A declaration or an assignment with more behind its value. -/
def GoesOn (ts : Tokens) : Prop :=
  ∃ form extra, InitForm form ∧ 3 ≤ form.length ∧ extra ≠ [] ∧ ts = form ++ extra

variable {keyword t : Token} {ts rest : Tokens}

theorem typeNamed?_of_identifier (h : t.kind = .identifier) : t.typeNamed? = none :=
  Token.typeNamed?_of_ne (by simp [h])

/-- Behind a declaration or an assignment nothing is looked at. -/
theorem initProblems_append {form : Tokens} (h : InitForm form) (hlength : 3 ≤ form.length)
    (extra : Tokens) : initProblems keyword (form ++ extra) = [] := by
  cases h with
  | declaring htype hname hequals hvalue =>
      simp [initProblems, htype, declaredInitProblems, hname, hequals, hvalue]
  | naming hname => simp at hlength
  | assigning hname hequals hvalue =>
      simp [initProblems, typeNamed?_of_identifier hname, plainInitProblems, hname, hequals, hvalue]

theorem initProblems_of_form (h : InitForm ts) : initProblems keyword ts = [] := by
  cases h with
  | naming hname =>
      simp [initProblems, typeNamed?_of_identifier hname, plainInitProblems, hname]
  | declaring htype hname hequals hvalue =>
      exact initProblems_append (.declaring htype hname hequals hvalue) (by simp) []
  | assigning hname hequals hvalue =>
      exact initProblems_append (.assigning hname hequals hvalue) (by simp) []

theorem initProblems_eq_nil_iff :
    initProblems keyword ts = [] ↔ InitForm ts ∨ GoesOn ts := by
  constructor
  · intro h
    have hextra {form : Tokens} (extra : Tokens) (hform : InitForm form)
        (hlength : 3 ≤ form.length) : InitForm (form ++ extra) ∨ GoesOn (form ++ extra) := by
      cases extra with
      | nil => exact Or.inl (by simpa using hform)
      | cons u extra => exact Or.inr ⟨form, u :: extra, hform, hlength, by simp, rfl⟩
    rcases shape_of_initProblems h with
      ⟨declared, type, name, equals, value, extra, rfl, htype, hname, hequals, hvalue⟩ |
      ⟨name, rfl, hname⟩ | ⟨name, equals, value, extra, rfl, hname, hequals, hvalue⟩
    · exact hextra extra (.declaring htype hname hequals hvalue) (by simp)
    · exact Or.inl (.naming hname)
    · exact hextra extra (.assigning hname hequals hvalue) (by simp)
  · rintro (hform | ⟨form, extra, hform, hlength, -, rfl⟩)
    · exact initProblems_of_form hform
    · exact initProblems_append hform hlength extra

/-- An initialization that goes on behind its value has none of the forms. -/
theorem GoesOn.not_initForm (h : GoesOn ts) : ¬ InitForm ts := by
  obtain ⟨form, extra, hform, hlength, hextra, rfl⟩ := h
  intro hwhole
  cases hform with
  | declaring =>
      cases hwhole
      exact hextra rfl
  | naming => simp at hlength
  | assigning hname =>
      cases hwhole with
      | declaring htype =>
          rw [typeNamed?_of_identifier hname] at htype
          cases htype
      | assigning => exact hextra rfl

/-! ### Problems of the initialization -/

/-- The problems that are about the initialization. -/
def initPart (problems : List (Located LoopFormProblem)) : List (Located LoopFormProblem) :=
  problems.filter fun p => p.problem.isOfInit

@[simp] theorem initPart_nil : initPart [] = [] := rfl

@[simp] theorem initPart_append (problems others : List (Located LoopFormProblem)) :
    initPart (problems ++ others) = initPart problems ++ initPart others :=
  List.filter_append problems others

@[simp] theorem initPart_report (t : Token) (problem : LoopFormProblem) :
    initPart (report t problem) = if problem.isOfInit then report t problem else [] := by
  rw [initPart, report, List.filter_cons, List.filter_nil]

@[simp] theorem initPart_ite (c : Prop) [Decidable c]
    (problems others : List (Located LoopFormProblem)) :
    initPart (if c then problems else others) =
      if c then initPart problems else initPart others :=
  apply_ite initPart c problems others

/-- There is one problem at most, and it is about the initialization. -/
def IsInitAnswer (problems : List (Located LoopFormProblem)) : Prop :=
  problems = [] ∨ ∃ t problem, problem.isOfInit = true ∧ problems = report t problem

theorem isInitAnswer_nil : IsInitAnswer [] := Or.inl rfl

theorem isInitAnswer_report (t : Token) {problem : LoopFormProblem}
    (h : problem.isOfInit = true) : IsInitAnswer (report t problem) :=
  Or.inr ⟨t, problem, h, rfl⟩

theorem isInitAnswer_declaredInitProblems (declared : VariableType) (name equals value : Token) :
    IsInitAnswer (declaredInitProblems declared name equals value) := by
  unfold declaredInitProblems
  split
  · exact isInitAnswer_report _ rfl
  · split
    · exact isInitAnswer_report _ rfl
    · split
      · exact isInitAnswer_report _ rfl
      · exact isInitAnswer_nil

theorem isInitAnswer_plainInitProblems (first : Token) (rest : Tokens) :
    IsInitAnswer (plainInitProblems first rest) := by
  unfold plainInitProblems
  split
  · split
    · exact isInitAnswer_nil
    · split
      · split
        · exact isInitAnswer_nil
        · exact isInitAnswer_report _ rfl
      · exact isInitAnswer_report _ rfl
    · exact isInitAnswer_report _ rfl
  · exact isInitAnswer_report _ rfl

/-- The check of the initialization reports one problem of its own at most. -/
theorem isInitAnswer_initProblems (keyword : Token) (ts : Tokens) :
    IsInitAnswer (initProblems keyword ts) := by
  unfold initProblems
  split
  · exact isInitAnswer_report _ rfl
  · split
    · exact isInitAnswer_declaredInitProblems _ _ _ _
    · exact isInitAnswer_plainInitProblems _ _

theorem initPart_initProblems (keyword : Token) (ts : Tokens) :
    initPart (initProblems keyword ts) = initProblems keyword ts := by
  rcases isInitAnswer_initProblems keyword ts with hnil | ⟨t, problem, hinit, hone⟩
  · rw [hnil, initPart_nil]
  · rw [hone, initPart_report, if_pos hinit]

theorem initPart_conditionProblems (keyword : Token) (ts : Tokens) :
    initPart (conditionProblems keyword ts) = [] := by
  unfold conditionProblems
  split <;> simp [LoopFormProblem.isOfInit]

theorem initPart_stepProblems (operator : Token) (rest : Tokens) :
    initPart (stepProblems operator rest) = [] := by
  unfold stepProblems
  split <;> simp [LoopFormProblem.isOfInit]

theorem initPart_stepByProblems (operator : Token) (rest : Tokens) :
    initPart (stepByProblems operator rest) = [] := by
  unfold stepByProblems
  split <;> simp [LoopFormProblem.isOfInit]

theorem initPart_incrementProblems (keyword : Token) (ts : Tokens) :
    initPart (incrementProblems keyword ts) = [] := by
  unfold incrementProblems
  split <;> simp [LoopFormProblem.isOfInit, initPart_stepProblems, initPart_stepByProblems]

theorem initPart_bodyProblems (e : Enclosed) : initPart (bodyProblems e) = [] := by
  simp [bodyProblems, LoopFormProblem.isOfInit]

/-- Of the problems of a loop with a header, those of the initialization come from its part. -/
theorem initPart_formProblems {h : LoopHeader} (hh : ofTokens rest = .ok h) :
    initPart (formProblems keyword rest) = initProblems keyword h.init := by
  cases he : rest.parenthesis? with
  | error fault => simp [ofTokens, he, bind, Except.bind] at hh
  | ok e =>
      have hof : ofEnclosed e = .ok h := by simpa [ofTokens, he, bind, Except.bind] using hh
      simp only [formProblems, he, clauseProblems, hof, initPart_append, initPart_initProblems,
        initPart_conditionProblems, initPart_incrementProblems, initPart_bodyProblems,
        List.append_nil]

end LoopHeader

/-! ### All loops -/

namespace Tokens

open LoopHeader

variable {ts : Tokens} {k : Nat} {layout : HeaderLayout}

/-- The problems of form of the loop whose keyword has this number. -/
def loopProblemsOf (ts : Tokens) (k : Nat) : List (Located LoopFormProblem) :=
  match ts.drop k with
  | [] => []
  | keyword :: rest => LoopHeader.formProblems keyword rest

def initProblemsOf (ts : Tokens) (k : Nat) : List (Located LoopFormProblem) :=
  initPart (ts.loopProblemsOf k)

theorem loopProblemsOf_append (front : Tokens) (keyword : Token) (rest : Tokens) :
    loopProblemsOf (front ++ keyword :: rest) front.length =
      LoopHeader.formProblems keyword rest := by
  simp [loopProblemsOf]

/-- The loops are checked one after the other. -/
theorem loopFormProblems_eq (ts : Tokens) :
    ts.loopFormProblems = ts.loopKeywords.flatMap ts.loopProblemsOf := by
  rw [loopFormProblems, survey_eq_flatMap, loopKeywords, zipIdx_eq_splits, List.filter_map,
    List.map_map, List.flatMap_map]
  have hplaces : ∀ s ∈ ts.splits, ts.loopProblemsOf s.front.length =
      LoopHeader.formProblems s.token s.rest := by
    intro s hs
    rw [mem_splits.mp hs, loopProblemsOf_append]
  generalize ts.splits = places at hplaces ⊢
  induction places with
  | nil => rfl
  | cons s places ih =>
      have hrest := ih fun s hs => hplaces s (List.mem_cons_of_mem _ hs)
      have hhere := hplaces s List.mem_cons_self
      rw [List.flatMap_cons, List.filter_cons, hrest]
      by_cases hfor : s.token.isKeyword "for" = true <;> simp [hfor, hhere]

/-- The span of the initialization holds the tokens that its problems are about. -/
theorem exists_init (hk : ts.headerLayout k = .ok layout) :
    ∃ keyword span, layout.init.Holds ts span ∧
      ts.initProblemsOf k = initProblems keyword span := by
  obtain ⟨front, keyword, rest, header, rfl, rfl, hh, rfl⟩ := exists_of_headerLayout hk
  refine ⟨keyword, header.init, (LoopHeader.holds front keyword hh).1, ?_⟩
  rw [initProblemsOf, loopProblemsOf_append, initPart_formProblems hh]

theorem span_unique {span : Span} {part part' : Tokens} (h : span.Holds ts part)
    (h' : span.Holds ts part') : part = part' :=
  Except.ok.inj (h.slice.symm.trans h'.slice)

/-- Every loop with a header has one problem of its initialization if that has none of the forms,
and no problem otherwise. -/
def DecidesInit (ts : Tokens) : Prop :=
  ∀ k ∈ ts.loopKeywords, ∀ layout span, ts.headerLayout k = .ok layout →
    layout.init.Holds ts span →
      (InitForm span → ts.initProblemsOf k = []) ∧
        (¬ InitForm span → (ts.initProblemsOf k).length = 1)

theorem initProblemsOf_cases {span : Tokens} (hk : ts.headerLayout k = .ok layout)
    (hspan : layout.init.Holds ts span) :
    (InitForm span ∨ GoesOn span) ∧ ts.initProblemsOf k = [] ∨
      ¬ (InitForm span ∨ GoesOn span) ∧ (ts.initProblemsOf k).length = 1 := by
  obtain ⟨keyword, part, hpart, hproblems⟩ := exists_init hk
  obtain rfl := span_unique hspan hpart
  rw [hproblems]
  rcases isInitAnswer_initProblems keyword span with hnil | ⟨t, problem, -, hone⟩
  · exact Or.inl ⟨initProblems_eq_nil_iff.mp hnil, hnil⟩
  · refine Or.inr ⟨fun hform => ?_, by rw [hone]; rfl⟩
    rw [initProblems_eq_nil_iff.mpr hform] at hone
    cases hone

theorem decidesInit_iff :
    ts.DecidesInit ↔ ∀ k ∈ ts.loopKeywords, ∀ layout span, ts.headerLayout k = .ok layout →
      layout.init.Holds ts span → ¬ GoesOn span := by
  constructor
  · intro h k hk layout span hlayout hspan hgoes
    have hone := (h k hk layout span hlayout hspan).2 hgoes.not_initForm
    rcases initProblemsOf_cases hlayout hspan with ⟨-, hnil⟩ | ⟨hnone, -⟩
    · rw [hnil] at hone
      cases hone
    · exact hnone (Or.inr hgoes)
  · intro h k hk layout span hlayout hspan
    have hends := h k hk layout span hlayout hspan
    rcases initProblemsOf_cases hlayout hspan with ⟨hform, hnil⟩ | ⟨hnone, hone⟩
    · exact ⟨fun _ => hnil, fun hno => absurd (hform.resolve_right hends) hno⟩
    · exact ⟨fun hform => absurd (Or.inl hform) hnone, fun _ => hone⟩

/-- The loops are checked one after the other. A loop with a header has no problem of its
initialization exactly if that has one of the three forms or goes on behind the value of the first
or last of them, and one problem otherwise; so the forms alone decide as long as none goes on. -/
theorem init_decided (ts : Tokens) :
    ts.loopFormProblems = ts.loopKeywords.flatMap ts.loopProblemsOf ∧
    (∀ k ∈ ts.loopKeywords, ∀ layout, ts.headerLayout k = .ok layout →
      ∃ span, layout.init.Holds ts span ∧
        ((InitForm span ∨ GoesOn span) ∧ ts.initProblemsOf k = [] ∨
          ¬ (InitForm span ∨ GoesOn span) ∧ (ts.initProblemsOf k).length = 1)) ∧
    (ts.DecidesInit ↔ ∀ k ∈ ts.loopKeywords, ∀ layout span, ts.headerLayout k = .ok layout →
      layout.init.Holds ts span → ¬ GoesOn span) := by
  refine ⟨loopFormProblems_eq ts, fun k _ layout hlayout => ?_, decidesInit_iff⟩
  obtain ⟨-, span, hspan, -⟩ := exists_init hlayout
  exact ⟨span, hspan, initProblemsOf_cases hlayout hspan⟩

/-- A declaration with one more number behind its value. -/
theorem not_decidesInit_extra :
    ¬ (Token.ofText "for (int i = 0 5; i < 3; i++) \x7b \x7d").DecidesInit := by
  intro h
  have hlayout : (Token.ofText "for (int i = 0 5; i < 3; i++) \x7b \x7d").headerLayout 0 =
      .ok ⟨0, 1, 14, ⟨2, 7⟩, ⟨8, 11⟩, ⟨12, 14⟩⟩ := by
    decide +kernel
  obtain ⟨-, span, hspan, -⟩ := exists_init hlayout
  have hlength : span.length = 5 := hspan.length_eq.symm
  have hno : ¬ InitForm span := fun hform => by
    have hle := hform.length_le
    omega
  have hone := (h 0 (by decide +kernel) _ span hlayout hspan).2 hno
  exact absurd hone (by decide +kernel)

end Tokens

end LessonCheck
