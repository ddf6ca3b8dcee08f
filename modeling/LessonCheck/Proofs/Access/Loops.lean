import LessonCheck.Proofs.Access.Header
import LessonCheck.Proofs.Loop.Agreement

/-!
Loops by number. The checks of a loop look at the tokens of its header by number, once the header
has been laid out, and cut its parts out between two numbers. Every part stands in the tokens where
its span says, so a number counted from the beginning of the span hits a token of the part as long
as the part is long enough, which is what the checks make sure of first.
-/

namespace LessonCheck

/-! ### Parts in their places -/

namespace Span

variable {span : Span} {ts part : Tokens} {n : Nat} {t : Token}

/-- The numbers in the span, none if it ends before it begins. -/
def length (span : Span) : Nat := span.last - span.first

/-- The part stands in the tokens at the numbers of the span. -/
def Holds (span : Span) (ts part : Tokens) : Prop :=
  ∃ front rest, ts = front ++ part ++ rest ∧ front.length = span.first ∧
    span.first + part.length = span.last

namespace Holds

theorem length_eq (h : span.Holds ts part) : span.length = part.length := by
  obtain ⟨-, -, -, -, hlast⟩ := h
  rw [Span.length, ← hlast, Nat.add_sub_cancel_left]

theorem slice (h : span.Holds ts part) : ts.slice span.first span.last = .ok part :=
  Tokens.slice_eq_ok_iff.mpr h

theorem tokenAt (h : span.Holds ts part) (ht : part[n]? = some t) :
    ts.tokenAt (span.first + n) = .ok t := by
  obtain ⟨front, rest, rfl, hfirst, -⟩ := h
  obtain ⟨before, after, rfl, rfl⟩ := Tokens.exists_split_of_getElem? ht
  refine Tokens.tokenAt_eq_ok_iff.mpr ?_
  have hplace : span.first + before.length = (front ++ before).length := by simp [hfirst]
  rw [hplace]
  simp

theorem tokenAt_first {rest : Tokens} (h : span.Holds ts (t :: rest)) :
    ts.tokenAt span.first = .ok t :=
  h.tokenAt (n := 0) rfl

theorem inBounds (h : span.Holds ts part) : span.first ≤ span.last ∧ span.last ≤ ts.length := by
  obtain ⟨front, rest, rfl, hfirst, hlast⟩ := h
  simp only [List.length_append]
  omega

end Holds

end Span

namespace Tokens

theorem headerLayout_append (front : Tokens) (t : Token) (rest : Tokens) :
    headerLayout (front ++ t :: rest) front.length =
      (LoopHeader.ofTokens rest).map (·.layout front.length) := by
  have hdrop : (front ++ t :: rest).drop (front.length + 1) = rest := by simp
  rw [headerLayout, hdrop]

end Tokens

namespace LoopHeader

/-- The parts of a header stand where its layout says. -/
theorem holds (front : Tokens) (keyword : Token) {rest : Tokens} {h : LoopHeader}
    (hh : ofTokens rest = .ok h) :
    (h.layout front.length).init.Holds (front ++ keyword :: rest) h.init ∧
      (h.layout front.length).condition.Holds (front ++ keyword :: rest) h.condition ∧
      (h.layout front.length).increment.Holds (front ++ keyword :: rest) h.increment := by
  obtain ⟨opener, first, second, -, -, -, rfl⟩ := eq_of_ofTokens hh
  refine ⟨⟨front ++ [keyword, opener], first :: (h.condition ++ second :: (h.increment ++
      h.closer :: h.after)), by simp, by simp [layout], rfl⟩,
    ⟨front ++ [keyword, opener] ++ h.init ++ [first], second :: (h.increment ++
      h.closer :: h.after), by simp, by simp [layout]; omega, rfl⟩,
    ⟨front ++ [keyword, opener] ++ h.init ++ [first] ++ h.condition ++ [second],
      h.closer :: h.after, by simp, by simp [layout]; omega, rfl⟩⟩

end LoopHeader

/-- A header that has been laid out has been read behind some token. -/
theorem Tokens.exists_of_headerLayout {ts : Tokens} {k : Nat} {layout : HeaderLayout}
    (h : ts.headerLayout k = .ok layout) :
    ∃ front keyword rest header, ts = front ++ keyword :: rest ∧ front.length = k ∧
      LoopHeader.ofTokens rest = .ok header ∧ header.layout k = layout := by
  cases hread : ts[k]? with
  | none =>
      have hdrop : ts.drop (k + 1) = [] :=
        List.drop_eq_nil_of_le (Nat.le_succ_of_le (List.getElem?_eq_none_iff.mp hread))
      rw [headerLayout, hdrop] at h
      cases h
  | some keyword =>
      obtain ⟨front, rest, rfl, rfl⟩ := exists_split_of_getElem? hread
      rw [headerLayout_append] at h
      cases hh : LoopHeader.ofTokens rest with
      | error fault =>
          rw [hh] at h
          cases h
      | ok header =>
          rw [hh] at h
          exact ⟨front, keyword, rest, header, rfl, rfl, hh, Except.ok.inj h⟩

/-- Every header that has been laid out has its parts where it says. -/
theorem Tokens.holds_of_headerLayout {ts : Tokens} {k : Nat} {layout : HeaderLayout}
    (h : ts.headerLayout k = .ok layout) :
    ∃ init condition increment, layout.init.Holds ts init ∧ layout.condition.Holds ts condition ∧
      layout.increment.Holds ts increment := by
  obtain ⟨front, keyword, rest, header, rfl, rfl, hh, rfl⟩ := exists_of_headerLayout h
  exact ⟨_, _, _, LoopHeader.holds front keyword hh⟩

/-! ### The form of a loop -/

namespace Tokens

open LoopHeader

variable (ts : Tokens) (keyword : Nat) (span : Span)

/-- An initialization of at least four tokens whose first is a type. -/
def declaredInitAt (declared : VariableType) : Checked (List (Located LoopFormProblem)) := do
  let name ← ts.tokenAt (span.first + 1)
  if name.kind ≠ .identifier then return report name (.initName declared)
  else do
    let equals ← ts.tokenAt (span.first + 2)
    if !equals.isOperator "=" then return report equals .initEquals
    else do
      let value ← ts.tokenAt (span.first + 3)
      if value.kind ≠ declared.literalKind then
        return report value (.initLiteral declared name.lexeme value.kind value.lexeme)
      else return []

/-- An initialization without a declaration: only three tokens or more are looked into. -/
def plainInitAt (first : Token) : Checked (List (Located LoopFormProblem)) := do
  if span.length = 1 ∧ first.kind = .identifier then return []
  else if 3 ≤ span.length ∧ first.kind = .identifier then do
    let equals ← ts.tokenAt (span.first + 1)
    if equals.isOperator "=" then do
      let value ← ts.tokenAt (span.first + 2)
      if value.kind.isValue then return [] else return report value (.initValue value.lexeme)
    else return report first .init
  else return report first .init

def initAt : Checked (List (Located LoopFormProblem)) := do
  if span.length = 0 then return report (← ts.tokenAt keyword) .emptyInit
  else do
    let first ← ts.tokenAt span.first
    match first.typeNamed? with
    | some declared =>
      if 4 ≤ span.length then ts.declaredInitAt span declared else ts.plainInitAt span first
    | none => ts.plainInitAt span first

def conditionAt : Checked (List (Located LoopFormProblem)) := do
  if span.length = 0 then return report (← ts.tokenAt keyword) .emptyCondition
  else if span.length < 3 then return report (← ts.tokenAt span.first) .incompleteCondition
  else do
    let name ← ts.tokenAt span.first
    let operator ← ts.tokenAt (span.first + 1)
    let value ← ts.tokenAt (span.first + 2)
    return (if name.kind = .identifier then [] else report name (.conditionVariable name.lexeme)) ++
      (if operator.isRelational then []
        else report operator (.conditionOperator operator.lexeme)) ++
      (if value.kind.isValue then [] else report value (.conditionValue value.lexeme))

def incrementAt : Checked (List (Located LoopFormProblem)) := do
  if span.length = 0 then return report (← ts.tokenAt keyword) .emptyIncrement
  else do
    let name ← ts.tokenAt span.first
    if span.length < 2 then return report name .incompleteIncrement
    else if name.kind ≠ .identifier then return report name (.incrementVariable name.lexeme)
    else do
      let operator ← ts.tokenAt (span.first + 1)
      if operator.isStep then
        if 2 < span.length then return stepProblems operator [← ts.tokenAt (span.first + 2)]
        else return []
      else if operator.isStepBy then
        if span.length = 3 then return stepByProblems operator [← ts.tokenAt (span.first + 2)]
        else return report operator (.incrementValueCount operator.lexeme)
      else return report operator (.incrementOperator operator.lexeme)

section
variable {ts : Tokens} {keyword : Nat} {span : Span} {part : Tokens} {t : Token}

theorem declaredInitAt_eq {declared : VariableType} {type name equals value : Token} {rest : Tokens}
    (h : span.Holds ts (type :: name :: equals :: value :: rest)) :
    ts.declaredInitAt span declared = .ok (declaredInitProblems declared name equals value) := by
  have hname := h.tokenAt (n := 1) rfl
  have hequals := h.tokenAt (n := 2) rfl
  have hvalue := h.tokenAt (n := 3) rfl
  simp only [declaredInitAt, hname, hequals, hvalue, Checked.ok_bind, Checked.pure_eq,
    Checked.ite_ok]
  rfl

theorem plainInitAt_eq {first : Token} {rest : Tokens} (h : span.Holds ts (first :: rest)) :
    ts.plainInitAt span first = .ok (plainInitProblems first rest) := by
  have hlength := h.length_eq
  unfold plainInitAt plainInitProblems
  rcases rest with _ | ⟨equals, _ | ⟨value, rest⟩⟩
  · by_cases hname : first.kind = .identifier <;> simp [hlength, hname]
  · simp [hlength]
  · have hequals := h.tokenAt (n := 1) rfl
    have hvalue := h.tokenAt (n := 2) rfl
    by_cases hname : first.kind = .identifier
    · simp [hlength, hname, hequals, hvalue, Checked.ite_ok]
    · simp [hname]

theorem initAt_eq (hk : ts.tokenAt keyword = .ok t) (h : span.Holds ts part) :
    ts.initAt keyword span = .ok (initProblems t part) := by
  have hlength := h.length_eq
  cases part with
  | nil => simp [initAt, hlength, hk, initProblems]
  | cons first rest =>
      have hfirst := h.tokenAt_first
      cases htype : first.typeNamed? with
      | none => simp [initAt, hlength, hfirst, htype, plainInitAt_eq h, initProblems]
      | some declared =>
          rcases rest with _ | ⟨name, _ | ⟨equals, _ | ⟨value, rest⟩⟩⟩
          · simp [initAt, hlength, hfirst, htype, plainInitAt_eq h, initProblems]
          · simp [initAt, hlength, hfirst, htype, plainInitAt_eq h, initProblems]
          · simp [initAt, hlength, hfirst, htype, plainInitAt_eq h, initProblems]
          · simp [initAt, hlength, hfirst, htype, declaredInitAt_eq h, initProblems]

theorem conditionAt_eq (hk : ts.tokenAt keyword = .ok t) (h : span.Holds ts part) :
    ts.conditionAt keyword span = .ok (conditionProblems t part) := by
  have hlength := h.length_eq
  rcases part with _ | ⟨name, _ | ⟨operator, _ | ⟨value, rest⟩⟩⟩
  · simp [conditionAt, hlength, hk, conditionProblems]
  · simp [conditionAt, hlength, h.tokenAt_first, conditionProblems]
  · simp [conditionAt, hlength, h.tokenAt_first, conditionProblems]
  · have hoperator := h.tokenAt (n := 1) rfl
    have hvalue := h.tokenAt (n := 2) rfl
    have hlong : ¬ rest.length + 1 + 1 + 1 < 3 := by omega
    simp [conditionAt, hlength, hlong, h.tokenAt_first, hoperator, hvalue, conditionProblems]

theorem incrementAt_eq (hk : ts.tokenAt keyword = .ok t) (h : span.Holds ts part) :
    ts.incrementAt keyword span = .ok (incrementProblems t part) := by
  have hlength := h.length_eq
  rcases part with _ | ⟨name, _ | ⟨operator, rest⟩⟩
  · simp [incrementAt, hlength, hk, incrementProblems]
  · simp [incrementAt, hlength, h.tokenAt_first, incrementProblems]
  · have hoperator := h.tokenAt (n := 1) rfl
    rcases rest with _ | ⟨value, _ | ⟨extra, rest⟩⟩
    · simp [incrementAt, hlength, h.tokenAt_first, hoperator, incrementProblems, stepProblems,
        stepByProblems, Checked.ite_ok]
    · have hvalue := h.tokenAt (n := 2) rfl
      simp [incrementAt, hlength, h.tokenAt_first, hoperator, hvalue, incrementProblems,
        stepProblems, stepByProblems, Checked.ite_ok]
    · have hvalue := h.tokenAt (n := 2) rfl
      have hlong : ¬ rest.length + 1 + 1 + 1 + 1 < 2 := by omega
      simp [incrementAt, hlength, hlong, h.tokenAt_first, hoperator, hvalue, incrementProblems,
        stepProblems, stepByProblems, Checked.ite_ok]

end

/-- The brace behind the parenthesis that closes the header. -/
def bodyAt (closer : Nat) : Checked (List (Located LoopFormProblem)) := do
  if ts.hasKindAt (closer + 1) .lbrace then return []
  else return report (← ts.tokenAt closer) .missingBody

/-- The problems of the loop whose keyword stands at a number. -/
def loopFormAt : Checked (List (Located LoopFormProblem)) := do
  match ← ts.headerAt keyword with
  | .ok layout => do
    let init ← ts.initAt keyword layout.init
    let condition ← ts.conditionAt keyword layout.condition
    let increment ← ts.incrementAt keyword layout.increment
    let body ← ts.bodyAt layout.closer
    return init ++ condition ++ increment ++ body
  | .error (.semicolons count) => do
    let header := report (← ts.tokenAt keyword) (.semicolonCount count)
    -- The body is looked at all the same, so the closer is searched for once more.
    match ← ts.closerAt (keyword + 1) with
    | some closer => return header ++ (← ts.bodyAt closer)
    | none => return header
  | .error .notClosed => return report (← ts.tokenAt keyword) .missingCloseParen
  | .error .notOpened => return report (← ts.tokenAt keyword) .missingOpenParen

def loopFormProblemsAt : Checked (List (Located LoopFormProblem)) :=
  ts.walk fun keyword t => if t.isKeyword "for" then ts.loopFormAt keyword else return []

theorem bodyAt_eq (front : Tokens) (e : Enclosed) :
    bodyAt (front ++ e.closer :: e.after) front.length = .ok (bodyProblems e) := by
  simp only [bodyAt, bodyProblems, hasKindAt_behind, tokenAt_append, Checked.ok_bind,
    Checked.pure_eq, Checked.ite_ok]

/-- The parenthesis behind a keyword, with the tokens in front of its closer. -/
theorem exists_closer_of_parenthesis? (front : Tokens) (keyword : Token) {rest : Tokens}
    {e : Enclosed} (he : rest.parenthesis? = .ok e) :
    ∃ inner, front ++ keyword :: rest = inner ++ e.closer :: e.after ∧
      inner.length = front.length + 1 + 1 + e.inside.length ∧
      closerAt (front ++ keyword :: rest) (front.length + 1) = .ok (some inner.length) := by
  obtain ⟨opener, hkind, rfl⟩ := eq_of_parenthesis? he
  have hfound : Enclosed.ofTokens? (e.inside ++ e.closer :: e.after) = some e := by
    simp only [parenthesis?, hkind, if_true] at he
    split at he <;> cases he
    assumption
  have hcloser := closingParen?_append hkind (front ++ [keyword]) (e.inside ++ e.closer :: e.after)
  rw [hfound, Option.map_some, List.length_append, List.length_singleton, List.append_assoc,
    List.singleton_append] at hcloser
  have hlength : (front ++ keyword :: opener :: e.inside).length =
      front.length + 1 + 1 + e.inside.length := by
    simp only [List.length_append, List.length_cons]
    omega
  refine ⟨front ++ keyword :: opener :: e.inside, by simp, hlength, ?_⟩
  rw [closerAt_eq, hcloser, hlength]

theorem parenthesis?_ne_semicolons (ts : Tokens) (count : Nat) :
    ts.parenthesis? ≠ .error (.semicolons count) := by
  unfold parenthesis?
  split
  · simp
  · split
    · split <;> simp
    · simp

/-- What the checks of a loop read by number is there. -/
theorem loopFormAt_eq (front : Tokens) (keyword : Token) (rest : Tokens) :
    loopFormAt (front ++ keyword :: rest) front.length =
      .ok (LoopHeader.formProblems keyword rest) := by
  have hkeyword := tokenAt_append front keyword rest
  unfold loopFormAt LoopHeader.formProblems
  rw [headerAt_eq, headerLayout_append, Checked.ok_bind]
  cases he : rest.parenthesis? with
  | error fault =>
      have hheader : ofTokens rest = .error fault := by simp only [ofTokens, he, bind, Except.bind]
      rw [hheader]
      cases fault with
      | notOpened => simp only [Except.map, hkeyword, Checked.ok_bind, Checked.pure_eq]
      | notClosed => simp only [Except.map, hkeyword, Checked.ok_bind, Checked.pure_eq]
      | semicolons count => exact absurd he (parenthesis?_ne_semicolons rest count)
  | ok e =>
      have hheader : ofTokens rest = ofEnclosed e := by simp only [ofTokens, he, bind, Except.bind]
      obtain ⟨inner, hts, hinner, hcloser⟩ := exists_closer_of_parenthesis? front keyword he
      have hbody : bodyAt (front ++ keyword :: rest) inner.length = .ok (bodyProblems e) := by
        rw [hts, bodyAt_eq]
      cases hh : ofEnclosed e with
      | error fault =>
          obtain rfl : fault = .semicolons (semicolonCount e.inside) := by
            unfold ofEnclosed at hh
            split at hh <;> cases hh
            rfl
          simp only [hheader, hh, Except.map, clauseProblems, hkeyword, hcloser, hbody,
            Checked.ok_bind, Checked.pure_eq]
      | ok h =>
          obtain ⟨hinit, hcondition, hincrement⟩ := holds front keyword (hheader.trans hh)
          obtain ⟨first, second, -, -, hinside, -, -⟩ := eq_of_ofEnclosed hh
          have hlast : (h.layout front.length).closer = inner.length := by
            simp only [layout, hinner, hinside, List.length_append, List.length_cons]
            omega
          simp only [hheader, hh, Except.map, clauseProblems, initAt_eq hkeyword hinit,
            conditionAt_eq hkeyword hcondition, incrementAt_eq hkeyword hincrement, hlast, hbody,
            Checked.ok_bind, Checked.pure_eq]

theorem loopFormProblemsAt_eq (ts : Tokens) :
    ts.loopFormProblemsAt = .ok ts.loopFormProblems := by
  refine walk_eq_survey fun front t rest hts => ?_
  rw [hts, loopFormAt_eq, Checked.pure_eq, Checked.ite_ok]

end Tokens

/-! ### The variable of a loop -/

namespace Scope

/-- The parts of a header are cut out of the tokens: the initialization first, and the other two
only if it says what the loop variable is. -/
def counterAt (scope : Scope) (ts : Tokens) (keyword : Nat) :
    Checked (List (Located LoopProblem)) := do
  match ← ts.headerAt keyword with
  | .error _ => return []
  | .ok layout => do
    let init ← ts.slice layout.init.first layout.init.last
    match LoopCounter.ofInit scope init with
    | .none => return []
    | .undeclared name => return [⟨name.location, .undeclared name.lexeme⟩]
    | .found v => do
      let condition ← ts.slice layout.condition.first layout.condition.last
      let increment ← ts.slice layout.increment.first layout.increment.last
      return v.partProblems .condition condition ++ v.partProblems .increment increment ++
        v.conditionProblems scope condition

def loopProblemsAt (scope : Scope) (ts : Tokens) : Checked (List (Located LoopProblem)) :=
  ts.walk fun keyword t => if t.isKeyword "for" then scope.counterAt ts keyword else return []

theorem counterAt_eq (scope : Scope) (front : Tokens) (keyword : Token) (rest : Tokens) :
    scope.counterAt (front ++ keyword :: rest) front.length =
      .ok (match LoopHeader.ofTokens rest with
        | .ok h => scope.headerProblems h
        | .error _ => []) := by
  unfold counterAt
  rw [Tokens.headerAt_eq, Tokens.headerLayout_append, Checked.ok_bind]
  cases hh : LoopHeader.ofTokens rest with
  | error fault => rfl
  | ok h =>
      obtain ⟨hinit, hcondition, hincrement⟩ := LoopHeader.holds front keyword hh
      simp only [Except.map, hinit.slice, hcondition.slice, hincrement.slice, Checked.ok_bind,
        Checked.pure_eq, headerProblems]
      cases LoopCounter.ofInit scope h.init <;> rfl

theorem loopProblemsAt_eq (scope : Scope) (ts : Tokens) :
    scope.loopProblemsAt ts = .ok (scope.loopProblems ts) := by
  refine Tokens.walk_eq_survey fun front t rest hts => ?_
  rw [hts]
  by_cases hfor : t.isKeyword "for" = true
  · rw [if_pos hfor, if_pos hfor]
    exact counterAt_eq scope front t rest
  · rw [if_neg hfor, if_neg hfor, Checked.pure_eq]

end Scope

end LessonCheck
