import LessonCheck.Proofs.Access.Calls
import LessonCheck.Proofs.Access.Lexing
import LessonCheck.Proofs.Access.Loops
import LessonCheck.Session

/-!
A whole check by number. The checks of form and meaning and the lexer, each with its accesses, are
put together as in a session. Nothing in them can go wrong: whatever the tokens are, the checks by
number come to the problems that are found without numbers, and whatever the source text is, so does
the session as a whole.
-/

namespace LessonCheck

namespace Tokens

/-- The problems of form, check by check. -/
def formProblemsAt (ts : Tokens) : Checked (List (Located FormProblem)) := do
  let endings ← ts.endingProblemsAt
  let loops ← ts.loopFormProblemsAt
  let concatenations ← ts.concatenationProblemsAt
  return ts.bracketProblems.map (·.map .bracket) ++ endings.map (·.map .ending) ++
    loops.map (·.map .loop) ++ concatenations.map (·.map .concatenation)

theorem formProblemsAt_eq (ts : Tokens) : ts.formProblemsAt = .ok ts.formProblems := by
  simp only [formProblemsAt, endingProblemsAt_eq, loopFormProblemsAt_eq, concatenationProblemsAt_eq,
    Checked.ok_bind, Checked.pure_eq]
  rfl

end Tokens

namespace Scope

/-- The problems of the use at number `i`, judged by the token at the number before. -/
def useAt (scope : Scope) (ts : Tokens) (i : Nat) (t : Token) :
    Checked (List (Located UsageProblem)) := do
  if t.isReference then do
    let declares := (← ts.before i).any Token.isTypeKeyword
    if declares then return []
    else do
      let member := (← ts.before i).any (·.kind = .dot)
      return if member then [] else scope.useProblems t (ts.drop (i + 1))
  else return []

def usageProblemsAt (scope : Scope) (ts : Tokens) : Checked (List (Located UsageProblem)) :=
  ts.walk (scope.useAt ts)

theorem usageProblemsAt_eq (scope : Scope) (ts : Tokens) :
    scope.usageProblemsAt ts = .ok (scope.usageProblems ts) := by
  refine Tokens.walk_eq_survey fun front t rest hts => ?_
  have hdrop : ts.drop (front.length + 1) = rest := by simp [hts]
  have hbefore : ts.before front.length = .ok front.getLast? := by rw [hts, Tokens.before_append]
  simp only [useAt, hbefore, hdrop, Checked.ok_bind, Checked.pure_eq, Checked.ite_ok, Token.isUse]
  by_cases hreference : t.isReference = true
  · by_cases hdeclares : front.getLast?.any Token.isTypeKeyword = true
    · simp [hdeclares]
    · by_cases hmember : front.getLast?.any (·.kind = .dot) = true
      · simp [hmember]
      · simp [hreference, hdeclares, hmember]
  · simp [hreference]

end Scope

namespace Tokens

/-- The declarations and the checks of single tokens look at nothing in front of a token. -/
def meaningAt (options : MeaningOptions) (ts : Tokens) : Checked Meaning := do
  let declared := Scope.empty.declareAll ts
  let scope := declared.scope
  let usages ← scope.usageProblemsAt ts
  let loops ← scope.loopProblemsAt ts
  return {
    scope
    problems :=
      declared.problems.map (·.map .declaration) ++ usages.map (·.map .usage) ++
        loops.map (·.map .loop) ++
        (match options.charRange with
          | some r => (r.problems ts).map (·.map .charRange)
          | none => []) ++
        (if options.stringMethods then (scope.stringMethodProblems ts).map (·.map .stringMethod)
          else []) }

theorem meaningAt_eq (options : MeaningOptions) (ts : Tokens) :
    ts.meaningAt options = .ok (ts.meaning options) := by
  simp only [meaningAt, Scope.usageProblemsAt_eq, Scope.loopProblemsAt_eq, Checked.ok_bind,
    Checked.pure_eq]
  rfl

end Tokens

namespace Session

def checkFormAt (s : Session) (source : String) :
    Checked (Except SourceError FormAnalysis × Session) := do
  if source.isEmpty then return (.error .empty, s)
  else do
    let (lexed, cache) ← s.cache.lexByOffset source
    let problems ← lexed.tokens.formProblemsAt
    return (.ok ⟨lexed.tokens, lexed.problems.map (·.map .lexical) ++ problems⟩, { s with cache })

def analyzeAt (s : Session) (source : String) :
    Checked (Except SourceError Analysis × Session) := do
  match ← s.checkFormAt source with
  | (.error e, s) => return (.error e, s)
  | (.ok form, s) => do
    let meaning ← form.tokens.meaningAt s.settings.meaningOptions
    return (.ok ⟨form, meaning⟩, s)

theorem checkFormAt_eq (s : Session) (source : String) :
    s.checkFormAt source = .ok (s.checkForm source) := by
  unfold checkFormAt checkForm
  split
  · rfl
  · rw [TextCache.lexByOffset_eq, Checked.ok_bind]
    simp only [Tokens.formProblemsAt_eq, Checked.ok_bind, Checked.pure_eq]
    rfl

theorem analyzeAt_eq (s : Session) (source : String) :
    s.analyzeAt source = .ok (s.analyze source) := by
  unfold analyzeAt analyze
  rw [checkFormAt_eq, Checked.ok_bind]
  rcases s.checkForm source with ⟨_ | form, s⟩
  · rfl
  · simp only [Tokens.meaningAt_eq, Checked.ok_bind, Checked.pure_eq]
    rfl

end Session

/-- Where a check counts down, reads a token by its number or cuts something out, it can. -/
structure NeverFaults : Prop where
  /-- Every lexeme is cut out between two places of the source that no character stands across. -/
  lex (cache : TextCache) (source : String) : cache.lexByOffset source = .ok (cache.lex source)
  /-- The count of open parentheses does not go below zero. -/
  closer (ts : Tokens) (i : Nat) : ts.closerAt i = .ok (ts.closingParen? i)
  /-- The parts of a header lie within the tokens. -/
  spans (ts : Tokens) (k : Nat) (layout : HeaderLayout) : ts.headerLayout k = .ok layout →
    ∀ span ∈ [layout.init, layout.condition, layout.increment],
      span.first ≤ span.last ∧ span.last ≤ ts.length
  form (ts : Tokens) : ts.formProblemsAt = .ok ts.formProblems
  meaning (options : MeaningOptions) (ts : Tokens) :
    ts.meaningAt options = .ok (ts.meaning options)
  checkForm (s : Session) (source : String) : s.checkFormAt source = .ok (s.checkForm source)
  analyze (s : Session) (source : String) : s.analyzeAt source = .ok (s.analyze source)

/-- No check faults: of a source text, whatever the settings are, and of tokens that come from no
text. -/
theorem neverFaults : NeverFaults where
  lex := TextCache.lexByOffset_eq
  closer := Tokens.closerAt_eq
  spans := by
    intro ts k layout hlayout
    obtain ⟨init, condition, increment, hinit, hcondition, hincrement⟩ :=
      Tokens.holds_of_headerLayout hlayout
    simp only [List.forall_mem_cons, List.not_mem_nil, false_implies, implies_true, and_true]
    exact ⟨hinit.inBounds, hcondition.inBounds, hincrement.inBounds⟩
  form := Tokens.formProblemsAt_eq
  meaning := fun options ts => ts.meaningAt_eq options
  checkForm := Session.checkFormAt_eq
  analyze := Session.analyzeAt_eq

end LessonCheck
