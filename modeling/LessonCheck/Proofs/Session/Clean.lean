import LessonCheck.Proofs.Session.History

/-!
What a clean analysis consists of: no complaint of the lexer about any token, and silence of every
check of form and of every pass over the meaning that the settings ask for.
-/

namespace LessonCheck

namespace Tokens

theorem formProblems_eq_nil_iff {ts : Tokens} :
    formProblems ts = [] ↔ bracketProblems ts = [] ∧ endingProblems ts = [] ∧
      loopFormProblems ts = [] ∧ concatenationProblems ts = [] := by
  simp only [formProblems, List.append_eq_nil_iff, List.map_eq_nil_iff, and_assoc]

theorem problems_meaning_eq_nil_iff {options : MeaningOptions} {ts : Tokens} :
    (meaning options ts).problems = [] ↔
      (Scope.empty.declareAll ts).problems = [] ∧
        (meaning options ts).scope.usageProblems ts = [] ∧
        (meaning options ts).scope.loopProblems ts = [] ∧
        (∀ r, options.charRange = some r → r.problems ts = []) ∧
        (options.stringMethods = true →
          (meaning options ts).scope.stringMethodProblems ts = []) := by
  simp only [meaning, List.append_eq_nil_iff, List.map_eq_nil_iff, and_assoc]
  cases options.charRange <;> cases options.stringMethods <;> simp

end Tokens

/-- The lexer has no complaint about the token. -/
def Token.IsWhole (t : Token) : Prop :=
  LexicalProblem.ofToken (InvalidEscape.ofLiteral t.lexeme) t = []

theorem LexedText.problems_ofText_eq_nil_iff {source : String} :
    (ofText source).problems = [] ↔ ∀ t ∈ Token.ofText source, t.IsWhole := by
  simp [ofText, ofToken, Token.IsWhole]

/-- The analysis of a source text that is not empty is clean if its tokens are whole and neither the
form nor the meaning of them is at fault. -/
theorem Analysis.clean_iff {options : MeaningOptions} {source : String} {a : Analysis}
    (h : ofSource options source = .ok a) :
    (a.form.problems = [] ∧ a.meaning.problems = []) ↔
      (∀ t ∈ Token.ofText source, t.IsWhole) ∧ Tokens.formProblems (Token.ofText source) = [] ∧
        (Tokens.meaning options (Token.ofText source)).problems = [] := by
  obtain rfl := eq_of_ofSource h
  simp only [LexedText.formAnalysis, List.append_eq_nil_iff, List.map_eq_nil_iff,
    LexedText.problems_ofText_eq_nil_iff, and_assoc]
  rfl

end LessonCheck
