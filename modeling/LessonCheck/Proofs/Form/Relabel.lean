import LessonCheck.Form.Check
import LessonCheck.Proofs.Form.OutputCalls
import LessonCheck.Proofs.Token.Relabel

/-!
The checks of form on tokens whose texts are replaced. Beside the kinds they read the keywords, the
operators and the names on the path to standard output. As long as these stay, every check reports
at the same places.
-/

namespace LessonCheck

namespace Located

variable {α β : Type}

/-- The places of some problems, in order. -/
def locations (ps : List (Located α)) : List Location := ps.map (·.location)

@[simp] theorem locations_append (ps qs : List (Located α)) :
    locations (ps ++ qs) = locations ps ++ locations qs :=
  List.map_append

@[simp] theorem locations_map (g : α → β) (ps : List (Located α)) :
    locations (ps.map (·.map g)) = locations ps := by
  rw [locations, List.map_map]
  rfl

end Located

open Located

variable {f : Token → String} (hf : Token.KeepsWords f)
include hf

namespace Tokens

/-! ### Statement ends -/

theorem locations_printEnding_relabel (before : Option Token) (t : Token) (rest : Tokens) :
    locations (printEnding (before.map (Token.relabel f)) (t.relabel f)
      (rest.map (Token.relabel f))) = locations (printEnding before t rest) := by
  unfold printEnding
  rw [OutputCall.at?_relabel hf]
  cases OutputCall.at? before t rest with
  | none => rfl
  | some call =>
      cases harguments : call.arguments with
      | none => simp [OutputCall.relabel, harguments]
      | some e =>
          simp only [Option.map_some, OutputCall.relabel, harguments, Enclosed.relabel,
            List.getElem?_map, Option.any_map, apply_ite locations]
          rfl

theorem locations_statementEnding_relabel (before : Option Token) (t : Token) (rest : Tokens) :
    locations (statementEnding (before.map (Token.relabel f)) (t.relabel f)
      (rest.map (Token.relabel f))) = locations (statementEnding before t rest) := by
  simp only [statementEnding, hf.isTypeKeyword, hf.isOperator, isUnended_relabel,
    ← List.map_drop, List.getElem?_map, Option.any_map, apply_ite locations]
  rfl

theorem locations_endingProblems_relabel (ts : Tokens) :
    locations (endingProblems (ts.map (Token.relabel f))) = locations ts.endingProblems := by
  refine map_survey_relabel f _ ?_ ts
  intro before t rest
  have hprint := locations_printEnding_relabel hf before t rest
  have hstatement := locations_statementEnding_relabel hf before t rest
  rw [List.map_append, List.map_append]
  exact congrArg₂ _ hprint hstatement

end Tokens

/-! ### Loops -/

namespace LoopHeader

theorem locations_initProblems_relabel (keyword : Token) (ts : Tokens) :
    locations (initProblems (keyword.relabel f) (ts.map (Token.relabel f))) =
      locations (initProblems keyword ts) := by
  have hplain (first : Token) (rest : Tokens) :
      locations (plainInitProblems (first.relabel f) (rest.map (Token.relabel f))) =
        locations (plainInitProblems first rest) := by
    rcases rest with _ | ⟨equals, _ | ⟨value, rest⟩⟩ <;>
      simp only [plainInitProblems, List.map_nil, List.map_cons, hf.isOperator,
        apply_ite locations] <;>
      rfl
  rcases ts with _ | ⟨first, rest⟩
  · rfl
  · have hfirst := hplain first rest
    simp only [List.map_cons, initProblems, hf.typeNamed?]
    cases first.typeNamed? with
    | none => exact hfirst
    | some declared =>
        rcases rest with _ | ⟨name, _ | ⟨equals, _ | ⟨value, rest⟩⟩⟩
        case cons.cons.cons =>
          simp only [List.map_cons, declaredInitProblems, hf.isOperator, apply_ite locations]
          rfl
        -- A type keyword with less than a value behind it begins no declaration.
        all_goals exact hfirst

theorem locations_conditionProblems_relabel (keyword : Token) (ts : Tokens) :
    locations (conditionProblems (keyword.relabel f) (ts.map (Token.relabel f))) =
      locations (conditionProblems keyword ts) := by
  have hrelational (t : Token) : (t.relabel f).isRelational = t.isRelational := by
    by_cases hkind : t.kind = .operator
    · simp [Token.isRelational, hkind, hf.words t (Or.inr hkind)]
    · simp [Token.isRelational, hkind]
  rcases ts with _ | ⟨name, _ | ⟨operator, _ | ⟨value, rest⟩⟩⟩
  case cons.cons.cons =>
    simp only [List.map_cons, conditionProblems, hrelational, locations_append,
      apply_ite locations]
    rfl
  all_goals rfl

theorem locations_incrementProblems_relabel (keyword : Token) (ts : Tokens) :
    locations (incrementProblems (keyword.relabel f) (ts.map (Token.relabel f))) =
      locations (incrementProblems keyword ts) := by
  rcases ts with _ | ⟨name, _ | ⟨operator, rest⟩⟩
  case cons.cons =>
    have hstep : locations (stepProblems (operator.relabel f) (rest.map (Token.relabel f))) =
        locations (stepProblems operator rest) := by
      cases rest with
      | nil => rfl
      | cons extra rest =>
          simp only [List.map_cons, stepProblems, apply_ite locations]
          rfl
    have hstepBy : locations (stepByProblems (operator.relabel f) (rest.map (Token.relabel f))) =
        locations (stepByProblems operator rest) := by
      rcases rest with _ | ⟨value, _ | _⟩
      case cons.nil =>
        simp only [List.map_cons, List.map_nil, stepByProblems, apply_ite locations]
        rfl
      all_goals rfl
    have hisStep : (operator.relabel f).isStep = operator.isStep := by
      simp only [Token.isStep, hf.isOperator]
    have hisStepBy : (operator.relabel f).isStepBy = operator.isStepBy := by
      simp only [Token.isStepBy, hf.isOperator]
    simp only [List.map_cons, incrementProblems, hisStep, hisStepBy, apply_ite locations, hstep,
      hstepBy]
    rfl
  all_goals rfl

theorem locations_formProblems_relabel (keyword : Token) (rest : Tokens) :
    locations (formProblems (keyword.relabel f) (rest.map (Token.relabel f))) =
      locations (formProblems keyword rest) := by
  unfold formProblems
  rw [Tokens.parenthesis?_relabel]
  cases Tokens.parenthesis? rest with
  | error fault => cases fault <;> rfl
  | ok e =>
      have hclauses : locations (clauseProblems (keyword.relabel f) (e.relabel f)) =
          locations (clauseProblems keyword e) := by
        unfold clauseProblems
        rw [ofEnclosed_relabel]
        cases ofEnclosed e with
        | error fault => rfl
        | ok h =>
            simp only [Except.map, relabel, locations_append, locations_initProblems_relabel hf,
              locations_conditionProblems_relabel hf, locations_incrementProblems_relabel hf]
      have hbody : locations (bodyProblems (e.relabel f)) = locations (bodyProblems e) := by
        simp only [bodyProblems, Enclosed.relabel, List.getElem?_map, Option.any_map,
          apply_ite locations]
        rfl
      simp only [Except.map, locations_append, hclauses, hbody]

end LoopHeader

namespace Tokens

theorem locations_loopFormProblems_relabel (ts : Tokens) :
    locations (loopFormProblems (ts.map (Token.relabel f))) = locations ts.loopFormProblems := by
  refine map_survey_relabel f _ ?_ ts
  intro before t rest
  rw [hf.isKeyword]
  split
  · exact LoopHeader.locations_formProblems_relabel hf t rest
  · rfl

/-! ### Concatenation -/

theorem locations_doubledPluses_relabel (ts : Tokens) :
    locations (doubledPluses (ts.map (Token.relabel f))) = locations (doubledPluses ts) := by
  refine map_survey_relabel f _ ?_ ts
  intro before t rest
  have hhere : (t.relabel f).isDoubledPlus (before.map (Token.relabel f))
      (rest.map (Token.relabel f)) = t.isDoubledPlus before rest := by
    simp only [Token.isDoubledPlus, hf.isOperator, List.getElem?_map, Option.any_map]
    rfl
  rw [hhere]
  split <;> rfl

theorem locations_concatenationProblems_relabel (ts : Tokens) :
    locations (concatenationProblems (ts.map (Token.relabel f))) =
      locations ts.concatenationProblems := by
  rw [concatenationProblems_eq_survey, concatenationProblems_eq_survey]
  refine map_survey_relabel f _ ?_ ts
  intro before t rest
  unfold inCall
  rw [OutputCall.at?_relabel hf]
  cases OutputCall.at? before t rest with
  | none => rfl
  | some call =>
      cases harguments : call.arguments with
      | none => simp [callConcatenation, OutputCall.relabel, harguments]
      | some e =>
          simp only [Option.map_some, Option.elim_some, callConcatenation, OutputCall.relabel,
            harguments]
          exact locations_doubledPluses_relabel hf e.inside

/-- The form of a program does not depend on the texts of its names. -/
theorem locations_formProblems_relabel (ts : Tokens) :
    locations (formProblems (ts.map (Token.relabel f))) = locations ts.formProblems := by
  simp only [formProblems, locations_append, locations_map, bracketProblems_relabel,
    locations_endingProblems_relabel hf, locations_loopFormProblems_relabel hf,
    locations_concatenationProblems_relabel hf]

end Tokens

end LessonCheck
