import LessonCheck.Lexing.Tokens
import LessonCheck.Proofs.Renaming.Basic

/-!
The checks of a program under other names. Declarations lead to the renamed scope, and in it every
check of meaning reports at the same places as before; so does every check of form.
-/

namespace LessonCheck

open Located

variable (r : Renaming)

/-! ### Declarations -/

/-- The scope under the new names, and problems at the same places. -/
structure Declared.Renames (new old : Declared) : Prop where
  scope : new.scope = old.scope.rename r
  problems : locations new.problems = locations old.problems

namespace Scope

theorem initialValue_rename (scope : Scope) (name : String) (declared : VariableType)
    (ts : Tokens) :
    ((scope.rename r).initialValue (r.apply name) declared (r.tokens ts)).Alike
      (scope.initialValue name declared ts) := by
  unfold initialValue
  rw [r.isOperator_tokens, r.tokens_drop]
  split
  · exact AssignedValue.ofTokens_rename r scope name declared (ts.drop 1)
  · exact ⟨rfl, rfl⟩

theorem declareName_rename (scope : Scope) (declared : VariableType) {name : Token}
    (hname : name.kind = .identifier) (ts : Tokens) :
    Declared.Renames r
      ((scope.rename r).declareName declared (name.relabel r.text) (r.tokens ts))
      (scope.declareName declared name ts) := by
  have hlexeme : (name.relabel r.text).lexeme = r.apply name.lexeme := r.text_of_identifier hname
  have hlookup := lookup?_rename r scope name.lexeme
  rw [← hlexeme] at hlookup
  cases hold : scope.lookup? name.lexeme with
  | some existing =>
      rw [hold] at hlookup
      rw [declareName_of_some hlookup, declareName_of_some hold]
      exact ⟨rfl, rfl⟩
  | none =>
      rw [hold] at hlookup
      rw [declareName_of_none hlookup, declareName_of_none hold]
      have hvalue := initialValue_rename r scope name.lexeme declared ts
      constructor
      · apply eq_of_entries
        change scope.entries.map (Variable.rename r) ++ [⟨_, declared, _, _⟩] =
          (scope.entries ++ [_]).map (Variable.rename r)
        rw [hlexeme, hvalue.literal, List.map_append]
        rfl
      · rw [locations_map, locations_map, hlexeme, hvalue.errors]

theorem declareAt_rename (scope : Scope) (t : Token) (rest : Tokens) :
    Declared.Renames r ((scope.rename r).declareAt (t.relabel r.text) (r.tokens rest))
      (scope.declareAt t rest) := by
  unfold declareAt
  rw [r.keepsWords.typeNamed?]
  cases t.typeNamed? with
  | none => exact ⟨rfl, rfl⟩
  | some declared =>
      cases rest with
      | nil => exact ⟨rfl, rfl⟩
      | cons name ts =>
          by_cases hname : name.kind = .identifier
          · simp only [Renaming.tokens, List.map_cons, Token.kind_relabel, hname, if_true]
            exact declareName_rename r scope declared hname ts
          · simp only [Renaming.tokens, List.map_cons, Token.kind_relabel, hname, if_false]
            exact ⟨rfl, rfl⟩

/-- Under the new names the declarations lead to the renamed scope. -/
theorem declareAll_rename (scope : Scope) (ts : Tokens) :
    Declared.Renames r ((scope.rename r).declareAll (r.tokens ts)) (scope.declareAll ts) := by
  induction ts generalizing scope with
  | nil => exact ⟨rfl, rfl⟩
  | cons t rest ih =>
      have hfirst := declareAt_rename r scope t rest
      have hothers := ih (scope.declareAt t rest).scope
      rw [← hfirst.scope] at hothers
      refine ⟨hothers.scope, ?_⟩
      have hproblems := congrArg₂ (· ++ ·) hfirst.problems hothers.problems
      simp only [← locations_append] at hproblems
      exact hproblems

/-! ### Uses -/

theorem locations_useProblems_rename (scope : Scope) {t : Token} (ht : t.kind = .identifier)
    (rest : Tokens) :
    locations ((scope.rename r).useProblems (t.relabel r.text) (r.tokens rest)) =
      locations (scope.useProblems t rest) := by
  have hlexeme : (t.relabel r.text).lexeme = r.apply t.lexeme := r.text_of_identifier ht
  unfold useProblems
  rw [hlexeme, lookup?_rename, r.isOperator_tokens, r.tokens_drop]
  cases scope.lookup? t.lexeme with
  | none => rfl
  | some v =>
      simp only [Option.map_some, Variable.rename, apply_ite locations, locations_map,
        (AssignedValue.ofTokens_rename r scope t.lexeme v.type (rest.drop 1)).errors]

theorem locations_usageProblems_rename (scope : Scope) (ts : Tokens) :
    locations ((scope.rename r).usageProblems (r.tokens ts)) =
      locations (scope.usageProblems ts) := by
  refine Tokens.map_survey_relabel r.text _ ?_ ts
  intro before t rest
  have huse : (t.relabel r.text).isUse (before.map (Token.relabel r.text)) = t.isUse before := by
    simp only [Token.isUse, r.isReference, Option.any_map, r.keepsWords.isTypeKeyword]
    rfl
  rw [huse]
  split
  · next hhere =>
      have hkind := Token.kind_of_isReference (Token.isReference_of_isUse hhere)
      exact locations_useProblems_rename r scope hkind rest
  · rfl

end Scope

/-! ### Loops -/

namespace LoopCounter

def rename (v : LoopCounter) : LoopCounter := { v with name := r.apply v.name }

def Search.rename : Search → Search
  | .found v => .found (v.rename r)
  | .undeclared name => .undeclared (name.relabel r.text)
  | .none => .none

theorem ofName_rename (scope : Scope) (name : Token) :
    ofName (scope.rename r) (name.relabel r.text) = (ofName scope name).rename r := by
  unfold ofName
  by_cases hname : name.kind = .identifier
  · have hlexeme : (name.relabel r.text).lexeme = r.apply name.lexeme :=
      r.text_of_identifier hname
    simp only [Token.kind_relabel, hname, if_true, hlexeme, Scope.lookup?_rename]
    cases scope.lookup? name.lexeme <;> rfl
  · simp [hname, Search.rename]

theorem ofInit_rename (scope : Scope) (ts : Tokens) :
    ofInit (scope.rename r) (r.tokens ts) = (ofInit scope ts).rename r := by
  cases ts with
  | nil => rfl
  | cons first rest =>
      have hfirst := ofName_rename r scope first
      simp only [Renaming.tokens, List.map_cons, ofInit, r.keepsWords.typeNamed?]
      cases first.typeNamed? with
      | none => exact hfirst
      | some declared =>
          cases rest with
          | nil => exact hfirst
          | cons name rest =>
              by_cases hname : name.kind = .identifier
              · simp [hname, Search.rename, LoopCounter.rename, r.text_of_identifier hname]
              · simpa [hname] using hfirst

theorem locations_partProblems_rename (v : LoopCounter) (part : LoopPart) (ts : Tokens) :
    locations ((v.rename r).partProblems part (r.tokens ts)) =
      locations (v.partProblems part ts) := by
  cases ts with
  | nil => rfl
  | cons t ts =>
      by_cases hname : t.kind = .identifier
      · have hother : (r.apply t.lexeme != r.apply v.name) = (t.lexeme != v.name) := by
          rw [bne, bne, r.apply_beq]
        simp only [Renaming.tokens, List.map_cons, partProblems, Token.lexeme_relabel,
          r.text_of_identifier hname, rename, hother, apply_ite locations]
        rfl
      · simp [Renaming.tokens, partProblems, hname]

/-- What a literal is compared with is reported where it stands, if it does not fit. -/
theorem locations_comparisonProblems_literal (scope : Scope) (v : LoopCounter) {value : Token}
    (hfaulty : value.kind.isFaulty = false) (hvalue : value.isReference = false) :
    locations (comparisonProblems scope v value) =
      if (Literal.ofToken v.name v.type value).toOption.isSome then [] else [value.location] := by
  simp only [comparisonProblems, hfaulty, hvalue]
  cases Literal.ofToken v.name v.type value with
  | ok found => rfl
  | error e => cases e <;> rfl

theorem locations_comparisonProblems_rename (scope : Scope) (v : LoopCounter) (value : Token) :
    locations (comparisonProblems (scope.rename r) (v.rename r) (value.relabel r.text)) =
      locations (comparisonProblems scope v value) := by
  by_cases hfaulty : value.kind.isFaulty = true
  · simp [comparisonProblems, hfaulty]
  · rw [Bool.not_eq_true] at hfaulty
    by_cases hreference : value.isReference = true
    · have hname := Token.kind_of_isReference hreference
      simp only [comparisonProblems, Token.kind_relabel, hfaulty, r.isReference, hreference,
        Token.lexeme_relabel, r.text_of_identifier hname, Scope.lookup?_rename]
      cases scope.lookup? value.lexeme with
      | none => rfl
      | some other =>
          simp only [Option.map_some, if_true, apply_ite locations]
          rfl
    · rw [Bool.not_eq_true] at hreference
      have hfaulty' : (value.relabel r.text).kind.isFaulty = false := hfaulty
      have hreference' : (value.relabel r.text).isReference = false := by
        rw [r.isReference, hreference]
      have hliteral := Literal.toOption_ofToken_rename r v.name (r.apply v.name) v.type value
      rw [locations_comparisonProblems_literal scope v hfaulty hreference,
        locations_comparisonProblems_literal (scope.rename r) (v.rename r) hfaulty' hreference',
        ← hliteral]
      rfl

theorem locations_conditionProblems_rename (scope : Scope) (v : LoopCounter) (ts : Tokens) :
    locations ((v.rename r).conditionProblems (scope.rename r) (r.tokens ts)) =
      locations (v.conditionProblems scope ts) := by
  rcases ts with _ | ⟨name, _ | ⟨operator, _ | ⟨value, ts⟩⟩⟩
  case cons.cons.cons => exact locations_comparisonProblems_rename r scope v value
  all_goals rfl

end LoopCounter

namespace Scope

theorem locations_headerProblems_rename (scope : Scope) (h : LoopHeader) :
    locations ((scope.rename r).headerProblems (h.relabel r.text)) =
      locations (scope.headerProblems h) := by
  unfold headerProblems
  have hinit := LoopCounter.ofInit_rename r scope h.init
  have hsearch : LoopCounter.ofInit (scope.rename r) (h.relabel r.text).init =
      (LoopCounter.ofInit scope h.init).rename r := hinit
  rw [hsearch]
  cases LoopCounter.ofInit scope h.init with
  | none => rfl
  | undeclared name => rfl
  | found v =>
      simp only [LoopCounter.Search.rename, locations_append]
      have hcondition := LoopCounter.locations_partProblems_rename r v .condition h.condition
      have hincrement := LoopCounter.locations_partProblems_rename r v .increment h.increment
      have hvalue := LoopCounter.locations_conditionProblems_rename r scope v h.condition
      exact congrArg₂ _ (congrArg₂ _ hcondition hincrement) hvalue

theorem locations_loopProblems_rename (scope : Scope) (ts : Tokens) :
    locations ((scope.rename r).loopProblems (r.tokens ts)) =
      locations (scope.loopProblems ts) := by
  refine Tokens.map_survey_relabel r.text _ ?_ ts
  intro before t rest
  rw [r.keepsWords.isKeyword]
  split
  · rw [LoopHeader.ofTokens_relabel]
    cases LoopHeader.ofTokens rest with
    | error fault => rfl
    | ok h => exact locations_headerProblems_rename r scope h
  · rfl

/-! ### Members and characters -/

theorem isString_rename (scope : Scope) (name : String) :
    (scope.rename r).isString (r.apply name) = scope.isString name := by
  rw [isString, isString, lookup?_rename, Option.any_map]
  rfl

theorem locations_memberProblems_rename (scope : Scope) (receiver : Token) (rest : Tokens) :
    locations ((scope.rename r).memberProblems (receiver.relabel r.text) (r.tokens rest)) =
      locations (scope.memberProblems receiver rest) := by
  rcases rest with _ | ⟨dot, _ | ⟨method, rest⟩⟩
  case cons.cons =>
    by_cases hreceiver : receiver.kind = .identifier
    · by_cases hmethod : method.kind = .identifier
      · simp only [Renaming.tokens, List.map_cons, memberProblems, Token.lexeme_relabel,
          r.text_of_identifier hreceiver, r.text_of_identifier hmethod, isString_rename, r.methods,
          apply_ite locations]
        rfl
      · simp [Renaming.tokens, memberProblems, hmethod]
    · simp [Renaming.tokens, memberProblems, hreceiver]
  all_goals rfl

theorem locations_stringMethodProblems_rename (scope : Scope) (ts : Tokens) :
    locations ((scope.rename r).stringMethodProblems (r.tokens ts)) =
      locations (scope.stringMethodProblems ts) := by
  refine Tokens.map_survey_relabel r.text _ ?_ ts
  intro _ t rest
  exact locations_memberProblems_rename r scope t rest

end Scope

/-- A char literal is no name. -/
theorem CharRange.problems_rename (range : CharRange) (ts : Tokens) :
    range.problems (r.tokens ts) = range.problems ts := by
  have htoken (t : Token) : range.tokenProblems (t.relabel r.text) = range.tokenProblems t := by
    by_cases hchar : t.kind = .char
    · have htext : r.text t = t.lexeme := r.text_of_ne (by simp [hchar])
      simp [tokenProblems, hchar, htext]
    · simp [tokenProblems, hchar]
  simp only [problems, Renaming.tokens, List.flatMap_map, htoken]

/-! ### All checks -/

/-- Names do not matter: under other names a program has problems at the same places, in the same
order, and its variables are the same ones under their new names. -/
theorem Tokens.locations_rename (options : MeaningOptions) (ts : Tokens) :
    locations (r.tokens ts).formProblems = locations ts.formProblems ∧
      locations ((r.tokens ts).meaning options).problems =
        locations (ts.meaning options).problems ∧
      ((r.tokens ts).meaning options).scope = (ts.meaning options).scope.rename r := by
  obtain ⟨hscope, hdeclarations⟩ := Scope.declareAll_rename r .empty ts
  have hempty : Scope.empty.rename r = Scope.empty := rfl
  rw [hempty] at hscope hdeclarations
  refine ⟨locations_formProblems_relabel r.keepsWords ts, ?_, hscope⟩
  simp only [meaning, hscope, locations_append, locations_map, hdeclarations,
    Scope.locations_usageProblems_rename, Scope.locations_loopProblems_rename,
    CharRange.problems_rename, apply_ite locations, Scope.locations_stringMethodProblems_rename]

/-- A string and a number take each other's name, and all four mistakes stay where they were. -/
theorem Tokens.locations_rename_swap :
    let options : MeaningOptions := ⟨none, true⟩
    let old := Token.ofText "String i; int j = i; i.size(); k = j"
    let new := Token.ofText "String j; int i = j; j.size(); k = i"
    locations new.formProblems = locations old.formProblems ∧
      locations (new.meaning options).problems = locations (old.meaning options).problems := by
  intro options old new
  have hnew : (Renaming.swap "i" "j" (by decide) (by decide) (by decide)).tokens old = new := by
    decide +kernel
  obtain ⟨hform, hmeaning, -⟩ :=
    locations_rename (.swap "i" "j" (by decide) (by decide) (by decide)) options old
  rw [hnew] at hform hmeaning
  exact ⟨hform, hmeaning⟩

end LessonCheck
