import LessonCheck.Meaning.Check
import LessonCheck.Proofs.Meaning.Sites

/-!
Which uses are reported as undeclared. A name is known to the pass over the uses exactly if it is
declared somewhere, for its scope is the finished one; and the declaration itself is no use of the
name. So a use is reported exactly if no declaration of its name stands anywhere, in front or
behind, no matter what else is wrong with the declarations. The reports are told from all others by
their wording, as a reader of the diagnostics tells them.
-/

namespace LessonCheck

namespace Tokens

/-- The token `t` at position `i` uses a name, and no declaration of that name stands anywhere. -/
structure UndeclaredUse (ts : Tokens) (i : Nat) (t : Token) : Prop where
  token_here : ts[i]? = some t
  reference : t.isReference = true
  /-- The name is neither the one of a declaration nor a member of something else. -/
  token_before (j : Nat) (u : Token) : j + 1 = i → ts[j]? = some u →
    u.isTypeKeyword = false ∧ u.kind ≠ .dot
  undeclared (j : Nat) (declared : VariableType) (name : Token) :
    ts.DeclaresAt j declared name → name.lexeme ≠ t.lexeme

end Tokens

/-! ### The wording -/

/-- What is reported of an undeclared use. -/
def Diagnostic.undeclaredUse (t : Token) : Diagnostic :=
  ⟨t.location, "variable '" ++ t.lexeme ++ "' used without declaring"⟩

/-- The diagnostic is worded as one about an undeclared use. -/
def Diagnostic.isUndeclaredUse (d : Diagnostic) : Bool :=
  "variable '".toList.isPrefixOf d.message.toList &&
    "' used without declaring".toList.isSuffixOf d.message.toList

section
variable {l : Location}

theorem TypeClash.not_isUndeclaredUse (e : TypeClash) :
    Diagnostic.isUndeclaredUse ⟨l, e.message⟩ = false := by
  unfold message
  cases e <;> simp [Diagnostic.isUndeclaredUse, String.toList_append, List.isPrefixOf]

theorem DeclarationProblem.not_isUndeclaredUse (p : DeclarationProblem) :
    Diagnostic.isUndeclaredUse ⟨l, p.message⟩ = false := by
  cases p with
  | alreadyDeclared name line =>
      simp [Diagnostic.isUndeclaredUse, message, String.toList_append, List.isSuffixOf,
        List.isPrefixOf]
  | value e => exact e.not_isUndeclaredUse

theorem UsageProblem.isUndeclaredUse_undeclared (name : String) :
    Diagnostic.isUndeclaredUse ⟨l, message (.undeclared name)⟩ = true := by
  simp [Diagnostic.isUndeclaredUse, message, String.toList_append, List.isSuffixOf,
    List.isPrefixOf]

theorem LoopProblem.not_isUndeclaredUse (p : LoopProblem) :
    Diagnostic.isUndeclaredUse ⟨l, p.message⟩ = false := by
  unfold message
  cases p with
  | undeclared name =>
      simp [Diagnostic.isUndeclaredUse, String.toList_append, List.isPrefixOf]
  | otherVariable part found expected =>
      cases part <;> simp [Diagnostic.isUndeclaredUse, LoopPart.word, String.toList_append,
        List.isPrefixOf]
  | comparedVariable v otherType other =>
      show Diagnostic.isUndeclaredUse ⟨l, "cannot compare " ++ v.type.word ++ " loop variable '" ++
        v.name ++ "' with " ++ otherType.word ++ " variable '" ++ other ++ "'"⟩ = false
      simp [Diagnostic.isUndeclaredUse, String.toList_append, List.isPrefixOf]
  | comparedValue v found lexeme =>
      show Diagnostic.isUndeclaredUse ⟨l, "cannot compare " ++ v.type.word ++ " loop variable '" ++
        v.name ++ "' with " ++ found.name ++ " '" ++ lexeme ++ "'"⟩ = false
      simp [Diagnostic.isUndeclaredUse, String.toList_append, List.isPrefixOf]
  | value e => exact e.not_isUndeclaredUse

theorem CharRangeProblem.not_isUndeclaredUse (p : CharRangeProblem) :
    Diagnostic.isUndeclaredUse ⟨l, p.message⟩ = false := by
  cases p
  simp [Diagnostic.isUndeclaredUse, message, String.toList_append, List.isPrefixOf]

theorem StringMethodProblem.not_isUndeclaredUse (p : StringMethodProblem) :
    Diagnostic.isUndeclaredUse ⟨l, p.message⟩ = false := by
  cases p
  simp [Diagnostic.isUndeclaredUse, message, String.toList_append, List.isPrefixOf]

end

/-- Where no wording is about an undeclared use, no report is told from the others. -/
theorem Diagnostic.filter_isUndeclaredUse_eq_nil {α : Type} [Described α] {ps : List (Located α)}
    (h : ∀ p ∈ ps, isUndeclaredUse p.diagnostic = false) :
    (ps.map Located.diagnostic).filter isUndeclaredUse = [] := by
  rw [List.filter_eq_nil_iff]
  intro d hd
  obtain ⟨p, hp, rfl⟩ := List.mem_map.mp hd
  simp [h p hp]

/-! ### The uses -/

namespace Tokens

theorem getLast?_eq_some_iff {front rest : Tokens} {t u : Token} :
    front.getLast? = some u ↔
      ∃ j, j + 1 = front.length ∧ (front ++ t :: rest)[j]? = some u := by
  rcases List.eq_nil_or_concat front with rfl | ⟨front, v, rfl⟩
  · simp
  · simp

theorem isUse_iff {front rest : Tokens} {t : Token} :
    t.isUse front.getLast? = true ↔ t.isReference = true ∧ ∀ j u, j + 1 = front.length →
      (front ++ t :: rest)[j]? = some u → u.isTypeKeyword = false ∧ u.kind ≠ .dot := by
  rw [Token.isUse, Bool.and_eq_true, Bool.and_eq_true, and_assoc]
  refine and_congr_right fun _ => ⟨?_, fun h => ?_⟩
  · rintro hlast j u hj hu
    rw [getLast?_eq_some_iff.mpr ⟨j, hj, hu⟩] at hlast
    simpa using hlast
  · cases hlast : front.getLast? with
    | none => simp
    | some u =>
        obtain ⟨j, hj, hu⟩ := (@getLast?_eq_some_iff front rest t u).mp hlast
        simpa using h j u hj hu

/-- The place is one of an undeclared use, as the pass over the uses judges it. -/
def Split.isUndeclaredUse (scope : Scope) (s : Split) : Bool :=
  s.token.isUse s.front.getLast? && !scope.contains s.token.lexeme

theorem undeclaredUse_iff {ts front rest : Tokens} {t : Token} (hts : ts = front ++ t :: rest) :
    Split.isUndeclaredUse (Scope.empty.declareAll ts).scope ⟨front, t, rest⟩ = true ↔
      ts.UndeclaredUse front.length t := by
  have hscope : (!(Scope.empty.declareAll ts).scope.contains t.lexeme) = true ↔
      ∀ j declared name, ts.DeclaresAt j declared name → name.lexeme ≠ t.lexeme := by
    rw [Scope.contains, Bool.not_eq_true', Option.isSome_eq_false_iff, Option.isNone_iff_eq_none,
      Scope.lookup?_declareAll_eq_none_iff]
    exact and_iff_right rfl
  rw [Split.isUndeclaredUse, Bool.and_eq_true, hscope, @isUse_iff front rest t, ← hts]
  refine ⟨fun ⟨⟨href, hbefore⟩, hnone⟩ => ⟨by simp [hts], href, hbefore, hnone⟩, fun h => ?_⟩
  exact ⟨⟨h.reference, h.token_before⟩, h.undeclared⟩

end Tokens

namespace Scope

/-- Of the problems of one use, only that of an unknown name is worded so. -/
theorem filter_useProblems (scope : Scope) (t : Token) (rest : Tokens) :
    ((scope.useProblems t rest).map Located.diagnostic).filter Diagnostic.isUndeclaredUse =
      if scope.contains t.lexeme then [] else [.undeclaredUse t] := by
  unfold useProblems contains
  cases scope.lookup? t.lexeme with
  | none => exact List.filter_cons_of_pos (UsageProblem.isUndeclaredUse_undeclared t.lexeme)
  | some v =>
      refine Diagnostic.filter_isUndeclaredUse_eq_nil fun p hp => ?_
      dsimp only at hp
      split at hp
      · obtain ⟨e, -, rfl⟩ := List.mem_map.mp hp
        exact e.problem.not_isUndeclaredUse
      · cases hp

theorem filter_usageProblems (scope : Scope) (ts : Tokens) :
    ((scope.usageProblems ts).map Located.diagnostic).filter Diagnostic.isUndeclaredUse =
      (ts.splits.filter (Tokens.Split.isUndeclaredUse scope)).map fun s =>
        .undeclaredUse s.token := by
  rw [usageProblems, Tokens.survey_eq_flatMap, List.map_flatMap, List.filter_flatMap]
  induction ts.splits with
  | nil => rfl
  | cons s places ih =>
      rw [List.flatMap_cons, ih, List.filter_cons]
      cases huse : s.token.isUse s.front.getLast? with
      | false => simp [Tokens.Split.isUndeclaredUse, huse]
      | true =>
          rw [if_pos rfl, filter_useProblems]
          cases hscope : scope.contains s.token.lexeme <;>
            simp [Tokens.Split.isUndeclaredUse, huse, hscope]

end Scope

/-! ### All reports -/

/-- A pass none of whose wordings is about an undeclared use adds none to those told. -/
theorem filter_map_meaningProblem {α : Type} {f : α → MeaningProblem}
    (h : ∀ l p, Diagnostic.isUndeclaredUse ⟨l, (f p).message⟩ = false) (ps : List (Located α)) :
    ((ps.map (·.map f)).map Located.diagnostic).filter Diagnostic.isUndeclaredUse = [] := by
  refine Diagnostic.filter_isUndeclaredUse_eq_nil fun p hp => ?_
  obtain ⟨q, -, rfl⟩ := List.mem_map.mp hp
  exact h q.location q.problem

/-- Only the pass over the uses reports any. -/
theorem filter_problems_meaning (options : MeaningOptions) (ts : Tokens) :
    ((ts.meaning options).problems.map Located.diagnostic).filter Diagnostic.isUndeclaredUse =
      (((Scope.empty.declareAll ts).scope.usageProblems ts).map Located.diagnostic).filter
        Diagnostic.isUndeclaredUse := by
  let scope := (Scope.empty.declareAll ts).scope
  have hdeclarations := filter_map_meaningProblem (f := .declaration)
    (fun _ p => p.not_isUndeclaredUse) (Scope.empty.declareAll ts).problems
  have hloops := filter_map_meaningProblem (f := .loop)
    (fun _ p => p.not_isUndeclaredUse) (scope.loopProblems ts)
  have hmethods := filter_map_meaningProblem (f := .stringMethod)
    (fun _ p => p.not_isUndeclaredUse) (scope.stringMethodProblems ts)
  have hranges (r : CharRange) := filter_map_meaningProblem (f := .charRange)
    (fun _ p => p.not_isUndeclaredUse) (r.problems ts)
  have husage : ((scope.usageProblems ts).map (·.map MeaningProblem.usage)).map Located.diagnostic =
      (scope.usageProblems ts).map Located.diagnostic := by
    rw [List.map_map]
    rfl
  simp only [Tokens.meaning, List.map_append, List.filter_append, hdeclarations, hloops, husage,
    scope, List.nil_append, List.append_nil]
  cases options.charRange <;> cases options.stringMethods <;>
    simp only [hmethods, hranges, scope, Bool.false_eq_true, if_true, if_false, List.map_nil,
      List.filter_nil, List.append_nil]

/-- Of all that is reported, the diagnostics worded as such are those of the undeclared uses, one
for each and in reading order, whatever passes run. -/
theorem undeclaredUses_reported (options : MeaningOptions) (ts : Tokens) :
    ∃ uses : List (Nat × Token),
      uses.Pairwise (fun u v => u.1 < v.1) ∧ (∀ i t, (i, t) ∈ uses ↔ ts.UndeclaredUse i t) ∧
      ((ts.meaning options).problems.map Located.diagnostic).filter Diagnostic.isUndeclaredUse =
        uses.map fun u => .undeclaredUse u.2 := by
  let scope := (Scope.empty.declareAll ts).scope
  let places := ts.splits.filter (Tokens.Split.isUndeclaredUse scope)
  refine ⟨places.map fun s => (s.front.length, s.token), ?_, fun i t => ?_, ?_⟩
  · exact List.pairwise_map.mpr (ts.pairwise_splits.filter _)
  · constructor
    · intro h
      obtain ⟨s, hs, heq⟩ := List.mem_map.mp h
      cases heq
      obtain ⟨hmem, huse⟩ := List.mem_filter.mp hs
      exact (Tokens.undeclaredUse_iff (Tokens.mem_splits.mp hmem)).mp huse
    · intro h
      obtain ⟨front, rest, hts, rfl⟩ := Tokens.exists_split_of_getElem? h.token_here
      refine List.mem_map.mpr ⟨⟨front, t, rest⟩, List.mem_filter.mpr ⟨?_, ?_⟩, rfl⟩
      · exact Tokens.mem_splits.mpr hts
      · exact (Tokens.undeclaredUse_iff hts).mpr h
  · rw [filter_problems_meaning, Scope.filter_usageProblems, List.map_map]
    rfl

end LessonCheck
