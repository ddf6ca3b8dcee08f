import LessonCheck.Proofs.Loop.Agreement
import LessonCheck.Proofs.Reported.Form

/-!
Where problems of meaning are reported, pass by pass: at the name that is declared or used, at the
value that is given to it or compared with it, at the member of a string. All of these are tokens
behind the place that a pass has come to.
-/

namespace LessonCheck

/-! ### Declarations and uses -/

theorem AssignedValue.reportedIn_errors (scope : Scope) (name : String) (declared : VariableType)
    (ts : Tokens) : ReportedIn ts (ofTokens scope name declared ts).errors := by
  unfold ofTokens
  split
  · exact reportedIn_nil _
  · next value rest =>
      have hvalue (e : TypeClash) :
          ReportedIn (value :: rest) (refused ⟨value.location, e⟩).errors :=
        .singleton List.mem_cons_self e
      split
      · exact reportedIn_nil _
      · split
        · split
          · exact reportedIn_nil _
          · split
            · exact reportedIn_nil _
            · split
              · exact reportedIn_nil _
              · exact hvalue _
        · split
          · exact reportedIn_nil _
          · exact hvalue _

namespace Scope

theorem reportedIn_initialValue (scope : Scope) (name : String) (declared : VariableType)
    (ts : Tokens) : ReportedIn ts (scope.initialValue name declared ts).errors := by
  unfold initialValue
  split
  · exact (AssignedValue.reportedIn_errors scope name declared _).mono (List.drop_subset 1 ts)
  · simp [AssignedValue.errors]

theorem reportedIn_declareName (scope : Scope) (declared : VariableType) (name : Token)
    (ts : Tokens) : ReportedIn (name :: ts) (scope.declareName declared name ts).problems := by
  cases hname : scope.lookup? name.lexeme with
  | some existing =>
      rw [declareName_of_some hname]
      exact .singleton List.mem_cons_self _
  | none =>
      rw [declareName_of_none hname]
      refine (reportedIn_map _).mpr ?_
      exact (reportedIn_initialValue scope _ declared ts).mono (List.subset_cons_self _ _)

theorem reportedIn_declareAt (scope : Scope) (t : Token) (rest : Tokens) :
    ReportedIn (t :: rest) (scope.declareAt t rest).problems := by
  unfold declareAt
  split
  · next declared name ts _ =>
      split
      · exact (reportedIn_declareName scope declared name ts).mono (List.subset_cons_self _ _)
      · simp
  · simp

theorem reportedIn_declareAll (scope : Scope) (ts : Tokens) :
    ReportedIn ts (scope.declareAll ts).problems := by
  induction ts generalizing scope with
  | nil => exact reportedIn_nil []
  | cons t rest ih =>
      exact reportedIn_append.mpr
        ⟨reportedIn_declareAt scope t rest, (ih _).mono (List.subset_cons_self _ _)⟩

theorem reportedIn_useProblems (scope : Scope) (t : Token) (rest : Tokens) :
    ReportedIn (t :: rest) (scope.useProblems t rest) := by
  unfold useProblems
  split
  · exact .singleton List.mem_cons_self _
  · next v _ =>
      split
      · refine (reportedIn_map _).mpr ((AssignedValue.reportedIn_errors scope _ v.type _).mono ?_)
        exact List.Subset.trans (List.drop_subset 1 rest) (List.subset_cons_self _ _)
      · simp

theorem reportedIn_usageProblems (scope : Scope) (ts : Tokens) :
    ReportedIn ts (scope.usageProblems ts) := by
  refine .survey (fun before t rest => ?_) ts
  split
  · exact reportedIn_useProblems scope t rest
  · simp

end Scope

/-! ### Loops -/

namespace LoopCounter

theorem mem_of_ofInit {scope : Scope} {ts : Tokens} {name : Token}
    (h : ofInit scope ts = .undeclared name) : name ∈ ts := by
  have hfirst {first : Token} (h : ofName scope first = .undeclared name) : name = first := by
    unfold ofName at h
    split at h
    · split at h
      · cases h
      · cases h
        rfl
    · cases h
  unfold ofInit at h
  split at h
  · cases h
  · split at h
    · split at h
      · cases h
      · exact hfirst h ▸ List.mem_cons_self
    · exact hfirst h ▸ List.mem_cons_self

theorem reportedIn_partProblems (v : LoopCounter) (part : LoopPart) (ts : Tokens) :
    ReportedIn ts (v.partProblems part ts) := by
  unfold partProblems
  split
  · simp
  · split
    · exact .singleton List.mem_cons_self _
    · simp

theorem reportedIn_comparisonProblems (scope : Scope) (v : LoopCounter) (value : Token) :
    ReportedIn [value] (v.comparisonProblems scope value) := by
  have hvalue (p : LoopProblem) : ReportedIn [value] [⟨value.location, p⟩] :=
    .singleton List.mem_cons_self p
  unfold comparisonProblems
  split
  · exact reportedIn_nil _
  · split
    · split
      · exact reportedIn_nil _
      · split
        · exact reportedIn_nil _
        · exact hvalue _
    · split
      · exact reportedIn_nil _
      all_goals exact hvalue _

theorem reportedIn_conditionProblems (scope : Scope) (v : LoopCounter) (ts : Tokens) :
    ReportedIn ts (v.conditionProblems scope ts) := by
  unfold conditionProblems
  split
  · next first second value rest =>
      refine (reportedIn_comparisonProblems scope v value).mono ?_
      simp
  · simp

end LoopCounter

namespace Scope

theorem reportedIn_headerProblems (scope : Scope) (h : LoopHeader) :
    ReportedIn (h.init ++ h.condition ++ h.increment) (scope.headerProblems h) := by
  unfold headerProblems
  split
  · simp
  · next name hname =>
      refine .singleton ?_ _
      exact List.mem_append_left _ (List.mem_append_left _ (LoopCounter.mem_of_ofInit hname))
  · next v _ =>
      have hcondition : h.condition ⊆ h.init ++ h.condition ++ h.increment := by simp
      simp only [reportedIn_append]
      exact ⟨⟨(v.reportedIn_partProblems .condition _).mono hcondition,
        (v.reportedIn_partProblems .increment _).mono (List.subset_append_right _ _)⟩,
        (v.reportedIn_conditionProblems scope _).mono hcondition⟩

theorem reportedIn_loopProblems (scope : Scope) (ts : Tokens) :
    ReportedIn ts (scope.loopProblems ts) := by
  refine .survey (fun _ t rest => ?_) ts
  split
  · split
    · next h hh =>
        obtain ⟨opener, first, second, -, -, -, rfl⟩ := LoopHeader.eq_of_ofTokens hh
        refine (reportedIn_headerProblems scope h).mono fun u hu => ?_
        simp only [List.mem_append, List.mem_cons] at hu ⊢
        grind
    · simp
  · simp

/-! ### Methods of strings and permitted characters -/

theorem reportedIn_memberProblems (scope : Scope) (receiver : Token) (rest : Tokens) :
    ReportedIn rest (scope.memberProblems receiver rest) := by
  unfold memberProblems
  split
  · split
    · exact .singleton (by simp) _
    · simp
  · simp

theorem reportedIn_stringMethodProblems (scope : Scope) (ts : Tokens) :
    ReportedIn ts (scope.stringMethodProblems ts) :=
  .survey (fun _ t rest => (reportedIn_memberProblems scope t rest).mono
    (List.subset_cons_self t rest)) ts

end Scope

theorem CharRange.reportedIn_problems (r : CharRange) (ts : Tokens) :
    ReportedIn ts (r.problems ts) := by
  refine .flatMap fun t ht => ?_
  unfold tokenProblems
  split
  · split
    · simp
    · exact .singleton ht _
  · simp

/-- Every problem of meaning is reported at a token. -/
theorem Tokens.reportedIn_meaning (options : MeaningOptions) (ts : Tokens) :
    ReportedIn ts (ts.meaning options).problems := by
  simp only [meaning, reportedIn_append, reportedIn_map]
  refine ⟨⟨⟨⟨Scope.reportedIn_declareAll _ ts, Scope.reportedIn_usageProblems _ ts⟩,
    Scope.reportedIn_loopProblems _ ts⟩, ?_⟩, ?_⟩
  · cases options.charRange with
    | none => simp
    | some r => simpa using r.reportedIn_problems ts
  · split
    · simpa using Scope.reportedIn_stringMethodProblems _ ts
    · simp

end LessonCheck
