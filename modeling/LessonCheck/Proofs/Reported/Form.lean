import LessonCheck.Form.Check
import LessonCheck.Proofs.Bracket.Waiting
import LessonCheck.Proofs.Form.LoopParts
import LessonCheck.Proofs.Form.OutputCalls

/-!
Where problems of form are reported. A check chooses a token to report at, and only the location of
that token stays in the problem. `ReportedIn` says that there is such a token, and
`ReportedIn.survey` that a pass reports at tokens of the program if at every place it reports at
tokens from there on.
-/

namespace LessonCheck

/-- Every problem of the list is reported at one of the tokens. -/
def ReportedIn {α : Type} (ts : Tokens) (ps : List (Located α)) : Prop :=
  ∀ p ∈ ps, ∃ t ∈ ts, t.location = p.location

section
variable {α β : Type} {ts us : Tokens} {ps qs : List (Located α)}

@[simp] theorem reportedIn_nil (ts : Tokens) : ReportedIn ts ([] : List (Located α)) := by
  intro p hp
  cases hp

@[simp] theorem reportedIn_append :
    ReportedIn ts (ps ++ qs) ↔ ReportedIn ts ps ∧ ReportedIn ts qs :=
  List.forall_mem_append

@[simp] theorem reportedIn_map (f : α → β) :
    ReportedIn ts (ps.map (·.map f)) ↔ ReportedIn ts ps := by
  simp [ReportedIn]

namespace ReportedIn

theorem singleton {t : Token} (ht : t ∈ ts) (problem : α) :
    ReportedIn ts [⟨t.location, problem⟩] := by
  intro p hp
  obtain rfl := List.mem_singleton.mp hp
  exact ⟨t, ht, rfl⟩

theorem mono (h : ReportedIn ts ps) (hts : ts ⊆ us) : ReportedIn us ps := by
  intro p hp
  obtain ⟨t, ht, hlocation⟩ := h p hp
  exact ⟨t, hts ht, hlocation⟩

theorem flatMap {γ : Type} {xs : List γ} {f : γ → List (Located α)}
    (h : ∀ x ∈ xs, ReportedIn ts (f x)) : ReportedIn ts (xs.flatMap f) := by
  intro p hp
  obtain ⟨x, hx, hpx⟩ := List.mem_flatMap.mp hp
  exact h x hx p hpx

/-- A pass reports at tokens of the program if at every place it reports at tokens from there on. -/
theorem survey {look : Option Token → Token → Tokens → List (Located α)}
    (h : ∀ before t rest, ReportedIn (t :: rest) (look before t rest)) (ts : Tokens) :
    ReportedIn ts (ts.survey look) := by
  intro p hp
  obtain ⟨front, t, rest, rfl, hlook⟩ := (Tokens.mem_surveyFrom look).mp hp
  exact (h _ t rest).mono (List.subset_append_right front (t :: rest)) p hlook

end ReportedIn

end

/-! ### Brackets -/

theorem Nesting.fst_mem_items {α : Type} {n : Nesting α} {u : α × BracketProblem}
    (h : u ∈ n.unmatched) : u.1 ∈ n.items := by
  simp only [unmatched, List.mem_append, List.mem_map, List.mem_reverse] at h
  rcases h with (⟨stray, hstray, rfl⟩ | ⟨opener, hopener, rfl⟩) | ⟨opener, hopener, rfl⟩
  · exact List.mem_append_right _ (List.mem_map_of_mem hstray)
  · exact List.mem_append_left _ (List.mem_append_left _ hopener)
  · exact List.mem_append_left _ (List.mem_append_right _ hopener)

theorem Tokens.reportedIn_bracketProblems (ts : Tokens) : ReportedIn ts ts.bracketProblems := by
  intro p hp
  obtain ⟨u, hu, rfl⟩ := List.mem_map.mp hp
  exact ⟨u.1, Nesting.mem_of_mem_items (Nesting.fst_mem_items hu), rfl⟩

/-! ### Print calls and statement ends -/

namespace Tokens

theorem reportedIn_printEnding (before : Option Token) (t : Token) (rest : Tokens) :
    ReportedIn (t :: rest) (printEnding before t rest) := by
  unfold printEnding
  split
  · simp
  · next call hcall =>
      split
      · simp
      · split
        · simp
        · exact .singleton (OutputCall.method_mem hcall) _

theorem reportedIn_statementEnding (before : Option Token) (t : Token) (rest : Tokens) :
    ReportedIn (t :: rest) (statementEnding before t rest) := by
  have hhere (p : EndingProblem) : ReportedIn (t :: rest) [⟨t.location, p⟩] :=
    .singleton List.mem_cons_self p
  unfold statementEnding
  split
  · split
    · exact hhere _
    · simp
  · split
    · split
      · exact hhere _
      · simp
    · simp

theorem reportedIn_endingProblems (ts : Tokens) : ReportedIn ts ts.endingProblems :=
  .survey (fun before t rest => reportedIn_append.mpr
    ⟨reportedIn_printEnding before t rest, reportedIn_statementEnding before t rest⟩) ts

/-! ### Concatenation -/

theorem reportedIn_doubledPluses (arguments : Tokens) :
    ReportedIn arguments (doubledPluses arguments) := by
  refine .survey (fun before t rest => ?_) arguments
  split
  · exact .singleton List.mem_cons_self _
  · simp

theorem reportedIn_concatenationProblems (ts : Tokens) :
    ReportedIn ts ts.concatenationProblems := by
  rw [concatenationProblems_eq_survey]
  refine .survey (fun before t rest => ?_) ts
  unfold inCall
  cases hcall : OutputCall.at? before t rest with
  | none => simp
  | some call =>
      rw [Option.elim_some, callConcatenation]
      cases he : call.arguments with
      | none => simp
      | some e => exact (reportedIn_doubledPluses e.inside).mono (OutputCall.inside_subset hcall he)

end Tokens

/-! ### Loops -/

namespace LoopHeader

variable {ts : Tokens}

theorem reportedIn_report {t : Token} (ht : t ∈ ts) (p : LoopFormProblem) :
    ReportedIn ts (report t p) :=
  .singleton ht p

theorem reportedIn_declaredInitProblems (declared : VariableType) (name equals value : Token) :
    ReportedIn [name, equals, value] (declaredInitProblems declared name equals value) := by
  unfold declaredInitProblems
  split
  · exact reportedIn_report (by simp) _
  · split
    · exact reportedIn_report (by simp) _
    · split
      · exact reportedIn_report (by simp) _
      · simp

theorem reportedIn_plainInitProblems (first : Token) (rest : Tokens) :
    ReportedIn (first :: rest) (plainInitProblems first rest) := by
  unfold plainInitProblems
  split
  · split
    · simp
    · split
      · split
        · simp
        · exact reportedIn_report (by simp) _
      · exact reportedIn_report (by simp) _
    · exact reportedIn_report (by simp) _
  · exact reportedIn_report (by simp) _

theorem reportedIn_initProblems (keyword : Token) (ts : Tokens) :
    ReportedIn (keyword :: ts) (initProblems keyword ts) := by
  unfold initProblems
  split
  · exact reportedIn_report List.mem_cons_self _
  · next first _ =>
      split
      · next declared name equals value tail _ =>
          refine (reportedIn_declaredInitProblems declared name equals value).mono ?_
          intro t ht
          have hfront : t ∈ [name, equals, value] ++ tail := List.mem_append_left tail ht
          exact List.mem_cons_of_mem _ (List.mem_cons_of_mem _ hfront)
      · exact (reportedIn_plainInitProblems first _).mono (List.subset_cons_self _ _)

theorem reportedIn_conditionProblems (keyword : Token) (ts : Tokens) :
    ReportedIn (keyword :: ts) (conditionProblems keyword ts) := by
  unfold conditionProblems
  split
  · exact reportedIn_report List.mem_cons_self _
  · simp only [reportedIn_append]
    refine ⟨⟨?_, ?_⟩, ?_⟩
    all_goals
      split
      · simp
      · exact reportedIn_report (by simp) _
  · exact reportedIn_report (by simp) _

theorem reportedIn_stepProblems (operator : Token) (ts : Tokens) :
    ReportedIn ts (stepProblems operator ts) := by
  unfold stepProblems
  split
  · simp
  · split <;> exact reportedIn_report List.mem_cons_self _

theorem reportedIn_stepByProblems (operator : Token) (ts : Tokens) :
    ReportedIn (operator :: ts) (stepByProblems operator ts) := by
  unfold stepByProblems
  split
  · split
    · simp
    · exact reportedIn_report (by simp) _
  · exact reportedIn_report List.mem_cons_self _

theorem reportedIn_incrementProblems (keyword : Token) (ts : Tokens) :
    ReportedIn (keyword :: ts) (incrementProblems keyword ts) := by
  unfold incrementProblems
  split
  · exact reportedIn_report List.mem_cons_self _
  · exact reportedIn_report (by simp) _
  · next name operator rest =>
      have hoperator : operator :: rest ⊆ keyword :: name :: operator :: rest :=
        List.subset_append_right [keyword, name] (operator :: rest)
      split
      · exact reportedIn_report (by simp) _
      · split
        · exact (reportedIn_stepProblems operator rest).mono
            (List.Subset.trans (List.subset_cons_self _ _) hoperator)
        · split
          · exact (reportedIn_stepByProblems operator rest).mono hoperator
          · exact reportedIn_report (hoperator List.mem_cons_self) _

theorem reportedIn_clauseProblems (keyword : Token) (e : Enclosed) :
    ReportedIn (keyword :: e.inside) (clauseProblems keyword e) := by
  unfold clauseProblems
  split
  · next header hheader =>
      obtain ⟨first, second, -, -, hinside, -⟩ := eq_of_ofEnclosed hheader
      rw [hinside]
      have hpart {part : Tokens} {ps : List (Located LoopFormProblem)}
          (h : ReportedIn (keyword :: part) ps)
          (hpart : part ⊆
            header.init ++ first :: (header.condition ++ second :: header.increment)) :
          ReportedIn (keyword :: (header.init ++ first :: (header.condition ++
            second :: header.increment))) ps :=
        h.mono (List.cons_subset_cons keyword hpart)
      simp only [reportedIn_append]
      refine ⟨⟨hpart (reportedIn_initProblems keyword _) ?_,
        hpart (reportedIn_conditionProblems keyword _) ?_⟩,
        hpart (reportedIn_incrementProblems keyword _) ?_⟩
      all_goals
        intro t ht
        simp [ht]
  · exact reportedIn_report List.mem_cons_self _

theorem reportedIn_formProblems (keyword : Token) (rest : Tokens) :
    ReportedIn (keyword :: rest) (formProblems keyword rest) := by
  unfold formProblems
  split
  · next e he =>
      obtain ⟨opener, -, rfl⟩ := Tokens.eq_of_parenthesis? he
      rw [reportedIn_append]
      constructor
      · refine (reportedIn_clauseProblems keyword e).mono (List.cons_subset_cons keyword ?_)
        intro t ht
        simp [ht]
      · unfold bodyProblems
        split
        · simp
        · exact reportedIn_report (by simp) _
  · exact reportedIn_report List.mem_cons_self _
  · exact reportedIn_report List.mem_cons_self _

end LoopHeader

namespace Tokens

theorem reportedIn_loopFormProblems (ts : Tokens) : ReportedIn ts ts.loopFormProblems := by
  refine .survey (fun _ t rest => ?_) ts
  split
  · exact LoopHeader.reportedIn_formProblems t rest
  · simp

/-- Every problem of form is reported at a token. -/
theorem reportedIn_formProblems (ts : Tokens) : ReportedIn ts ts.formProblems := by
  simp only [formProblems, reportedIn_append, reportedIn_map]
  exact ⟨⟨⟨reportedIn_bracketProblems ts, reportedIn_endingProblems ts⟩,
    reportedIn_loopFormProblems ts⟩, reportedIn_concatenationProblems ts⟩

end Tokens

end LessonCheck
