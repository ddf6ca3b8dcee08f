import LessonCheck.Lexing.Tokens
import LessonCheck.Meaning.Check
import LessonCheck.Proofs.Token.Survey

/-!
Which members of strings are reported. The check looks at three tokens at a time, a name, a dot and
another name, and never at what stands in front of the three. So it takes the member of a chain for
the variable of the same name, where the pass over the uses of variables leaves members alone. The
reports are one for each place of that shape, members included; they are those of the variables
alone exactly as long as no member has the name of a string variable and an unknown method behind
it.
-/

namespace LessonCheck

namespace Tokens

/-- At position `i` stands the name of a string variable, then a dot, then a name that is none of
the methods of strings. -/
def hasUnknownMethodAt (scope : Scope) (ts : Tokens) (i : Nat) : Bool :=
  ts.hasKindAt i .identifier && ts.hasKindAt (i + 1) .dot && ts.hasKindAt (i + 2) .identifier &&
    ts[i]?.any (fun receiver => scope.isString receiver.lexeme) &&
    ts[i + 2]?.any fun method => !Vocabulary.isStringMethod method.lexeme

/-- The token at position `i` is a member of what stands in front of it. -/
def isMemberAt (ts : Tokens) : Nat → Bool
  | 0 => false
  | i + 1 => ts.hasKindAt i .dot

/-- The places where the method of a string variable, or of a member with its name, is unknown. -/
def unknownMethodSites (scope : Scope) (ts : Tokens) : List Nat :=
  (List.range ts.length).filter (ts.hasUnknownMethodAt scope)

/-- The places among them that are no members. -/
def unknownMethodUses (scope : Scope) (ts : Tokens) : List Nat :=
  (unknownMethodSites scope ts).filter fun i => !ts.isMemberAt i

/-- What is reported for the receiver at position `i`: the name two tokens behind it. -/
def unknownMethodReport? (ts : Tokens) (i : Nat) : Option (Located StringMethodProblem) :=
  ts[i + 2]?.map fun method => ⟨method.location, .unknownMethod method.lexeme⟩

variable {scope : Scope} {ts : Tokens} {i : Nat}

/-- Members are what the pass over the uses leaves alone. -/
theorem isMemberAt_append (front : Tokens) (t : Token) (rest : Tokens) :
    isMemberAt (front ++ t :: rest) front.length = front.getLast?.any (·.kind = .dot) := by
  rcases List.eq_nil_or_concat front with rfl | ⟨front, u, rfl⟩
  · rfl
  · simp [isMemberAt, hasKindAt, kind?]

theorem isUse_of_isMemberAt {front rest : Tokens} {t : Token}
    (h : isMemberAt (front ++ t :: rest) front.length = true) :
    t.isUse front.getLast? = false := by
  rw [isMemberAt_append] at h
  simp [Token.isUse, h]

theorem exists_report_of_mem_sites (h : i ∈ unknownMethodSites scope ts) :
    ∃ report, ts.unknownMethodReport? i = some report := by
  have hsite := (List.mem_filter.mp h).2
  simp only [hasUnknownMethodAt, Bool.and_eq_true, Option.any_eq_true] at hsite
  obtain ⟨-, method, hmethod, -⟩ := hsite
  exact ⟨_, by rw [unknownMethodReport?, hmethod, Option.map_some]⟩

theorem length_filterMap_report {sites : List Nat} (h : sites ⊆ unknownMethodSites scope ts) :
    (sites.filterMap ts.unknownMethodReport?).length = sites.length := by
  rw [List.filterMap_length_eq_length]
  intro i hi
  obtain ⟨report, hreport⟩ := exists_report_of_mem_sites (h hi)
  rw [hreport, Option.isSome_some]

/-- What the check reports at a place, said by the number of the place. -/
theorem memberProblems_eq (front : Tokens) (t : Token) (rest : Tokens) :
    scope.memberProblems t rest =
      if hasUnknownMethodAt scope (front ++ t :: rest) front.length then
        (unknownMethodReport? (front ++ t :: rest) front.length).toList
      else [] := by
  have hhere (j : Nat) : (front ++ t :: rest)[front.length + j]? = (t :: rest)[j]? := by
    rw [List.getElem?_append_right (Nat.le_add_right _ j), Nat.add_sub_cancel_left]
  have hzero := hhere 0
  rw [Nat.add_zero] at hzero
  simp only [hasUnknownMethodAt, unknownMethodReport?, hasKindAt, kind?, hhere, hzero]
  rcases rest with _ | ⟨dot, _ | ⟨method, rest⟩⟩
  · simp [Scope.memberProblems]
  · simp [Scope.memberProblems]
  · simp [Scope.memberProblems, and_assoc]

end Tokens

namespace Scope

open Tokens

/-- The reports are about uses of variables only, one for each, in order. -/
def ReportsUsesOnly (scope : Scope) (ts : Tokens) : Prop :=
  scope.stringMethodProblems ts = (unknownMethodUses scope ts).filterMap ts.unknownMethodReport?

variable {scope : Scope} {ts : Tokens}

theorem stringMethodProblems_eq (scope : Scope) (ts : Tokens) :
    scope.stringMethodProblems ts =
      (unknownMethodSites scope ts).filterMap ts.unknownMethodReport? := by
  have hnumbers : List.range ts.length = ts.splits.map fun s => s.front.length := by
    rw [List.range_eq_range', ← List.zipIdx_map_snd 0 ts, zipIdx_eq_splits, List.map_map]
    rfl
  have hplaces : ∀ s ∈ ts.splits, scope.memberProblems s.token s.rest =
      if ts.hasUnknownMethodAt scope s.front.length then
        (ts.unknownMethodReport? s.front.length).toList
      else [] := by
    intro s hs
    rw [mem_splits.mp hs, memberProblems_eq s.front]
  rw [stringMethodProblems, survey_eq_flatMap, unknownMethodSites, hnumbers, List.filter_map,
    List.filterMap_map]
  generalize ts.splits = places at hplaces ⊢
  induction places with
  | nil => rfl
  | cons s places ih =>
      have hrest := ih fun s hs => hplaces s (List.mem_cons_of_mem _ hs)
      rw [List.flatMap_cons, hrest, hplaces s List.mem_cons_self, List.filter_cons]
      by_cases hsite : ts.hasUnknownMethodAt scope s.front.length = true
      · cases hreport : ts.unknownMethodReport? s.front.length <;>
          simp [hsite, hreport]
      · simp [hsite]

theorem reportsUsesOnly_iff :
    scope.ReportsUsesOnly ts ↔ ∀ i ∈ unknownMethodSites scope ts, ts.isMemberAt i = false := by
  have huses : unknownMethodUses scope ts ⊆ unknownMethodSites scope ts :=
    List.filter_sublist.subset
  rw [ReportsUsesOnly, stringMethodProblems_eq]
  constructor
  · intro h
    have hlength := congrArg List.length h
    rw [length_filterMap_report (List.Subset.refl _), length_filterMap_report huses] at hlength
    simpa using List.length_filter_eq_length_iff.mp hlength.symm
  · intro h
    have hall : unknownMethodUses scope ts = unknownMethodSites scope ts :=
      List.filter_eq_self.mpr (by simpa using h)
    rw [hall]

/-- The check reports every unknown method behind the name of a string variable once and in order,
and so all those of the variables themselves; but a member with such a name, which is no use of the
variable, has the same report. The reports are those of the variables alone exactly if there is no
such member. -/
theorem stringMethods_reported (scope : Scope) (ts : Tokens) :
    scope.stringMethodProblems ts =
      (unknownMethodSites scope ts).filterMap ts.unknownMethodReport? ∧
    ((unknownMethodUses scope ts).filterMap ts.unknownMethodReport?).Sublist
      (scope.stringMethodProblems ts) ∧
    (∀ s ∈ ts.splits, ts.isMemberAt s.front.length = true →
      s.token.isUse s.front.getLast? = false) ∧
    (scope.ReportsUsesOnly ts ↔
      ∀ i ∈ unknownMethodSites scope ts, ts.isMemberAt i = false) := by
  refine ⟨stringMethodProblems_eq scope ts, ?_, fun s hs hmember => ?_, reportsUsesOnly_iff⟩
  · rw [stringMethodProblems_eq]
    exact List.Sublist.filterMap _ List.filter_sublist
  · rw [mem_splits.mp hs] at hmember
    exact isUse_of_isMemberAt hmember

/-- The member `s` of a number that has the name of a string variable. -/
theorem not_reportsUsesOnly_chain :
    ¬ (Scope.empty.declareAll (Token.ofText "int a; String s; a.s.foo();")).scope.ReportsUsesOnly
        (Token.ofText "int a; String s; a.s.foo();") := by
  rw [reportsUsesOnly_iff]
  intro h
  exact absurd (h 8 (by decide +kernel)) (by decide +kernel)

end Scope

end LessonCheck
