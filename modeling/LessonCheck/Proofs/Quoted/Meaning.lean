import LessonCheck.Proofs.Quoted.Form
import LessonCheck.Proofs.Reported.Meaning

/-!
Quoted line ends in problems of meaning. A value that does not fit is quoted where it stands, be it
a string with line ends; everything else that these passes quote is the name of a variable.
-/

namespace LessonCheck

theorem Scope.name_of_lookup? {scope : Scope} {name : String} {v : Variable}
    (h : scope.lookup? name = some v) : v.name = name := by
  simpa using List.find?_some h

/-- What a clash of types quotes is the name of the variable or the value. -/
theorem TypeClash.mem_quotes_of_ofToken {name : String} {declared : VariableType} {value : Token}
    {e : TypeClash} (h : Literal.ofToken name declared value = .error e) :
    ∀ q ∈ e.quotes, q = name ∨ q = value.lexeme := by
  unfold Literal.ofToken at h
  split at h
  · split at h
    · cases h
    · cases h
      split <;> simp [quotes]
  · cases h
    split <;> simp [quotes]

theorem AssignedValue.quotesIn_errors (scope : Scope) {name : String}
    (hname : '\n' ∉ name.toList) (declared : VariableType) (ts : Tokens) :
    QuotesIn ts (ofTokens scope name declared ts).errors := by
  unfold ofTokens
  split
  · exact quotesIn_nil _
  · next value rest =>
      have hvalue {e : TypeClash} (he : ∀ q ∈ e.quotes, q = name ∨ q = value.lexeme) :
          QuotesIn (value :: rest) (refused ⟨value.location, e⟩).errors := by
        refine .singleton List.mem_cons_self fun q hq hline => ?_
        rcases he q hq with rfl | rfl
        · exact absurd hline hname
        · exact hline
      split
      · exact quotesIn_nil _
      · split
        · split
          · exact quotesIn_nil _
          · split
            · exact quotesIn_nil _
            · next source hsource =>
                split
                · exact quotesIn_nil _
                · next e he =>
                    refine hvalue ?_
                    unfold Variable.checkAccepted at he
                    split at he
                    · cases he
                    · cases he
                      simp [TypeClash.quotes, Scope.name_of_lookup? hsource]
        · split
          · exact quotesIn_nil _
          · next e he => exact hvalue (TypeClash.mem_quotes_of_ofToken he)

namespace Scope

theorem quotesIn_initialValue (scope : Scope) {name : String} (hname : '\n' ∉ name.toList)
    (declared : VariableType) (ts : Tokens) :
    QuotesIn ts (scope.initialValue name declared ts).errors := by
  unfold initialValue
  split
  · exact (AssignedValue.quotesIn_errors scope hname declared _).mono (List.drop_subset 1 ts)
  · simp [AssignedValue.errors]

theorem quotesIn_declareName (scope : Scope) (declared : VariableType) {name : Token}
    (hname : '\n' ∉ name.lexeme.toList) (ts : Tokens) :
    QuotesIn (name :: ts) (scope.declareName declared name ts).problems := by
  cases hlookup : scope.lookup? name.lexeme with
  | some existing =>
      rw [declareName_of_some hlookup]
      exact .singleton List.mem_cons_self (by simp [Quoting.quotes, DeclarationProblem.quotes])
  | none =>
      rw [declareName_of_none hlookup]
      refine .map (fun _ => rfl) ?_
      exact (quotesIn_initialValue scope hname declared ts).mono (List.subset_cons_self _ _)

theorem quotesIn_declareAt (scope : Scope) (t : Token) (rest : Tokens)
    (hrest : LinesInStrings rest) : QuotesIn (t :: rest) (scope.declareAt t rest).problems := by
  unfold declareAt
  split
  · next declared name ts _ =>
      split
      · next hkind =>
          have hname := hrest.not_mem List.mem_cons_self (Or.inl hkind)
          exact (quotesIn_declareName scope declared hname ts).mono (List.subset_cons_self _ _)
      · simp
  · simp

theorem quotesIn_declareAll (scope : Scope) {ts : Tokens} (hts : LinesInStrings ts) :
    QuotesIn ts (scope.declareAll ts).problems := by
  induction ts generalizing scope with
  | nil => exact quotesIn_nil []
  | cons t rest ih =>
      have hrest := hts.of_subset (List.subset_cons_self t rest)
      exact quotesIn_append.mpr
        ⟨quotesIn_declareAt scope t rest hrest, (ih _ hrest).mono (List.subset_cons_self _ _)⟩

theorem quotesIn_useProblems (scope : Scope) {t : Token} (ht : '\n' ∉ t.lexeme.toList)
    (rest : Tokens) : QuotesIn (t :: rest) (scope.useProblems t rest) := by
  unfold useProblems
  split
  · exact .singleton List.mem_cons_self (by simp [Quoting.quotes, UsageProblem.quotes])
  · next v _ =>
      split
      · refine .map (fun _ => rfl) ?_
        exact (AssignedValue.quotesIn_errors scope ht v.type _).mono
          (List.Subset.trans (List.drop_subset 1 rest) (List.subset_cons_self _ _))
      · simp

theorem quotesIn_usageProblems (scope : Scope) {ts : Tokens} (hts : LinesInStrings ts) :
    QuotesIn ts (scope.usageProblems ts) := by
  refine .survey (fun before t rest h => ?_) hts
  split
  · next huse =>
      have hkind := Token.kind_of_isReference (Token.isReference_of_isUse huse)
      exact quotesIn_useProblems scope (h.not_mem List.mem_cons_self (Or.inl hkind)) rest
  · simp

end Scope

namespace LoopCounter

/-- The loop variable is named in the initialization. -/
theorem exists_of_ofInit {scope : Scope} {ts : Tokens} {v : LoopCounter}
    (h : ofInit scope ts = .found v) : ∃ t ∈ ts, t.kind = .identifier ∧ v.name = t.lexeme := by
  have hfirst {first : Token} (h : ofName scope first = .found v) :
      first.kind = .identifier ∧ v.name = first.lexeme := by
    unfold ofName at h
    split at h
    · next hkind =>
        split at h
        · cases h
          exact ⟨hkind, rfl⟩
        · cases h
    · cases h
  unfold ofInit at h
  split at h
  · cases h
  · split at h
    · split at h
      · next hkind =>
          cases h
          exact ⟨_, by simp, hkind, rfl⟩
      · exact ⟨_, List.mem_cons_self, hfirst h⟩
    · exact ⟨_, List.mem_cons_self, hfirst h⟩

variable {v : LoopCounter}

theorem quotesIn_partProblems (hv : '\n' ∉ v.name.toList) (part : LoopPart) (ts : Tokens) :
    QuotesIn ts (v.partProblems part ts) := by
  unfold partProblems
  split
  · simp
  · split
    · exact .singleton List.mem_cons_self (by simp [Quoting.quotes, LoopProblem.quotes, hv])
    · simp

theorem quotesIn_comparisonProblems (scope : Scope) (hv : '\n' ∉ v.name.toList) (value : Token) :
    QuotesIn [value] (v.comparisonProblems scope value) := by
  have hvalue {p : LoopProblem} (hp : ∀ q ∈ p.quotes, q = v.name ∨ q = value.lexeme) :
      QuotesIn [value] [⟨value.location, p⟩] := by
    refine .singleton List.mem_cons_self fun q hq hline => ?_
    rcases hp q hq with rfl | rfl
    · exact absurd hline hv
    · exact hline
  unfold comparisonProblems
  split
  · exact quotesIn_nil _
  · split
    · split
      · exact quotesIn_nil _
      · split
        · exact quotesIn_nil _
        · exact hvalue (by simp [LoopProblem.quotes])
    · split
      · exact quotesIn_nil _
      · exact hvalue (by simp [LoopProblem.quotes])
      · exact hvalue (by simp [LoopProblem.quotes])
      · next e he => exact hvalue (TypeClash.mem_quotes_of_ofToken he)

theorem quotesIn_conditionProblems (scope : Scope) (hv : '\n' ∉ v.name.toList) (ts : Tokens) :
    QuotesIn ts (v.conditionProblems scope ts) := by
  unfold conditionProblems
  split
  · next first second value rest =>
      exact (quotesIn_comparisonProblems scope hv value).mono (by simp)
  · simp

end LoopCounter

namespace Scope

theorem quotesIn_headerProblems (scope : Scope) {h : LoopHeader} (hinit : LinesInStrings h.init) :
    QuotesIn (h.init ++ h.condition ++ h.increment) (scope.headerProblems h) := by
  unfold headerProblems
  split
  · simp
  · next name hname =>
      refine .singleton ?_ (by simp [Quoting.quotes, LoopProblem.quotes])
      exact List.mem_append_left _ (List.mem_append_left _ (LoopCounter.mem_of_ofInit hname))
  · next v hfound =>
      obtain ⟨name, hname, hkind, heq⟩ := LoopCounter.exists_of_ofInit hfound
      have hv : '\n' ∉ v.name.toList := heq ▸ hinit.not_mem hname (Or.inl hkind)
      have hcondition : h.condition ⊆ h.init ++ h.condition ++ h.increment := by simp
      simp only [quotesIn_append]
      exact ⟨⟨(LoopCounter.quotesIn_partProblems hv .condition _).mono hcondition,
        (LoopCounter.quotesIn_partProblems hv .increment _).mono (List.subset_append_right _ _)⟩,
        (LoopCounter.quotesIn_conditionProblems scope hv _).mono hcondition⟩

theorem quotesIn_loopProblems (scope : Scope) {ts : Tokens} (hts : LinesInStrings ts) :
    QuotesIn ts (scope.loopProblems ts) := by
  refine .survey (fun _ t rest hrest => ?_) hts
  split
  · split
    · next h hh =>
        obtain ⟨opener, first, second, -, -, -, rfl⟩ := LoopHeader.eq_of_ofTokens hh
        have hinit : LinesInStrings h.init := hrest.of_subset fun u hu => by simp [hu]
        refine (quotesIn_headerProblems scope hinit).mono fun u hu => ?_
        simp only [List.mem_append, List.mem_cons] at hu ⊢
        grind
    · simp
  · simp

theorem quotesIn_memberProblems (scope : Scope) (receiver : Token) (rest : Tokens) :
    QuotesIn rest (scope.memberProblems receiver rest) := by
  unfold memberProblems
  split
  · split
    · exact .singleton (by simp) (by simp [Quoting.quotes, StringMethodProblem.quotes])
    · simp
  · simp

theorem quotesIn_stringMethodProblems (scope : Scope) {ts : Tokens} (hts : LinesInStrings ts) :
    QuotesIn ts (scope.stringMethodProblems ts) :=
  .survey (fun _ t rest _ => (quotesIn_memberProblems scope t rest).mono
    (List.subset_cons_self t rest)) hts

end Scope

/-- A char literal at this place is judged by a range that begins or ends with a line end. -/
def CharRange.LineEndAt (r : CharRange) (ts : Tokens) (place : Location) : Prop :=
  (r.first = '\n' ∨ r.last = '\n') ∧ ∃ t ∈ ts, t.location = place ∧ t.kind = .char

/-- No char literal is a line end, but the permitted range is quoted as well. -/
theorem CharRange.lineEndAt_of_problems (r : CharRange) {ts : Tokens} (hts : LinesInStrings ts)
    {p : Located CharRangeProblem} (hp : p ∈ r.problems ts)
    (hline : '\n' ∈ p.problem.message.toList) : r.LineEndAt ts p.location := by
  obtain ⟨t, ht, hp⟩ := List.mem_flatMap.mp hp
  unfold tokenProblems at hp
  split at hp
  · next c hkind hlexeme =>
      split at hp
      · cases hp
      · obtain rfl := List.mem_singleton.mp hp
        have hc : '\n' ≠ c := by
          rintro rfl
          rcases hts t ht (by simp [hlexeme]) with hstring | hstring <;>
            rw [hkind] at hstring <;> cases hstring
        have hends : r.first = '\n' ∨ r.last = '\n' := by
          unfold CharRangeProblem.message at hline
          simpa [hc, eq_comm] using hline
        exact ⟨hends, t, ht, rfl, hkind⟩
  · cases hp

/-- A problem of meaning is several lines only where it is reported at a token that is, or at a char
literal that is judged by a range with a line end. -/
theorem Tokens.lineFeed_of_meaning {options : MeaningOptions} {ts : Tokens}
    (hts : LinesInStrings ts) {p : Located MeaningProblem} (hp : p ∈ (ts.meaning options).problems)
    (hline : '\n' ∈ p.problem.message.toList) :
    (∃ t ∈ ts, t.location = p.location ∧ '\n' ∈ t.lexeme.toList) ∨
      ∃ r, options.charRange = some r ∧ r.LineEndAt ts p.location := by
  simp only [meaning, List.mem_append] at hp
  rcases hp with (((hp | hp) | hp) | hp) | hp
  · obtain ⟨origin, horigin, rfl⟩ := List.mem_map.mp hp
    exact Or.inl ((Scope.quotesIn_declareAll _ hts).exists_token horigin hline)
  · obtain ⟨origin, horigin, rfl⟩ := List.mem_map.mp hp
    exact Or.inl ((Scope.quotesIn_usageProblems _ hts).exists_token horigin hline)
  · obtain ⟨origin, horigin, rfl⟩ := List.mem_map.mp hp
    exact Or.inl ((Scope.quotesIn_loopProblems _ hts).exists_token horigin hline)
  · cases hrange : options.charRange with
    | none => simp [hrange] at hp
    | some r =>
        rw [hrange] at hp
        obtain ⟨origin, horigin, rfl⟩ := List.mem_map.mp hp
        exact Or.inr ⟨r, rfl, r.lineEndAt_of_problems hts horigin hline⟩
  · split at hp
    · obtain ⟨origin, horigin, rfl⟩ := List.mem_map.mp hp
      exact Or.inl ((Scope.quotesIn_stringMethodProblems _ hts).exists_token horigin hline)
    · cases hp

end LessonCheck
