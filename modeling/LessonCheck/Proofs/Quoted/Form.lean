import LessonCheck.Proofs.Lexing.Complaints
import LessonCheck.Proofs.Quoted.Texts
import LessonCheck.Proofs.Reported.Form

/-!
Quoted line ends in problems of form. `QuotesIn` says of the problems of a pass that a line end in a
text that one of them quotes stands in a token at its place. The passes have this property on tokens
whose line ends are all in strings: besides the token that a problem is reported at, they only quote
operators and the names of variables.
-/

namespace LessonCheck

/-! ### Where quoted line ends come from -/

/-- The line ends in the tokens are all in strings, closed or not. -/
def LinesInStrings (ts : Tokens) : Prop :=
  ∀ t ∈ ts, '\n' ∈ t.lexeme.toList → t.kind = .string ∨ t.kind = .faulty .unterminatedString

namespace LinesInStrings

variable {ts us : Tokens} {t : Token}

theorem of_subset (h : LinesInStrings us) (hts : ts ⊆ us) : LinesInStrings ts :=
  fun t ht => h t (hts ht)

theorem not_mem (h : LinesInStrings ts) (ht : t ∈ ts)
    (hkind : t.kind = .identifier ∨ t.kind = .operator) : '\n' ∉ t.lexeme.toList := by
  intro hline
  rcases h t ht hline with hstring | hstring <;> rw [hstring] at hkind <;>
    exact absurd hkind (by decide)

end LinesInStrings

/-- A line end that a problem of the list quotes stands in a token at the place of the problem. -/
def QuotesIn {α : Type} [Described α] [Quoting α] (ts : Tokens) (ps : List (Located α)) : Prop :=
  ∀ p ∈ ps, ∀ q ∈ Quoting.quotes p.problem, '\n' ∈ q.toList →
    ∃ t ∈ ts, t.location = p.location ∧ '\n' ∈ t.lexeme.toList

section
variable {α β : Type} [Described α] [Quoting α] [Described β] [Quoting β] {ts us : Tokens}
  {ps qs : List (Located α)}

@[simp] theorem quotesIn_nil (ts : Tokens) : QuotesIn ts ([] : List (Located α)) := by
  intro p hp
  cases hp

@[simp] theorem quotesIn_append : QuotesIn ts (ps ++ qs) ↔ QuotesIn ts ps ∧ QuotesIn ts qs :=
  List.forall_mem_append

namespace QuotesIn

theorem map {f : α → β} (hf : ∀ a, Quoting.quotes (f a) = Quoting.quotes a)
    (h : QuotesIn ts ps) : QuotesIn ts (ps.map (·.map f)) := by
  intro p hp q hq
  obtain ⟨origin, horigin, rfl⟩ := List.mem_map.mp hp
  exact h origin horigin q (hf origin.problem ▸ hq)

theorem mono (h : QuotesIn ts ps) (hts : ts ⊆ us) : QuotesIn us ps := by
  intro p hp q hq hline
  obtain ⟨t, ht, hplace⟩ := h p hp q hq hline
  exact ⟨t, hts ht, hplace⟩

theorem flatMap {γ : Type} {xs : List γ} {f : γ → List (Located α)}
    (h : ∀ x ∈ xs, QuotesIn ts (f x)) : QuotesIn ts (xs.flatMap f) := by
  intro p hp
  obtain ⟨x, hx, hpx⟩ := List.mem_flatMap.mp hp
  exact h x hx p hpx

/-- A problem that is several lines is reported at a token that is. -/
theorem exists_token (h : QuotesIn ts ps) {p : Located α} (hp : p ∈ ps)
    (hline : '\n' ∈ (Described.message p.problem).toList) :
    ∃ t ∈ ts, t.location = p.location ∧ '\n' ∈ t.lexeme.toList := by
  obtain ⟨q, hq, hqline⟩ := Quoting.lineFeed p.problem hline
  exact h p hp q hq hqline

theorem singleton {t : Token} (ht : t ∈ ts) {problem : α}
    (h : ∀ q ∈ Quoting.quotes problem, '\n' ∈ q.toList → '\n' ∈ t.lexeme.toList) :
    QuotesIn ts [⟨t.location, problem⟩] := by
  intro p hp q hq hline
  obtain rfl := List.mem_singleton.mp hp
  exact ⟨t, ht, rfl, h q hq hline⟩

theorem of_nil (h : ∀ a : α, Quoting.quotes a = []) (ps : List (Located α)) : QuotesIn ts ps := by
  intro p _ q hq
  rw [h] at hq
  cases hq

theorem survey {look : Option Token → Token → Tokens → List (Located α)}
    (h : ∀ before t rest, LinesInStrings (t :: rest) → QuotesIn (t :: rest) (look before t rest))
    (hts : LinesInStrings ts) : QuotesIn ts (ts.survey look) := by
  intro p hp
  obtain ⟨front, t, rest, rfl, hlook⟩ := (Tokens.mem_surveyFrom look).mp hp
  have hbehind : t :: rest ⊆ front ++ t :: rest := List.subset_append_right front (t :: rest)
  exact (h _ t rest (hts.of_subset hbehind)).mono hbehind p hlook

end QuotesIn

end

/-! ### Complaints of the lexer -/

/-- The lexer quotes a character or a broken literal, or out of a string an illegal escape. -/
theorem LexicalProblem.lineFeed_of_mem_ofToken {t : Token} {p : LexicalProblem}
    (hp : p ∈ ofToken (InvalidEscape.ofLiteral t.lexeme) t) :
    ∀ q ∈ p.quotes, '\n' ∈ q.toList → '\n' ∈ t.lexeme.toList := by
  unfold ofToken at hp
  split at hp
  · obtain rfl := List.mem_singleton.mp hp
    simp [quotes]
  · obtain rfl := List.mem_singleton.mp hp
    simp [quotes]
  · obtain rfl := List.mem_singleton.mp hp
    simp [quotes]
  · obtain rfl := List.mem_singleton.mp hp
    simp [quotes]
  · obtain ⟨e, he, rfl⟩ := List.mem_map.mp hp
    obtain ⟨front, rest, htext, -⟩ := InvalidEscape.mem_ofLiteral.mp he
    intro q hq hline
    obtain rfl : q = e.sequence := List.mem_singleton.mp hq
    have hescaped : '\n' = e.escaped := by simpa [InvalidEscape.sequence] using hline
    rw [htext, hescaped]
    simp
  · cases hp

theorem LexedText.quotesIn_problems (source : String) :
    QuotesIn (ofText source).tokens (ofText source).problems := by
  refine .flatMap fun t ht p hp q hq hline => ?_
  obtain ⟨problem, hproblem, rfl⟩ := List.mem_map.mp hp
  exact ⟨t, ht, rfl, LexicalProblem.lineFeed_of_mem_ofToken hproblem q hq hline⟩

/-! ### Statement ends -/

namespace Tokens

theorem quotesIn_printEnding (before : Option Token) (t : Token) (rest : Tokens) :
    QuotesIn (t :: rest) (printEnding before t rest) := by
  unfold printEnding
  split
  · simp
  · next call hcall =>
      split
      · simp
      · split
        · simp
        · refine .singleton (OutputCall.method_mem hcall) fun q hq hline => ?_
          obtain rfl : q = call.name := List.mem_singleton.mp hq
          unfold OutputCall.name at hline
          split at hline
          · simpa using hline
          · exact hline

theorem quotesIn_statementEnding (before : Option Token) (t : Token) (rest : Tokens) :
    QuotesIn (t :: rest) (statementEnding before t rest) := by
  unfold statementEnding
  split
  · split
    · exact .singleton List.mem_cons_self (by simp [Quoting.quotes, EndingProblem.quotes])
    · simp
  · split
    · split
      · exact .singleton List.mem_cons_self (by simp [Quoting.quotes, EndingProblem.quotes])
      · simp
    · simp

theorem quotesIn_endingProblems {ts : Tokens} (hts : LinesInStrings ts) :
    QuotesIn ts ts.endingProblems :=
  .survey (fun before t rest _ => quotesIn_append.mpr
    ⟨quotesIn_printEnding before t rest, quotesIn_statementEnding before t rest⟩) hts

end Tokens

/-! ### Loops -/

namespace LoopHeader

variable {ts : Tokens}

theorem quotesIn_report {t : Token} (ht : t ∈ ts) {p : LoopFormProblem}
    (h : ∀ q ∈ p.quotes, '\n' ∈ q.toList → '\n' ∈ t.lexeme.toList) :
    QuotesIn ts (report t p) :=
  .singleton ht h

theorem quotesIn_declaredInitProblems (declared : VariableType) (name equals value : Token)
    (hts : LinesInStrings [name, equals, value]) :
    QuotesIn [name, equals, value] (declaredInitProblems declared name equals value) := by
  unfold declaredInitProblems
  split
  · exact quotesIn_report (by simp) (by simp [LoopFormProblem.quotes])
  · next hname =>
      have hline : '\n' ∉ name.lexeme.toList :=
        hts.not_mem List.mem_cons_self (Or.inl (by simpa using hname))
      split
      · exact quotesIn_report (by simp) (by simp [LoopFormProblem.quotes])
      · split
        · exact quotesIn_report (by simp) (by simp [LoopFormProblem.quotes, hline])
        · simp

theorem quotesIn_plainInitProblems (first : Token) (rest : Tokens) :
    QuotesIn (first :: rest) (plainInitProblems first rest) := by
  have hinit : QuotesIn (first :: rest) (report first .init) :=
    quotesIn_report List.mem_cons_self (by simp [LoopFormProblem.quotes])
  unfold plainInitProblems
  split
  · split
    · simp
    · split
      · split
        · simp
        · exact quotesIn_report (by simp) (by simp [LoopFormProblem.quotes])
      · exact hinit
    · exact hinit
  · exact hinit

theorem quotesIn_initProblems (keyword : Token) (ts : Tokens) (hts : LinesInStrings ts) :
    QuotesIn (keyword :: ts) (initProblems keyword ts) := by
  unfold initProblems
  split
  · exact quotesIn_report List.mem_cons_self (by simp [LoopFormProblem.quotes])
  · next first _ =>
      split
      · next declared name equals value tail _ =>
          have hpart : [name, equals, value] ⊆ first :: name :: equals :: value :: tail :=
            fun t ht => List.mem_cons_of_mem _ (List.mem_append_left tail ht)
          exact (quotesIn_declaredInitProblems declared name equals value
            (hts.of_subset hpart)).mono (List.Subset.trans hpart (List.subset_cons_self _ _))
      · exact (quotesIn_plainInitProblems first _).mono (List.subset_cons_self _ _)

theorem quotesIn_conditionProblems (keyword : Token) (ts : Tokens) :
    QuotesIn (keyword :: ts) (conditionProblems keyword ts) := by
  unfold conditionProblems
  split
  · exact quotesIn_report List.mem_cons_self (by simp [LoopFormProblem.quotes])
  · simp only [quotesIn_append]
    refine ⟨⟨?_, ?_⟩, ?_⟩
    all_goals
      split
      · simp
      · exact quotesIn_report (by simp) (by simp [LoopFormProblem.quotes])
  · exact quotesIn_report (by simp) (by simp [LoopFormProblem.quotes])

theorem quotesIn_stepProblems {operator : Token} (hoperator : '\n' ∉ operator.lexeme.toList)
    (ts : Tokens) : QuotesIn ts (stepProblems operator ts) := by
  unfold stepProblems
  split
  · simp
  · split <;>
      exact quotesIn_report List.mem_cons_self (by simp [LoopFormProblem.quotes, hoperator])

theorem quotesIn_stepByProblems {operator : Token} (hoperator : '\n' ∉ operator.lexeme.toList)
    (ts : Tokens) : QuotesIn (operator :: ts) (stepByProblems operator ts) := by
  unfold stepByProblems
  split
  · split
    · simp
    · exact quotesIn_report (by simp) (by simp [LoopFormProblem.quotes, hoperator])
  · exact quotesIn_report List.mem_cons_self (by simp [LoopFormProblem.quotes])

theorem quotesIn_incrementProblems (keyword : Token) (ts : Tokens) (hts : LinesInStrings ts) :
    QuotesIn (keyword :: ts) (incrementProblems keyword ts) := by
  unfold incrementProblems
  split
  · exact quotesIn_report List.mem_cons_self (by simp [LoopFormProblem.quotes])
  · exact quotesIn_report (by simp) (by simp [LoopFormProblem.quotes])
  · next name operator rest =>
      have hpart : operator :: rest ⊆ keyword :: name :: operator :: rest :=
        List.subset_append_right [keyword, name] (operator :: rest)
      have hline {symbol : String} (hsymbol : operator.isOperator symbol = true) :
          '\n' ∉ operator.lexeme.toList :=
        hts.not_mem (by simp) (Or.inr (Token.kind_of_isOperator hsymbol))
      split
      · exact quotesIn_report (by simp) (by simp [LoopFormProblem.quotes])
      · split
        · next hstep =>
            have hoperator : '\n' ∉ operator.lexeme.toList :=
              (Bool.or_eq_true_iff.mp hstep).elim hline hline
            exact (quotesIn_stepProblems hoperator rest).mono
              (List.Subset.trans (List.subset_cons_self _ _) hpart)
        · split
          · next hstep =>
              have hoperator : '\n' ∉ operator.lexeme.toList :=
                (Bool.or_eq_true_iff.mp hstep).elim hline hline
              exact (quotesIn_stepByProblems hoperator rest).mono hpart
          · exact quotesIn_report (hpart List.mem_cons_self) (by simp [LoopFormProblem.quotes])

theorem quotesIn_clauseProblems (keyword : Token) (e : Enclosed) (he : LinesInStrings e.inside) :
    QuotesIn (keyword :: e.inside) (clauseProblems keyword e) := by
  unfold clauseProblems
  split
  · next header hheader =>
      obtain ⟨first, second, -, -, hinside, -⟩ := eq_of_ofEnclosed hheader
      have hinit : header.init ⊆ e.inside := by simp [hinside]
      have hcondition : header.condition ⊆ e.inside := fun t ht => by simp [hinside, ht]
      have hincrement : header.increment ⊆ e.inside := fun t ht => by simp [hinside, ht]
      simp only [quotesIn_append]
      exact ⟨⟨(quotesIn_initProblems keyword _ (he.of_subset hinit)).mono
          (List.cons_subset_cons keyword hinit),
        (quotesIn_conditionProblems keyword _).mono (List.cons_subset_cons keyword hcondition)⟩,
        (quotesIn_incrementProblems keyword _ (he.of_subset hincrement)).mono
          (List.cons_subset_cons keyword hincrement)⟩
  · exact quotesIn_report List.mem_cons_self (by simp [LoopFormProblem.quotes])

theorem quotesIn_formProblems (keyword : Token) (rest : Tokens) (hrest : LinesInStrings rest) :
    QuotesIn (keyword :: rest) (formProblems keyword rest) := by
  unfold formProblems
  split
  · next e he =>
      obtain ⟨opener, -, rfl⟩ := Tokens.eq_of_parenthesis? he
      have hinside : e.inside ⊆ opener :: (e.inside ++ e.closer :: e.after) :=
        fun t ht => by simp [ht]
      rw [quotesIn_append]
      constructor
      · exact (quotesIn_clauseProblems keyword e (hrest.of_subset hinside)).mono
          (List.cons_subset_cons keyword hinside)
      · unfold bodyProblems
        split
        · simp
        · exact quotesIn_report (by simp) (by simp [LoopFormProblem.quotes])
  · exact quotesIn_report List.mem_cons_self (by simp [LoopFormProblem.quotes])
  · exact quotesIn_report List.mem_cons_self (by simp [LoopFormProblem.quotes])

end LoopHeader

namespace Tokens

theorem quotesIn_loopFormProblems {ts : Tokens} (hts : LinesInStrings ts) :
    QuotesIn ts ts.loopFormProblems := by
  refine .survey (fun _ t rest h => ?_) hts
  split
  · exact LoopHeader.quotesIn_formProblems t rest (h.of_subset (List.subset_cons_self t rest))
  · simp

/-- Brackets and misused operators are told by fixed words. -/
theorem quotesIn_formProblems {ts : Tokens} (hts : LinesInStrings ts) :
    QuotesIn ts ts.formProblems := by
  simp only [formProblems, quotesIn_append]
  exact ⟨⟨⟨(QuotesIn.of_nil (fun _ => rfl) _).map fun _ => rfl,
    (quotesIn_endingProblems hts).map fun _ => rfl⟩,
    (quotesIn_loopFormProblems hts).map fun _ => rfl⟩,
    (QuotesIn.of_nil (fun _ => rfl) _).map fun _ => rfl⟩

end Tokens

theorem LexedText.quotesIn_formAnalysis {source : String}
    (hts : LinesInStrings (Token.ofText source)) :
    QuotesIn (ofText source).formAnalysis.tokens (ofText source).formAnalysis.problems :=
  quotesIn_append.mpr
    ⟨(quotesIn_problems source).map fun _ => rfl, Tokens.quotesIn_formProblems hts⟩

end LessonCheck
