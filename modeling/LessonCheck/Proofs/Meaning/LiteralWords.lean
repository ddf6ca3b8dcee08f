import LessonCheck.Lexing.Tokens
import LessonCheck.Proofs.Loop.Agreement
import LessonCheck.Proofs.Meaning.Sites

/-!
Literal words as names of variables. `true`, `false` and `null` read as identifiers, and a
declaration looks at nothing else, so a literal word behind a type keyword becomes a variable like
any other name. The passes then differ in what they take the word for. Whatever asks whether a token
refers to a variable has the literal words left out: the values, the uses and what a loop variable
is compared with are judged as if the scope had no such entry. The front of a loop header and the
receiver of a method are looked up as they are, and there the entry counts.
-/

namespace LessonCheck

namespace Scope

/-- No literal word names a variable. -/
def KeepsLiteralWords (scope : Scope) : Prop :=
  ∀ word ∈ Vocabulary.literalWords, scope.contains word = false

/-- The scope with the variables left out that are named by a literal word. -/
def withoutLiteralWords (scope : Scope) : Scope where
  entries := scope.entries.filter fun v => !Vocabulary.literalWords.contains v.name
  distinct := scope.distinct.sublist (List.filter_sublist.map _)

theorem lookup?_withoutLiteralWords (scope : Scope) (n : String) :
    scope.withoutLiteralWords.lookup? n =
      if n ∈ Vocabulary.literalWords then none else scope.lookup? n := by
  rw [lookup?, withoutLiteralWords, List.find?_filter]
  split
  · next hword =>
      rw [List.find?_eq_none]
      rintro v - hv
      obtain ⟨hother, rfl⟩ : v.name ∉ Vocabulary.literalWords ∧ v.name = n := by simpa using hv
      exact hother hword
  · next hword =>
      rw [lookup?]
      congr
      funext v
      by_cases hv : v.name = n
      · simp [hv, hword]
      · simp [hv]

end Scope

/-! ### Places that take the word for the literal -/

namespace Token

theorem not_mem_literalWords_of_isReference {t : Token} (h : t.isReference = true) :
    t.lexeme ∉ Vocabulary.literalWords := by
  intro hword
  simp [isReference, Vocabulary.isReserved, hword] at h

end Token

namespace Scope

/-- A reference is looked up as if no literal word had been declared. -/
theorem lookup?_withoutLiteralWords_of_isReference {t : Token} (h : t.isReference = true)
    (scope : Scope) : scope.withoutLiteralWords.lookup? t.lexeme = scope.lookup? t.lexeme := by
  rw [lookup?_withoutLiteralWords, if_neg (Token.not_mem_literalWords_of_isReference h)]

end Scope

theorem AssignedValue.ofTokens_withoutLiteralWords (scope : Scope) (name : String)
    (declared : VariableType) (ts : Tokens) :
    ofTokens scope.withoutLiteralWords name declared ts = ofTokens scope name declared ts := by
  cases ts with
  | nil => rfl
  | cons value rest =>
      by_cases href : value.isReference = true
      · simp only [ofTokens, href, Scope.lookup?_withoutLiteralWords_of_isReference href scope]
      · simp only [ofTokens, href, Bool.false_eq_true, if_false]

theorem LoopCounter.comparisonProblems_withoutLiteralWords (scope : Scope) (v : LoopCounter)
    (value : Token) :
    v.comparisonProblems scope.withoutLiteralWords value = v.comparisonProblems scope value := by
  by_cases href : value.isReference = true
  · simp only [comparisonProblems, href,
      Scope.lookup?_withoutLiteralWords_of_isReference href scope]
  · simp only [comparisonProblems, href, Bool.false_eq_true, if_false]

namespace Scope

theorem usageProblems_withoutLiteralWords (scope : Scope) (ts : Tokens) :
    scope.withoutLiteralWords.usageProblems ts = scope.usageProblems ts := by
  unfold usageProblems
  congr
  funext before t rest
  by_cases huse : t.isUse before = true
  · have hlookup :=
      lookup?_withoutLiteralWords_of_isReference (Token.isReference_of_isUse huse) scope
    simp only [huse, if_true, useProblems, hlookup, AssignedValue.ofTokens_withoutLiteralWords]
  · simp only [huse, Bool.false_eq_true, if_false]

end Scope

/-! ### Places that take the word for the variable -/

namespace LoopCounter

/-- A loop whose variable has been found is never said to have an unknown one. -/
theorem ne_undeclared_of_partProblems {v : LoopCounter} {part : LoopPart} {ts : Tokens}
    {p : Located LoopProblem} (hp : p ∈ v.partProblems part ts) (n : String) :
    p.problem ≠ .undeclared n := by
  cases ts with
  | nil => cases hp
  | cons t rest =>
      rw [partProblems] at hp
      split at hp
      · rw [List.mem_singleton.mp hp]
        simp
      · cases hp

theorem ne_undeclared_of_comparisonProblems {scope : Scope} {v : LoopCounter} {value : Token}
    {p : Located LoopProblem} (hp : p ∈ v.comparisonProblems scope value) (n : String) :
    p.problem ≠ .undeclared n := by
  unfold comparisonProblems at hp
  split at hp
  · cases hp
  · split at hp
    · split at hp
      · cases hp
      · split at hp
        · cases hp
        · rw [List.mem_singleton.mp hp]
          simp
    · split at hp
      · cases hp
      all_goals
        rw [List.mem_singleton.mp hp]
        simp

end LoopCounter

namespace Scope

variable {scope : Scope} {h : LoopHeader} {name : Token} {rest : Tokens}

/-- The name in front of an initialization is looked up whatever word it is. -/
theorem headerProblems_eq_undeclared_iff (hinit : h.init = name :: rest)
    (hname : name.kind = .identifier) :
    scope.headerProblems h = [⟨name.location, .undeclared name.lexeme⟩] ↔
      scope.contains name.lexeme = false := by
  rw [contains, Option.isSome_eq_false_iff, Option.isNone_iff_eq_none]
  cases hv : scope.lookup? name.lexeme with
  | none =>
      simp [headerProblems, hinit, LoopCounter.ofInit_of_name rest hname, LoopCounter.ofName, hname,
        hv]
  | some v =>
      -- The variable has been found, and nothing that is said of its three parts has this wording.
      refine iff_of_false (fun heq => ?_) (Option.some_ne_none v)
      have hmem : (⟨name.location, .undeclared name.lexeme⟩ : Located LoopProblem) ∈
          scope.headerProblems h := by simp [heq]
      rw [headerProblems, hinit, LoopCounter.ofInit_of_name rest hname,
        LoopCounter.ofName_of_some hname hv] at hmem
      simp only [List.mem_append] at hmem
      rcases hmem with (hpart | hpart) | hvalue
      · exact LoopCounter.ne_undeclared_of_partProblems hpart _ rfl
      · exact LoopCounter.ne_undeclared_of_partProblems hpart _ rfl
      · unfold LoopCounter.conditionProblems at hvalue
        split at hvalue
        · exact LoopCounter.ne_undeclared_of_comparisonProblems hvalue _ rfl
        · cases hvalue

/-- The receiver of a method is looked up whatever word it is. -/
theorem memberProblems_eq_nil_iff {receiver dot method : Token}
    (hreceiver : receiver.kind = .identifier) (hdot : dot.kind = .dot)
    (hmethod : method.kind = .identifier)
    (hunknown : Vocabulary.isStringMethod method.lexeme = false) :
    scope.memberProblems receiver (dot :: method :: rest) = [] ↔
      scope.isString receiver.lexeme = false := by
  simp [memberProblems, hreceiver, hdot, hmethod, hunknown]

end Scope

/-! ### Declared literal words -/

namespace Scope

variable {ts : Tokens} {word : String}

theorem contains_declareAll_iff :
    (empty.declareAll ts).scope.contains word = true ↔
      ∃ i declared name, ts.DeclaresAt i declared name ∧ name.lexeme = word := by
  have hnone : (empty.declareAll ts).scope.lookup? word = none ↔
      ∀ i declared name, ts.DeclaresAt i declared name → name.lexeme ≠ word :=
    lookup?_declareAll_eq_none_iff.trans (and_iff_right rfl)
  rw [contains, Option.isSome_iff_ne_none, Ne, hnone]
  push Not
  rfl

theorem keepsLiteralWords_iff :
    (empty.declareAll ts).scope.KeepsLiteralWords ↔
      ∀ i declared name, ts.DeclaresAt i declared name →
        name.lexeme ∉ Vocabulary.literalWords := by
  constructor
  · intro h i declared name hname hword
    have hdeclared := contains_declareAll_iff.mpr ⟨i, declared, name, hname, rfl⟩
    rw [h _ hword] at hdeclared
    cases hdeclared
  · intro h word hword
    rw [Bool.eq_false_iff]
    intro hcontains
    obtain ⟨i, declared, name, hname, rfl⟩ := contains_declareAll_iff.mp hcontains
    exact h i declared name hname hword

/-- What the passes over `ts` make of the literal words, when `scope` has the variables of `ts`. -/
structure TreatsLiteralWords (scope : Scope) (ts : Tokens) : Prop where
  /-- A literal word names a variable exactly if it is declared. -/
  named (word : String) : word ∈ Vocabulary.literalWords →
    (scope.contains word = true ↔
      ∃ i declared name, ts.DeclaresAt i declared name ∧ name.lexeme = word)
  kept : scope.KeepsLiteralWords ↔
    ∀ i declared name, ts.DeclaresAt i declared name → name.lexeme ∉ Vocabulary.literalWords
  /-- As a value it is the literal, declared or not. -/
  value (name : String) (declared : VariableType) (behind : Tokens) :
    AssignedValue.ofTokens scope.withoutLiteralWords name declared behind =
      AssignedValue.ofTokens scope name declared behind
  /-- It is never used as a variable. -/
  use : scope.withoutLiteralWords.usageProblems ts = scope.usageProblems ts
  /-- What a loop variable is compared with is the literal. -/
  compared (v : LoopCounter) (t : Token) :
    v.comparisonProblems scope.withoutLiteralWords t = v.comparisonProblems scope t
  /-- A loop that begins with it is about the variable. -/
  counter (h : LoopHeader) (name : Token) (rest : Tokens) : h.init = name :: rest →
    name.kind = .identifier → name.lexeme ∈ Vocabulary.literalWords →
      scope.withoutLiteralWords.headerProblems h = [⟨name.location, .undeclared name.lexeme⟩] ∧
      (scope.headerProblems h = [⟨name.location, .undeclared name.lexeme⟩] ↔
        scope.contains name.lexeme = false)
  /-- The receiver of a method is the variable. -/
  receiver (t dot method : Token) (rest : Tokens) : t.kind = .identifier → dot.kind = .dot →
    method.kind = .identifier → Vocabulary.isStringMethod method.lexeme = false →
    t.lexeme ∈ Vocabulary.literalWords →
      scope.withoutLiteralWords.memberProblems t (dot :: method :: rest) = [] ∧
      (scope.memberProblems t (dot :: method :: rest) = [] ↔ scope.isString t.lexeme = false)
  /-- So in a program without problems a loop that begins with it has it declared. -/
  clean (options : MeaningOptions) : (ts.meaning options).problems = [] →
    ∀ front keyword rest h name behind, ts = front ++ keyword :: rest →
      keyword.isKeyword "for" = true → LoopHeader.ofTokens rest = .ok h →
      h.init = name :: behind → name.kind = .identifier →
      name.lexeme ∈ Vocabulary.literalWords →
        ∃ i declared declaration, ts.DeclaresAt i declared declaration ∧
          declaration.lexeme = name.lexeme

/-- A literal word that is declared is a variable. The values, the uses and the comparisons go on to
take it for the literal, the fronts of loops and the receivers of methods for the variable. -/
theorem treatsLiteralWords_declareAll (ts : Tokens) :
    (empty.declareAll ts).scope.TreatsLiteralWords ts where
  named _ _ := contains_declareAll_iff
  kept := keepsLiteralWords_iff
  value := AssignedValue.ofTokens_withoutLiteralWords _
  use := usageProblems_withoutLiteralWords _ ts
  compared := LoopCounter.comparisonProblems_withoutLiteralWords _
  counter h name rest hinit hname hword := by
    refine ⟨(headerProblems_eq_undeclared_iff hinit hname).mpr ?_,
      headerProblems_eq_undeclared_iff hinit hname⟩
    simp [contains, lookup?_withoutLiteralWords, hword]
  receiver t dot method rest ht hdot hmethod hunknown hword := by
    refine ⟨(memberProblems_eq_nil_iff ht hdot hmethod hunknown).mpr ?_,
      memberProblems_eq_nil_iff ht hdot hmethod hunknown⟩
    simp [isString, lookup?_withoutLiteralWords, hword]
  clean options hclean front keyword rest h name behind hts hfor hh hinit hname _ := by
    obtain ⟨-, -, hloop, -⟩ := Tokens.problems_meaning_eq_nil_iff.mp hclean
    have hheader := Tokens.eq_nil_of_survey hloop hts
    rw [if_pos hfor, hh] at hheader
    obtain ⟨v, hv⟩ := LoopCounter.lookup?_of_headerProblems hinit hname hheader
    exact contains_declareAll_iff.mp (Option.isSome_of_eq_some hv)

/-- A literal word is declared, and nothing is reported. -/
theorem not_keepsLiteralWords_true :
    ((Token.ofText "int true;").meaning Settings.standard.meaningOptions).problems = [] ∧
      ¬ (empty.declareAll (Token.ofText "int true;")).scope.KeepsLiteralWords := by
  refine ⟨by decide +kernel, fun h => ?_⟩
  exact absurd (h "true" (by decide)) (by decide +kernel)

/-- A loop over it, in which the condition compares the variable with the literal. -/
example :
    ((Token.ofText "boolean true = false; for (true; true == false; true++) \x7b \x7d").meaning
      Settings.standard.meaningOptions).problems = [] := by
  decide +kernel

end Scope

end LessonCheck
