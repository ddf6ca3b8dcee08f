import LessonCheck.Proofs.Meaning.Sites

/-!
What the pass over the declarations leaves behind. Each declaration either finds its name free and
adds an entry, or is reported with the line of the entry that holds the name; so the entries and the
reports together are as many as the declarations. Which of the two comes about is settled by what
stands in front, which makes the first declaration of a name the one that counts.
-/

namespace LessonCheck

namespace Tokens

/-- The first declaration of a name: no other one of the name stands in front of it. -/
structure FirstDeclaresAt (ts : Tokens) (i : Nat) (declared : VariableType) (name : Token) : Prop
    extends ts.DeclaresAt i declared name where
  first (j : Nat) (other : VariableType) (earlier : Token) :
    j < i → ts.DeclaresAt j other earlier → earlier.lexeme ≠ name.lexeme

/-- The positions at which a variable is declared, in reading order. -/
def declarationSites (ts : Tokens) : List Nat :=
  (List.range ts.length).filter fun i =>
    ts[i]?.any Token.isTypeKeyword && ts.hasKindAt (i + 1) .identifier

theorem mem_declarationSites {ts : Tokens} {i : Nat} :
    i ∈ ts.declarationSites ↔ ∃ declared name, ts.DeclaresAt i declared name := by
  rw [declarationSites, List.mem_filter, List.mem_range, Bool.and_eq_true, hasKindAt_iff]
  constructor
  · rintro ⟨-, htype, name, hname, hkind⟩
    obtain ⟨t, ht, htype⟩ := (Option.any_eq_true _ _).mp htype
    obtain ⟨declared, htype⟩ := Option.isSome_iff_exists.mp htype
    exact ⟨declared, name, by rw [ht]; exact htype, hname, hkind⟩
  · rintro ⟨declared, name, htype, hname, hkind⟩
    obtain ⟨t, ht, htype⟩ := Option.bind_eq_some_iff.mp htype
    exact ⟨(List.getElem?_eq_some_iff.mp ht).1, by simp [ht, Token.isTypeKeyword, htype], name,
      hname, hkind⟩

theorem declarationSites_cons (t : Token) (rest : Tokens) :
    declarationSites (t :: rest) =
      (if t.isTypeKeyword && hasKindAt rest 0 .identifier then [0] else []) ++
        rest.declarationSites.map (· + 1) := by
  rw [declarationSites, List.length_cons, List.range_succ_eq_map, List.filter_cons, List.filter_map,
    declarationSites]
  have hhere : hasKindAt (t :: rest) (0 + 1) .identifier = hasKindAt rest 0 .identifier := rfl
  simp only [List.getElem?_cons_zero, Option.any_some, hhere]
  split <;> rfl

/-- Whether a variable is declared at the first token. -/
theorem declaresFirst_iff {t : Token} {rest : Tokens} :
    (t.isTypeKeyword && hasKindAt rest 0 .identifier) = true ↔
      ∃ declared name, DeclaresAt (t :: rest) 0 declared name := by
  rw [← mem_declarationSites, declarationSites_cons]
  split <;> simp_all

theorem declaresFirst_eq_false {t : Token} {rest : Tokens}
    (h : ∀ declared name, ¬ DeclaresAt (t :: rest) 0 declared name) :
    ¬ (t.isTypeKeyword && hasKindAt rest 0 .identifier) = true := by
  rw [declaresFirst_iff]
  rintro ⟨declared, name, hname⟩
  exact h declared name hname

end Tokens

namespace DeclarationProblem

def isAlreadyDeclared : DeclarationProblem → Bool
  | .alreadyDeclared .. => true
  | .value _ => false

end DeclarationProblem

namespace Scope

variable {scope : Scope} {ts : Tokens} {n : String}

theorem size_add (scope : Scope) (v : Variable) (free : scope.lookup? v.name = none) :
    (scope.add v free).size = scope.size + 1 := by
  simp [size, add]

/-! ### New entries -/

/-- A new entry is that of the first declaration of its name. -/
theorem exists_firstDeclaresAt {v : Variable} (hnew : scope.lookup? n = none)
    (h : (scope.declareAll ts).scope.lookup? n = some v) :
    ∃ i name, ts.FirstDeclaresAt i v.type name ∧ name.lexeme = n ∧ v.line = name.location.line ∧
      ∀ l, v.value = some l ↔ ts.InitializesAt i v.type name l := by
  induction ts generalizing scope with
  | nil => simp [declareAll, hnew] at h
  | cons t rest ih =>
      cases hstep : (scope.declareAt t rest).scope.lookup? n with
      | none =>
          obtain ⟨i, name, hname, hlexeme, hline, hvalue⟩ := ih hstep h
          refine ⟨i + 1, name, ⟨Tokens.declaresAt_succ.mpr hname.toDeclaresAt, ?_⟩, hlexeme, hline,
            hvalue⟩
          intro j other earlier hj hearlier
          cases j with
          | zero =>
              rw [hlexeme]
              exact (lookup?_declareAt_eq_none_iff.mp hstep).2 other earlier hearlier
          | succ j =>
              exact hname.first j other earlier (Nat.lt_of_succ_lt_succ hj)
                (Tokens.declaresAt_succ.mp hearlier)
      | some w =>
          obtain rfl : w = v := by
            have hkept := lookup?_declareAll_of_some rest hstep
            exact Option.some.inj (hkept.symm.trans h)
          have hone := declares scope t rest
          generalize scope.declareAt t rest = step at hstep hone
          cases hone with
          | nothing => simp [hnew] at hstep
          | taken => simp [hnew] at hstep
          | @new declared name value errors hname hvalue hfree =>
              rw [lookup?_add, hnew, Option.none_or] at hstep
              split at hstep
              · next hlexeme =>
                  cases hstep
                  exact ⟨0, name, ⟨hname, fun j _ _ hj => absurd hj (Nat.not_lt_zero j)⟩, hlexeme,
                    rfl, hvalue⟩
              · cases hstep

/-- One step adds an entry, reports one too many, or does neither, where nothing is declared. -/
theorem countP_problems_declareAt {t : Token} {rest : Tokens} :
    (scope.declareAt t rest).problems.countP (·.problem.isAlreadyDeclared) +
        (scope.declareAt t rest).scope.size =
      scope.size + if t.isTypeKeyword && Tokens.hasKindAt rest 0 .identifier then 1 else 0 := by
  have hstep := declares scope t rest
  generalize scope.declareAt t rest = step at hstep ⊢
  cases hstep with
  | nothing hnothing =>
      rw [if_neg (Tokens.declaresFirst_eq_false hnothing)]
      simp
  | taken hname =>
      rw [if_pos (Tokens.declaresFirst_iff.mpr ⟨_, _, hname⟩)]
      simp [DeclarationProblem.isAlreadyDeclared, Nat.add_comm]
  | @new declared name value errors hname =>
      have hnone : (errors.map (Located.map DeclarationProblem.value)).countP
          (·.problem.isAlreadyDeclared) = 0 := by
        simp [List.countP_eq_zero, Located.map, DeclarationProblem.isAlreadyDeclared]
      rw [if_pos (Tokens.declaresFirst_iff.mpr ⟨_, _, hname⟩), size_add, hnone, Nat.zero_add]

/-- The entries added and the declarations reported are together all declarations. -/
theorem countP_problems_declareAll :
    (scope.declareAll ts).problems.countP (·.problem.isAlreadyDeclared) +
      (scope.declareAll ts).scope.size = scope.size + ts.declarationSites.length := by
  induction ts generalizing scope with
  | nil => simp [declareAll, Tokens.declarationSites]
  | cons t rest ih =>
      have hhere := @countP_problems_declareAt scope t rest
      have hbehind := @ih (scope.declareAt t rest).scope
      have hsites : (Tokens.declarationSites (t :: rest)).length =
          (if t.isTypeKeyword && Tokens.hasKindAt rest 0 .identifier then 1 else 0) +
            (Tokens.declarationSites rest).length := by
        rw [Tokens.declarationSites_cons, List.length_append, List.length_map]
        split <;> rfl
      have hproblems : (scope.declareAll (t :: rest)).problems =
          (scope.declareAt t rest).problems ++
            ((scope.declareAt t rest).scope.declareAll rest).problems := rfl
      have hscope : (scope.declareAll (t :: rest)).scope =
          ((scope.declareAt t rest).scope.declareAll rest).scope := rfl
      rw [hproblems, List.countP_append, hscope, hsites]
      omega

theorem size_le_declareAll : scope.size ≤ (scope.declareAll ts).scope.size := by
  induction ts generalizing scope with
  | nil => exact Nat.le_refl _
  | cons t rest ih =>
      refine Nat.le_trans ?_ ih
      have hstep := declares scope t rest
      generalize scope.declareAt t rest = step at hstep ⊢
      cases hstep with
      | nothing => exact Nat.le_refl _
      | taken => exact Nat.le_refl _
      | new =>
          rw [size_add]
          exact Nat.le_succ _

/-- A declaration that is reported as one too many names the line of the entry that is in force,
then and in the end. -/
theorem line_of_alreadyDeclared {p : Located DeclarationProblem} {line : Nat}
    (h : p ∈ (scope.declareAll ts).problems) (hp : p.problem = .alreadyDeclared n line) :
    ∃ v, (scope.declareAll ts).scope.lookup? n = some v ∧ v.line = line := by
  induction ts generalizing scope with
  | nil => cases h
  | cons t rest ih =>
      rcases List.mem_append.mp h with hhere | hbehind
      · obtain ⟨v, hv, hline⟩ : ∃ v, (scope.declareAt t rest).scope.lookup? n = some v ∧
            v.line = line := by
          have hstep := declares scope t rest
          generalize scope.declareAt t rest = step at hstep hhere ⊢
          cases hstep with
          | nothing => cases hhere
          | @taken declared name existing hname hexisting =>
              obtain rfl := List.mem_singleton.mp hhere
              cases hp
              exact ⟨existing, hexisting, rfl⟩
          | new =>
              obtain ⟨q, -, rfl⟩ := List.mem_map.mp hhere
              cases hp
        exact ⟨v, lookup?_declareAll_of_some rest hv, hline⟩
      · exact ih hbehind

/-- Where all names are taken, the pass changes nothing and has nothing else to report. -/
theorem declareAll_of_taken
    (h : ∀ i declared name, ts.DeclaresAt i declared name → scope.lookup? name.lexeme ≠ none) :
    (scope.declareAll ts).scope = scope ∧
      ∀ p ∈ (scope.declareAll ts).problems, p.problem.isAlreadyDeclared = true := by
  induction ts with
  | nil => exact ⟨rfl, nofun⟩
  | cons t rest ih =>
      obtain ⟨hscope, hproblems⟩ := ih fun i declared name hname =>
        h (i + 1) declared name (Tokens.declaresAt_succ.mpr hname)
      have hstep := declares scope t rest
      rw [declareAll]
      generalize scope.declareAt t rest = step at hstep ⊢
      cases hstep with
      | nothing => exact ⟨hscope, hproblems⟩
      | taken => exact ⟨hscope, List.forall_mem_cons.mpr ⟨rfl, hproblems⟩⟩
      | new hname _ hfree => exact absurd hfree (h 0 _ _ hname)

/-! ### The whole pass -/

/-- What the pass over the declarations of `ts` makes of a scope: the first declaration of a name
counts, and every declaration is accounted for. -/
structure FirstWins (scope : Scope) (ts : Tokens) : Prop where
  kept (n : String) (v : Variable) : scope.lookup? n = some v →
    (scope.declareAll ts).scope.lookup? n = some v
  names (n : String) : (scope.declareAll ts).scope.contains n = true ↔
    scope.contains n = true ∨ ∃ i declared name, ts.DeclaresAt i declared name ∧ name.lexeme = n
  /-- A name that was not known has the type and the line of its first declaration, and a value if
  and only if that declaration gives it a literal that fits. -/
  entry (n : String) (v : Variable) : scope.lookup? n = none →
    (scope.declareAll ts).scope.lookup? n = some v → v.name = n ∧ ∃ i name,
      ts.FirstDeclaresAt i v.type name ∧ name.lexeme = n ∧ v.line = name.location.line ∧
      ∀ l, v.value = some l ↔ ts.InitializesAt i v.type name l
  grows : scope.size ≤ (scope.declareAll ts).scope.size
  /-- Of the declarations, those that have not added an entry are reported. -/
  reported : (scope.declareAll ts).problems.countP (·.problem.isAlreadyDeclared) =
    ts.declarationSites.length - ((scope.declareAll ts).scope.size - scope.size)
  inForce (p : Located DeclarationProblem) (n : String) (line : Nat) :
    p ∈ (scope.declareAll ts).problems → p.problem = .alreadyDeclared n line →
    ∃ v, (scope.declareAll ts).scope.lookup? n = some v ∧ v.line = line
  /-- A second pass changes nothing and reports every declaration. -/
  again : ((scope.declareAll ts).scope.declareAll ts).scope = (scope.declareAll ts).scope
  reportedAgain :
    ((scope.declareAll ts).scope.declareAll ts).problems.length = ts.declarationSites.length ∧
    ∀ p ∈ ((scope.declareAll ts).scope.declareAll ts).problems,
      p.problem.isAlreadyDeclared = true

/-- Whatever the tokens are and whatever is known before, the first declaration of a name wins. -/
theorem firstWins_declareAll (scope : Scope) (ts : Tokens) : scope.FirstWins ts := by
  have hcount := @countP_problems_declareAll scope ts
  have hgrows := @size_le_declareAll scope ts
  have htaken (i : Nat) (declared : VariableType) (name : Token)
      (hname : ts.DeclaresAt i declared name) :
      (scope.declareAll ts).scope.lookup? name.lexeme ≠ none := by
    intro hnone
    exact (lookup?_declareAll_eq_none_iff.mp hnone).2 i declared name hname rfl
  obtain ⟨hagain, hall⟩ := declareAll_of_taken htaken
  refine {
    kept := fun n v hv => lookup?_declareAll_of_some ts hv
    names := ?_
    entry := ?_
    grows := hgrows
    reported := by omega
    inForce := fun p n line hp hproblem => line_of_alreadyDeclared hp hproblem
    again := hagain
    reportedAgain := ⟨?_, hall⟩ }
  · intro n
    have hnone := @lookup?_declareAll_eq_none_iff scope ts n
    simp only [contains, Option.isSome_iff_ne_none, ne_eq, hnone]
    grind
  · intro n v hnew hv
    exact ⟨by simpa using List.find?_some hv, exists_firstDeclaresAt hnew hv⟩
  · have hcountAgain := @countP_problems_declareAll (scope.declareAll ts).scope ts
    rw [hagain, List.countP_eq_length.mpr hall] at hcountAgain
    omega

end Scope

end LessonCheck
