import LessonCheck.Proofs.Meaning.Declared

/-!
Declarations by their places. A variable is declared wherever a type keyword stands with a name
behind it, and all that one step of the pass over the declarations can do is: nothing, where none is
declared; a report, where the name is taken; or a new entry. Later facts about the pass are read off
these three cases, so that none of them opens the step itself. The first such fact stands at the
end: which names are known when the pass is through.
-/

namespace LessonCheck

namespace Tokens

/-- At position `i` a variable is declared: a type keyword stands there and its name behind. -/
structure DeclaresAt (ts : Tokens) (i : Nat) (declared : VariableType) (name : Token) : Prop where
  type_here : ts[i]?.bind Token.typeNamed? = some declared
  name_behind : ts[i + 1]? = some name
  kind_name : name.kind = .identifier

/-- The declaration at position `i` gives its variable the literal `l`: an equals sign follows the
name, and the token behind it is no broken literal, names no variable and reads as `l`. -/
def InitializesAt (ts : Tokens) (i : Nat) (declared : VariableType) (name : Token) (l : Literal) :
    Prop :=
  ts.hasOperatorAt (i + 2) "=" = true ∧ ∃ value, ts[i + 3]? = some value ∧
    value.kind.isFaulty = false ∧ value.isReference = false ∧
    Literal.ofToken name.lexeme declared value = .ok l

section
variable {t : Token} {rest : Tokens} {i : Nat} {declared : VariableType} {name : Token}

theorem declaresAt_zero : DeclaresAt (t :: rest) 0 declared name ↔
    t.typeNamed? = some declared ∧ rest[0]? = some name ∧ name.kind = .identifier :=
  ⟨fun ⟨htype, hname, hkind⟩ => ⟨htype, hname, hkind⟩,
    fun ⟨htype, hname, hkind⟩ => ⟨htype, hname, hkind⟩⟩

theorem declaresAt_succ :
    DeclaresAt (t :: rest) (i + 1) declared name ↔ DeclaresAt rest i declared name :=
  ⟨fun ⟨htype, hname, hkind⟩ => ⟨htype, hname, hkind⟩,
    fun ⟨htype, hname, hkind⟩ => ⟨htype, hname, hkind⟩⟩

theorem declaration?_eq_some_iff {n : String} :
    declaration? t rest = some (n, declared) ↔
      ∃ name, DeclaresAt (t :: rest) 0 declared name ∧ name.lexeme = n := by
  unfold declaration?
  constructor
  · intro h
    split at h
    · next here first ts htype =>
        split at h
        · next hkind =>
            cases h
            exact ⟨first, declaresAt_zero.mpr ⟨htype, rfl, hkind⟩, rfl⟩
        · cases h
    · cases h
  · rintro ⟨name, hname, rfl⟩
    obtain ⟨htype, hbehind, hkind⟩ := declaresAt_zero.mp hname
    cases rest with
    | nil => cases hbehind
    | cons first ts =>
        cases hbehind
        simp [htype, hkind]

end

end Tokens

/-! ### One declaration -/

namespace AssignedValue

variable {scope : Scope} {name : String} {T : VariableType} {value : Token} {rest ts : Tokens}
  {l : Literal}

/-- A value that names a variable, or that the lexer has complained about, is no literal. -/
theorem literal?_ofTokens_of_unread
    (h : value.kind.isFaulty = true ∨ value.isReference = true) :
    (ofTokens scope name T (value :: rest)).literal? = none := by
  unfold ofTokens
  dsimp only
  split
  · rfl
  · next hfaulty =>
      rw [if_pos (h.resolve_left hfaulty)]
      split
      · rfl
      · split
        · rfl
        · split <;> rfl

theorem literal?_ofTokens_of_read (hfaulty : value.kind.isFaulty = false)
    (href : value.isReference = false) :
    (ofTokens scope name T (value :: rest)).literal? = (Literal.ofToken name T value).toOption := by
  unfold ofTokens
  simp only [hfaulty, href, Bool.false_eq_true, if_false]
  cases Literal.ofToken name T value <;> rfl

theorem literal?_ofTokens :
    (ofTokens scope name T ts).literal? = some l ↔
      ∃ value, ts[0]? = some value ∧ value.kind.isFaulty = false ∧ value.isReference = false ∧
        Literal.ofToken name T value = .ok l := by
  cases ts with
  | nil => simp [ofTokens, literal?]
  | cons value rest =>
      simp only [List.getElem?_cons_zero, Option.some.injEq, exists_eq_left']
      by_cases hread : value.kind.isFaulty = false ∧ value.isReference = false
      · rw [literal?_ofTokens_of_read hread.1 hread.2]
        simp only [hread, true_and]
        cases Literal.ofToken name T value <;> simp [Except.toOption]
      · rw [literal?_ofTokens_of_unread (by grind)]
        grind

end AssignedValue

namespace Scope

theorem lookup?_add (scope : Scope) (v : Variable) (free : scope.lookup? v.name = none)
    (n : String) : (scope.add v free).lookup? n =
      (scope.lookup? n).or (if v.name = n then some v else none) := by
  simp only [lookup?, add, List.find?_append, List.find?_singleton, beq_iff_eq]

theorem literal?_initialValue {scope : Scope} {n : String} {T : VariableType} {ts : Tokens}
    {l : Literal} :
    (scope.initialValue n T ts).literal? = some l ↔
      ts[0]?.any (·.isOperator "=") = true ∧ ∃ value, ts[1]? = some value ∧
        value.kind.isFaulty = false ∧ value.isReference = false ∧
        Literal.ofToken n T value = .ok l := by
  unfold initialValue
  split
  · next h => simp [AssignedValue.literal?_ofTokens, h]
  · next h => simp [AssignedValue.literal?, h]

/-- All that can come of one step of the pass, at the token `t` with `rest` behind it. -/
inductive Declares (scope : Scope) (t : Token) (rest : Tokens) : Declared → Prop
  | nothing : (∀ declared name, ¬ Tokens.DeclaresAt (t :: rest) 0 declared name) →
      Declares scope t rest ⟨scope, []⟩
  | taken {declared : VariableType} {name : Token} {existing : Variable} :
      Tokens.DeclaresAt (t :: rest) 0 declared name →
      scope.lookup? name.lexeme = some existing →
      Declares scope t rest
        ⟨scope, [⟨name.location, .alreadyDeclared name.lexeme existing.line⟩]⟩
  | new {declared : VariableType} {name : Token} {value : Option Literal}
      {errors : List (Located TypeClash)} :
      Tokens.DeclaresAt (t :: rest) 0 declared name →
      (∀ l, value = some l ↔ Tokens.InitializesAt (t :: rest) 0 declared name l) →
      (free : scope.lookup? name.lexeme = none) →
      Declares scope t rest
        ⟨scope.add ⟨name.lexeme, declared, value, name.location.line⟩ free,
          errors.map (·.map .value)⟩

theorem declares (scope : Scope) (t : Token) (rest : Tokens) :
    Declares scope t rest (scope.declareAt t rest) := by
  cases hhere : Tokens.declaration? t rest with
  | none =>
      rw [declareAt_of_none hhere]
      refine .nothing fun declared name hname => ?_
      have hsome := Tokens.declaration?_eq_some_iff.mpr ⟨name, hname, rfl⟩
      rw [hhere] at hsome
      cases hsome
  | some here =>
      obtain ⟨name, hname, -⟩ := Tokens.declaration?_eq_some_iff.mp hhere
      obtain ⟨htype, hbehind, hkind⟩ := Tokens.declaresAt_zero.mp hname
      obtain ⟨first, ts, rfl⟩ : ∃ first ts, rest = first :: ts :=
        List.exists_cons_of_ne_nil (by rintro rfl; cases hbehind)
      obtain rfl : first = name := by simpa using hbehind
      rw [declareAt_of_typeNamed? htype hkind]
      cases hlookup : scope.lookup? first.lexeme with
      | some existing =>
          rw [declareName_of_some hlookup]
          exact .taken hname hlookup
      | none =>
          rw [declareName_of_none hlookup]
          exact .new hname (fun l => literal?_initialValue) hlookup

variable {scope : Scope} {ts : Tokens} {n : String}

/-- A step makes known the name that is declared there, and no other. -/
theorem lookup?_declareAt_eq_none_iff {t : Token} {rest : Tokens} :
    (scope.declareAt t rest).scope.lookup? n = none ↔ scope.lookup? n = none ∧
      ∀ declared name, Tokens.DeclaresAt (t :: rest) 0 declared name → name.lexeme ≠ n := by
  have hunique {declared declared' : VariableType} {name name' : Token}
      (h : Tokens.DeclaresAt (t :: rest) 0 declared name)
      (h' : Tokens.DeclaresAt (t :: rest) 0 declared' name') : name' = name := by
    simpa [h.name_behind] using h'.name_behind.symm
  have hstep := declares scope t rest
  generalize scope.declareAt t rest = step at hstep ⊢
  cases hstep with
  | nothing hnothing => simp [hnothing]
  | @taken declared name existing hname hexisting =>
      refine ⟨fun h => ⟨h, fun declared' name' hname' heq => ?_⟩, fun h => h.1⟩
      rw [hunique hname hname'] at heq
      simp [← heq, hexisting] at h
  | @new declared name value errors hname hvalue hfree =>
      rw [lookup?_add, Option.or_eq_none_iff]
      refine and_congr_right fun _ => ⟨fun h declared' name' hname' heq => ?_, fun h => ?_⟩
      · rw [hunique hname hname'] at heq
        simp [heq] at h
      · simp [h declared name hname]

/-- In the end exactly the names are known that were known before or are declared. -/
theorem lookup?_declareAll_eq_none_iff :
    (scope.declareAll ts).scope.lookup? n = none ↔ scope.lookup? n = none ∧
      ∀ i declared name, ts.DeclaresAt i declared name → name.lexeme ≠ n := by
  induction ts generalizing scope with
  | nil =>
      have hnone (i : Nat) (declared : VariableType) (name : Token) :
          ¬ Tokens.DeclaresAt [] i declared name := fun h => by cases h.name_behind
      simp [declareAll, hnone]
  | cons t rest ih =>
      refine ih.trans ?_
      rw [lookup?_declareAt_eq_none_iff, and_assoc]
      refine and_congr_right fun _ =>
        ⟨fun ⟨hhere, hbehind⟩ i declared name hname => ?_, fun h => ?_⟩
      · cases i with
        | zero => exact hhere declared name hname
        | succ i => exact hbehind i declared name (Tokens.declaresAt_succ.mp hname)
      · exact ⟨h 0, fun i declared name hname => h (i + 1) declared name
          (Tokens.declaresAt_succ.mpr hname)⟩

end Scope

end LessonCheck
