import LessonCheck.Meaning.Declaration
import LessonCheck.Meaning.Usage
import LessonCheck.Proofs.Token.Survey

/-!
What a program without problems has declared. A scope only grows, and the entry of a name stays what
its first declaration made it, so a program in which no declaration is reported has every declared
name in its scope with the type it was declared with, and one in which no use is reported has every
used name there.
-/

namespace LessonCheck

namespace Tokens

/-- The variable that a declaration at `t` declares, given the tokens behind. -/
def declaration? (t : Token) (rest : Tokens) : Option (String × VariableType) :=
  match t.typeNamed?, rest with
  | some declared, name :: _ =>
    if name.kind = .identifier then some (name.lexeme, declared) else none
  | _, _ => none

/-- All variables that the tokens declare, in reading order and with repetitions. -/
def declarations : Tokens → List (String × VariableType)
  | [] => []
  | t :: rest => (declaration? t rest).toList ++ declarations rest

/-- A token that is no name completes no declaration. -/
theorem declarations_concat {t : Token} (h : t.kind ≠ .identifier) (ts : Tokens) :
    declarations (ts ++ [t]) = declarations ts := by
  induction ts with
  | nil => cases htype : t.typeNamed? <;> simp [declarations, declaration?, htype]
  | cons u us ih =>
      have hhere : declaration? u (us ++ [t]) = declaration? u us := by
        cases us <;> cases htype : u.typeNamed? <;> simp [declaration?, htype, h]
      rw [List.cons_append, declarations, hhere, ih, declarations]

end Tokens

namespace Scope

/-- The names of the scope with their types, in the order of declaration. -/
def signature (scope : Scope) : List (String × VariableType) :=
  scope.entries.map fun v => (v.name, v.type)

theorem signature_add (scope : Scope) (v : Variable) (free : scope.lookup? v.name = none) :
    (scope.add v free).signature = scope.signature ++ [(v.name, v.type)] := by
  simp [signature, add]

theorem lookup?_eq_none_of_signature {scope : Scope} {name : String}
    (h : name ∉ scope.signature.map Prod.fst) : scope.lookup? name = none := by
  rw [lookup?_eq_none_iff]
  simpa [signature] using h

theorem lookup?_add_self (scope : Scope) (v : Variable) (free : scope.lookup? v.name = none) :
    (scope.add v free).lookup? v.name = some v := by
  have hfree : scope.entries.find? (·.name == v.name) = none := free
  simp [lookup?, add, List.find?_append, hfree]

/-- An entry stays when a name is added. -/
theorem lookup?_add_of_some {scope : Scope} {name : String} {found : Variable} (v : Variable)
    (free : scope.lookup? v.name = none) (h : scope.lookup? name = some found) :
    (scope.add v free).lookup? name = some found := by
  have hfound : scope.entries.find? (·.name == name) = some found := h
  simp [lookup?, add, List.find?_append, hfound]

theorem declareName_of_some {scope : Scope} {name : Token} {existing : Variable}
    (h : scope.lookup? name.lexeme = some existing) (declared : VariableType) (ts : Tokens) :
    scope.declareName declared name ts =
      ⟨scope, [⟨name.location, .alreadyDeclared name.lexeme existing.line⟩]⟩ := by
  unfold declareName
  split
  · next found hfound =>
      obtain rfl : existing = found := by simpa [h] using hfound
      rfl
  · next hfree => simp [h] at hfree

theorem declareName_of_none {scope : Scope} {name : Token}
    (h : scope.lookup? name.lexeme = none) (declared : VariableType) (ts : Tokens) :
    scope.declareName declared name ts =
      ⟨scope.add ⟨name.lexeme, declared, (scope.initialValue name.lexeme declared ts).literal?,
          name.location.line⟩ h,
        (scope.initialValue name.lexeme declared ts).errors.map (·.map .value)⟩ := by
  unfold declareName
  split
  · next found hfound => simp [h] at hfound
  · rfl

theorem declareAt_of_none {t : Token} {rest : Tokens} (h : Tokens.declaration? t rest = none)
    (scope : Scope) : scope.declareAt t rest = ⟨scope, []⟩ := by
  unfold Tokens.declaration? at h
  unfold declareAt
  split
  · next declared name ts htype =>
      simp only [htype] at h
      split at h
      · cases h
      · next hkind => rw [if_neg hkind]
  · rfl

theorem declareAt_of_typeNamed? {t name : Token} {declared : VariableType}
    (htype : t.typeNamed? = some declared) (hname : name.kind = .identifier) (scope : Scope)
    (ts : Tokens) : scope.declareAt t (name :: ts) = scope.declareName declared name ts := by
  simp only [declareAt, htype, hname, if_true]

/-- A declaration takes effect if its name is free. -/
theorem declareAt_of_free {scope : Scope} {t name : Token} {declared : VariableType}
    (htype : t.typeNamed? = some declared) (hname : name.kind = .identifier)
    (hfree : scope.lookup? name.lexeme = none) (ts : Tokens) :
    (scope.declareAt t (name :: ts)).scope.signature =
        scope.signature ++ [(name.lexeme, declared)] ∧
      (scope.declareAt t (name :: ts)).problems =
        (scope.initialValue name.lexeme declared ts).errors.map (·.map .value) := by
  simp only [declareAt_of_typeNamed? htype hname, declareName_of_none hfree, and_true]
  exact signature_add _ _ _

theorem lookup?_declareName_of_some {scope : Scope} {name : String} {found : Variable}
    (declared : VariableType) (t : Token) (ts : Tokens) (h : scope.lookup? name = some found) :
    (scope.declareName declared t ts).scope.lookup? name = some found := by
  cases hname : scope.lookup? t.lexeme with
  | none =>
      rw [declareName_of_none hname]
      exact lookup?_add_of_some _ hname h
  | some existing =>
      rw [declareName_of_some hname]
      exact h

theorem lookup?_declareAt_of_some {scope : Scope} {name : String} {found : Variable}
    (t : Token) (rest : Tokens) (h : scope.lookup? name = some found) :
    (scope.declareAt t rest).scope.lookup? name = some found := by
  unfold declareAt
  split
  · split
    · exact lookup?_declareName_of_some _ _ _ h
    · exact h
  · exact h

/-- No later declaration changes an entry. -/
theorem lookup?_declareAll_of_some {scope : Scope} {name : String} {found : Variable}
    (ts : Tokens) (h : scope.lookup? name = some found) :
    (scope.declareAll ts).scope.lookup? name = some found := by
  induction ts generalizing scope with
  | nil => exact h
  | cons t rest ih => exact ih (lookup?_declareAt_of_some t rest h)

/-- A declaration that is not reported puts the name into the scope with its type. -/
theorem lookup?_declareName {scope : Scope} {declared : VariableType} {name : Token} {ts : Tokens}
    (h : (scope.declareName declared name ts).problems = []) :
    ∃ v, (scope.declareName declared name ts).scope.lookup? name.lexeme = some v ∧
      v.type = declared := by
  cases hname : scope.lookup? name.lexeme with
  | none =>
      rw [declareName_of_none hname]
      exact ⟨_, lookup?_add_self scope _ hname, rfl⟩
  | some existing =>
      rw [declareName_of_some hname] at h
      cases h

/-- A declaration that is not reported has an initial value that is not refused. -/
theorem errors_initialValue_of_declareName {scope : Scope} {declared : VariableType} {name : Token}
    {ts : Tokens} (h : (scope.declareName declared name ts).problems = []) :
    (scope.initialValue name.lexeme declared ts).errors = [] := by
  cases hname : scope.lookup? name.lexeme with
  | none =>
      rw [declareName_of_none hname] at h
      exact List.map_eq_nil_iff.mp h
  | some existing =>
      rw [declareName_of_some hname] at h
      cases h

/-- Without a reported declaration, the type keyword in front of a name is the type of the name. -/
theorem lookup?_declareAll {scope : Scope} {ts front rest : Tokens} {type name : Token}
    {declared : VariableType} (h : (scope.declareAll ts).problems = [])
    (hts : ts = front ++ type :: name :: rest) (htype : type.typeNamed? = some declared)
    (hname : name.kind = .identifier) :
    ∃ v, (scope.declareAll ts).scope.lookup? name.lexeme = some v ∧ v.type = declared := by
  induction front generalizing scope ts with
  | nil =>
      subst hts
      have hat := declareAt_of_typeNamed? htype hname scope rest
      have hfirst := (List.append_eq_nil_iff.mp h).1
      rw [hat] at hfirst
      obtain ⟨v, hv, hvtype⟩ := lookup?_declareName hfirst
      refine ⟨v, ?_, hvtype⟩
      exact lookup?_declareAll_of_some (name :: rest) (by rw [hat, hv])
  | cons t front ih =>
      subst hts
      obtain ⟨v, hv, hvtype⟩ := ih (List.append_eq_nil_iff.mp h).2 rfl
      exact ⟨v, hv, hvtype⟩

/-! ### The scope on the way -/

/-- The scope that the declarations beginning in `front` lead to, if `rest` stands behind. -/
def declareFront (scope : Scope) : Tokens → Tokens → Scope
  | [], _ => scope
  | t :: front, rest => (scope.declareAt t (front ++ rest)).scope.declareFront front rest

/-- The declarations of the tokens behind go on from there, to the same scope in the end. -/
theorem scope_declareAll_append (scope : Scope) (front rest : Tokens) :
    (scope.declareAll (front ++ rest)).scope =
      ((scope.declareFront front rest).declareAll rest).scope := by
  induction front generalizing scope with
  | nil => rfl
  | cons t front ih => exact ih _

theorem problems_declareAll_append {scope : Scope} {front rest : Tokens}
    (h : (scope.declareAll (front ++ rest)).problems = []) :
    ((scope.declareFront front rest).declareAll rest).problems = [] := by
  induction front generalizing scope with
  | nil => exact h
  | cons t front ih => exact ih (List.append_eq_nil_iff.mp h).2

theorem lookup?_declareFront_of_some {scope : Scope} {name : String} {found : Variable}
    (front rest : Tokens) (h : scope.lookup? name = some found) :
    (scope.declareFront front rest).lookup? name = some found := by
  induction front generalizing scope with
  | nil => exact h
  | cons t front ih => exact ih (lookup?_declareAt_of_some t _ h)

/-- A declaration leaves its name in the scope, be it a new one or not. -/
theorem exists_lookup?_declareAt {t : Token} {ts : Tokens} {name : String} {T : VariableType}
    (scope : Scope) (h : Tokens.declaration? t ts = some (name, T)) (rest : Tokens) :
    ∃ v, (scope.declareAt t (ts ++ rest)).scope.lookup? name = some v := by
  unfold Tokens.declaration? at h
  split at h
  · next declared nameToken behind htype =>
      split at h
      · next hkind =>
          cases h
          rw [List.cons_append, declareAt_of_typeNamed? htype hkind]
          cases hfound : scope.lookup? nameToken.lexeme with
          | none =>
              rw [declareName_of_none hfound]
              exact ⟨_, lookup?_add_self scope _ hfound⟩
          | some v =>
              rw [declareName_of_some hfound]
              exact ⟨v, hfound⟩
      · cases h
  · cases h

theorem exists_lookup?_declareFront {front : Tokens} {name : String}
    (h : name ∈ (Tokens.declarations front).map Prod.fst) (scope : Scope) (rest : Tokens) :
    ∃ v, (scope.declareFront front rest).lookup? name = some v := by
  induction front generalizing scope with
  | nil => cases h
  | cons t front ih =>
      rw [Tokens.declarations, List.map_append, List.mem_append] at h
      rcases h with hhere | hbehind
      · obtain ⟨⟨declared, T⟩, hmem, rfl⟩ := List.mem_map.mp hhere
        obtain ⟨v, hv⟩ := exists_lookup?_declareAt scope (Option.mem_toList.mp hmem) rest
        exact ⟨v, lookup?_declareFront_of_some front rest hv⟩
      · exact ih hbehind _

/-- Without a reported use, every used name is in the scope. -/
theorem lookup?_of_isUse {scope : Scope} {ts front rest : Tokens} {t : Token}
    (h : scope.usageProblems ts = []) (hts : ts = front ++ t :: rest)
    (huse : t.isUse front.getLast? = true) : ∃ v, scope.lookup? t.lexeme = some v := by
  have hplace := Tokens.eq_nil_of_survey h hts
  rw [if_pos huse] at hplace
  unfold useProblems at hplace
  split at hplace
  · cases hplace
  · next v hv => exact ⟨v, hv⟩

end Scope

end LessonCheck
