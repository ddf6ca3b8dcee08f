import LessonCheck.Meaning.Check
import LessonCheck.Proofs.Form.Relabel
import LessonCheck.Proofs.Meaning.Declared

/-!
Other names for the variables of a program. A renaming never merges two names and leaves alone the
names that mean something by themselves. A look-up under the new name finds what a look-up under the
old one found, and a value is accepted or refused as before.
-/

namespace LessonCheck

open Located

/-- New names for the variables. -/
structure Renaming where
  apply : String → String
  injective : Function.Injective apply
  reserved (word : String) : Vocabulary.isReserved word = true → apply word = word
  /-- What is no method of a string does not become one, nor the other way round. -/
  methods (word : String) :
    Vocabulary.isStringMethod (apply word) = Vocabulary.isStringMethod word

namespace Renaming

variable (r : Renaming)

theorem apply_beq (a b : String) : (r.apply a == r.apply b) = (a == b) :=
  beq_eq_beq.mpr ⟨fun h => r.injective h, congrArg r.apply⟩

theorem apply_eq_iff {word : String} (hword : Vocabulary.isReserved word = true) (name : String) :
    r.apply name = word ↔ name = word := by
  constructor
  · intro h
    apply r.injective
    rw [h, r.reserved word hword]
  · rintro rfl
    exact r.reserved name hword

theorem isReserved_apply (name : String) :
    Vocabulary.isReserved (r.apply name) = Vocabulary.isReserved name := by
  rw [Bool.eq_iff_iff]
  constructor
  · intro h
    rwa [← (r.apply_eq_iff h name).mp rfl] at h
  · intro h
    rwa [r.reserved name h]

/-- Two names exchange their places. -/
def swap (a b : String) (ha : Vocabulary.isReserved a = false)
    (hb : Vocabulary.isReserved b = false)
    (hmethods : Vocabulary.isStringMethod a = Vocabulary.isStringMethod b) : Renaming where
  apply word := if word = a then b else if word = b then a else word
  injective := by
    intro u v h
    grind
  reserved word hword := by
    have hwa : word ≠ a := by
      rintro rfl
      simp [ha] at hword
    have hwb : word ≠ b := by
      rintro rfl
      simp [hb] at hword
    simp [hwa, hwb]
  methods word := by
    by_cases hwa : word = a
    · simp [hwa, hmethods]
    · by_cases hwb : word = b
      · rw [if_neg hwa, if_pos hwb, hmethods, hwb]
      · simp [hwa, hwb]

/-- The new text of a token: identifiers alone are renamed. -/
def text (t : Token) : String := if t.kind = .identifier then r.apply t.lexeme else t.lexeme

theorem text_of_identifier {t : Token} (h : t.kind = .identifier) :
    r.text t = r.apply t.lexeme := if_pos h

theorem text_of_ne {t : Token} (h : t.kind ≠ .identifier) : r.text t = t.lexeme := if_neg h

theorem keepsWords : Token.KeepsWords r.text where
  words t h := by
    apply r.text_of_ne
    intro hkind
    simp [hkind] at h
  names t word hkind hword := by
    rw [r.text_of_identifier hkind]
    exact r.apply_eq_iff hword t.lexeme

/-- The program under the new names. -/
def tokens (ts : Tokens) : Tokens := ts.map (Token.relabel r.text)

theorem tokens_drop (n : Nat) (ts : Tokens) : (r.tokens ts).drop n = r.tokens (ts.drop n) :=
  List.map_drop.symm

/-- An operator in front is the same operator. -/
theorem isOperator_tokens (ts : Tokens) (symbol : String) :
    (r.tokens ts)[0]?.any (·.isOperator symbol) = ts[0]?.any (·.isOperator symbol) := by
  simp only [tokens, List.getElem?_map, Option.any_map, r.keepsWords.isOperator]

theorem isReference (t : Token) : (t.relabel r.text).isReference = t.isReference := by
  by_cases hkind : t.kind = .identifier
  · simp [Token.isReference, hkind, r.text_of_identifier hkind, r.isReserved_apply]
  · simp [Token.isReference, hkind]

end Renaming

variable (r : Renaming)

/-! ### Scopes -/

def Variable.rename (v : Variable) : Variable := { v with name := r.apply v.name }

namespace Scope

def rename (scope : Scope) : Scope where
  entries := scope.entries.map (Variable.rename r)
  distinct := by
    have hnames : ((scope.entries.map (·.name)).map r.apply).Nodup :=
      List.Pairwise.map r.apply (fun a b hab h => hab (r.injective h)) scope.distinct
    rw [List.map_map] at hnames ⊢
    exact hnames

theorem eq_of_entries {a b : Scope} (h : a.entries = b.entries) : a = b := by
  cases a
  cases b
  cases h
  rfl

theorem lookup?_rename (scope : Scope) (name : String) :
    (scope.rename r).lookup? (r.apply name) = (scope.lookup? name).map (Variable.rename r) := by
  unfold lookup? rename
  rw [List.find?_map]
  congr 2
  funext v
  exact r.apply_beq v.name name

end Scope

/-! ### Values -/

/-- Which literal a token is depends on its text only where this is no name, or a reserved one. -/
theorem Literal.toOption_ofToken_rename (name name' : String) (declared : VariableType)
    (t : Token) :
    (ofToken name' declared (t.relabel r.text)).toOption = (ofToken name declared t).toOption := by
  unfold ofToken
  by_cases hkind : t.kind = declared.literalKind
  · have hread : read? declared (r.text t) = read? declared t.lexeme := by
      by_cases hname : t.kind = .identifier
      · have hboolean : declared = .boolean := by
          cases declared <;> simp [hname, VariableType.literalKind] at hkind ⊢
        have htrue := r.apply_eq_iff (show Vocabulary.isReserved "true" = true by decide) t.lexeme
        have hfalse := r.apply_eq_iff (show Vocabulary.isReserved "false" = true by decide) t.lexeme
        simp [hboolean, read?, r.text_of_identifier hname, htrue, hfalse]
      · rw [r.text_of_ne hname]
    simp only [Token.kind_relabel, Token.lexeme_relabel, hkind, if_true, hread]
    cases read? declared t.lexeme <;> rfl
  · simp [hkind, Except.toOption]

/-- The same literal, or a refusal at the same place. -/
structure AssignedValue.Alike (a b : AssignedValue) : Prop where
  literal : a.literal? = b.literal?
  errors : locations a.errors = locations b.errors

theorem AssignedValue.ofTokens_rename (scope : Scope) (name : String) (declared : VariableType)
    (ts : Tokens) :
    (ofTokens (scope.rename r) (r.apply name) declared (r.tokens ts)).Alike
      (ofTokens scope name declared ts) := by
  cases ts with
  | nil => exact ⟨rfl, rfl⟩
  | cons value rest =>
      have hbehind : (rest.map (Token.relabel r.text))[0]?.any
          (fun t => t.kind = .dot || t.kind = .lparen) =
            rest[0]?.any (fun t => t.kind = .dot || t.kind = .lparen) := by
        rw [List.getElem?_map, Option.any_map]
        rfl
      simp only [Renaming.tokens, List.map_cons, ofTokens, Token.kind_relabel, r.isReference,
        hbehind]
      split
      · exact ⟨rfl, rfl⟩
      · split
        · next hreference =>
            split
            · exact ⟨rfl, rfl⟩
            · have hkind := Token.kind_of_isReference hreference
              rw [Token.lexeme_relabel, r.text_of_identifier hkind, Scope.lookup?_rename]
              cases scope.lookup? value.lexeme with
              | none => exact ⟨rfl, rfl⟩
              | some source =>
                  by_cases haccepts : declared.accepts source.type = true
                  · simp only [Option.map_some, Variable.checkAccepted, Variable.rename, haccepts]
                    exact ⟨rfl, rfl⟩
                  · simp only [Option.map_some, Variable.checkAccepted, Variable.rename, haccepts]
                    exact ⟨rfl, rfl⟩
        · have hliteral := Literal.toOption_ofToken_rename r name (r.apply name) declared value
          cases hold : Literal.ofToken name declared value <;>
            cases hnew : Literal.ofToken (r.apply name) declared (value.relabel r.text) <;>
            rw [hold, hnew] at hliteral
          case ok.ok =>
            cases hliteral
            exact ⟨rfl, rfl⟩
          case error.error => exact ⟨rfl, rfl⟩
          all_goals cases hliteral

end LessonCheck
