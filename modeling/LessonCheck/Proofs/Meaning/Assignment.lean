import LessonCheck.Lexing.Tokens
import LessonCheck.Proofs.Meaning.Declared
import LessonCheck.Proofs.Session.Clean

/-!
What a program without problems assigns. A name gets a value in its declaration or later, and two
passes judge that: the declarations by the scope reached so far, the uses by the finished one. Where
neither has found anything, a literal is one that the type of the name accepts, and a variable has a
type that may be stored there. Two things pass unseen, both by design: a reserved name is no
variable wherever it is not being declared, and the initializer of a variable does not look ahead to
what is declared behind it.
-/

namespace LessonCheck

/-- A literal that stands by itself: a number, a text, a character or a truth value. -/
def Token.isConstant (t : Token) : Bool :=
  match t.kind with
  | .number | .float | .string | .char => true
  | .identifier => t.lexeme == "true" || t.lexeme == "false"
  | _ => false

/-- A place of the tokens at which a name, not the member of anything, is given a value. -/
structure Tokens.Assignment (ts : Tokens) where
  front : Tokens
  name : Token
  equals : Token
  value : Token
  rest : Tokens
  split : ts = front ++ name :: equals :: value :: rest
  kind_name : name.kind = .identifier
  isEquals : equals.isOperator "=" = true
  noMember : front.getLast?.any (·.kind = .dot) = false

theorem VariableType.accepts_self (T : VariableType) : T.accepts T = true := by
  cases T <;> rfl

namespace AssignedValue

variable {scope : Scope} {name : String} {T : VariableType} {value : Token} {rest : Tokens}

theorem isReference_of_isConstant (h : value.isConstant = true) :
    value.isReference = false ∧ value.kind.isFaulty = false := by
  unfold Token.isConstant at h
  cases hkind : value.kind <;> rw [hkind] at h <;> try cases h
  case identifier =>
    simp only [Bool.or_eq_true, beq_iff_eq] at h
    rcases h with h | h <;>
      simp [Token.isReference, Token.Kind.isFaulty, h, Vocabulary.isReserved,
        Vocabulary.literalWords]
  all_goals simp [Token.isReference, hkind, Token.Kind.isFaulty]

/-- A literal that is not refused is one of the type. -/
theorem exists_literal_of_errors (h : (ofTokens scope name T (value :: rest)).errors = [])
    (hvalue : value.isConstant = true) : ∃ l, Literal.ofToken name T value = .ok l := by
  obtain ⟨href, hfaulty⟩ := isReference_of_isConstant hvalue
  cases hl : Literal.ofToken name T value with
  | ok l => exact ⟨l, rfl⟩
  | error e => simp [ofTokens, href, hfaulty, hl, errors] at h

/-- A variable that is not refused has a type that the receiving one accepts. -/
theorem accepts_of_errors {source : Variable}
    (h : (ofTokens scope name T (value :: rest)).errors = []) (hvalue : value.isReference = true)
    (hplain : rest[0]?.any (fun t => t.kind = .dot || t.kind = .lparen) = false)
    (hsource : scope.lookup? value.lexeme = some source) : T.accepts source.type = true := by
  have hfaulty : value.kind.isFaulty = false := by
    rw [Token.kind_of_isReference hvalue]
    rfl
  cases haccepts : T.accepts source.type with
  | true => rfl
  | false =>
      simp [ofTokens, hvalue, hfaulty, hplain, hsource, Variable.checkAccepted, haccepts,
        errors] at h

end AssignedValue

namespace Tokens.Assignment

variable {ts : Tokens} {options : MeaningOptions}

/-- The name is declared here, and the value is the initial one. -/
def isInitializer (a : ts.Assignment) : Bool := a.front.getLast?.any Token.isTypeKeyword

/-- What the passes have made sure of: `v` is the variable of the name, and the value was not
refused by a scope that is part of the finished one. For an initializer that is the scope of what is
declared in front of it. -/
structure Judged (a : ts.Assignment) (final : Scope) (v : Variable) (known : Scope) : Prop where
  lookup : final.lookup? a.name.lexeme = some v
  accepted : (AssignedValue.ofTokens known a.name.lexeme v.type (a.value :: a.rest)).errors = []
  kept {name : String} {w : Variable} :
    known.lookup? name = some w → final.lookup? name = some w
  known_of_use : a.isInitializer = false → known = final
  known_of_initializer {name : String} : a.isInitializer = true →
    name ∈ (declarations a.front).map Prod.fst → ∃ w, known.lookup? name = some w

/-- The initializer in a declaration that is not reported has been judged. -/
theorem exists_judged_of_initializer (h : (Scope.empty.declareAll ts).problems = [])
    (a : ts.Assignment) (hinit : a.isInitializer = true) :
    ∃ v known, a.Judged (Scope.empty.declareAll ts).scope v known := by
  obtain ⟨type, hlast, htype⟩ := (Option.any_eq_true _ _).mp hinit
  obtain ⟨T, htype⟩ := Option.isSome_iff_exists.mp htype
  obtain ⟨front, hfront⟩ := List.getLast?_eq_some_iff.mp hlast
  have hts : ts = front ++ type :: a.name :: a.equals :: a.value :: a.rest :=
    a.split.trans (by rw [hfront, List.append_assoc, List.singleton_append])
  obtain ⟨v, hv, hvtype⟩ := Scope.lookup?_declareAll h hts htype a.kind_name
  have hscope := Scope.scope_declareAll_append Scope.empty front
    (type :: a.name :: a.equals :: a.value :: a.rest)
  rw [hts] at h
  have hhere := (List.append_eq_nil_iff.mp (Scope.problems_declareAll_append h)).1
  rw [Scope.declareAt_of_typeNamed? htype a.kind_name] at hhere
  rw [← hts] at hscope
  refine ⟨v, Scope.empty.declareFront front (type :: a.name :: a.equals :: a.value :: a.rest), hv,
    ?_, ?_, ?_, ?_⟩
  · have haccepted := Scope.errors_initialValue_of_declareName hhere
    rw [hvtype]
    simpa [Scope.initialValue, a.isEquals] using haccepted
  · intro name w hw
    rw [hscope]
    exact Scope.lookup?_declareAll_of_some _ hw
  · intro huse
    rw [hinit] at huse
    cases huse
  · intro name _ hmem
    have hkind : type.kind ≠ .identifier := by
      rw [Token.kind_of_typeNamed? htype]
      nofun
    rw [hfront, declarations_concat hkind] at hmem
    exact Scope.exists_lookup?_declareFront hmem _ _

/-- An assignment in a use that is not reported has been judged. -/
theorem exists_judged_of_use {final : Scope} (h : final.usageProblems ts = [])
    (a : ts.Assignment) (hname : a.name.isReference = true) (huse : a.isInitializer = false) :
    ∃ v, a.Judged final v final := by
  have hplace := eq_nil_of_survey h a.split
  have hisUse : a.name.isUse a.front.getLast? = true := by
    have htype : a.front.getLast?.any Token.isTypeKeyword = false := huse
    simp [Token.isUse, hname, htype, a.noMember]
  rw [if_pos hisUse] at hplace
  obtain ⟨v, hv⟩ := Scope.lookup?_of_isUse h a.split hisUse
  refine ⟨v, hv, ?_, fun hw => hw, fun _ => rfl, ?_⟩
  · simpa [Scope.useProblems, hv, a.isEquals] using hplace
  · intro name hinit
    rw [huse] at hinit
    cases hinit

/-- Without problems, every value that is given to a variable has been judged. -/
theorem exists_judged (h : (ts.meaning options).problems = []) (a : ts.Assignment)
    (hname : a.name.isReference = true ∨ a.isInitializer = true) :
    ∃ v known, a.Judged (ts.meaning options).scope v known := by
  obtain ⟨hdeclared, husage, -⟩ := problems_meaning_eq_nil_iff.mp h
  cases hinit : a.isInitializer with
  | true => exact exists_judged_of_initializer hdeclared a hinit
  | false =>
      have href : a.name.isReference = true := by simpa [hinit] using hname
      obtain ⟨v, hv⟩ := exists_judged_of_use husage a href hinit
      exact ⟨v, _, hv⟩

end Tokens.Assignment

/-! ### Literals -/

open Tokens

/-- In a program without problems a literal fits the variable that it is given to. The variable is
any name that is not reserved, or a name that is declared with the literal as its initial value. -/
theorem exists_literal_of_assigned {options : MeaningOptions} {ts : Tokens}
    (h : (ts.meaning options).problems = []) (a : ts.Assignment)
    (hname : a.name.isReference = true ∨ a.isInitializer = true)
    (hvalue : a.value.isConstant = true) :
    ∃ v l, (ts.meaning options).scope.lookup? a.name.lexeme = some v ∧
      Literal.ofToken a.name.lexeme v.type a.value = .ok l := by
  obtain ⟨v, known, hjudged⟩ := a.exists_judged h hname
  obtain ⟨l, hl⟩ := AssignedValue.exists_literal_of_errors hjudged.accepted hvalue
  exact ⟨v, l, hjudged.lookup, hl⟩

/-- A truth value given to a variable inside a loop. -/
theorem exists_literal_of_assigned_loop :
    let ts := Token.ofText "boolean b = true; for (int i = 0; i < 3; i++) \x7b b = false; \x7d"
    (ts.meaning Settings.standard.meaningOptions).problems = [] ∧
      ∃ a : ts.Assignment, a.name.isReference = true ∧ a.value.isConstant = true ∧
        ∃ v l, (ts.meaning Settings.standard.meaningOptions).scope.lookup? a.name.lexeme = some v ∧
          Literal.ofToken a.name.lexeme v.type a.value = .ok l := by
  intro ts
  let a : ts.Assignment := {
    front := Token.ofText "boolean b = true; for (int i = 0; i < 3; i++) \x7b"
    name := ⟨.identifier, "b", ⟨1, 49⟩⟩
    equals := ⟨.operator, "=", ⟨1, 51⟩⟩
    value := ⟨.identifier, "false", ⟨1, 53⟩⟩
    rest := [⟨.semicolon, ";", ⟨1, 58⟩⟩, ⟨.rbrace, "\x7d", ⟨1, 60⟩⟩]
    split := by decide +kernel
    kind_name := rfl
    isEquals := by decide
    noMember := by decide +kernel }
  have h : (ts.meaning Settings.standard.meaningOptions).problems = [] := by decide +kernel
  have hname : a.name.isReference = true := by decide
  have hvalue : a.value.isConstant = true := by decide
  exact ⟨h, a, hname, hvalue, exists_literal_of_assigned h a (Or.inl hname) hvalue⟩

/-- A reserved name that is given a value need not be declared, and if it is, the value need not be
one of its type. -/
theorem reserved_names_unchecked :
    let ts := Token.ofText "System = 5; int out = 1; out = \"x\";"
    let m := ts.meaning Settings.standard.meaningOptions
    m.problems = [] ∧
      (∃ a : ts.Assignment, a.value.isConstant = true ∧ m.scope.lookup? a.name.lexeme = none) ∧
      ∃ a : ts.Assignment, a.value.isConstant = true ∧
        ∃ v, m.scope.lookup? a.name.lexeme = some v ∧
          ∀ l, Literal.ofToken a.name.lexeme v.type a.value ≠ .ok l := by
  intro ts m
  refine ⟨by decide +kernel, ⟨{
    front := []
    name := ⟨.identifier, "System", ⟨1, 1⟩⟩
    equals := ⟨.operator, "=", ⟨1, 8⟩⟩
    value := ⟨.number, "5", ⟨1, 10⟩⟩
    rest := ts.drop 3
    split := by decide +kernel
    kind_name := rfl
    isEquals := by decide
    noMember := rfl }, by decide, by decide +kernel⟩, {
    front := ts.take 9
    name := ⟨.identifier, "out", ⟨1, 26⟩⟩
    equals := ⟨.operator, "=", ⟨1, 30⟩⟩
    value := ⟨.string, "x", ⟨1, 32⟩⟩
    rest := [⟨.semicolon, ";", ⟨1, 35⟩⟩]
    split := by decide +kernel
    kind_name := rfl
    isEquals := by decide
    noMember := by decide +kernel }, by decide,
    ⟨"out", .int, some (.int 1), 1⟩, by decide +kernel, ?_⟩
  intro l
  have hclash : Literal.ofToken "out" .int ⟨.string, "x", ⟨1, 32⟩⟩ =
      .error (.wrongKind "out" .int .string "x") := rfl
  simp only [hclash, ne_eq, reduceCtorEq, not_false_eq_true]

/-! ### Variables -/

/-- In a program without problems a variable that is given to another one is declared, as is the
other one, and its type may be stored there. Of the variables that an initializer names, the last
is said for those that are declared in front of it and for the one that it initializes. -/
theorem accepts_of_assigned {options : MeaningOptions} {ts : Tokens}
    (h : (ts.meaning options).problems = []) (a : ts.Assignment)
    (hname : a.name.isReference = true) (hvalue : a.value.isReference = true)
    (hplain : a.rest[0]?.any (fun t => t.kind = .dot || t.kind = .lparen) = false) :
    ∃ v w, (ts.meaning options).scope.lookup? a.name.lexeme = some v ∧
      (ts.meaning options).scope.lookup? a.value.lexeme = some w ∧
      ((a.isInitializer = true → a.value.lexeme = a.name.lexeme ∨
          a.value.lexeme ∈ (declarations a.front).map Prod.fst) →
        v.type.accepts w.type = true) := by
  obtain ⟨v, known, hjudged⟩ := a.exists_judged h (Or.inl hname)
  obtain ⟨-, husage, -⟩ := problems_meaning_eq_nil_iff.mp h
  obtain ⟨w, hw⟩ : ∃ w, (ts.meaning options).scope.lookup? a.value.lexeme = some w := by
    have hsplit : ts = (a.front ++ [a.name, a.equals]) ++ a.value :: a.rest :=
      a.split.trans (by simp)
    refine Scope.lookup?_of_isUse husage hsplit ?_
    have hkind : a.equals.kind = .operator := by
      have hequals := a.isEquals
      simp only [Token.isOperator, Bool.and_eq_true, decide_eq_true_eq] at hequals
      exact hequals.1
    simp [Token.isUse, hvalue, Token.isTypeKeyword, Token.typeNamed?, hkind]
  refine ⟨v, w, hjudged.lookup, hw, fun hfront => ?_⟩
  by_cases hself : a.value.lexeme = a.name.lexeme
  · rw [hself, hjudged.lookup] at hw
    cases hw
    exact VariableType.accepts_self v.type
  -- Any other variable is known where the value was judged, with the type that it keeps.
  have hknown : known.lookup? a.value.lexeme = some w := by
    cases hinit : a.isInitializer with
    | false => rw [hjudged.known_of_use hinit, hw]
    | true =>
        have hmem := (hfront hinit).resolve_left hself
        obtain ⟨w', hw'⟩ := hjudged.known_of_initializer hinit hmem
        have hkept := hjudged.kept hw'
        rw [hw] at hkept
        rw [hw', hkept]
  exact AssignedValue.accepts_of_errors hjudged.accepted hvalue hplain hknown

/-- An initializer that names a variable declared in front of it, and a variable that is given one
declared behind. -/
theorem accepts_of_assigned_widening :
    let ts := Token.ofText "long a = 1; double d = a; a = b; short b = 2;"
    let scope := (ts.meaning Settings.standard.meaningOptions).scope
    (ts.meaning Settings.standard.meaningOptions).problems = [] ∧
      (∃ a : ts.Assignment, a.isInitializer = true ∧ ∃ v w,
        scope.lookup? a.name.lexeme = some v ∧ scope.lookup? a.value.lexeme = some w ∧
          v.type.accepts w.type = true) ∧
      ∃ a : ts.Assignment, a.isInitializer = false ∧ ∃ v w,
        scope.lookup? a.name.lexeme = some v ∧ scope.lookup? a.value.lexeme = some w ∧
          v.type.accepts w.type = true := by
  intro ts scope
  let initializer : ts.Assignment := {
    front := ts.take 6
    name := ⟨.identifier, "d", ⟨1, 20⟩⟩
    equals := ⟨.operator, "=", ⟨1, 22⟩⟩
    value := ⟨.identifier, "a", ⟨1, 24⟩⟩
    rest := ts.drop 9
    split := by decide +kernel
    kind_name := rfl
    isEquals := by decide
    noMember := by decide +kernel }
  let later : ts.Assignment := {
    front := ts.take 10
    name := ⟨.identifier, "a", ⟨1, 27⟩⟩
    equals := ⟨.operator, "=", ⟨1, 29⟩⟩
    value := ⟨.identifier, "b", ⟨1, 31⟩⟩
    rest := ts.drop 13
    split := by decide +kernel
    kind_name := rfl
    isEquals := by decide
    noMember := by decide +kernel }
  have h : (ts.meaning Settings.standard.meaningOptions).problems = [] := by decide +kernel
  have hinit : initializer.isInitializer = true := by decide +kernel
  have hlater : later.isInitializer = false := by decide +kernel
  have hfront : "a" ∈ (declarations (ts.take 6)).map Prod.fst := by decide +kernel
  obtain ⟨v, w, hv, hw, hinitializer⟩ :=
    accepts_of_assigned h initializer (by decide) (by decide) (by decide +kernel)
  obtain ⟨v', w', hv', hw', hafter⟩ :=
    accepts_of_assigned h later (by decide) (by decide) (by decide +kernel)
  refine ⟨h, ⟨initializer, hinit, v, w, hv, hw, hinitializer fun _ => Or.inr hfront⟩,
    later, hlater, v', w', hv', hw', hafter fun huse => ?_⟩
  rw [hlater] at huse
  cases huse

/-- An initializer does not look ahead: that the variable it names is declared behind it with a type
that does not go with the initialized one is not seen. -/
theorem initializer_ahead_unchecked :
    let ts := Token.ofText "int a = b; String b = \"s\";"
    let m := ts.meaning Settings.standard.meaningOptions
    m.problems = [] ∧ ∃ a : ts.Assignment, a.name.isReference = true ∧
      a.value.isReference = true ∧
      a.rest[0]?.any (fun t => t.kind = .dot || t.kind = .lparen) = false ∧
      ∃ v w, m.scope.lookup? a.name.lexeme = some v ∧ m.scope.lookup? a.value.lexeme = some w ∧
        v.type.accepts w.type = false := by
  intro ts m
  refine ⟨by decide +kernel, {
    front := [⟨.keyword, "int", ⟨1, 1⟩⟩]
    name := ⟨.identifier, "a", ⟨1, 5⟩⟩
    equals := ⟨.operator, "=", ⟨1, 7⟩⟩
    value := ⟨.identifier, "b", ⟨1, 9⟩⟩
    rest := ts.drop 4
    split := by decide +kernel
    kind_name := rfl
    isEquals := by decide
    noMember := by decide }, by decide, by decide, by decide +kernel, ⟨"a", .int, none, 1⟩,
    ⟨"b", .string, some (.str "s"), 1⟩, by decide +kernel, by decide +kernel, by decide⟩

end LessonCheck
