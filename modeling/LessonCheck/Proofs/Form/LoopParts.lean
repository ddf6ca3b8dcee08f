import LessonCheck.Form.LoopForm
import Mathlib.Logic.Basic

/-!
The parts of a loop that the checks of form have nothing to say about. The header falls apart into
its three parts, put together again by `eq_of_ofEnclosed`, and each part has one of few shapes.
-/

namespace LessonCheck

namespace Tokens

theorem clauses_ne_nil (ts : Tokens) : clauses ts ≠ [] := by
  intro h
  have := length_clauses ts
  simp [h] at this

/-- The first part ends at a semicolon if there is another part, and is all there is if not. -/
theorem eq_of_clauses_cons {ts part : Tokens} {parts : List Tokens}
    (h : clauses ts = part :: parts) :
    (parts = [] ∧ ts = part) ∨
      ∃ semicolon rest, semicolon.kind = .semicolon ∧ ts = part ++ semicolon :: rest ∧
        clauses rest = parts := by
  induction ts generalizing part with
  | nil =>
      obtain ⟨rfl, rfl⟩ := List.cons.inj h
      exact Or.inl ⟨rfl, rfl⟩
  | cons t ts ih =>
      unfold clauses at h
      split at h
      · next hsemi =>
          obtain ⟨rfl, rfl⟩ := List.cons.inj h
          exact Or.inr ⟨t, ts, hsemi, rfl, rfl⟩
      · split at h
        · next hnil => exact absurd hnil (clauses_ne_nil ts)
        · next first others hcons =>
            obtain ⟨rfl, rfl⟩ := List.cons.inj h
            rcases ih hcons with ⟨hparts, rfl⟩ | ⟨semicolon, rest, hkind, rfl, hrest⟩
            · exact Or.inl ⟨hparts, rfl⟩
            · exact Or.inr ⟨semicolon, rest, hkind, rfl, hrest⟩

theorem eq_of_parenthesis? {ts : Tokens} {e : Enclosed} (h : parenthesis? ts = .ok e) :
    ∃ opener, opener.kind = .lparen ∧ ts = opener :: (e.inside ++ e.closer :: e.after) := by
  cases ts with
  | nil => cases h
  | cons t rest =>
      by_cases hkind : t.kind = .lparen
      · cases hfound : Enclosed.ofTokens? rest with
        | none => simp [parenthesis?, hkind, hfound] at h
        | some found =>
            obtain rfl : found = e := by simpa [parenthesis?, hkind, hfound] using h
            exact ⟨t, hkind, by rw [← Enclosed.eq_of_ofTokens? hfound]⟩
      · simp [parenthesis?, hkind] at h

end Tokens

namespace LoopHeader

/-- The parts with the semicolons between them are what the parenthesis encloses. -/
theorem eq_of_ofEnclosed {e : Enclosed} {h : LoopHeader} (hh : ofEnclosed e = .ok h) :
    ∃ first second : Token, first.kind = .semicolon ∧ second.kind = .semicolon ∧
      e.inside = h.init ++ first :: (h.condition ++ second :: h.increment) ∧
      h.closer = e.closer ∧ h.after = e.after := by
  unfold ofEnclosed at hh
  split at hh
  · next init condition increment hparts =>
      cases hh
      rcases Tokens.eq_of_clauses_cons hparts with ⟨hnil, -⟩ | ⟨first, tail, hfirst, heq, htail⟩
      · cases hnil
      rcases Tokens.eq_of_clauses_cons htail with ⟨hnil, -⟩ | ⟨second, last, hsecond, rfl, hlast⟩
      · cases hnil
      rcases Tokens.eq_of_clauses_cons hlast with ⟨-, rfl⟩ | ⟨third, rest, -, -, hrest⟩
      · exact ⟨first, second, hfirst, hsecond, heq, rfl, rfl⟩
      · exact absurd hrest (Tokens.clauses_ne_nil rest)
  · cases hh

/-- An initialization without fault declares a variable with a literal of its type, names one, or
gives one a value. -/
theorem shape_of_initProblems {keyword : Token} {ts : Tokens} (h : initProblems keyword ts = []) :
    (∃ declared type name equals value rest, ts = type :: name :: equals :: value :: rest ∧
      type.typeNamed? = some declared ∧ name.kind = .identifier ∧ equals.isOperator "=" = true ∧
      value.kind = declared.literalKind) ∨
    (∃ name, ts = [name] ∧ name.kind = .identifier) ∨
    ∃ name equals value rest, ts = name :: equals :: value :: rest ∧ name.kind = .identifier ∧
      equals.isOperator "=" = true ∧ value.kind.isValue = true := by
  unfold initProblems at h
  split at h
  · cases h
  · next first rest =>
      split at h
      · next declared name equals value rest htype =>
          unfold declaredInitProblems at h
          split at h
          · cases h
          · split at h
            · cases h
            · split at h
              · cases h
              · next hname hequals hvalue =>
                  exact Or.inl ⟨declared, first, name, equals, value, rest, rfl, htype,
                    not_not.mp hname, by simpa using hequals, not_not.mp hvalue⟩
      · unfold plainInitProblems at h
        split at h
        · next hname =>
            split at h
            · exact Or.inr (Or.inl ⟨first, rfl, hname⟩)
            · next equals value rest _ =>
                split at h
                · next hequals =>
                    split at h
                    · next hvalue =>
                        exact Or.inr (Or.inr
                          ⟨first, equals, value, rest, rfl, hname, hequals, hvalue⟩)
                    · cases h
                · cases h
            · cases h
        · cases h

theorem shape_of_conditionProblems {keyword : Token} {ts : Tokens}
    (h : conditionProblems keyword ts = []) :
    ∃ name operator value rest, ts = name :: operator :: value :: rest ∧
      name.kind = .identifier ∧ operator.isRelational = true ∧ value.kind.isValue = true := by
  unfold conditionProblems at h
  split at h
  · cases h
  · next name operator value rest =>
      obtain ⟨hfront, hvalue⟩ := List.append_eq_nil_iff.mp h
      obtain ⟨hname, hoperator⟩ := List.append_eq_nil_iff.mp hfront
      refine ⟨name, operator, value, rest, rfl, ?_, ?_, ?_⟩
      · simpa [report] using hname
      · simpa [report] using hoperator
      · simpa [report] using hvalue
  · cases h

theorem shape_of_incrementProblems {keyword : Token} {ts : Tokens}
    (h : incrementProblems keyword ts = []) :
    (∃ name operator, ts = [name, operator] ∧ name.kind = .identifier ∧
      operator.isStep = true) ∨
    ∃ name operator value, ts = [name, operator, value] ∧ name.kind = .identifier ∧
      operator.isStepBy = true ∧ value.kind.isValue = true := by
  unfold incrementProblems at h
  split at h
  · cases h
  · cases h
  · next name operator rest =>
      split at h
      · cases h
      · next hname =>
          split at h
          · next hstep =>
              cases rest with
              | nil => exact Or.inl ⟨name, operator, rfl, not_not.mp hname, hstep⟩
              | cons extra rest =>
                  by_cases hextra : extra.kind = .operator <;>
                    simp [stepProblems, hextra, report] at h
          · split at h
            · next hstep =>
                unfold stepByProblems at h
                split at h
                · next value =>
                    split at h
                    · next hvalue =>
                        exact Or.inr ⟨name, operator, value, rfl, not_not.mp hname, hstep, hvalue⟩
                    · cases h
                · cases h
            · cases h

theorem brace_of_bodyProblems {e : Enclosed} (h : bodyProblems e = []) :
    ∃ brace rest, e.after = brace :: rest ∧ brace.kind = .lbrace := by
  unfold bodyProblems at h
  split at h
  · next hbrace =>
      cases hafter : e.after with
      | nil => simp [hafter] at hbrace
      | cons brace rest => exact ⟨brace, rest, rfl, by simpa [hafter] using hbrace⟩
  · cases h

/-- A loop without a fault of form has a header, and none of its parts is at fault. -/
theorem parts_of_formProblems {keyword : Token} {rest : Tokens}
    (h : formProblems keyword rest = []) :
    ∃ e header, rest.parenthesis? = .ok e ∧ ofEnclosed e = .ok header ∧
      initProblems keyword header.init = [] ∧ conditionProblems keyword header.condition = [] ∧
      incrementProblems keyword header.increment = [] ∧ bodyProblems e = [] := by
  unfold formProblems at h
  split at h
  · next e he =>
      obtain ⟨hclauses, hbody⟩ := List.append_eq_nil_iff.mp h
      unfold clauseProblems at hclauses
      split at hclauses
      · next header hheader =>
          obtain ⟨hfront, hincrement⟩ := List.append_eq_nil_iff.mp hclauses
          obtain ⟨hinit, hcondition⟩ := List.append_eq_nil_iff.mp hfront
          exact ⟨e, header, he, hheader, hinit, hcondition, hincrement, hbody⟩
      · cases hclauses
  · cases h
  · cases h

end LoopHeader

end LessonCheck
