import LessonCheck.Proofs.Lexing.Complaints
import LessonCheck.Proofs.Lexing.Starts
import LessonCheck.Proofs.Reported.Analysis
import LessonCheck.Proofs.Token.Relabel
import Mathlib.Data.List.Nodup

/-!
Faulty literals and the meaning of a program. The lexer complains about such a literal once, and no
check of meaning reads more of it than that it is faulty: neither its text nor its place. So a
faulty literal can be given any other text, and since it can be given any other place too, nothing
of what the checks of meaning report can be reported at it.
-/

namespace LessonCheck

/-! ### Masks -/

namespace Token

/-- A faulty literal without its text and at another place; every other token as it is. -/
def mask (l : Location) (t : Token) : Token := if t.kind.isFaulty then ⟨t.kind, "", l⟩ else t

variable (l : Location) {t : Token}

theorem mask_of_not_faulty (h : t.kind.isFaulty = false) : t.mask l = t := by
  simp [mask, h]

theorem mask_of_kind {kind : Kind} (h : t.kind = kind) (hkind : kind.isFaulty = false) :
    t.mask l = t :=
  mask_of_not_faulty l (h ▸ hkind)

@[simp] theorem kind_mask (t : Token) : (t.mask l).kind = t.kind := by
  unfold mask
  split <;> rfl

theorem exists_fault (h : t.kind.isFaulty = true) : ∃ fault, t.kind = .faulty fault := by
  cases hkind : t.kind <;> simp_all [Kind.isFaulty]

/-- What is the same for all faulty literals does not see the mask. -/
theorem mask_congr {α : Type} (read : Token → α) (answer : α)
    (h : ∀ t fault, t.kind = .faulty fault → read t = answer) (t : Token) :
    read (t.mask l) = read t := by
  cases hfaulty : t.kind.isFaulty with
  | false => rw [mask_of_not_faulty l hfaulty]
  | true =>
      obtain ⟨fault, hkind⟩ := exists_fault hfaulty
      rw [h t fault hkind, h (t.mask l) fault (by rwa [kind_mask])]

@[simp] theorem typeNamed?_mask (t : Token) : (t.mask l).typeNamed? = t.typeNamed? :=
  mask_congr l typeNamed? none (fun _ _ h => by simp [typeNamed?, h]) t

@[simp] theorem isTypeKeyword_mask (t : Token) : (t.mask l).isTypeKeyword = t.isTypeKeyword := by
  rw [isTypeKeyword, isTypeKeyword, typeNamed?_mask]

@[simp] theorem isKeyword_mask (t : Token) (word : String) :
    (t.mask l).isKeyword word = t.isKeyword word :=
  mask_congr l (·.isKeyword word) false (fun _ _ h => by simp [isKeyword, h]) t

@[simp] theorem isOperator_mask (t : Token) (symbol : String) :
    (t.mask l).isOperator symbol = t.isOperator symbol :=
  mask_congr l (·.isOperator symbol) false (fun _ _ h => by simp [isOperator, h]) t

@[simp] theorem isReference_mask (t : Token) : (t.mask l).isReference = t.isReference :=
  mask_congr l isReference false (fun _ _ h => by simp [isReference, h]) t

@[simp] theorem isUse_mask (before : Option Token) (t : Token) :
    (t.mask l).isUse (before.map (mask l)) = t.isUse before := by
  simp [isUse, Option.any_map]

end Token

namespace Tokens

/-- The tokens with their faulty literals masked. -/
def masked (l : Location) (ts : Tokens) : Tokens := ts.map (Token.mask l)

variable (l : Location)

@[simp] theorem masked_cons (t : Token) (ts : Tokens) :
    masked l (t :: ts) = t.mask l :: masked l ts := rfl

theorem drop_masked (n : Nat) (ts : Tokens) : (masked l ts).drop n = masked l (ts.drop n) :=
  List.map_drop.symm

theorem isOperator_masked (ts : Tokens) (n : Nat) (symbol : String) :
    (masked l ts)[n]?.any (·.isOperator symbol) = ts[n]?.any (·.isOperator symbol) := by
  simp [masked, Option.any_map]

/-- A survey that sees nothing new behind the masks finds nothing new. -/
theorem survey_masked {α : Type} {look : Option Token → Token → Tokens → List α}
    (h : ∀ before t rest,
      look (before.map (Token.mask l)) (t.mask l) (masked l rest) = look before t rest)
    (ts : Tokens) : (masked l ts).survey look = ts.survey look := by
  have hshown := map_survey_exchange (Token.mask l) id
    (fun before t rest => congrArg (List.map id) (h before t rest)) ts
  rwa [List.map_id, List.map_id] at hshown

end Tokens

/-! ### Declarations and uses -/

open Tokens

variable (l : Location)

theorem AssignedValue.ofTokens_masked (scope : Scope) (name : String) (declared : VariableType)
    (ts : Tokens) :
    ofTokens scope name declared (masked l ts) = ofTokens scope name declared ts := by
  cases ts with
  | nil => rfl
  | cons value rest =>
      cases hfaulty : value.kind.isFaulty with
      | true => simp [ofTokens, hfaulty]
      | false =>
          have hnext : (masked l rest)[0]?.any (fun t => t.kind = .dot || t.kind = .lparen) =
              rest[0]?.any (fun t => t.kind = .dot || t.kind = .lparen) := by
            simp [masked, Option.any_map]
          simp only [masked_cons, Token.mask_of_not_faulty l hfaulty, ofTokens, hnext]

namespace Scope

theorem initialValue_masked (scope : Scope) (name : String) (declared : VariableType)
    (ts : Tokens) :
    scope.initialValue name declared (masked l ts) = scope.initialValue name declared ts := by
  rw [initialValue, isOperator_masked, drop_masked, AssignedValue.ofTokens_masked, initialValue]

theorem declareName_masked (scope : Scope) (declared : VariableType) (name : Token) (ts : Tokens) :
    scope.declareName declared name (masked l ts) = scope.declareName declared name ts := by
  cases hname : scope.lookup? name.lexeme with
  | some existing => rw [declareName_of_some hname, declareName_of_some hname]
  | none => simp only [declareName_of_none hname, initialValue_masked]

theorem declareAt_masked (scope : Scope) (t : Token) (rest : Tokens) :
    scope.declareAt (t.mask l) (masked l rest) = scope.declareAt t rest := by
  unfold declareAt
  rw [Token.typeNamed?_mask]
  cases t.typeNamed? with
  | none => rfl
  | some declared =>
      cases rest with
      | nil => rfl
      | cons name ts =>
          by_cases hname : name.kind = .identifier
          · simp [hname, Token.mask_of_kind l hname rfl, declareName_masked]
          · simp [hname]

theorem declareAll_masked (scope : Scope) (ts : Tokens) :
    scope.declareAll (masked l ts) = scope.declareAll ts := by
  induction ts generalizing scope with
  | nil => rfl
  | cons t rest ih => rw [masked_cons, declareAll, declareAt_masked, ih, declareAll]

theorem useProblems_masked (scope : Scope) (t : Token) (rest : Tokens) :
    scope.useProblems t (masked l rest) = scope.useProblems t rest := by
  unfold useProblems
  cases scope.lookup? t.lexeme with
  | none => rfl
  | some v => simp only [isOperator_masked, drop_masked, AssignedValue.ofTokens_masked]

theorem usageProblems_masked (scope : Scope) (ts : Tokens) :
    scope.usageProblems (masked l ts) = scope.usageProblems ts := by
  refine survey_masked l (fun before t rest => ?_) ts
  rw [Token.isUse_mask, useProblems_masked]
  split
  · next huse =>
      have hname := Token.kind_of_isReference (Token.isReference_of_isUse huse)
      rw [Token.mask_of_kind l hname rfl]
  · rfl

end Scope

/-! ### Loops -/

namespace LoopCounter

theorem ofName_mask (scope : Scope) (name : Token) :
    ofName scope (name.mask l) = ofName scope name := by
  by_cases hname : name.kind = .identifier
  · rw [Token.mask_of_kind l hname rfl]
  · simp [ofName, hname]

theorem ofInit_masked (scope : Scope) (ts : Tokens) :
    ofInit scope (masked l ts) = ofInit scope ts := by
  cases ts with
  | nil => rfl
  | cons first rest =>
      simp only [masked_cons, ofInit, Token.typeNamed?_mask, ofName_mask]
      cases first.typeNamed? with
      | none => rfl
      | some declared =>
          cases rest with
          | nil => rfl
          | cons name rest =>
              by_cases hname : name.kind = .identifier
              · simp [hname, Token.mask_of_kind l hname rfl]
              · simp [hname]

theorem partProblems_masked (v : LoopCounter) (part : LoopPart) (ts : Tokens) :
    v.partProblems part (masked l ts) = v.partProblems part ts := by
  cases ts with
  | nil => rfl
  | cons t ts =>
      by_cases hname : t.kind = .identifier
      · simp [partProblems, Token.mask_of_kind l hname rfl]
      · simp [partProblems, hname]

theorem comparisonProblems_mask (scope : Scope) (v : LoopCounter) (value : Token) :
    v.comparisonProblems scope (value.mask l) = v.comparisonProblems scope value := by
  cases hfaulty : value.kind.isFaulty with
  | false => rw [Token.mask_of_not_faulty l hfaulty]
  | true => simp [comparisonProblems, hfaulty]

theorem conditionProblems_masked (scope : Scope) (v : LoopCounter) (ts : Tokens) :
    v.conditionProblems scope (masked l ts) = v.conditionProblems scope ts := by
  rcases ts with _ | ⟨name, _ | ⟨operator, _ | ⟨value, ts⟩⟩⟩
  case cons.cons.cons => exact comparisonProblems_mask l scope v value
  all_goals rfl

end LoopCounter

namespace Scope

theorem headerProblems_mask (scope : Scope) (h : LoopHeader) :
    scope.headerProblems (h.exchange (Token.mask l)) = scope.headerProblems h := by
  have hinit := LoopCounter.ofInit_masked l scope h.init
  have hpart (v : LoopCounter) (part : LoopPart) := v.partProblems_masked l part
  have hcondition (v : LoopCounter) := v.conditionProblems_masked l scope h.condition
  unfold masked at hinit hpart hcondition
  simp only [headerProblems, LoopHeader.exchange, hinit, hpart, hcondition]

theorem loopProblems_masked (scope : Scope) (ts : Tokens) :
    scope.loopProblems (masked l ts) = scope.loopProblems ts := by
  refine survey_masked l (fun before t rest => ?_) ts
  rw [Token.isKeyword_mask, masked, LoopHeader.ofTokens_exchange (Token.kind_mask l)]
  split
  · cases LoopHeader.ofTokens rest with
    | error fault => rfl
    | ok h => exact headerProblems_mask l scope h
  · rfl

/-! ### Members and characters -/

theorem memberProblems_masked (scope : Scope) (receiver : Token) (rest : Tokens) :
    scope.memberProblems (receiver.mask l) (masked l rest) =
      scope.memberProblems receiver rest := by
  rcases rest with _ | ⟨dot, _ | ⟨method, rest⟩⟩
  case cons.cons =>
    by_cases hreceiver : receiver.kind = .identifier
    · by_cases hmethod : method.kind = .identifier
      · simp [memberProblems, Token.mask_of_kind l hreceiver rfl, Token.mask_of_kind l hmethod rfl]
      · simp [memberProblems, hmethod]
    · simp [memberProblems, hreceiver]
  all_goals rfl

theorem stringMethodProblems_masked (scope : Scope) (ts : Tokens) :
    scope.stringMethodProblems (masked l ts) = scope.stringMethodProblems ts :=
  survey_masked l (fun _ t rest => memberProblems_masked l scope t rest) ts

end Scope

theorem CharRange.problems_masked (r : CharRange) (ts : Tokens) :
    r.problems (masked l ts) = r.problems ts := by
  have htoken (t : Token) : r.tokenProblems (t.mask l) = r.tokenProblems t :=
    Token.mask_congr l r.tokenProblems [] (fun _ _ h => by simp [tokenProblems, h]) t
  simp only [problems, masked, List.flatMap_map, htoken]

/-! ### All checks -/

namespace Tokens

/-- The meaning of a program does not show what is behind the masks. -/
theorem meaning_masked (options : MeaningOptions) (ts : Tokens) :
    (masked l ts).meaning options = ts.meaning options := by
  simp only [meaning, Scope.declareAll_masked, Scope.usageProblems_masked,
    Scope.loopProblems_masked, CharRange.problems_masked, Scope.stringMethodProblems_masked]

/-- Every problem of meaning is reported at a token that is no faulty literal. -/
theorem exists_of_mem_meaning {options : MeaningOptions} {ts : Tokens}
    {p : Located MeaningProblem} (hp : p ∈ (ts.meaning options).problems) :
    ∃ t ∈ ts, t.kind.isFaulty = false ∧ t.location = p.location := by
  -- It is reported at a token also if all faulty literals are at another place.
  have hl : p.location.after [' '] ≠ p.location :=
    Location.after_ne_self (List.cons_ne_nil _ _) p.location
  rw [← meaning_masked (p.location.after [' '])] at hp
  obtain ⟨u, hu, hplace⟩ := reportedIn_meaning options _ p hp
  obtain ⟨t, ht, rfl⟩ := List.mem_map.mp hu
  cases hfaulty : t.kind.isFaulty with
  | true => exact absurd hplace (by simpa [Token.mask, hfaulty] using hl)
  | false =>
      rw [Token.mask_of_not_faulty _ hfaulty] at hplace
      exact ⟨t, ht, hfaulty, hplace⟩

end Tokens

/-! ### Other texts -/

/-- The token `u` is `t`, but for the text of a faulty literal. -/
structure Token.Respells (t u : Token) : Prop where
  kind : u.kind = t.kind
  location : u.location = t.location
  lexeme : t.kind.isFaulty = false → u.lexeme = t.lexeme

theorem Token.Respells.mask_eq {t u : Token} (h : t.Respells u) : u.mask l = t.mask l := by
  cases hfaulty : t.kind.isFaulty with
  | true => simp [mask, hfaulty, h.kind]
  | false =>
      obtain ⟨kind, lexeme, location⟩ := u
      obtain ⟨rfl, rfl, hlexeme⟩ := h
      obtain rfl : lexeme = t.lexeme := hlexeme hfaulty
      rfl

theorem Tokens.meaning_eq_of_respells {ts us : Tokens} (h : List.Forall₂ Token.Respells ts us)
    (options : MeaningOptions) : us.meaning options = ts.meaning options := by
  have hmasked : masked .start us = masked .start ts := by
    induction h with
    | nil => rfl
    | cons htu _ ih => rw [masked_cons, masked_cons, htu.mask_eq, ih]
  rw [← meaning_masked .start options us, hmasked, meaning_masked]

/-! ### Complaints of the lexer -/

theorem eq_of_location_eq {source : String} {t u : Token} (ht : t ∈ Token.ofText source)
    (hu : u ∈ Token.ofText source) (h : t.location = u.location) : t = u :=
  List.inj_on_of_nodup_map (Laid.scan .start source.toList).nodup_locations ht hu h

namespace LexedText

/-- The complaints at the place of a token are those about the token. -/
theorem filter_problems {source : String} {t : Token} (ht : t ∈ Token.ofText source) :
    (ofText source).problems.filter (·.location = t.location) = tokenProblems t := by
  have hflat : (ofText source).problems = (Token.ofText source).flatMap tokenProblems := rfl
  have hnodup := (Laid.scan .start source.toList).nodup_locations
  change ((Token.ofText source).map Token.location).Nodup at hnodup
  obtain ⟨front, rest, hsplit⟩ := List.append_of_mem ht
  rw [hsplit, List.map_append, List.map_cons, List.nodup_middle, List.nodup_cons,
    ← List.map_append] at hnodup
  have hothers {us : Tokens} (hus : us ⊆ front ++ rest) :
      (us.flatMap tokenProblems).filter (·.location = t.location) = [] := by
    refine List.filter_eq_nil_iff.mpr fun p hp => ?_
    obtain ⟨u, hu, hpu⟩ := List.mem_flatMap.mp hp
    rw [location_of_mem_tokenProblems hpu, decide_eq_true_eq]
    intro hplace
    exact hnodup.1 (hplace ▸ List.mem_map_of_mem (hus hu))
  have hhere : (tokenProblems t).filter (·.location = t.location) = tokenProblems t :=
    List.filter_eq_self.mpr fun p hp => by simpa using location_of_mem_tokenProblems hp
  rw [hflat, hsplit, List.flatMap_append, List.flatMap_cons, List.filter_append,
    List.filter_append, hothers (List.subset_append_left front rest), hhere,
    hothers (List.subset_append_right front rest), List.nil_append, List.append_nil]

end LexedText

def FormProblem.isLexical : FormProblem → Bool
  | .lexical _ => true
  | _ => false

theorem Tokens.isLexical_of_mem_formProblems {ts : Tokens} {p : Located FormProblem}
    (hp : p ∈ ts.formProblems) : p.problem.isLexical = false := by
  simp only [formProblems, List.mem_append, List.mem_map] at hp
  rcases hp with ((⟨_, _, rfl⟩ | ⟨_, _, rfl⟩) | ⟨_, _, rfl⟩) | ⟨_, _, rfl⟩ <;> rfl

/-- The complaint about a faulty literal is the only one of the lexer at its place. -/
theorem LexedText.filter_formAnalysis {source : String} {t : Token} (ht : t ∈ Token.ofText source)
    (hfaulty : t.kind.isFaulty = true) :
    ∃ problem, LexicalProblem.ofToken [] t = [problem] ∧
      (ofText source).formAnalysis.problems.filter
        (fun p => p.problem.isLexical && p.location = t.location) =
          [⟨t.location, .lexical problem⟩] := by
  have hform : (Token.ofText source).formProblems.filter
      (fun p => p.problem.isLexical && p.location = t.location) = [] := by
    refine List.filter_eq_nil_iff.mpr fun p hp => ?_
    simp [Tokens.isLexical_of_mem_formProblems hp]
  have hlexical : ((ofText source).problems.map (·.map FormProblem.lexical)).filter
      (fun p => p.problem.isLexical && p.location = t.location) =
        (tokenProblems t).map (·.map .lexical) := by
    rw [List.filter_map, ← filter_problems ht]
    rfl
  obtain ⟨fault, hkind⟩ := Token.exists_fault hfaulty
  have hone : ∃ problem, LexicalProblem.ofToken [] t = [problem] ∧
      tokenProblems t = [⟨t.location, problem⟩] := by
    cases fault <;> simp [tokenProblems, ofToken, LexicalProblem.ofToken, hkind]
  obtain ⟨problem, hproblem, htoken⟩ := hone
  refine ⟨problem, hproblem, ?_⟩
  change (List.filter _ (_ ++ (Token.ofText source).formProblems)) = _
  rw [List.filter_append, hform, hlexical, htoken, List.append_nil]
  rfl

/-! ### Whole analyses -/

/-- The faulty literals in an analysis: no problem of meaning is reported at one, the lexer
complains about each of them once, and their texts have no part in the meaning. -/
structure Analysis.KeepsFaultsApart (options : MeaningOptions) (a : Analysis) : Prop where
  apart (t : Token) : t ∈ a.form.tokens → t.kind.isFaulty = true →
    ∀ p ∈ a.meaning.problems, p.location ≠ t.location
  once (t : Token) : t ∈ a.form.tokens → t.kind.isFaulty = true →
    ∃ problem, LexicalProblem.ofToken [] t = [problem] ∧
      a.form.problems.filter (fun p => p.problem.isLexical && p.location = t.location) =
        [⟨t.location, .lexical problem⟩]
  unread (ts : Tokens) : List.Forall₂ Token.Respells a.form.tokens ts →
    ts.meaning options = a.meaning

/-- A faulty literal is a matter for the lexer and for no check of meaning. -/
theorem analyze_keepsFaultsApart {s : Session} {source : String} {a : Analysis}
    (ha : (s.analyze source).1 = .ok a) : a.KeepsFaultsApart s.settings.meaningOptions := by
  rw [Session.fst_analyze] at ha
  obtain rfl := Analysis.eq_of_ofSource ha
  constructor
  · intro t ht hfaulty p hp hplace
    obtain ⟨u, hu, hsound, huplace⟩ := Tokens.exists_of_mem_meaning hp
    obtain rfl := eq_of_location_eq ht hu (hplace.symm.trans huplace.symm)
    rw [hfaulty] at hsound
    cases hsound
  · intro t ht hfaulty
    exact LexedText.filter_formAnalysis ht hfaulty
  · intro ts hts
    exact Tokens.meaning_eq_of_respells hts _

/-- Faulty literals as initial value, as assigned value and as the bound of a loop, next to an
undeclared variable. -/
theorem analyze_keepsFaultsApart_positions :
    let source := "int n = ''; m = 'ab';\nfor (n = 0; n < 'cd'; n++) \x7b \x7d \"open"
    let other : Token → Token := fun t => if t.kind.isFaulty then ⟨t.kind, "?", t.location⟩ else t
    ∃ a, ((Session.new .standard).analyze source).1 = .ok a ∧
      (⟨⟨1, 13⟩, .usage (.undeclared "m")⟩ : Located MeaningProblem) ∈ a.meaning.problems ∧
      (∀ p ∈ a.meaning.problems, p.location ≠ ⟨2, 17⟩) ∧
      Tokens.meaning Settings.standard.meaningOptions (a.form.tokens.map other) = a.meaning := by
  intro source other
  have ha : ((Session.new .standard).analyze source).1 = .ok _ :=
    (Session.fst_analyze _ _).trans (Analysis.ofSource_of_nonempty (by decide) _)
  have hundeclared : (⟨⟨1, 13⟩, .usage (.undeclared "m")⟩ : Located MeaningProblem) ∈
      ((Token.ofText source).meaning Settings.standard.meaningOptions).problems := by
    decide +kernel
  have hbound : (⟨.faulty .invalidChar, "'cd'", ⟨2, 17⟩⟩ : Token) ∈ Token.ofText source := by
    decide +kernel
  have hother : List.Forall₂ Token.Respells (Token.ofText source)
      ((Token.ofText source).map other) := by
    rw [List.forall₂_map_right_iff]
    refine List.forall₂_same.mpr fun t _ => ?_
    simp only [other]
    split
    · next hfaulty => exact ⟨rfl, rfl, fun hsound => by simp [hsound] at hfaulty⟩
    · exact ⟨rfl, rfl, fun _ => rfl⟩
  have hapart := analyze_keepsFaultsApart ha
  exact ⟨_, ha, hundeclared, hapart.apart _ hbound rfl, hapart.unread _ hother⟩

end LessonCheck
