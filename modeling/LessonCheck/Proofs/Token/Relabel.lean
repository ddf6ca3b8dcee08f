import LessonCheck.Form.Brackets
import LessonCheck.Form.Ending
import LessonCheck.Form.OutputCall
import LessonCheck.Proofs.Token.Flat

/-!
Tokens whose texts are replaced, each token keeping its kind and its place. Whatever is arranged by
kinds alone is arranged as before: parentheses close at the same tokens, statements end at the same
tokens, the header of a loop falls into the same parts, and the same brackets are unmatched. For
parentheses and headers the places do not matter either, so that any tokens of the same kinds do.
-/

namespace LessonCheck

variable (f : Token → String)

namespace Token

/-- The token with another text. -/
def relabel (t : Token) : Token := { t with lexeme := f t }

@[simp] theorem kind_relabel (t : Token) : (t.relabel f).kind = t.kind := rfl

@[simp] theorem location_relabel (t : Token) : (t.relabel f).location = t.location := rfl

@[simp] theorem lexeme_relabel (t : Token) : (t.relabel f).lexeme = f t := rfl

/-- Keywords and operators keep their texts, and an identifier is one of the reserved names if and
only if it was that name before. -/
structure KeepsWords : Prop where
  words (t : Token) : t.kind = .keyword ∨ t.kind = .operator → f t = t.lexeme
  names (t : Token) (word : String) : t.kind = .identifier → Vocabulary.isReserved word = true →
    (f t = word ↔ t.lexeme = word)

namespace KeepsWords

variable {f} (hf : KeepsWords f)
include hf

theorem typeNamed? (t : Token) : (t.relabel f).typeNamed? = t.typeNamed? := by
  by_cases hkind : t.kind = .keyword
  · simp [Token.typeNamed?, hkind, hf.words t (Or.inl hkind)]
  · simp [Token.typeNamed?, hkind]

theorem isTypeKeyword (t : Token) : (t.relabel f).isTypeKeyword = t.isTypeKeyword := by
  rw [Token.isTypeKeyword, Token.isTypeKeyword, hf.typeNamed?]

theorem isKeyword (t : Token) (word : String) :
    (t.relabel f).isKeyword word = t.isKeyword word := by
  by_cases hkind : t.kind = .keyword
  · simp [Token.isKeyword, hkind, hf.words t (Or.inl hkind)]
  · simp [Token.isKeyword, hkind]

theorem isOperator (t : Token) (symbol : String) :
    (t.relabel f).isOperator symbol = t.isOperator symbol := by
  by_cases hkind : t.kind = .operator
  · simp [Token.isOperator, hkind, hf.words t (Or.inr hkind)]
  · simp [Token.isOperator, hkind]

theorem isName {word : String} (hword : Vocabulary.isReserved word = true) (t : Token) :
    (t.relabel f).isName word = t.isName word := by
  by_cases hkind : t.kind = .identifier
  · simp [Token.isName, hkind, beq_eq_beq.mpr (hf.names t word hkind hword)]
  · simp [Token.isName, hkind]

theorem isMethod (t : Token) : OutputCall.isMethod (t.relabel f) = OutputCall.isMethod t := by
  have hprintln := hf.isName (show Vocabulary.isReserved "println" = true by decide) t
  have hprint := hf.isName (show Vocabulary.isReserved "print" = true by decide) t
  simp only [Token.isName] at hprintln hprint
  simp only [OutputCall.isMethod, Vocabulary.isPrintMethod, Bool.and_or_distrib_left, hprintln,
    hprint]

end KeepsWords

end Token

/-! ### Tokens of the same kinds -/

section Exchange
variable {g : Token → Token} (hg : ∀ t, (g t).kind = t.kind)

/-- Every token exchanged for another. -/
def Enclosed.exchange (g : Token → Token) (e : Enclosed) : Enclosed :=
  ⟨e.inside.map g, g e.closer, e.after.map g⟩

/-- Every token exchanged for another. -/
def LoopHeader.exchange (g : Token → Token) (h : LoopHeader) : LoopHeader where
  init := h.init.map g
  condition := h.condition.map g
  increment := h.increment.map g
  closer := g h.closer
  after := h.after.map g

/-- A survey of other tokens finds the same if it finds the same at every place. -/
theorem Tokens.map_survey_exchange {α β : Type}
    {look look' : Option Token → Token → Tokens → List α} (g : Token → Token) (shown : α → β)
    (h : ∀ before t rest, (look' (before.map g) (g t) (rest.map g)).map shown =
      (look before t rest).map shown) (ts : Tokens) :
    (survey look' (ts.map g)).map shown = (survey look ts).map shown := by
  have hfrom (before : Option Token) : (surveyFrom look' (before.map g) (ts.map g)).map shown =
      (surveyFrom look before ts).map shown := by
    induction ts generalizing before with
    | nil => rfl
    | cons t rest ih =>
        have hrest := ih (some t)
        rw [Option.map_some] at hrest
        rw [List.map_cons, surveyFrom_cons, surveyFrom_cons, List.map_append, List.map_append, h,
          hrest]
  exact hfrom none

include hg

theorem Enclosed.atDepth?_exchange (depth : Nat) (ts : Tokens) :
    atDepth? depth (ts.map g) = (atDepth? depth ts).map (exchange g) := by
  induction ts generalizing depth with
  | nil => rfl
  | cons t ts ih =>
      have hinner (depth : Nat) : (atDepth? depth (ts.map g)).map (prepend (g t)) =
          ((atDepth? depth ts).map (prepend t)).map (exchange g) := by
        rw [ih, Option.map_map, Option.map_map]
        rfl
      rw [List.map_cons]
      by_cases hopen : t.kind = .lparen
      · simp only [atDepth?, hg, hopen, hinner]
      · by_cases hclose : t.kind = .rparen
        · cases depth with
          | zero => simp [atDepth?, hg, hclose, exchange]
          | succ depth => simp only [atDepth?, hg, hclose, hinner]
        · rw [atDepth?_cons_of_ne hopen hclose,
            atDepth?_cons_of_ne (by rwa [hg]) (by rwa [hg]), hinner]

theorem Enclosed.ofTokens?_exchange (ts : Tokens) :
    ofTokens? (ts.map g) = (ofTokens? ts).map (exchange g) :=
  atDepth?_exchange hg 0 ts

theorem Tokens.clauses_exchange (ts : Tokens) :
    clauses (ts.map g) = (clauses ts).map (List.map g) := by
  induction ts with
  | nil => rfl
  | cons t ts ih =>
      rw [List.map_cons, clauses, clauses, ih]
      by_cases hsemicolon : t.kind = .semicolon
      · simp [hg, hsemicolon]
      · cases clauses ts <;> simp [hg, hsemicolon]

theorem Tokens.semicolonCount_exchange (ts : Tokens) :
    semicolonCount (ts.map g) = ts.semicolonCount := by
  rw [semicolonCount, List.countP_map, semicolonCount]
  simp only [Function.comp_def, hg]

theorem Tokens.parenthesis?_exchange (ts : Tokens) :
    parenthesis? (ts.map g) = (parenthesis? ts).map (Enclosed.exchange g) := by
  cases ts with
  | nil => rfl
  | cons t ts =>
      by_cases hopen : t.kind = .lparen
      · rw [List.map_cons]
        simp only [parenthesis?, hg, hopen, if_true, Enclosed.ofTokens?_exchange hg]
        cases Enclosed.ofTokens? ts <;> rfl
      · simp [parenthesis?, hg, hopen, Except.map]

namespace LoopHeader

theorem ofEnclosed_exchange (e : Enclosed) :
    ofEnclosed (e.exchange g) = (ofEnclosed e).map (exchange g) := by
  have hclauses : Tokens.clauses (e.exchange g).inside =
      (Tokens.clauses e.inside).map (List.map g) := Tokens.clauses_exchange hg e.inside
  have hcount : Tokens.semicolonCount (e.exchange g).inside = Tokens.semicolonCount e.inside :=
    Tokens.semicolonCount_exchange hg e.inside
  unfold ofEnclosed
  rw [hclauses, hcount]
  rcases Tokens.clauses e.inside with _ | ⟨init, _ | ⟨condition, _ | ⟨increment, _ | _⟩⟩⟩ <;> rfl

theorem ofTokens_exchange (ts : Tokens) :
    ofTokens (ts.map g) = (ofTokens ts).map (exchange g) := by
  rw [ofTokens, ofTokens, Tokens.parenthesis?_exchange hg]
  cases Tokens.parenthesis? ts with
  | ok e => exact ofEnclosed_exchange hg e
  | error fault => rfl

end LoopHeader

end Exchange

/-! ### Parentheses and headers of loops -/

def Enclosed.relabel (e : Enclosed) : Enclosed :=
  ⟨e.inside.map (Token.relabel f), e.closer.relabel f, e.after.map (Token.relabel f)⟩

def LoopHeader.relabel (h : LoopHeader) : LoopHeader where
  init := h.init.map (Token.relabel f)
  condition := h.condition.map (Token.relabel f)
  increment := h.increment.map (Token.relabel f)
  closer := h.closer.relabel f
  after := h.after.map (Token.relabel f)

theorem Enclosed.ofTokens?_relabel (ts : Tokens) :
    ofTokens? (ts.map (Token.relabel f)) = (ofTokens? ts).map (relabel f) :=
  ofTokens?_exchange (Token.kind_relabel f) ts

theorem Tokens.parenthesis?_relabel (ts : Tokens) :
    parenthesis? (ts.map (Token.relabel f)) = (parenthesis? ts).map (Enclosed.relabel f) :=
  parenthesis?_exchange (Token.kind_relabel f) ts

theorem LoopHeader.ofEnclosed_relabel (e : Enclosed) :
    ofEnclosed (e.relabel f) = (ofEnclosed e).map (relabel f) :=
  ofEnclosed_exchange (Token.kind_relabel f) e

theorem LoopHeader.ofTokens_relabel (ts : Tokens) :
    ofTokens (ts.map (Token.relabel f)) = (ofTokens ts).map (relabel f) :=
  ofTokens_exchange (Token.kind_relabel f) ts

/-! ### Statements -/

theorem StatementEnd.ofTokens_relabel (ts : Tokens) :
    ofTokens (ts.map (Token.relabel f)) = ofTokens ts := by
  induction ts with
  | nil => rfl
  | cons t ts ih => rw [List.map_cons, ofTokens, ofTokens, Token.kind_relabel, ih]

theorem Tokens.isUnended_relabel (ts : Tokens) :
    isUnended (ts.map (Token.relabel f)) = ts.isUnended := by
  rw [isUnended, isUnended, StatementEnd.ofTokens_relabel, List.isEmpty_map]

/-! ### Print calls -/

namespace OutputCall

def relabel (call : OutputCall) : OutputCall where
  qualified := call.qualified
  method := call.method.relabel f
  arguments := call.arguments.map (Enclosed.relabel f)

variable {f} (hf : Token.KeepsWords f)
include hf

theorem ofMethod?_relabel (qualified : Bool) (method : Token) (ts : Tokens) :
    ofMethod? qualified (method.relabel f) (ts.map (Token.relabel f)) =
      (ofMethod? qualified method ts).map (relabel f) := by
  cases ts with
  | nil => rfl
  | cons t ts =>
      simp only [List.map_cons, ofMethod?, hf.isMethod, Token.kind_relabel,
        Enclosed.ofTokens?_relabel, apply_ite (Option.map (relabel f))]
      rfl

theorem at?_relabel (before : Option Token) (t : Token) (rest : Tokens) :
    at? (before.map (Token.relabel f)) (t.relabel f) (rest.map (Token.relabel f)) =
      (at? before t rest).map (relabel f) := by
  have hsystem := hf.isName (show Vocabulary.isReserved "System" = true by decide) t
  have hout := hf.isName (show Vocabulary.isReserved "out" = true by decide)
  unfold at?
  simp only [Option.any_map, Token.kind_relabel, hsystem, ofMethod?_relabel hf,
    apply_ite (Option.map (relabel f))]
  rcases rest with _ | ⟨first, _ | ⟨out, _ | ⟨second, _ | ⟨method, rest⟩⟩⟩⟩
  case cons.cons.cons.cons =>
    simp only [List.map_cons, Token.kind_relabel, hout, ofMethod?_relabel hf,
      apply_ite (Option.map (relabel f))]
    rfl
  all_goals rfl

end OutputCall

/-! ### Surveys -/

theorem Tokens.map_survey_relabel {α β : Type}
    {look look' : Option Token → Token → Tokens → List α} (g : α → β)
    (h : ∀ before t rest, (look' (before.map (Token.relabel f)) (t.relabel f)
      (rest.map (Token.relabel f))).map g = (look before t rest).map g) (ts : Tokens) :
    (survey look' (ts.map (Token.relabel f))).map g = (survey look ts).map g :=
  map_survey_exchange (Token.relabel f) g h ts

/-! ### Brackets -/

namespace Nesting

variable {α β : Type}

def map (g : α → β) (n : Nesting α) : Nesting β :=
  ⟨n.parens.map g, n.braces.map g, n.strays.map (Prod.map g id)⟩

theorem waiting_map (g : α → β) (n : Nesting α) (b : Bracket) :
    (n.map g).waiting b = (n.waiting b).map g := by
  cases b <;> rfl

theorem setWaiting_map (g : α → β) (n : Nesting α) (b : Bracket) (openers : List α) :
    (n.map g).setWaiting b (openers.map g) = (n.setWaiting b openers).map g := by
  cases b <;> rfl

/-- The matching sees of its items their kinds only. -/
theorem read_map (kind : β → Token.Kind) (g : α → β) (n : Nesting α) (x : α) :
    (n.map g).read kind (g x) = (n.read (kind ∘ g) x).map g := by
  unfold read
  simp only [Function.comp_apply]
  cases Bracket.openedBy? (kind (g x)) with
  | some b =>
      have hwaiting : g x :: (n.map g).waiting b = (x :: n.waiting b).map g := by
        rw [waiting_map, List.map_cons]
      exact (congrArg _ hwaiting).trans (setWaiting_map g n b _)
  | none =>
      cases Bracket.closedBy? (kind (g x)) with
      | none => rfl
      | some b =>
          simp only [waiting_map]
          cases n.waiting b with
          | nil => rfl
          | cons opener openers => exact setWaiting_map g n b openers

theorem readAll_map (kind : β → Token.Kind) (g : α → β) (n : Nesting α) (xs : List α) :
    (n.map g).readAll kind (xs.map g) = (n.readAll (kind ∘ g) xs).map g := by
  induction xs generalizing n with
  | nil => rfl
  | cons x xs ih =>
      have hread := read_map kind g n x
      have hrest := ih (n.read (kind ∘ g) x)
      rw [← hread] at hrest
      exact hrest

theorem unmatched_map (g : α → β) (n : Nesting α) :
    (n.map g).unmatched = n.unmatched.map (Prod.map g id) := by
  simp only [unmatched, map, List.map_append, List.map_reverse, List.map_map]
  rfl

end Nesting

theorem Tokens.bracketProblems_relabel (ts : Tokens) :
    bracketProblems (ts.map (Token.relabel f)) = ts.bracketProblems := by
  have hread := Nesting.readAll_map Token.kind (Token.relabel f) Nesting.empty ts
  have hkind : Token.kind ∘ Token.relabel f = Token.kind := rfl
  have hempty : Nesting.empty.map (Token.relabel f) = Nesting.empty := rfl
  rw [hkind, hempty] at hread
  rw [bracketProblems, hread, Nesting.unmatched_map, List.map_map]
  rfl

end LessonCheck
