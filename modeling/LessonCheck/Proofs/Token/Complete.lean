import LessonCheck.Proofs.Token.Flat
import LessonCheck.Proofs.Token.Survey

/-!
Stretches of tokens that a statement end completes. They end with a semicolon or a closing brace,
and every parenthesis in them closes before that. Whoever reads on from a token of such a stretch
comes to rest inside it, so a survey finds in it what it would find if nothing followed. The
condition on the parentheses is what the matching of brackets checks: `complete_of_bracketProblems`.
-/

namespace LessonCheck

/-- A semicolon or a closing brace, behind which no statement goes on. -/
def Token.Kind.endsStatement : Token.Kind → Bool
  | .semicolon | .rbrace => true
  | _ => false

/-- A token of a kind that ends nothing. -/
theorem Token.not_endsStatement {t : Token} {kind : Token.Kind} (h : t.kind = kind)
    (hkind : kind.endsStatement = false) : t.kind.endsStatement = false := by
  rw [h, hkind]

theorem Token.ne_of_endsStatement {t : Token} (h : t.kind.endsStatement = true) {kind : Token.Kind}
    (hkind : kind.endsStatement = false) : t.kind ≠ kind := by
  rintro rfl
  simp [hkind] at h

namespace Enclosed

/-- The same parenthesis with more tokens behind it. -/
def extend (e : Enclosed) (more : Tokens) : Enclosed := { e with after := e.after ++ more }

theorem atDepth?_extend {depth : Nat} {ts : List Token} {e : Enclosed}
    (h : atDepth? depth ts = some e) (more : Tokens) :
    atDepth? depth (ts ++ more) = some (e.extend more) := by
  induction ts generalizing depth e with
  | nil => cases h
  | cons t ts ih =>
      rw [List.cons_append]
      unfold atDepth? at h ⊢
      split at h
      · cases h
        rfl
      all_goals
        obtain ⟨inner, hinner, rfl⟩ := Option.map_eq_some_iff.mp h
        simp only [ih hinner]
        rfl

/-- The search for the closer does not look at what follows it. -/
theorem ofTokens?_extend {ts : List Token} {e : Enclosed} (h : ofTokens? ts = some e)
    (more : Tokens) : ofTokens? (ts ++ more) = some (e.extend more) :=
  atDepth?_extend h more

theorem kind_closer_of_atDepth? {depth : Nat} {ts : List Token} {e : Enclosed}
    (h : atDepth? depth ts = some e) : e.closer.kind = .rparen := by
  induction ts generalizing depth e with
  | nil => cases h
  | cons t ts ih =>
      unfold atDepth? at h
      split at h
      · next hkind =>
          cases h
          exact hkind
      all_goals
        obtain ⟨inner, hinner, rfl⟩ := Option.map_eq_some_iff.mp h
        have hcloser := ih hinner
        exact hcloser

end Enclosed

namespace Tokens

/-- The tokens end with a statement end, and every parenthesis in them closes. -/
inductive Complete : Tokens → Prop
  | last {t : Token} : t.kind.endsStatement = true → Complete [t]
  | cons {t : Token} {ts : Tokens} : (t.kind = .lparen → ∃ e, Enclosed.ofTokens? ts = some e) →
      Complete ts → Complete (t :: ts)

namespace Complete

variable {t : Token} {ts rest more : Tokens}

theorem tail {u : Token} (h : Complete (t :: u :: rest)) : Complete (u :: rest) := by
  cases h with
  | cons _ hrest => exact hrest

/-- Behind a token that is no statement end, the stretch goes on. -/
theorem behind (h : Complete (t :: rest)) (ht : t.kind.endsStatement = false) : Complete rest := by
  cases h with
  | last hend => simp [ht] at hend
  | cons _ hrest => exact hrest

theorem endsStatement (h : Complete [t]) : t.kind.endsStatement = true := by
  cases h with
  | last hend => exact hend
  | cons _ hrest => cases hrest

theorem endsStatement_of_concat (h : Complete (ts ++ [t])) : t.kind.endsStatement = true := by
  induction ts with
  | nil => exact h.endsStatement
  | cons u ts ih =>
      cases ts with
      | nil => exact ih h.tail
      | cons v ts => exact ih h.tail

/-- A parenthesis closes, and not with the last token. -/
theorem exists_enclosed (h : Complete (t :: rest)) (ht : t.kind = .lparen) :
    ∃ e, Enclosed.ofTokens? rest = some e ∧ e.after ≠ [] := by
  cases h with
  | last hend => simp [ht, Token.Kind.endsStatement] at hend
  | cons hclose hrest =>
      obtain ⟨e, he⟩ := hclose ht
      refine ⟨e, he, ?_⟩
      intro hafter
      have hsplit := Enclosed.eq_of_ofTokens? he
      rw [hafter] at hsplit
      rw [hsplit] at hrest
      have hend := hrest.endsStatement_of_concat
      simp [Enclosed.kind_closer_of_atDepth? he, Token.Kind.endsStatement] at hend

end Complete

/-! ### Surveys -/

/-- A survey that does not look past a statement end, neither forwards nor back, can be made part by
part. -/
theorem survey_append {α : Type} {look : Option Token → Token → Tokens → List α} {ts more : Tokens}
    (hahead : ∀ {before t rest}, Complete (t :: rest) →
      look before t (rest ++ more) = look before t rest)
    (hback : ∀ {last t rest}, last.kind.endsStatement = true →
      look (some last) t rest = look none t rest)
    (h : Complete ts) : (ts ++ more).survey look = ts.survey look ++ more.survey look := by
  have hfrom {last : Token} (hlast : last.kind.endsStatement = true) :
      surveyFrom look (some last) more = more.survey look := by
    cases more with
    | nil => rfl
    | cons t rest => simp only [survey, surveyFrom_cons, hback hlast]
  have hall (before : Option Token) : surveyFrom look before (ts ++ more) =
      surveyFrom look before ts ++ more.survey look := by
    induction h generalizing before with
    | @last t hend =>
        have hhere : look before t more = look before t [] := hahead (.last hend)
        rw [List.singleton_append, surveyFrom_cons, hhere, hfrom hend]
        simp
    | @cons t ts hclose hrest ih =>
        rw [List.cons_append, surveyFrom_cons, surveyFrom_cons, hahead (.cons hclose hrest), ih,
          List.append_assoc]
  exact hall none

end Tokens

/-! ### The matching of brackets -/

namespace Bracket

def openerKind : Bracket → Token.Kind
  | .paren => .lparen
  | .brace => .lbrace

def closerKind : Bracket → Token.Kind
  | .paren => .rparen
  | .brace => .rbrace

theorem openerKind_ne_closerKind (b c : Bracket) : b.openerKind ≠ c.closerKind := by
  cases b <;> cases c <;> decide

end Bracket

namespace Nesting

/-- What one item does to the openers of one bracket: it is put on top, it takes one off, or it
leaves them alone. -/
theorem waiting_read {α : Type} (kind : α → Token.Kind) (n : Nesting α) (x : α) (b : Bracket) :
    (n.read kind x).waiting b =
      if kind x = b.openerKind then x :: n.waiting b
      else if kind x = b.closerKind then (n.waiting b).tail else n.waiting b := by
  unfold read
  cases hkind : kind x with
  | rparen => cases hparens : n.parens <;> cases b <;> simp [Bracket.openedBy?, Bracket.closedBy?,
      Bracket.openerKind, Bracket.closerKind, waiting, setWaiting, hparens]
  | rbrace => cases hbraces : n.braces <;> cases b <;> simp [Bracket.openedBy?, Bracket.closedBy?,
      Bracket.openerKind, Bracket.closerKind, waiting, setWaiting, hbraces]
  | _ => cases b <;> rfl

theorem parens_read {α : Type} (kind : α → Token.Kind) (n : Nesting α) (x : α) :
    (n.read kind x).parens =
      if kind x = .lparen then x :: n.parens
      else if kind x = .rparen then n.parens.tail else n.parens :=
  waiting_read kind n x .paren

/-- If fewer parentheses wait after the tokens than before, one of those before has closed. -/
theorem exists_atDepth? {ts : List Token} {n : Nesting Token} {depth : Nat}
    (h : (n.readAll Token.kind ts).parens.length + depth < n.parens.length) :
    ∃ e, Enclosed.atDepth? depth ts = some e := by
  induction ts generalizing n depth with
  | nil =>
      change n.parens.length + depth < n.parens.length at h
      omega
  | cons t ts ih =>
      have hparens := parens_read Token.kind n t
      change ((n.read Token.kind t).readAll Token.kind ts).parens.length + depth < _ at h
      by_cases hopen : t.kind = .lparen
      · rw [if_pos hopen] at hparens
        obtain ⟨e, he⟩ := @ih (n.read Token.kind t) (depth + 1) (by
          rw [hparens, List.length_cons]
          omega)
        exact ⟨e.prepend t, by simp [Enclosed.atDepth?, hopen, he]⟩
      · rw [if_neg hopen] at hparens
        by_cases hclose : t.kind = .rparen
        · cases depth with
          | zero => exact ⟨⟨[], t, ts⟩, by simp [Enclosed.atDepth?, hclose]⟩
          | succ depth =>
              rw [if_pos hclose] at hparens
              obtain ⟨e, he⟩ := @ih (n.read Token.kind t) depth (by
                rw [hparens, List.length_tail]
                omega)
              exact ⟨e.prepend t, by simp [Enclosed.atDepth?, hclose, he]⟩
        · rw [if_neg hclose] at hparens
          obtain ⟨e, he⟩ := @ih (n.read Token.kind t) depth (by
            rw [hparens]
            omega)
          refine ⟨e.prepend t, ?_⟩
          rw [Enclosed.atDepth?_cons_of_ne hopen hclose, he, Option.map_some]

end Nesting

namespace Tokens

theorem complete_of_readAll {ts : Tokens} {last : Token} (hlast : ts.getLast? = some last)
    (hend : last.kind.endsStatement = true) {n : Nesting Token}
    (h : (n.readAll Token.kind ts).parens = []) : Complete ts := by
  induction ts generalizing n with
  | nil => cases hlast
  | cons t ts ih =>
      cases ts with
      | nil =>
          obtain rfl : t = last := by simpa using hlast
          exact .last hend
      | cons u ts =>
          refine .cons ?_ (ih (by simpa using hlast) h)
          intro hopen
          -- Its parenthesis waits on the stack behind it and no longer does at the end.
          have hwaiting := Nesting.parens_read Token.kind n t
          rw [if_pos hopen] at hwaiting
          refine Nesting.exists_atDepth? (n := n.read Token.kind t) ?_
          change ((n.read Token.kind t).readAll Token.kind (u :: ts)).parens = [] at h
          simp [h, hwaiting]

/-- Where no bracket is unmatched, the matching ends as it began. -/
theorem readAll_of_bracketProblems {ts : Tokens} (h : ts.bracketProblems = []) :
    Nesting.empty.readAll Token.kind ts = Nesting.empty := by
  simp only [bracketProblems, Nesting.unmatched, List.map_eq_nil_iff, List.append_eq_nil_iff,
    List.reverse_eq_nil_iff] at h
  obtain ⟨⟨hstrays, hparens⟩, hbraces⟩ := h
  cases hn : Nesting.empty.readAll Token.kind ts
  simp_all [Nesting.empty]

/-- Tokens without an unmatched bracket that end with a statement end are complete. -/
theorem complete_of_bracketProblems {ts : Tokens} {last : Token}
    (hlast : ts.getLast? = some last) (hend : last.kind.endsStatement = true)
    (h : ts.bracketProblems = []) : Complete ts := by
  have hparens := congrArg Nesting.parens (readAll_of_bracketProblems h)
  exact complete_of_readAll hlast hend hparens

theorem bracketProblems_append {ts : Tokens} (h : ts.bracketProblems = []) (more : Tokens) :
    (ts ++ more).bracketProblems = more.bracketProblems := by
  have hfront : ts.foldl (Nesting.read Token.kind) Nesting.empty = Nesting.empty :=
    readAll_of_bracketProblems h
  simp only [bracketProblems, Nesting.readAll, List.foldl_append, hfront]

end Tokens

end LessonCheck
