import LessonCheck.Form.Brackets
import LessonCheck.Proofs.Form.LoopParts

/-!
Stretches of tokens that the readers of larger structure pass over. A parenthesis that holds no
other closes behind what it holds, a part of a loop header ends at its semicolon, and the matching
of brackets forgets a stretch in which every bracket has its partner.
-/

namespace LessonCheck

/-- A kind of token that neither opens, closes nor ends anything. -/
def Token.Kind.isInner : Token.Kind → Bool
  | .identifier | .keyword | .number | .float | .string | .char | .operator => true
  | _ => false

@[simp] theorem Token.Kind.isInner_identifier : identifier.isInner = true := rfl

@[simp] theorem Token.Kind.isInner_keyword : keyword.isInner = true := rfl

@[simp] theorem Token.Kind.isInner_operator : operator.isInner = true := rfl

namespace Tokens

def Flat (ts : Tokens) : Prop := ∀ t ∈ ts, t.kind.isInner = true

theorem flat_cons {t : Token} {ts : Tokens} :
    Flat (t :: ts) ↔ t.kind.isInner = true ∧ Flat ts :=
  List.forall_mem_cons

end Tokens

namespace Enclosed

theorem atDepth?_cons_of_ne {t : Token} (hopen : t.kind ≠ .lparen) (hclose : t.kind ≠ .rparen)
    (depth : Nat) (ts : List Token) :
    atDepth? depth (t :: ts) = (atDepth? depth ts).map (prepend t) := by
  rw [atDepth?.eq_def]
  split <;> simp_all

/-- A parenthesis closes at the first closer if nothing opens before it. -/
theorem ofTokens?_append {inside : List Token} {closer : Token}
    (hinside : ∀ t ∈ inside, t.kind ≠ .lparen ∧ t.kind ≠ .rparen)
    (hcloser : closer.kind = .rparen) (after : List Token) :
    ofTokens? (inside ++ closer :: after) = some ⟨inside, closer, after⟩ := by
  unfold ofTokens?
  induction inside with
  | nil => simp [atDepth?, hcloser]
  | cons t inside ih =>
      obtain ⟨hopen, hclose⟩ := hinside t List.mem_cons_self
      rw [List.cons_append, atDepth?_cons_of_ne hopen hclose,
        ih (fun u hu => hinside u (List.mem_cons_of_mem t hu))]
      rfl

end Enclosed

theorem Nesting.setWaiting_waiting {α : Type} (n : Nesting α) (b : Bracket) (openers : List α) :
    (n.setWaiting b openers).setWaiting b (n.waiting b) = n ∧
      (n.setWaiting b openers).waiting b = openers := by
  cases b <;> exact ⟨rfl, rfl⟩

namespace Tokens

variable {ts rest : Tokens}

theorem ne_of_isInner {t : Token} (h : t.kind.isInner = true) :
    t.kind ≠ .lparen ∧ t.kind ≠ .rparen ∧ t.kind ≠ .semicolon := by
  refine ⟨?_, ?_, ?_⟩ <;> rintro hkind <;> simp [hkind, Token.Kind.isInner] at h

theorem clauses_cons_of_ne {t : Token} (ht : t.kind ≠ .semicolon) {part : Tokens}
    {parts : List Tokens} (h : clauses ts = part :: parts) :
    clauses (t :: ts) = (t :: part) :: parts := by
  rw [clauses, if_neg ht, h]

theorem Flat.clauses (h : Flat ts) : Tokens.clauses ts = [ts] := by
  induction ts with
  | nil => rfl
  | cons t ts ih =>
      obtain ⟨ht, hts⟩ := flat_cons.mp h
      exact clauses_cons_of_ne (ne_of_isInner ht).2.2 (ih hts)

/-- A part of a header ends at its semicolon. -/
theorem Flat.clauses_append (h : Flat ts) {semicolon : Token}
    (hsemicolon : semicolon.kind = .semicolon) :
    Tokens.clauses (ts ++ semicolon :: rest) = ts :: Tokens.clauses rest := by
  induction ts with
  | nil => simp [Tokens.clauses, hsemicolon]
  | cons t ts ih =>
      obtain ⟨ht, hts⟩ := flat_cons.mp h
      exact clauses_cons_of_ne (ne_of_isInner ht).2.2 (ih hts)

/-! ### Matching brackets -/

/-- The matching of brackets is after the tokens where it was before. -/
def Neutral (ts : Tokens) : Prop := ∀ n : Nesting Token, n.readAll Token.kind ts = n

theorem neutral_nil : Neutral [] := fun _ => rfl

theorem Neutral.append (hts : Neutral ts) (hrest : Neutral rest) : Neutral (ts ++ rest) := by
  intro n
  have hfront : ts.foldl (Nesting.read Token.kind) n = n := hts n
  rw [Nesting.readAll, List.foldl_append, hfront]
  exact hrest n

theorem neutral_singleton {t : Token} (hopen : Bracket.openedBy? t.kind = none)
    (hclose : Bracket.closedBy? t.kind = none) : Neutral [t] := by
  intro n
  simp [Nesting.readAll, Nesting.read, hopen, hclose]

/-- A pair of brackets around a neutral stretch. -/
theorem Neutral.enclosed (hts : Neutral ts) {opener closer : Token} {b : Bracket}
    (hopen : Bracket.openedBy? opener.kind = some b)
    (hopener : Bracket.openedBy? closer.kind = none)
    (hclose : Bracket.closedBy? closer.kind = some b) :
    Neutral (opener :: (ts ++ [closer])) := by
  intro n
  have hafter : n.read Token.kind opener = n.setWaiting b (opener :: n.waiting b) := by
    simp [Nesting.read, hopen]
  have hinside : ts.foldl (Nesting.read Token.kind) (n.setWaiting b (opener :: n.waiting b)) =
      n.setWaiting b (opener :: n.waiting b) := hts _
  obtain ⟨hback, hwaiting⟩ := Nesting.setWaiting_waiting n b (opener :: n.waiting b)
  rw [Nesting.readAll, List.foldl_cons, hafter, List.foldl_append, hinside]
  simp [Nesting.read, hopener, hclose, hwaiting, hback]

theorem Neutral.bracketProblems (h : Neutral ts) : Tokens.bracketProblems ts = [] := by
  rw [Tokens.bracketProblems, h Nesting.empty]
  rfl

end Tokens

end LessonCheck
