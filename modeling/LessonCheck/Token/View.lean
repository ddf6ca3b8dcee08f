import LessonCheck.Token.Enclosed

/-!
Reading a token list by position, and looking at each of its places in turn. A position past the end
holds no token, so every question about it has the answer no.
-/

namespace LessonCheck

namespace Tokens

def kind? (ts : Tokens) (i : Nat) : Option Token.Kind := ts[i]?.map (·.kind)

def hasKindAt (ts : Tokens) (i : Nat) (kind : Token.Kind) : Bool := ts.kind? i = some kind

def hasOperatorAt (ts : Tokens) (i : Nat) (symbol : String) : Bool :=
  ts[i]?.any (·.isOperator symbol)

/-- The position of the parenthesis that closes the one at position `i`. -/
def closingParen? (ts : Tokens) (i : Nat) : Option Nat :=
  match ts.drop i with
  | [] => none
  | t :: rest =>
    if t.kind = .lparen then (Enclosed.ofTokens? rest).map fun e => i + 1 + e.inside.length
    else none

/-- The positions strictly between two others at which a semicolon stands. -/
def semicolonPositions (ts : Tokens) (first last : Nat) : List Nat :=
  (List.range ts.length).filter fun i => first < i && i < last && ts.hasKindAt i .semicolon

/-- What `look` finds at the places of `ts`, in order. At each place it is given the token before
the place, if there is one, the token there and the tokens behind. -/
def surveyFrom {α : Type} (look : Option Token → Token → Tokens → List α) :
    Option Token → Tokens → List α
  | _, [] => []
  | before, t :: rest => look before t rest ++ surveyFrom look (some t) rest

def survey {α : Type} (look : Option Token → Token → Tokens → List α) (ts : Tokens) : List α :=
  surveyFrom look none ts

section
variable {α : Type} (look : Option Token → Token → Tokens → List α)

@[simp] theorem surveyFrom_nil (before : Option Token) : surveyFrom look before [] = [] := rfl

@[simp] theorem surveyFrom_cons (before : Option Token) (t : Token) (rest : Tokens) :
    surveyFrom look before (t :: rest) = look before t rest ++ surveyFrom look (some t) rest := rfl

/-- A find belongs to some place, and every place contributes its finds. -/
theorem mem_surveyFrom {before : Option Token} {ts : Tokens} {x : α} :
    x ∈ surveyFrom look before ts ↔ ∃ front t rest, ts = front ++ t :: rest ∧
      x ∈ look (front.getLast?.or before) t rest := by
  induction ts generalizing before with
  | nil => simp
  | cons u us ih =>
    rw [surveyFrom_cons, List.mem_append, ih]
    constructor
    · rintro (h | ⟨front, t, rest, rfl, h⟩)
      · exact ⟨[], u, us, rfl, by simpa using h⟩
      · refine ⟨u :: front, t, rest, rfl, ?_⟩
        cases front <;> simp_all [List.getLast?_cons]
    · rintro ⟨front, t, rest, h, hx⟩
      cases front with
      | nil =>
        obtain ⟨rfl, rfl⟩ := List.cons.inj h
        exact Or.inl (by simpa using hx)
      | cons v front =>
        obtain ⟨rfl, rfl⟩ := List.cons.inj h
        refine Or.inr ⟨front, t, rest, rfl, ?_⟩
        cases front <;> simp_all [List.getLast?_cons]

end

end Tokens

end LessonCheck
