import LessonCheck.Proofs.Access.Checked
import LessonCheck.Proofs.Bracket.Matching
import LessonCheck.Proofs.Form.LoopParts

/-!
Parentheses and loop headers by number. The closer of a parenthesis is found by counting, and the
count is never taken below zero; the semicolons of a header are looked up between its parentheses.
The numbers that come out are those at which the parts stand when the tokens are split.
-/

namespace LessonCheck

namespace Tokens

/-! ### The closing parenthesis -/

/-- Counts the open parentheses from token number `i` on, up to the one that closes them all. -/
def closerFrom (depth i : Nat) : Tokens → Checked (Option Nat)
  | [] => .ok none
  | t :: rest =>
    match t.kind with
    | .lparen => closerFrom (depth + 1) (i + 1) rest
    | .rparen => do
      let depth ← Checked.difference depth 1
      if depth = 0 then return some i else closerFrom depth (i + 1) rest
    | _ => closerFrom depth (i + 1) rest

def closerAt (ts : Tokens) (i : Nat) : Checked (Option Nat) :=
  if ts.hasKindAt i .lparen then closerFrom 0 i (ts.drop i) else .ok none

/-- Behind an opening parenthesis the count is positive, so a closer can be taken off it. -/
theorem closerFrom_eq (depth i : Nat) (ts : Tokens) :
    closerFrom (depth + 1) i ts =
      .ok ((Enclosed.atDepth? depth ts).map fun e => i + e.inside.length) := by
  have hnext (e : Option Enclosed) (t : Token) (i : Nat) :
      (e.map fun e => i + 1 + e.inside.length) =
        (e.map (Enclosed.prepend t)).map fun e => i + e.inside.length := by
    cases e with
    | none => rfl
    | some e =>
        simp only [Option.map_some, Enclosed.prepend, List.length_cons, Option.some.injEq]
        omega
  induction ts generalizing depth i with
  | nil => rfl
  | cons t rest ih =>
      by_cases hopen : t.kind = .lparen
      · simp only [closerFrom, Enclosed.atDepth?, hopen]
        rw [ih, hnext _ t]
      · by_cases hclose : t.kind = .rparen
        · simp only [closerFrom, hclose, Checked.difference_add, Checked.ok_bind]
          cases depth with
          | zero => simp [Enclosed.atDepth?, hclose]
          | succ depth =>
              simp only [Enclosed.atDepth?, hclose, Nat.add_eq_zero_iff, Nat.succ_ne_self,
                and_false, if_false]
              rw [ih, hnext _ t]
        · rw [Enclosed.atDepth?_cons_of_ne hopen hclose, ← hnext, ← ih]
          rw [closerFrom.eq_def]
          split <;> simp_all

theorem closerAt_eq (ts : Tokens) (i : Nat) : ts.closerAt i = .ok (ts.closingParen? i) := by
  have hhere : ts.hasKindAt i .lparen = ((ts.drop i)[0]?.map Token.kind == some .lparen) := by
    simp [hasKindAt, kind?, Bool.beq_eq_decide_eq]
  unfold closerAt closingParen?
  cases hdrop : ts.drop i with
  | nil => simp [hhere, hdrop]
  | cons t rest =>
      by_cases hkind : t.kind = .lparen
      · have hopen : ts.hasKindAt i .lparen = true := by simp [hhere, hdrop, hkind]
        simp only [hopen, hkind, if_true, closerFrom, closerFrom_eq, Enclosed.ofTokens?]
      · have hopen : ts.hasKindAt i .lparen = false := by simp [hhere, hdrop, hkind]
        simp only [hopen, hkind, if_false, Bool.false_eq_true]

/-! ### The semicolons of a header -/

/-- Where the parts but the last end, when the first begins at `start`. -/
def partEnds (start : Nat) : List Tokens → List Nat
  | [] => []
  | [_] => []
  | part :: next :: parts =>
    (start + part.length) :: partEnds (start + part.length + 1) (next :: parts)

theorem length_partEnds (start : Nat) (part : Tokens) (parts : List Tokens) :
    (partEnds start (part :: parts)).length = parts.length := by
  induction parts generalizing start part with
  | nil => rfl
  | cons next parts ih => rw [partEnds, List.length_cons, ih, List.length_cons]

/-- The semicolons stand where the parts end. -/
theorem filter_range'_eq_partEnds (front inside rest : Tokens) :
    (List.range' front.length inside.length).filter
        (fun i => hasKindAt (front ++ inside ++ rest) i .semicolon) =
      partEnds front.length (clauses inside) := by
  induction inside generalizing front with
  | nil => rfl
  | cons t inside ih =>
      have hbehind := ih (front ++ [t])
      rw [List.length_append, List.length_singleton, List.append_assoc front, List.append_assoc,
        List.singleton_append, ← List.append_assoc] at hbehind
      have hhere : hasKindAt (front ++ t :: inside ++ rest) front.length .semicolon =
          decide (t.kind = .semicolon) := by
        simp [hasKindAt, kind?]
      rw [List.length_cons, List.range'_succ, List.filter_cons, hhere, hbehind, clauses]
      cases hparts : clauses inside with
      | nil => exact absurd hparts (clauses_ne_nil inside)
      | cons part parts =>
          by_cases hkind : t.kind = .semicolon
          · simp [hkind, partEnds]
          · cases parts with
            | nil => simp [hkind, partEnds]
            | cons next parts =>
                have hstart : front.length + 1 + part.length =
                    front.length + (part.length + 1) := by
                  omega
                simp only [hkind, decide_false, Bool.false_eq_true, if_false, partEnds,
                  List.length_cons, hstart]

/-- Of the numbers between two others only those of the tokens in between are left to look at. -/
theorem semicolonPositions_append {front : Tokens} {first : Nat} (h : front.length = first + 1)
    (inside rest : Tokens) :
    semicolonPositions (front ++ inside ++ rest) first (first + 1 + inside.length) =
      partEnds (first + 1) (clauses inside) := by
  have hparts := filter_range'_eq_partEnds front inside rest
  rw [h] at hparts
  have hbefore : ((List.range' 0 (first + 1)).filter fun i => first < i &&
      i < first + 1 + inside.length && hasKindAt (front ++ inside ++ rest) i .semicolon) = [] := by
    refine List.filter_eq_nil_iff.mpr fun i hi => ?_
    have hlast := (List.mem_range'_1.mp hi).2
    simp only [Bool.and_eq_true, decide_eq_true_eq]
    omega
  have hbehind : ((List.range' (first + 1 + inside.length) rest.length).filter fun i =>
      first < i && i < first + 1 + inside.length &&
        hasKindAt (front ++ inside ++ rest) i .semicolon) = [] := by
    refine List.filter_eq_nil_iff.mpr fun i hi => ?_
    have hfirst := (List.mem_range'_1.mp hi).1
    simp only [Bool.and_eq_true, decide_eq_true_eq]
    omega
  rw [semicolonPositions, List.range_eq_range', List.length_append, List.length_append, h,
    ← List.range'_append_1, ← List.range'_append_1, List.filter_append, List.filter_append,
    Nat.zero_add, Nat.zero_add, hbefore, hbehind, List.nil_append, List.append_nil, ← hparts]
  refine List.filter_congr fun i hi => ?_
  obtain ⟨hfirst, hlast⟩ := List.mem_range'_1.mp hi
  have hinside : (first < i && i < first + 1 + inside.length) = true := by
    simp only [Bool.and_eq_true, decide_eq_true_eq]
    omega
  rw [hinside, Bool.true_and]

/-! ### The header -/

/-- The layout of a header that is closed at `closer`, given its semicolons. -/
def layoutOf (k closer : Nat) : List Nat → Except HeaderFault HeaderLayout
  | [first, second] =>
    .ok ⟨k, k + 1, closer, ⟨k + 1 + 1, first⟩, ⟨first + 1, second⟩, ⟨second + 1, closer⟩⟩
  | semicolons => .error (.semicolons semicolons.length)

/-- The places of the header parts behind token number `k`, read by number. -/
def headerAt (ts : Tokens) (k : Nat) : Checked (Except HeaderFault HeaderLayout) :=
  if ts.hasKindAt (k + 1) .lparen then do
    match ← ts.closerAt (k + 1) with
    | none => return .error .notClosed
    | some closer => return layoutOf k closer (ts.semicolonPositions (k + 1) closer)
  else return .error .notOpened

theorem layoutOf_partEnds (k : Nat) (e : Enclosed) :
    layoutOf k (k + 1 + 1 + e.inside.length) (partEnds (k + 1 + 1) (clauses e.inside)) =
      (LoopHeader.ofEnclosed e).map (·.layout k) := by
  cases hh : LoopHeader.ofEnclosed e with
  | ok h =>
      have hparts : clauses e.inside = [h.init, h.condition, h.increment] := by
        unfold LoopHeader.ofEnclosed at hh
        split at hh <;> cases hh
        assumption
      obtain ⟨first, second, -, -, hinside, -, -⟩ := LoopHeader.eq_of_ofEnclosed hh
      have hlength : e.inside.length =
          h.init.length + 1 + h.condition.length + 1 + h.increment.length := by
        simp only [hinside, List.length_append, List.length_cons]
        omega
      simp only [hparts, partEnds, layoutOf, hlength, Except.map, LoopHeader.layout,
        Except.ok.injEq, HeaderLayout.mk.injEq, Span.mk.injEq, true_and]
      omega
  | error fault =>
      have hcount := length_clauses e.inside
      unfold LoopHeader.ofEnclosed at hh
      split at hh <;> cases hh
      next hthree =>
        -- One semicolon less than there are parts, and there are not three parts.
        cases hparts : clauses e.inside with
        | nil => exact absurd hparts (clauses_ne_nil _)
        | cons part parts =>
            have hends := length_partEnds (k + 1 + 1) part parts
            rw [hparts, List.length_cons] at hcount
            unfold layoutOf
            split
            · next hpair =>
                rw [hpair] at hends
                obtain ⟨second, third, rfl⟩ := List.length_eq_two.mp hends.symm
                exact absurd hparts (hthree part second third)
            · rw [hends, Nat.succ.inj hcount]
              rfl

/-- The numbers that come out are those of the parts that the tokens behind `k` fall into. -/
theorem headerAt_eq (ts : Tokens) (k : Nat) : ts.headerAt k = .ok (ts.headerLayout k) := by
  unfold headerAt headerLayout LoopHeader.ofTokens
  rw [closerAt_eq]
  cases hdrop : ts.drop (k + 1) with
  | nil =>
      have hopen : ts.hasKindAt (k + 1) .lparen = false := by
        simp [hasKindAt, kind?, List.drop_eq_nil_iff.mp hdrop]
      simp only [hopen, Bool.false_eq_true, if_false]
      rfl
  | cons t rest =>
      obtain ⟨front, rfl, hlength⟩ := exists_split_of_drop hdrop
      have hhere : hasKindAt (front ++ t :: rest) (k + 1) .lparen = decide (t.kind = .lparen) := by
        simp [hasKindAt, kind?, ← hlength]
      by_cases hkind : t.kind = .lparen
      · have hcloser := closingParen?_append hkind front rest
        rw [hlength] at hcloser
        simp only [hhere, hkind, decide_true, if_true, hcloser, Checked.ok_bind, parenthesis?]
        cases he : Enclosed.ofTokens? rest with
        | none => rfl
        | some e =>
            have hfront : (front ++ [t]).length = k + 1 + 1 := by simp [hlength]
            have hsemicolons :
                semicolonPositions (front ++ t :: rest) (k + 1) (k + 1 + 1 + e.inside.length) =
                  partEnds (k + 1 + 1) (clauses e.inside) := by
              rw [Enclosed.eq_of_ofTokens? he,
                ← semicolonPositions_append hfront e.inside (e.closer :: e.after)]
              simp
            simp only [Option.map_some, hsemicolons, layoutOf_partEnds]
            rfl
      · simp only [hhere, hkind, decide_false, Bool.false_eq_true, if_false, parenthesis?]
        rfl

end Tokens

end LessonCheck
