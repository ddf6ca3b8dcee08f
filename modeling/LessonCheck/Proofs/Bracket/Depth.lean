import LessonCheck.Proofs.Bracket.Matching

/-!
How deep the brackets of one sort are. The depth counts the openers that have been read and takes
the closers off, stray ones too, so that it can fall below zero. A token moves the stack of open
brackets and the depth together, except for a stray closer, which lowers the depth and leaves the
empty stack alone. So the stack is as high as the depth is above the lowest that it has been, and an
opener is on the stack for as long as the depth has not come back to what it was in front of the
opener.
-/

namespace LessonCheck

/-- One item is put with the stray closers of a bracket, or they stay as they are. -/
theorem Nesting.strays_read {α : Type} (kind : α → Token.Kind) (n : Nesting α) (x : α)
    (b : Bracket) :
    (n.read kind x).strays.filter (·.2 = b) =
      if kind x = b.closerKind ∧ n.waiting b = [] then (x, b) :: n.strays.filter (·.2 = b)
      else n.strays.filter (·.2 = b) := by
  unfold read
  cases hkind : kind x with
  | rparen => cases hparens : n.parens <;> cases b <;> simp [Bracket.openedBy?, Bracket.closedBy?,
      Bracket.closerKind, waiting, setWaiting, hparens]
  | rbrace => cases hbraces : n.braces <;> cases b <;> simp [Bracket.openedBy?, Bracket.closedBy?,
      Bracket.closerKind, waiting, setWaiting, hbraces]
  | _ => cases b <;> rfl

namespace Tokens

variable {ts : Tokens} {b : Bracket} {i m n : Nat} {t : Token}

/-- The openers among the first `n` tokens, less the closers. -/
def depth (b : Bracket) (ts : Tokens) (n : Nat) : Int :=
  (ts.take n).countP (·.kind = b.openerKind) - (ts.take n).countP (·.kind = b.closerKind)

@[simp] theorem depth_zero (b : Bracket) (ts : Tokens) : ts.depth b 0 = 0 := rfl

theorem depth_of_length_le (h : ts.length ≤ n) : ts.depth b n = ts.depth b ts.length := by
  rw [depth, depth, List.take_of_length_le h, List.take_length]

theorem depth_succ (h : ts[n]? = some t) :
    ts.depth b (n + 1) =
      if t.kind = b.openerKind then ts.depth b n + 1
      else if t.kind = b.closerKind then ts.depth b n - 1 else ts.depth b n := by
  have hne := b.openerKind_ne_closerKind b
  simp only [depth, List.take_add_one, h, Option.toList_some, List.countP_append,
    List.countP_singleton, decide_eq_true_eq]
  split
  · next hopen =>
      rw [if_neg (hopen ▸ hne)]
      omega
  · split <;> omega

/-! ### One token -/

theorem strays_succ (h : ts[n]? = some t) :
    ts.strays b (n + 1) =
      if t.kind = b.closerKind ∧ ts.waiting b n = [] then n :: ts.strays b n
      else ts.strays b n := by
  have hempty : ts.waiting b n = [] ↔ (ts.nestingBefore n).waiting b = [] := List.map_eq_nil_iff
  rw [strays, nestingBefore_succ h, Nesting.strays_read]
  simp only [hempty]
  split <;> rfl

/-- What token number `n` does to the brackets of one sort. -/
inductive BracketStep (b : Bracket) (ts : Tokens) (n : Nat) : Prop
  | opens : ts.hasKindAt n b.openerKind = true → ts.waiting b (n + 1) = n :: ts.waiting b n →
      ts.strays b (n + 1) = ts.strays b n → ts.depth b (n + 1) = ts.depth b n + 1 →
      BracketStep b ts n
  | closes {i : Nat} : ts.hasKindAt n b.closerKind = true →
      ts.waiting b n = i :: ts.waiting b (n + 1) → ts.strays b (n + 1) = ts.strays b n →
      ts.depth b (n + 1) = ts.depth b n - 1 → BracketStep b ts n
  | strays : ts.hasKindAt n b.closerKind = true → ts.waiting b n = [] → ts.waiting b (n + 1) = [] →
      ts.strays b (n + 1) = n :: ts.strays b n → ts.depth b (n + 1) = ts.depth b n - 1 →
      BracketStep b ts n
  | passes : ts.hasKindAt n b.openerKind = false → ts.hasKindAt n b.closerKind = false →
      ts.waiting b (n + 1) = ts.waiting b n → ts.strays b (n + 1) = ts.strays b n →
      ts.depth b (n + 1) = ts.depth b n → BracketStep b ts n

theorem bracketStep (b : Bracket) (ts : Tokens) (n : Nat) : BracketStep b ts n := by
  cases ht : ts[n]? with
  | none =>
      have hend : ts.length ≤ n := List.getElem?_eq_none_iff.mp ht
      have hkind (kind : Token.Kind) : ts.hasKindAt n kind = false := by simp [hasKindAt, kind?, ht]
      refine .passes (hkind _) (hkind _) (waiting_succ_of_length_le hend) ?_ ?_
      · rw [strays, strays, nestingBefore_of_length_le hend,
          nestingBefore_of_length_le (Nat.le_succ_of_le hend)]
      · rw [depth_of_length_le hend, depth_of_length_le (Nat.le_succ_of_le hend)]
  | some t =>
      have hkind (kind : Token.Kind) : ts.hasKindAt n kind = decide (t.kind = kind) := by
        simp [hasKindAt, kind?, ht]
      have hwaiting := waiting_succ (b := b) ht
      have hstrays := strays_succ (b := b) ht
      have hdepth := depth_succ (b := b) ht
      by_cases hopen : t.kind = b.openerKind
      · have hclose : t.kind ≠ b.closerKind := hopen ▸ b.openerKind_ne_closerKind b
        rw [if_pos hopen] at hwaiting hdepth
        rw [if_neg fun h => hclose h.1] at hstrays
        exact .opens (by simp [hkind, hopen]) hwaiting hstrays hdepth
      · rw [if_neg hopen] at hwaiting hdepth
        by_cases hclose : t.kind = b.closerKind
        · rw [if_pos hclose] at hwaiting hdepth
          have hcloser : ts.hasKindAt n b.closerKind = true := by simp [hkind, hclose]
          cases hstack : ts.waiting b n with
          | nil =>
              rw [if_pos ⟨hclose, hstack⟩] at hstrays
              rw [hstack, List.tail_nil] at hwaiting
              exact .strays hcloser hstack hwaiting hstrays hdepth
          | cons i below =>
              rw [if_neg fun h => List.cons_ne_nil i below (hstack.symm.trans h.2)] at hstrays
              rw [hstack, List.tail_cons] at hwaiting
              exact .closes hcloser (by rw [hstack, hwaiting]) hstrays hdepth
        · rw [if_neg hclose] at hwaiting hdepth
          rw [if_neg fun h => hclose h.1] at hstrays
          exact .passes (by simp [hkind, hopen]) (by simp [hkind, hclose]) hwaiting hstrays hdepth

/-! ### The height of the stack -/

@[simp] theorem strays_zero (b : Bracket) (ts : Tokens) : ts.strays b 0 = [] := rfl

/-- Every stray closer leaves the stack one higher than the depth says. -/
theorem length_waiting (b : Bracket) (ts : Tokens) (n : Nat) :
    ((ts.waiting b n).length : Int) = ts.depth b n + (ts.strays b n).length := by
  induction n with
  | zero => simp
  | succ n ih =>
      cases bracketStep b ts n with
      | opens _ hwaiting hstrays hdepth =>
          rw [hwaiting, hstrays, hdepth, List.length_cons]
          omega
      | closes _ hwaiting hstrays hdepth =>
          rw [hwaiting, List.length_cons] at ih
          rw [hstrays, hdepth]
          omega
      | strays _ hbefore hwaiting hstrays hdepth =>
          rw [hbefore, List.length_nil] at ih
          rw [hwaiting, hstrays, hdepth, List.length_nil, List.length_cons]
          omega
      | passes _ _ hwaiting hstrays hdepth => rw [hwaiting, hstrays, hdepth, ih]

theorem length_strays_le (b : Bracket) (ts : Tokens) (h : m ≤ n) :
    (ts.strays b m).length ≤ (ts.strays b n).length := by
  induction h with
  | refl => exact Nat.le_refl _
  | @step n _ ih =>
      refine Nat.le_trans ih ?_
      cases bracketStep b ts n with
      | opens _ _ hstrays _ => exact Nat.le_of_eq (by rw [hstrays])
      | closes _ _ hstrays _ => exact Nat.le_of_eq (by rw [hstrays])
      | strays _ _ _ hstrays _ =>
          rw [hstrays, List.length_cons]
          exact Nat.le_succ _
      | passes _ _ _ hstrays _ => exact Nat.le_of_eq (by rw [hstrays])

/-- The depth has never been lower than the stray closers have taken it. -/
theorem neg_length_strays_le (b : Bracket) (ts : Tokens) (h : m ≤ n) :
    -((ts.strays b n).length : Int) ≤ ts.depth b m := by
  have hheight := length_waiting b ts m
  have hle := length_strays_le b ts h
  omega

theorem exists_depth_eq (b : Bracket) (ts : Tokens) (n : Nat) :
    ∃ m ≤ n, ts.depth b m = -((ts.strays b n).length : Int) := by
  induction n with
  | zero => exact ⟨0, Nat.le_refl 0, by simp⟩
  | succ n ih =>
      obtain ⟨m, hm, hdepth⟩ := ih
      cases bracketStep b ts n with
      | opens _ _ hstrays _ => exact ⟨m, Nat.le_succ_of_le hm, by rw [hstrays, hdepth]⟩
      | closes _ _ hstrays _ => exact ⟨m, Nat.le_succ_of_le hm, by rw [hstrays, hdepth]⟩
      | strays _ _ hwaiting _ _ =>
          have hheight := length_waiting b ts (n + 1)
          rw [hwaiting, List.length_nil] at hheight
          exact ⟨n + 1, Nat.le_refl _, by omega⟩
      | passes _ _ _ hstrays _ => exact ⟨m, Nat.le_succ_of_le hm, by rw [hstrays, hdepth]⟩

theorem mem_strays_iff :
    i ∈ ts.strays b n ↔ i < n ∧ ts.hasKindAt i b.closerKind = true ∧ ts.waiting b i = [] := by
  induction n with
  | zero => simp
  | succ n ih =>
      have hearlier (h : ¬ (ts.hasKindAt n b.closerKind = true ∧ ts.waiting b n = []))
          (hstrays : ts.strays b (n + 1) = ts.strays b n) :
          i ∈ ts.strays b (n + 1) ↔
            i < n + 1 ∧ ts.hasKindAt i b.closerKind = true ∧ ts.waiting b i = [] := by
        rw [hstrays, ih, Nat.lt_succ_iff_lt_or_eq, or_and_right, or_iff_left]
        rintro ⟨rfl, hstray⟩
        exact h hstray
      cases bracketStep b ts n with
      | opens hopen _ hstrays _ =>
          exact hearlier (fun h => b.openerKind_ne_closerKind b (kind_unique hopen h.1)) hstrays
      | closes _ hwaiting hstrays _ =>
          exact hearlier (fun h => List.cons_ne_nil _ _ (hwaiting.symm.trans h.2)) hstrays
      | strays hclose hbefore _ hstrays _ =>
          rw [hstrays, List.mem_cons, ih, Nat.lt_succ_iff_lt_or_eq, or_and_right, or_comm]
          refine or_congr_right ⟨?_, fun h => h.1⟩
          rintro rfl
          exact ⟨rfl, hclose, hbefore⟩
      | passes _ hclose _ hstrays _ =>
          exact hearlier (fun h => Bool.false_ne_true (hclose.symm.trans h.1)) hstrays

/-! ### The depth over an opener -/

/-- While an opener is on the stack, the depth is above its level by the openers above it. -/
theorem exists_above (h : i ∈ ts.waiting b n) :
    ∃ above, ts.waiting b n = above ++ i :: ts.waiting b i ∧
      ts.depth b n = ts.depth b i + 1 + above.length := by
  induction n with
  | zero => simp at h
  | succ n ih =>
      have hstep := bracketStep b ts n
      rcases mem_waiting_of_succ h with rfl | hi
      · -- Only the step that reads an opener puts its position on the stack.
        have hnew : i ∉ ts.waiting b i := fun hi => Nat.lt_irrefl i (lt_of_mem_waiting hi)
        cases hstep with
        | opens _ hwaiting _ hdepth => exact ⟨[], hwaiting, by simp [hdepth]⟩
        | closes _ hwaiting _ _ => exact absurd (hwaiting ▸ List.mem_cons_of_mem _ h) hnew
        | strays _ _ hwaiting _ _ => simp [hwaiting] at h
        | passes _ _ hwaiting _ _ => exact absurd (hwaiting ▸ h) hnew
      · obtain ⟨above, hstack, habove⟩ := ih hi
        cases hstep with
        | opens _ hwaiting _ hdepth =>
            refine ⟨n :: above, by rw [hwaiting, hstack, List.cons_append], ?_⟩
            rw [hdepth, habove, List.length_cons]
            omega
        | @closes top _ hwaiting _ hdepth =>
            rw [hwaiting] at hstack
            cases above with
            | nil =>
                obtain ⟨-, hbelow⟩ := List.cons.inj hstack
                rw [hbelow] at h
                exact absurd (lt_of_mem_waiting h) (Nat.lt_irrefl i)
            | cons u above =>
                refine ⟨above, (List.cons.inj hstack).2, ?_⟩
                rw [hdepth, habove, List.length_cons]
                omega
        | strays _ hbefore _ _ _ => simp [hbefore] at hi
        | passes _ _ hwaiting _ hdepth => exact ⟨above, hwaiting ▸ hstack, hdepth ▸ habove⟩

theorem depth_lt_of_mem_waiting (h : i ∈ ts.waiting b n) : ts.depth b i < ts.depth b n := by
  obtain ⟨above, -, hdepth⟩ := exists_above h
  omega

/-- When an opener has gone from the stack, the depth has come back to its level. -/
theorem exists_return (hmn : m ≤ n) (hm : i ∈ ts.waiting b m) (hn : i ∉ ts.waiting b n) :
    ∃ k, m < k ∧ k ≤ n ∧ ts.depth b k = ts.depth b i := by
  induction hmn with
  | refl => exact absurd hm hn
  | @step n hmn ih =>
      by_cases hi : i ∈ ts.waiting b n
      · obtain ⟨above, hstack, habove⟩ := exists_above hi
        refine ⟨n + 1, Nat.lt_succ_of_le hmn, Nat.le_refl _, ?_⟩
        cases bracketStep b ts n with
        | opens _ hwaiting _ _ => exact absurd (hwaiting ▸ List.mem_cons_of_mem n hi) hn
        | @closes top _ hwaiting _ hdepth =>
            rw [hwaiting] at hstack
            cases above with
            | nil =>
                rw [hdepth, habove, List.length_nil]
                omega
            | cons u above =>
                rw [(List.cons.inj hstack).2] at hn
                simp at hn
        | strays _ hbefore _ _ _ => simp [hbefore] at hi
        | passes _ _ hwaiting _ _ => exact absurd (hwaiting ▸ hi) hn
      · obtain ⟨k, hmk, hkn, hdepth⟩ := ih hi
        exact ⟨k, hmk, Nat.le_succ_of_le hkn, hdepth⟩

theorem mem_waiting_succ_self (h : ts.hasKindAt i b.openerKind = true) :
    i ∈ ts.waiting b (i + 1) := by
  have hne (hclose : ts.hasKindAt i b.closerKind = true) : False :=
    b.openerKind_ne_closerKind b (kind_unique h hclose)
  cases bracketStep b ts i with
  | opens _ hwaiting _ _ => exact hwaiting ▸ List.mem_cons_self
  | closes hclose _ _ _ => exact (hne hclose).elim
  | strays hclose _ _ _ _ => exact (hne hclose).elim
  | passes hopen _ _ _ _ => exact absurd h (by simp [hopen])

/-- An opener is on the stack until the depth comes back to its level. -/
theorem mem_waiting_iff :
    i ∈ ts.waiting b n ↔ i < n ∧ ts.hasKindAt i b.openerKind = true ∧
      ∀ m, i < m → m ≤ n → ts.depth b m ≠ ts.depth b i := by
  constructor
  · intro h
    refine ⟨lt_of_mem_waiting h, hasKindAt_of_mem_waiting h, fun m him hmn => ?_⟩
    exact Int.ne_of_gt (depth_lt_of_mem_waiting (mem_waiting_of_le him hmn h))
  · rintro ⟨hin, hopen, hreturn⟩
    by_contra hgone
    obtain ⟨k, hik, hkn, hdepth⟩ := exists_return hin (mem_waiting_succ_self hopen) hgone
    exact hreturn k (Nat.lt_of_succ_lt hik) hkn hdepth

/-! ### The closing parenthesis -/

/-- The closer at position `c` is the first behind which the depth of the parentheses is back at
what it is in front of the opener at position `i`. -/
structure ClosedBy (ts : Tokens) (i c : Nat) : Prop where
  opener : ts.hasKindAt i .lparen = true
  closer : ts.hasKindAt c .rparen = true
  behind : i < c
  returns : ts.depth .paren (c + 1) = ts.depth .paren i
  first (m : Nat) : i < m → m ≤ c → ts.depth .paren m ≠ ts.depth .paren i

theorem Pops.closedBy {c : Nat} (h : ts.Pops i c) : ts.ClosedBy i c := by
  have hon : i ∈ ts.waiting .paren c := h.mem
  have hoff : i ∉ ts.waiting .paren (c + 1) := h.not_mem (Nat.lt_succ_self c)
  obtain ⟨-, hopen, hfirst⟩ := mem_waiting_iff.mp hon
  obtain ⟨k, hck, hkc, hdepth⟩ := exists_return (Nat.le_succ c) hon hoff
  obtain rfl : k = c + 1 := Nat.le_antisymm hkc hck
  exact ⟨hopen, h.closer, h.lt, hdepth, hfirst⟩

theorem ClosedBy.pops {c : Nat} (h : ts.ClosedBy i c) : ts.Pops i c := by
  have hon : i ∈ ts.waiting .paren c := mem_waiting_iff.mpr ⟨h.behind, h.opener, h.first⟩
  have hoff : i ∉ ts.waiting .paren (c + 1) := fun hi =>
    Int.ne_of_gt (depth_lt_of_mem_waiting hi) h.returns
  refine ⟨h.closer, ?_⟩
  cases bracketStep .paren ts c with
  | opens hopen _ _ _ => cases kind_unique hopen h.closer
  | closes _ hwaiting _ _ =>
      rw [hwaiting] at hon
      obtain rfl := (List.mem_cons.mp hon).resolve_right hoff
      exact hwaiting
  | strays _ hbefore _ _ _ => simp [hbefore] at hon
  | passes _ _ hwaiting _ _ => exact absurd (hwaiting ▸ hon) hoff

/-- The search for the closer of a parenthesis finds the one at which the depth comes back. -/
theorem closingParen?_eq_some_iff_closedBy {c : Nat} :
    ts.closingParen? i = some c ↔ ts.ClosedBy i c :=
  closingParen?_eq_some_iff.trans ⟨Pops.closedBy, ClosedBy.pops⟩

end Tokens

end LessonCheck
