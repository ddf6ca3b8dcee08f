import LessonCheck.Proofs.Bracket.Depth
import Mathlib.Combinatorics.Enumerative.DyckWord
import Mathlib.Order.Bounds.Defs

/-!
Which brackets are unmatched, told by counting. A closer is unmatched if with it the closers exceed
the openers by more than ever before, and an opener is unmatched if the depth never comes back to
its level. So as many closers are reported as the closers ever exceed the openers by, and the
openers reported make up the difference. The parentheses and the braces are counted apart, and
nothing is reported if and only if both form balanced words.
-/

namespace LessonCheck

/-! ### One sort of bracket -/

namespace Bracket

def owns (b : Bracket) (kind : Token.Kind) : Bool := kind = b.openerKind || kind = b.closerKind

/-- The way up or down that a token goes. -/
def step? (b : Bracket) (t : Token) : Option DyckStep :=
  if t.kind = b.openerKind then some .U else if t.kind = b.closerKind then some .D else none

end Bracket

def BracketProblem.bracket : BracketProblem → Bracket
  | .unmatchedCloser b => b
  | .unmatchedOpener b => b

namespace Nesting

variable {α : Type} (kind : α → Token.Kind)

/-- What the matching holds of one sort of bracket. -/
def only (b : Bracket) (n : Nesting α) : Nesting α :=
  { empty.setWaiting b (n.waiting b) with strays := n.strays.filter (·.2 = b) }

theorem only_empty (b : Bracket) : (empty : Nesting α).only b = empty := by
  cases b <;> rfl

theorem read_only (b : Bracket) (n : Nesting α) (x : α) :
    (n.read kind x).only b = if b.owns (kind x) then (n.only b).read kind x else n.only b := by
  unfold read
  cases hkind : kind x with
  | rparen =>
      cases hparens : n.parens <;> cases b <;>
        simp [only, Bracket.owns, Bracket.openedBy?, Bracket.closedBy?, Bracket.openerKind,
          Bracket.closerKind, waiting, setWaiting, hparens, empty]
  | rbrace =>
      cases hbraces : n.braces <;> cases b <;>
        simp [only, Bracket.owns, Bracket.openedBy?, Bracket.closedBy?, Bracket.openerKind,
          Bracket.closerKind, waiting, setWaiting, hbraces, empty]
  | _ => cases b <;> rfl

/-- Other tokens have no part in the matching of one sort of bracket. -/
theorem readAll_only (b : Bracket) (n : Nesting α) (xs : List α) :
    (n.readAll kind xs).only b = (n.only b).readAll kind (xs.filter fun x => b.owns (kind x)) := by
  induction xs generalizing n with
  | nil => rfl
  | cons x xs ih =>
      have hrest := ih (n.read kind x)
      rw [read_only] at hrest
      cases hown : b.owns (kind x) with
      | true => simpa [readAll, hown] using hrest
      | false => simpa [readAll, hown] using hrest

/-- An item is put with the stray closers, or they stay as they are. -/
theorem strays_read_eq_or (n : Nesting α) (x : α) :
    (n.read kind x).strays = n.strays ∨ ∃ b, (n.read kind x).strays = (x, b) :: n.strays := by
  unfold read
  split
  · next b _ => cases b <;> exact Or.inl rfl
  · next b _ _ =>
      split
      · exact Or.inr ⟨b, rfl⟩
      · cases b <;> exact Or.inl rfl
  · exact Or.inl rfl

/-- The stray closers come in reading order. -/
theorem sublist_strays (n : Nesting α) (xs : List α) :
    ((n.readAll kind xs).strays.reverse.map Prod.fst).Sublist
      (n.strays.reverse.map Prod.fst ++ xs) := by
  induction xs generalizing n with
  | nil => simp [readAll]
  | cons x xs ih =>
      refine (ih (n.read kind x)).trans ?_
      rcases strays_read_eq_or kind n x with hsame | ⟨b, hnew⟩
      · rw [hsame]
        exact (List.sublist_cons_self x xs).append_left _
      · simp [hnew]

theorem unmatched_only (b : Bracket) (n : Nesting α) :
    (n.only b).unmatched = n.unmatched.filter (·.2.bracket = b) := by
  cases b <;> simp [only, unmatched, waiting, setWaiting, empty, List.filter_map,
    Function.comp_def, BracketProblem.bracket] <;> rfl

end Nesting

namespace Tokens

variable {ts : Tokens} {b : Bracket} {i n : Nat}

/-- The brackets of one sort are judged as if there were no other tokens. -/
theorem filter_bracket (b : Bracket) (ts : Tokens) :
    ts.bracketProblems.filter (·.problem.bracket = b) =
      Tokens.bracketProblems (ts.filter fun t => b.owns t.kind) := by
  have hread := Nesting.readAll_only Token.kind b Nesting.empty ts
  rw [Nesting.only_empty] at hread
  rw [bracketProblems, bracketProblems, ← hread, Nesting.unmatched_only, List.filter_map]
  rfl

/-! ### Positions -/

/-- The closers among the first `n` tokens, less the openers. -/
def excess (b : Bracket) (ts : Tokens) (n : Nat) : Int :=
  (ts.take n).countP (·.kind = b.closerKind) - (ts.take n).countP (·.kind = b.openerKind)

theorem excess_eq_neg_depth (b : Bracket) (ts : Tokens) (n : Nat) :
    ts.excess b n = -ts.depth b n := by
  rw [excess, depth]
  omega

/-- The closer at position `i` takes the closers further above the openers than ever before it. -/
structure Exceeds (b : Bracket) (ts : Tokens) (i : Nat) : Prop where
  closer : ts.hasKindAt i b.closerKind = true
  positive : 0 < ts.excess b (i + 1)
  highest (m : Nat) : m ≤ i → ts.excess b m < ts.excess b (i + 1)

/-- Behind the opener at position `i` the depth is never again what it is in front of it. -/
structure StaysOpen (b : Bracket) (ts : Tokens) (i : Nat) : Prop where
  opener : ts.hasKindAt i b.openerKind = true
  above (m : Nat) : i < m → m ≤ ts.length → ts.depth b m ≠ ts.depth b i

theorem mem_waiting_length_iff : i ∈ ts.waiting b ts.length ↔ ts.StaysOpen b i := by
  refine mem_waiting_iff.trans ⟨fun h => ⟨h.2.1, h.2.2⟩, fun h => ?_⟩
  exact ⟨lt_length_of_hasKindAt h.opener, h.opener, h.above⟩

/-- A closer takes the depth down by one. -/
theorem depth_succ_of_closer (h : ts.hasKindAt i b.closerKind = true) :
    ts.depth b (i + 1) = ts.depth b i - 1 := by
  obtain ⟨t, ht, hkind⟩ := hasKindAt_iff.mp h
  rw [depth_succ ht, if_neg fun hopen => b.openerKind_ne_closerKind b (hopen.symm.trans hkind),
    if_pos hkind]

/-- A closer finds the stack empty exactly if the depth has never been lower. -/
theorem mem_strays_length_iff : i ∈ ts.strays b ts.length ↔ ts.Exceeds b i := by
  rw [mem_strays_iff]
  have hheight := length_waiting b ts i
  constructor
  · rintro ⟨-, hcloser, hempty⟩
    have hdown := depth_succ_of_closer hcloser
    rw [hempty, List.length_nil] at hheight
    have hhighest (m : Nat) (hm : m ≤ i) : ts.excess b m < ts.excess b (i + 1) := by
      have hlow := neg_length_strays_le b ts hm
      rw [excess_eq_neg_depth, excess_eq_neg_depth]
      omega
    exact ⟨hcloser, hhighest 0 (Nat.zero_le i), hhighest⟩
  · rintro ⟨hcloser, -, hhighest⟩
    refine ⟨lt_length_of_hasKindAt hcloser, hcloser, List.eq_nil_of_length_eq_zero ?_⟩
    have hdown := depth_succ_of_closer hcloser
    obtain ⟨m, hm, hlowest⟩ := exists_depth_eq b ts i
    have hless := hhighest m hm
    rw [excess_eq_neg_depth, excess_eq_neg_depth] at hless
    omega

theorem mem_strayClosers_iff : (i, b) ∈ ts.strayClosers ↔ ts.Exceeds b i := by
  rw [← mem_strays_length_iff]
  simp [strayClosers, strays]

theorem pairwise_strayClosers (ts : Tokens) : ts.strayClosers.Pairwise (·.1 < ·.1) := by
  have hsub := (Nesting.sublist_strays (fun x : Token × Nat => x.1.kind) .empty
    (ts.zipIdx.take ts.length)).map Prod.snd
  have hbelow : ((ts.zipIdx.take ts.length).map Prod.snd).Pairwise (· < ·) := by
    rw [List.take_of_length_le (by simp), List.zipIdx_map_snd]
    exact List.pairwise_lt_range'
  have hpositions := hbelow.sublist hsub
  simp only [List.map_map, List.pairwise_map] at hpositions
  rw [strayClosers, ← List.map_reverse, List.pairwise_map]
  exact hpositions

/-! ### Counts -/

theorem countP_unmatchedCloser (b : Bracket) (ts : Tokens) :
    ts.bracketProblems.countP (·.problem = .unmatchedCloser b) =
      (ts.strays b ts.length).length := by
  rw [bracketProblems, readAll_eq_map, Nesting.unmatched_map, strays, List.length_map,
    ← List.countP_eq_length_filter]
  simp [Nesting.unmatched, List.countP_map, Function.comp_def]

theorem countP_unmatchedOpener (b : Bracket) (ts : Tokens) :
    ts.bracketProblems.countP (·.problem = .unmatchedOpener b) =
      (ts.waiting b ts.length).length := by
  rw [bracketProblems, readAll_eq_map, Nesting.unmatched_map]
  cases b <;> simp [Nesting.unmatched, waiting, Nesting.waiting, List.countP_map,
    Function.comp_def]

/-- The stray closers number as many as the closers ever exceed the openers. -/
theorem isGreatest_excess (b : Bracket) (ts : Tokens) :
    IsGreatest (Set.range (ts.excess b)) ((ts.strays b ts.length).length : Int) := by
  constructor
  · obtain ⟨m, -, hlowest⟩ := exists_depth_eq b ts ts.length
    exact ⟨m, by rw [excess_eq_neg_depth, hlowest, neg_neg]⟩
  · rintro _ ⟨n, rfl⟩
    have hlow (m : Nat) (hm : m ≤ ts.length) :=
      neg_length_strays_le b ts hm
    rw [excess_eq_neg_depth]
    rcases Nat.le_total n ts.length with hn | hn
    · have := hlow n hn
      omega
    · have := hlow ts.length (Nat.le_refl _)
      rw [depth_of_length_le hn]
      omega

/-! ### Balanced words -/

/-- The brackets of one sort as a walk up and down. -/
def bracketWord (b : Bracket) (ts : Tokens) : List DyckStep := ts.filterMap b.step?

/-- The brackets of one sort are a balanced word. -/
def IsBalanced (b : Bracket) (ts : Tokens) : Prop := ∃ w : DyckWord, w.toList = ts.bracketWord b

theorem count_up (b : Bracket) (ts : Tokens) :
    (ts.bracketWord b).count .U = ts.countP (·.kind = b.openerKind) := by
  have hne := b.openerKind_ne_closerKind b
  rw [bracketWord, List.count, List.countP_filterMap]
  refine List.countP_congr fun t _ => ?_
  unfold Bracket.step?
  split
  · simp [*]
  · split <;> simp [hne.symm, *]

theorem count_down (b : Bracket) (ts : Tokens) :
    (ts.bracketWord b).count .D = ts.countP (·.kind = b.closerKind) := by
  have hne := b.openerKind_ne_closerKind b
  rw [bracketWord, List.count, List.countP_filterMap]
  refine List.countP_congr fun t _ => ?_
  unfold Bracket.step?
  split
  · simp [*]
  · split <;> simp [*]

theorem depth_eq_count (b : Bracket) (ts : Tokens) (n : Nat) :
    ts.depth b n = (bracketWord b (ts.take n)).count .U - (bracketWord b (ts.take n)).count .D := by
  rw [count_up, count_down, depth]

theorem isBalanced_iff :
    ts.IsBalanced b ↔ (∀ n, 0 ≤ ts.depth b n) ∧ ts.depth b ts.length = 0 := by
  have hend : bracketWord b (ts.take ts.length) = ts.bracketWord b := by rw [List.take_length]
  constructor
  · rintro ⟨w, hw⟩
    refine ⟨fun n => ?_, ?_⟩
    · have hprefix : bracketWord b (ts.take n) <+: ts.bracketWord b :=
        (List.take_prefix n ts).filterMap b.step?
      have hle := w.count_D_le_count_U (bracketWord b (ts.take n)).length
      rw [hw, ← List.prefix_iff_eq_take.mp hprefix] at hle
      rw [depth_eq_count]
      omega
    · have heq := w.count_U_eq_count_D
      rw [hw] at heq
      rw [depth_eq_count, hend]
      omega
  · rintro ⟨hnonneg, hzero⟩
    refine ⟨⟨ts.bracketWord b, ?_, fun n => ?_⟩, rfl⟩
    · rw [depth_eq_count, hend] at hzero
      omega
    · obtain ⟨part, hpart, hword⟩ :=
        List.prefix_filterMap_iff.mp (List.take_prefix n (ts.bracketWord b))
      have hdepth := hnonneg part.length
      rw [depth_eq_count, ← List.prefix_iff_eq_take.mp hpart] at hdepth
      change (List.take n _).count _ ≤ (List.take n _).count _
      rw [hword]
      change (bracketWord b part).count _ ≤ (bracketWord b part).count _
      omega

/-! ### All reports -/

/-- The closers, each with its sort, and the openers of each sort that are reported: which they are,
in which order they come, and what is reported of them. -/
structure ReportsBrackets (ts : Tokens) (closers : List (Nat × Bracket))
    (openers : Bracket → List Nat) : Prop where
  closers_inOrder : closers.Pairwise (·.1 < ·.1)
  mem_closers (i : Nat) (b : Bracket) : (i, b) ∈ closers ↔ ts.Exceeds b i
  openers_inOrder (b : Bracket) : (openers b).Pairwise (· < ·)
  mem_openers (b : Bracket) (i : Nat) : i ∈ openers b ↔ ts.StaysOpen b i
  reports : ts.bracketProblems =
    closers.filterMap (fun s => ts.reportAt (.unmatchedCloser s.2) s.1) ++
      (openers .paren).filterMap (ts.reportAt (.unmatchedOpener .paren)) ++
      (openers .brace).filterMap (ts.reportAt (.unmatchedOpener .brace))

theorem reportsBrackets (ts : Tokens) :
    ts.ReportsBrackets ts.strayClosers fun b => (ts.waiting b ts.length).reverse where
  closers_inOrder := pairwise_strayClosers ts
  mem_closers _ _ := mem_strayClosers_iff
  openers_inOrder b := List.pairwise_reverse.mpr (pairwise_waiting b ts ts.length).of_cons
  mem_openers _ _ := List.mem_reverse.trans mem_waiting_length_iff
  reports := bracketProblems_eq ts

theorem bracketProblems_eq_nil_iff {ts : Tokens} :
    ts.bracketProblems = [] ↔ ∀ b, ts.strays b ts.length = [] ∧ ts.waiting b ts.length = [] := by
  constructor
  · intro h b
    have hclosers := countP_unmatchedCloser b ts
    have hopeners := countP_unmatchedOpener b ts
    rw [h, List.countP_nil] at hclosers hopeners
    exact ⟨List.eq_nil_of_length_eq_zero hclosers.symm, List.eq_nil_of_length_eq_zero hopeners.symm⟩
  · intro h
    refine List.eq_nil_iff_forall_not_mem.mpr fun d hd => ?_
    have hcount : 0 < ts.bracketProblems.countP (·.problem = d.problem) :=
      List.countP_pos_iff.mpr ⟨d, hd, by simp⟩
    cases hproblem : d.problem with
    | unmatchedCloser b =>
        rw [hproblem, countP_unmatchedCloser, (h b).1] at hcount
        exact Nat.lt_irrefl 0 hcount
    | unmatchedOpener b =>
        rw [hproblem, countP_unmatchedOpener, (h b).2] at hcount
        exact Nat.lt_irrefl 0 hcount

/-- No bracket of one sort is unmatched exactly if those brackets are a balanced word. -/
theorem unmatched_eq_nil_iff :
    ts.strays b ts.length = [] ∧ ts.waiting b ts.length = [] ↔ ts.IsBalanced b := by
  have hheight := length_waiting b ts ts.length
  rw [isBalanced_iff]
  constructor
  · rintro ⟨hstrays, hwaiting⟩
    rw [hstrays, hwaiting] at hheight
    refine ⟨fun n => ?_, by simpa using hheight.symm⟩
    have hmost := (isGreatest_excess b ts).2 ⟨n, rfl⟩
    rw [hstrays, excess_eq_neg_depth] at hmost
    simpa using hmost
  · rintro ⟨hnonneg, hend⟩
    obtain ⟨m, hm⟩ := (isGreatest_excess b ts).1
    have hlow := hnonneg m
    rw [excess_eq_neg_depth] at hm
    have hnone : (ts.strays b ts.length).length = 0 := by omega
    rw [hend, hnone] at hheight
    have hwaiting : (ts.waiting b ts.length).length = 0 := by simpa using hheight
    exact ⟨List.eq_nil_of_length_eq_zero hnone, List.eq_nil_of_length_eq_zero hwaiting⟩

/-- What the check of the brackets reports, by counting. -/
structure BracketSymmetry (ts : Tokens) : Prop where
  separate (b : Bracket) : ts.bracketProblems.filter (·.problem.bracket = b) =
    Tokens.bracketProblems (ts.filter fun t => b.owns t.kind)
  identified : ∃ closers openers, ts.ReportsBrackets closers openers
  closers (b : Bracket) : IsGreatest (Set.range (ts.excess b))
    (ts.bracketProblems.countP (·.problem = .unmatchedCloser b) : Int)
  openers (b : Bracket) :
    (ts.bracketProblems.countP (·.problem = .unmatchedOpener b) : Int) =
      ts.countP (·.kind = b.openerKind) - ts.countP (·.kind = b.closerKind) +
        ts.bracketProblems.countP (·.problem = .unmatchedCloser b)
  balanced : ts.bracketProblems = [] ↔ ts.IsBalanced .paren ∧ ts.IsBalanced .brace

/-- Unmatched closers and unmatched openers mirror each other, for parentheses and for braces. -/
theorem bracketSymmetry (ts : Tokens) : ts.BracketSymmetry where
  separate b := filter_bracket b ts
  identified := ⟨_, _, reportsBrackets ts⟩
  closers b := by
    rw [countP_unmatchedCloser]
    exact isGreatest_excess b ts
  openers b := by
    have hheight := length_waiting b ts ts.length
    rw [depth, List.take_length] at hheight
    rw [countP_unmatchedOpener, countP_unmatchedCloser, hheight]
  balanced := by
    rw [bracketProblems_eq_nil_iff, ← unmatched_eq_nil_iff, ← unmatched_eq_nil_iff]
    refine ⟨fun h => ⟨h .paren, h .brace⟩, fun h b => ?_⟩
    cases b with
    | paren => exact h.1
    | brace => exact h.2

end Tokens

end LessonCheck
