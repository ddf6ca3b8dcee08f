import LessonCheck.Proofs.Token.Complete
import LessonCheck.Proofs.Token.Relabel
import Mathlib.Data.List.Basic

/-!
The open brackets, place by place. The matching of brackets is run on the tokens with their
positions, which tells apart brackets that look the same. Before every token it has a stack of
positions for each sort of bracket: the latest opener is on top, an opener is pushed when its token
is read, and once it has been taken off it does not come back. What is left on the stacks at the end
is reported, and the closers that met an empty stack.
-/

namespace LessonCheck

namespace Nesting

variable {α : Type} {kind : α → Token.Kind}

/-- Every item that the matching holds on to. -/
def items (n : Nesting α) : List α := n.parens ++ n.braces ++ n.strays.map Prod.fst

theorem mem_items_of_waiting {n : Nesting α} {b : Bracket} {y : α} (h : y ∈ n.waiting b) :
    y ∈ n.items := by
  cases b with
  | paren => exact List.mem_append_left _ (List.mem_append_left _ h)
  | brace => exact List.mem_append_left _ (List.mem_append_right _ h)

theorem mem_items_setWaiting {n : Nesting α} {b : Bracket} {openers : List α} {y : α}
    (h : y ∈ (n.setWaiting b openers).items) : y ∈ openers ∨ y ∈ n.items := by
  cases b <;> simp only [items, setWaiting, List.mem_append] at h ⊢ <;> grind

theorem mem_items_read {n : Nesting α} {x y : α} (h : y ∈ (n.read kind x).items) :
    y = x ∨ y ∈ n.items := by
  unfold read at h
  split at h
  · rcases mem_items_setWaiting h with hopeners | hn
    · rcases List.mem_cons.mp hopeners with rfl | hwaiting
      · exact Or.inl rfl
      · exact Or.inr (mem_items_of_waiting hwaiting)
    · exact Or.inr hn
  · split at h
    · simp only [items, List.map_cons, List.mem_append, List.mem_cons] at h ⊢
      grind
    · next hwaiting =>
        rcases mem_items_setWaiting h with hopeners | hn
        · exact Or.inr (mem_items_of_waiting (hwaiting ▸ List.mem_cons_of_mem _ hopeners))
        · exact Or.inr hn
  · exact Or.inr h

theorem mem_items_readAll {n : Nesting α} {xs : List α} {y : α}
    (h : y ∈ (n.readAll kind xs).items) : y ∈ xs ∨ y ∈ n.items := by
  induction xs generalizing n with
  | nil => exact Or.inr h
  | cons x xs ih =>
      rcases ih (n := n.read kind x) h with hxs | hread
      · exact Or.inl (List.mem_cons_of_mem x hxs)
      · rcases mem_items_read hread with rfl | hn
        · exact Or.inl List.mem_cons_self
        · exact Or.inr hn

/-- The matching holds on to what it has read and to nothing else. -/
theorem mem_of_mem_items {xs : List α} {y : α} (h : y ∈ (empty.readAll kind xs).items) :
    y ∈ xs := by
  rcases mem_items_readAll h with hxs | hempty
  · exact hxs
  · simp [items, empty] at hempty

end Nesting

namespace Tokens

/-- The matching of brackets as it stands before token number `n`. -/
def nestingBefore (ts : Tokens) (n : Nat) : Nesting (Token × Nat) :=
  Nesting.empty.readAll (·.1.kind) (ts.zipIdx.take n)

/-- The positions of the brackets of one sort that are open before token number `n`, the latest
first. -/
def waiting (b : Bracket) (ts : Tokens) (n : Nat) : List Nat :=
  ((ts.nestingBefore n).waiting b).map Prod.snd

/-- The positions of the parentheses that are open before token number `n`, the latest first. -/
def waitingParens (ts : Tokens) (n : Nat) : List Nat := (ts.nestingBefore n).parens.map Prod.snd

variable {ts : Tokens} {n i : Nat} {t : Token} {b : Bracket}

@[simp] theorem waiting_zero (b : Bracket) (ts : Tokens) : ts.waiting b 0 = [] := by
  cases b <;> rfl

theorem nestingBefore_succ (h : ts[n]? = some t) :
    ts.nestingBefore (n + 1) = (ts.nestingBefore n).read (·.1.kind) (t, n) := by
  have hitem : ts.zipIdx[n]? = some (t, n) := by simp [h]
  simp [nestingBefore, Nesting.readAll, List.take_add_one, hitem]

theorem nestingBefore_of_length_le (h : ts.length ≤ n) :
    ts.nestingBefore n = ts.nestingBefore ts.length := by
  unfold nestingBefore
  rw [List.take_of_length_le (by simpa using h), List.take_of_length_le (by simp)]

/-- One token pushes its position, takes one off, or leaves the stack alone. -/
theorem waiting_succ (h : ts[n]? = some t) :
    ts.waiting b (n + 1) =
      if t.kind = b.openerKind then n :: ts.waiting b n
      else if t.kind = b.closerKind then (ts.waiting b n).tail else ts.waiting b n := by
  rw [waiting, nestingBefore_succ h, Nesting.waiting_read]
  split
  · rfl
  · split
    · exact List.map_tail
    · rfl

theorem waiting_of_length_le (h : ts.length ≤ n) : ts.waiting b n = ts.waiting b ts.length := by
  rw [waiting, waiting, nestingBefore_of_length_le h]

/-- Behind the last token nothing happens. -/
theorem waiting_succ_of_length_le (h : ts.length ≤ n) : ts.waiting b (n + 1) = ts.waiting b n := by
  rw [waiting_of_length_le h, waiting_of_length_le (Nat.le_succ_of_le h)]

/-- The positions on the stack descend, all of them from below that of the next token. -/
theorem pairwise_waiting (b : Bracket) (ts : Tokens) (n : Nat) :
    (n :: ts.waiting b n).Pairwise (· > ·) := by
  induction n with
  | zero => simp
  | succ n ih =>
      obtain ⟨hbelow, hstack⟩ := List.pairwise_cons.mp ih
      have hkept {stack : List Nat} (h : stack.Sublist (ts.waiting b n)) :
          ((n + 1) :: stack).Pairwise (· > ·) := by
        refine List.pairwise_cons.mpr ⟨fun i hi => ?_, hstack.sublist h⟩
        exact Nat.lt_succ_of_lt (hbelow i (h.subset hi))
      cases ht : ts[n]? with
      | none =>
          rw [waiting_succ_of_length_le (List.getElem?_eq_none_iff.mp ht)]
          exact hkept (List.Sublist.refl _)
      | some t =>
          rw [waiting_succ ht]
          split
          · refine List.pairwise_cons.mpr ⟨fun i hi => ?_, ih⟩
            rcases List.mem_cons.mp hi with rfl | hi
            · exact Nat.lt_succ_self _
            · exact Nat.lt_succ_of_lt (hbelow i hi)
          · split
            · exact hkept (List.tail_sublist _)
            · exact hkept (List.Sublist.refl _)

theorem lt_of_mem_waiting (h : i ∈ ts.waiting b n) : i < n :=
  (List.pairwise_cons.mp (pairwise_waiting b ts n)).1 i h

theorem nodup_waiting (b : Bracket) (ts : Tokens) (n : Nat) : (ts.waiting b n).Nodup :=
  (List.pairwise_cons.mp (pairwise_waiting b ts n)).2.imp Nat.ne_of_gt

/-- A position that is new on the stack is that of the token just read. -/
theorem mem_waiting_of_succ (h : i ∈ ts.waiting b (n + 1)) : i = n ∨ i ∈ ts.waiting b n := by
  cases ht : ts[n]? with
  | none =>
      rw [waiting_succ_of_length_le (List.getElem?_eq_none_iff.mp ht)] at h
      exact Or.inr h
  | some t =>
      rw [waiting_succ ht] at h
      split at h
      · exact List.mem_cons.mp h
      · split at h
        · exact Or.inr (List.mem_of_mem_tail h)
        · exact Or.inr h

/-- What is on the stack has been there since its token was read. -/
theorem mem_waiting_of_le {m : Nat} (him : i < m) (hmn : m ≤ n) (h : i ∈ ts.waiting b n) :
    i ∈ ts.waiting b m := by
  induction hmn with
  | refl => exact h
  | @step n hmn ih =>
      rcases mem_waiting_of_succ h with rfl | h
      · exact absurd him (Nat.not_lt.mpr hmn)
      · exact ih h

/-- Every position on the stack is that of an opener. -/
theorem hasKindAt_of_mem_waiting (h : i ∈ ts.waiting b n) : ts.hasKindAt i b.openerKind = true := by
  have hpushed : i ∈ ts.waiting b (i + 1) :=
    mem_waiting_of_le (Nat.lt_succ_self i) (lt_of_mem_waiting h) h
  have hnew : i ∉ ts.waiting b i := fun hi => Nat.lt_irrefl i (lt_of_mem_waiting hi)
  cases ht : ts[i]? with
  | none =>
      rw [waiting_succ_of_length_le (List.getElem?_eq_none_iff.mp ht)] at hpushed
      exact absurd hpushed hnew
  | some t =>
      refine hasKindAt_iff.mpr ⟨t, ht, ?_⟩
      rw [waiting_succ ht] at hpushed
      split at hpushed
      · assumption
      · split at hpushed
        · exact absurd (List.mem_of_mem_tail hpushed) hnew
        · exact absurd hpushed hnew

/-! ### Parentheses -/

theorem waitingParens_succ (h : ts[n]? = some t) :
    ts.waitingParens (n + 1) =
      if t.kind = .lparen then n :: ts.waitingParens n
      else if t.kind = .rparen then (ts.waitingParens n).tail else ts.waitingParens n :=
  waiting_succ (b := .paren) h

theorem pairwise_waitingParens (ts : Tokens) (n : Nat) :
    (n :: ts.waitingParens n).Pairwise (· > ·) :=
  pairwise_waiting .paren ts n

theorem lt_of_mem_waitingParens (h : i ∈ ts.waitingParens n) : i < n :=
  lt_of_mem_waiting (b := .paren) h

theorem nodup_waitingParens (ts : Tokens) (n : Nat) : (ts.waitingParens n).Nodup :=
  nodup_waiting .paren ts n

theorem mem_waitingParens_of_le {m : Nat} (him : i < m) (hmn : m ≤ n)
    (h : i ∈ ts.waitingParens n) : i ∈ ts.waitingParens m :=
  mem_waiting_of_le (b := .paren) him hmn h

/-! ### What is reported -/

/-- The positions of the closers of one sort that were met before token number `n` with no opener
waiting, the latest first. -/
def strays (b : Bracket) (ts : Tokens) (n : Nat) : List Nat :=
  ((ts.nestingBefore n).strays.filter (·.2 = b)).map (·.1.2)

/-- All stray closers in reading order, by position and sort. -/
def strayClosers (ts : Tokens) : List (Nat × Bracket) :=
  ((ts.nestingBefore ts.length).strays.map (Prod.map Prod.snd id)).reverse

theorem getElem?_of_mem_items {x : Token × Nat} (h : x ∈ (ts.nestingBefore n).items) :
    ts[x.2]? = some x.1 :=
  List.mem_zipIdx_iff_getElem?.mp (List.mem_of_mem_take (Nesting.mem_of_mem_items h))

/-- The positions play no part in the matching. -/
theorem readAll_eq_map (ts : Tokens) :
    Nesting.empty.readAll Token.kind ts = (ts.nestingBefore ts.length).map Prod.fst := by
  have hmap := Nesting.readAll_map Token.kind Prod.fst Nesting.empty ts.zipIdx
  rw [List.zipIdx_map_fst] at hmap
  rw [nestingBefore, List.take_of_length_le (by simp)]
  exact hmap

/-- The problem `problem`, reported at the token at position `i`. -/
def reportAt (ts : Tokens) (problem : BracketProblem) (i : Nat) : Option (Located BracketProblem) :=
  ts[i]?.map fun t => ⟨t.location, problem⟩

/-- The closers that are reported are those met with no opener waiting, and the openers are those
that wait at the end, parentheses first; all in reading order. -/
theorem bracketProblems_eq (ts : Tokens) :
    ts.bracketProblems =
      ts.strayClosers.filterMap (fun s => ts.reportAt (.unmatchedCloser s.2) s.1) ++
      (ts.waiting .paren ts.length).reverse.filterMap (ts.reportAt (.unmatchedOpener .paren)) ++
      (ts.waiting .brace ts.length).reverse.filterMap (ts.reportAt (.unmatchedOpener .brace)) := by
  have hat {x : Token × Nat} (hx : x ∈ (ts.nestingBefore ts.length).items)
      (problem : BracketProblem) :
      ts.reportAt problem x.2 = some ⟨x.1.location, problem⟩ := by
    rw [reportAt, getElem?_of_mem_items hx, Option.map_some]
  have hopeners (b : Bracket) :
      (ts.waiting b ts.length).reverse.filterMap (ts.reportAt (.unmatchedOpener b)) =
        ((ts.nestingBefore ts.length).waiting b).reverse.map
          fun x => ⟨x.1.location, .unmatchedOpener b⟩ := by
    rw [waiting, ← List.map_reverse, List.filterMap_map]
    refine List.filterMap_eq_map_iff_forall_eq_some.mpr fun x hx => ?_
    exact hat (Nesting.mem_items_of_waiting (List.mem_reverse.mp hx)) _
  have hclosers :
      ts.strayClosers.filterMap (fun s => ts.reportAt (.unmatchedCloser s.2) s.1) =
        (ts.nestingBefore ts.length).strays.reverse.map
          fun s => ⟨s.1.1.location, .unmatchedCloser s.2⟩ := by
    rw [strayClosers, ← List.map_reverse, List.filterMap_map]
    refine List.filterMap_eq_map_iff_forall_eq_some.mpr fun s hs => ?_
    exact hat (List.mem_append_right _ (List.mem_map_of_mem (List.mem_reverse.mp hs))) _
  rw [hclosers, hopeners, hopeners, bracketProblems, readAll_eq_map, Nesting.unmatched_map]
  simp [Nesting.unmatched, Nesting.waiting, Function.comp_def]

/-- The opening parentheses that are reported are those that wait at the end, in reading order. -/
theorem filter_bracketProblems (ts : Tokens) :
    ts.bracketProblems.filter (·.problem = .unmatchedOpener .paren) =
      (ts.waitingParens ts.length).reverse.filterMap fun i =>
        ts[i]?.map fun t => ⟨t.location, .unmatchedOpener .paren⟩ := by
  have hreport (problem : BracketProblem) (i : Nat) :
      (ts.reportAt problem i).filter (·.problem = .unmatchedOpener .paren) =
        if problem = .unmatchedOpener .paren then ts.reportAt problem i else none := by
    unfold reportAt
    cases ts[i]? <;> simp [Option.filter]
  change _ = (ts.waiting .paren ts.length).reverse.filterMap (ts.reportAt (.unmatchedOpener .paren))
  rw [bracketProblems_eq]
  simp [List.filter_filterMap, hreport]

end Tokens

end LessonCheck
