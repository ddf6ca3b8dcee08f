import LessonCheck.Proofs.Form.Recognition
import Mathlib.Data.List.Nodup
import Mathlib.Data.List.Perm.Subperm

/-!
Misused operators in print calls. Whether an operator is misused can be read off the tokens around
it, wherever the arguments of its call begin and end: no parenthesis is an operand or an operator.
The check goes through the arguments of every closed call, those of a call inside them included, so
it reports a misused operator as often as there are closed calls around it, and once for each only
if no misused operator has two of them around it.
-/

namespace LessonCheck

namespace Tokens

open OutputCall

variable {ts : Tokens} {i j start : Nat} {call : OutputCall}

/-- A string or a name has the number `i`. -/
def HasTextAt (ts : Tokens) (i : Nat) : Prop :=
  ∃ t, ts[i]? = some t ∧ (t.kind = .string ∨ t.kind = .identifier)

/-- The operator at number `i` is a misused one: `++` next to a text, a `+` between `++` and a text,
or the first `+` of two in front of a text. -/
inductive MisusedAt (ts : Tokens) : Nat → Prop
  | behindText {i : Nat} : ts.HasTextAt i → ts.hasOperatorAt (i + 1) "++" = true →
      MisusedAt ts (i + 1)
  | beforeText {i : Nat} : ts.hasOperatorAt i "++" = true → ts.HasTextAt (i + 1) →
      MisusedAt ts i
  | leftOver {i : Nat} : ts.hasOperatorAt i "++" = true → ts.hasOperatorAt (i + 1) "+" = true →
      ts.HasTextAt (i + 2) → MisusedAt ts (i + 1)
  | spaced {i : Nat} : ts.hasOperatorAt i "+" = true → ts.hasOperatorAt (i + 1) "+" = true →
      ts.HasTextAt (i + 2) → MisusedAt ts i

/-- Token number `i` stands among the arguments of the closed call that begins at `start`. -/
def Encloses (ts : Tokens) (start i : Nat) : Prop :=
  ∃ call closer, ts.outputCall? start = some call ∧ call.closeIndex? start = some closer ∧
    call.openIndex start < i ∧ i < closer

/-- What the check says of a misused operator that has this number. -/
def ReportsDoubledPlus (ts : Tokens) (i : Nat) (p : Located ConcatenationProblem) : Prop :=
  ts[i]?.map (fun t => ⟨t.location, .doubledPlus⟩) = some p

/-- The problems are those of the misused operators in closed calls, one for each operator. -/
def ReportsOnce (ts : Tokens) : Prop :=
  ∃ numbers : List Nat, numbers.Nodup ∧
    (∀ i, i ∈ numbers ↔ ts.MisusedAt i ∧ ∃ start, ts.Encloses start i) ∧
    List.Forall₂ ts.ReportsDoubledPlus numbers ts.concatenationProblems

/-! ### Misuse by number -/

theorem hasTextAt_iff : ts.HasTextAt i ↔ ts[i]?.any Token.isTextOperand = true := by
  simp [HasTextAt, Token.isTextOperand, Option.any_eq_true]

theorem encloses_iff :
    ts.Encloses start i ↔ (ts.outputCall? start).any (fun call =>
      (call.closeIndex? start).any fun closer =>
        decide (call.openIndex start < i) && decide (i < closer)) = true := by
  simp [Encloses, Option.any_eq_true]

instance : Decidable (ts.HasTextAt i) := decidable_of_iff _ hasTextAt_iff.symm

instance : Decidable (ts.Encloses start i) := decidable_of_iff _ encloses_iff.symm

theorem misusedAt_succ_iff :
    ts.MisusedAt (i + 1) ↔
      (ts.hasOperatorAt (i + 1) "++" = true ∧ (ts.HasTextAt i ∨ ts.HasTextAt (i + 2))) ∨
      ts.hasOperatorAt (i + 1) "+" = true ∧
        (ts.hasOperatorAt i "++" = true ∧ ts.HasTextAt (i + 2) ∨
          ts.hasOperatorAt (i + 2) "+" = true ∧ ts.HasTextAt (i + 3)) := by
  constructor
  · intro h
    generalize hn : i + 1 = n at h
    cases h with
    | behindText htext hplus =>
        obtain rfl := Nat.succ.inj hn
        exact Or.inl ⟨hplus, Or.inl htext⟩
    | beforeText hplus htext =>
        subst hn
        exact Or.inl ⟨hplus, Or.inr htext⟩
    | leftOver hplus hsign htext =>
        obtain rfl := Nat.succ.inj hn
        exact Or.inr ⟨hsign, Or.inl ⟨hplus, htext⟩⟩
    | spaced hsign hnext htext =>
        subst hn
        exact Or.inr ⟨hsign, Or.inr ⟨hnext, htext⟩⟩
  · rintro (⟨hplus, htext | htext⟩ | ⟨hsign, ⟨hplus, htext⟩ | ⟨hnext, htext⟩⟩)
    · exact .behindText htext hplus
    · exact .beforeText hplus htext
    · exact .leftOver hplus hsign htext
    · exact .spaced hsign hnext htext

theorem isDoubledPlus_iff {before : Option Token} {t : Token} {rest : Tokens} :
    t.isDoubledPlus before rest = true ↔
      (t.isOperator "++" = true ∧
        (before.any Token.isTextOperand = true ∨ rest[0]?.any Token.isTextOperand = true)) ∨
      t.isOperator "+" = true ∧
        (before.any (·.isOperator "++") = true ∧ rest[0]?.any Token.isTextOperand = true ∨
          rest[0]?.any (·.isOperator "+") = true ∧ rest[1]?.any Token.isTextOperand = true) := by
  have hone : t.isOperator "++" = true → t.isOperator "+" = false := by
    simp only [Token.isOperator, Bool.and_eq_true, decide_eq_true_eq, beq_iff_eq]
    rintro ⟨-, hword⟩
    simp [hword]
  unfold Token.isDoubledPlus
  by_cases hdouble : t.isOperator "++" = true
  · simp [hdouble, hone hdouble]
  · by_cases hsingle : t.isOperator "+" = true <;> simp [hdouble, hsingle]

/-! ### Misuse among arguments -/

section
variable {opener closer n : Nat}

/-- No parenthesis answers the question with yes. -/
def SkipsParens (p : Token → Bool) : Prop := ∀ t, t.kind = .lparen ∨ t.kind = .rparen → p t = false

theorem skipsParens_isOperator (symbol : String) : SkipsParens (·.isOperator symbol) := by
  rintro t (hkind | hkind) <;> simp [Token.isOperator, hkind]

theorem skipsParens_isTextOperand : SkipsParens Token.isTextOperand := by
  rintro t (hkind | hkind) <;> simp [Token.isTextOperand, hkind]

/-- To such a question it makes no difference that only arguments are asked. -/
theorem SkipsParens.any_innerAt? {p : Token → Bool} (hp : SkipsParens p)
    (hopener : ts.hasKindAt opener .lparen = true) (hcloser : ts.hasKindAt closer .rparen = true)
    (hfirst : opener ≤ i) (hlast : i ≤ closer) :
    (ts.innerAt? opener closer i).any p = ts[i]?.any p := by
  unfold innerAt?
  split
  · rfl
  · next hout =>
      obtain rfl | rfl : i = opener ∨ i = closer := by omega
      · obtain ⟨t, ht, hkind⟩ := hasKindAt_iff.mp hopener
        rw [ht, Option.any_none, Option.any_some, hp t (Or.inl hkind)]
      · obtain ⟨t, ht, hkind⟩ := hasKindAt_iff.mp hcloser
        rw [ht, Option.any_none, Option.any_some, hp t (Or.inr hkind)]

/-- Whether an argument is a misused operator can be told from the arguments around it. -/
theorem misusedAt_iff_innerAt? (hopener : ts.hasKindAt opener .lparen = true)
    (hcloser : ts.hasKindAt closer .rparen = true) (hfirst : opener ≤ n) (hlast : n + 1 < closer) :
    ts.MisusedAt (n + 1) ↔
      (ts.hasOperatorAt (n + 1) "++" = true ∧
        ((ts.innerAt? opener closer n).any Token.isTextOperand = true ∨
          (ts.innerAt? opener closer (n + 2)).any Token.isTextOperand = true)) ∨
      ts.hasOperatorAt (n + 1) "+" = true ∧
        ((ts.innerAt? opener closer n).any (·.isOperator "++") = true ∧
            (ts.innerAt? opener closer (n + 2)).any Token.isTextOperand = true ∨
          (ts.innerAt? opener closer (n + 2)).any (·.isOperator "+") = true ∧
            (ts.innerAt? opener closer (n + 3)).any Token.isTextOperand = true) := by
  have hoperator (symbol : String) {i : Nat} (hi : opener ≤ i) (hi' : i ≤ closer) :
      (ts.innerAt? opener closer i).any (·.isOperator symbol) = ts.hasOperatorAt i symbol :=
    (skipsParens_isOperator symbol).any_innerAt? hopener hcloser hi hi'
  have htext {i : Nat} (hi : opener ≤ i) (hi' : i ≤ closer) :
      (ts.innerAt? opener closer i).any Token.isTextOperand = true ↔ ts.HasTextAt i := by
    rw [skipsParens_isTextOperand.any_innerAt? hopener hcloser hi hi', hasTextAt_iff]
  -- The token after the next one is asked for only if the next one is an argument itself.
  have hpair : (ts.hasOperatorAt (n + 2) "+" = true ∧ ts.HasTextAt (n + 3)) ↔
      ts.hasOperatorAt (n + 2) "+" = true ∧
        (ts.innerAt? opener closer (n + 3)).any Token.isTextOperand = true := by
    refine and_congr_right fun hsign => ?_
    have hne : n + 2 ≠ closer := by
      rintro rfl
      obtain ⟨t, ht, hkind, -⟩ := hasOperatorAt_iff.mp hsign
      cases kind_unique (hasKindAt_iff.mpr ⟨t, ht, hkind⟩) hcloser
    exact (htext (by omega) (by omega)).symm
  rw [misusedAt_succ_iff, hpair, hoperator "++" hfirst (by omega), hoperator "+" (by omega) hlast,
    htext hfirst (by omega), htext (by omega) hlast]

end

/-- The check of the arguments and the question about all tokens have the same answer. -/
theorem isDoubledPlus_iff_misusedAt (front : Tokens) {opener closer : Token} (after : Tokens)
    {inside before behind : Tokens} {t : Token} (hopener : opener.kind = .lparen)
    (hcloser : closer.kind = .rparen) (h : inside = before ++ t :: behind) :
    t.isDoubledPlus before.getLast? behind = true ↔
      MisusedAt (front ++ opener :: (inside ++ closer :: after))
        (front.length + 1 + before.length) := by
  have hbefore := innerAt?_before front opener closer after h (List.cons_ne_nil t behind)
  have hbehind := innerAt?_behind front opener closer after h
  have hplace : front.length + 1 + before.length = front.length + before.length + 1 := by omega
  have hhere (symbol : String) : hasOperatorAt (front ++ opener :: (inside ++ closer :: after))
      (front.length + before.length + 1) symbol = t.isOperator symbol := by
    rw [hasOperatorAt, ← hplace, getElem?_behind, h]
    simp
  have hlength : inside.length = before.length + 1 + behind.length := by
    simp only [h, List.length_append, List.length_cons]
    omega
  have hlast : hasKindAt (front ++ opener :: (inside ++ closer :: after))
      (front.length + 1 + inside.length) .rparen = true :=
    hasKindAt_iff.mpr ⟨closer, by rw [getElem?_behind]; simp, hcloser⟩
  have hfirst : hasKindAt (front ++ opener :: (inside ++ closer :: after)) front.length .lparen =
      true :=
    hasKindAt_iff.mpr ⟨opener, by simp, hopener⟩
  rw [hplace] at hbehind ⊢
  rw [isDoubledPlus_iff, misusedAt_iff_innerAt? hfirst hlast (by omega) (by omega), hbefore,
    hbehind 0, hbehind 1, hhere, hhere]

/-! ### The sites call by call -/

def Split.isDoubledPlus (s : Split) : Bool := s.token.isDoubledPlus s.front.getLast? s.rest

/-- The numbers of the misused operators in the arguments of a call that begins at `start`. -/
def doubledPlusNumbers (call : OutputCall) (start : Nat) : List Nat :=
  call.arguments.elim [] fun e => ((splits e.inside).filter Split.isDoubledPlus).map fun s =>
    call.openIndex start + 1 + s.front.length

/-- The misused operators of every closed call, call by call, each behind the number of its call. -/
def doubledPlusSites (ts : Tokens) : List (Nat × Nat) :=
  ts.outputCalls.flatMap fun c => (doubledPlusNumbers c.2 c.1).map (c.1, ·)

/-- The parentheses of a closed call, with its arguments between them. -/
theorem exists_parentheses {e : Enclosed} (hcall : ts.outputCall? start = some call)
    (he : call.arguments = some e) :
    ∃ front opener, ts = front ++ opener :: (e.inside ++ e.closer :: e.after) ∧
      opener.kind = .lparen ∧ e.closer.kind = .rparen ∧ call.openIndex start = front.length ∧
      call.closeIndex? start = some (front.length + 1 + e.inside.length) := by
  obtain ⟨front, opener, rfl, hopen, hclose⟩ := exists_split_of_arguments hcall he
  have hopen : call.openIndex start = front.length := hopen
  have hclose : call.closeIndex? start = some (front.length + 1 + e.inside.length) := hclose
  obtain ⟨hkind, hsearch⟩ := closeIndex?_of_outputCall? hcall
  have hpops := closingParen?_eq_some_iff.mp (hsearch.symm.trans hclose)
  refine ⟨front, opener, rfl, ?_, ?_, hopen, hclose⟩
  · obtain ⟨t, ht, hkind⟩ := hasKindAt_iff.mp hkind
    obtain rfl : opener = t := by simpa [hopen] using ht
    exact hkind
  · obtain ⟨t, ht, hkind⟩ := hasKindAt_iff.mp hpops.closer
    rw [getElem?_behind] at ht
    obtain rfl : e.closer = t := by simpa using ht
    exact hkind

theorem mem_doubledPlusNumbers (hcall : ts.outputCall? start = some call) :
    i ∈ doubledPlusNumbers call start ↔
      (∃ closer, call.closeIndex? start = some closer ∧ call.openIndex start < i ∧ i < closer) ∧
        ts.MisusedAt i := by
  unfold doubledPlusNumbers
  cases he : call.arguments with
  | none => simp [closeIndex?, he]
  | some e =>
      obtain ⟨front, opener, rfl, hopener, hcloser, hopen, hclose⟩ := exists_parentheses hcall he
      have hmisused {s : Split} (hs : s ∈ splits e.inside) : s.isDoubledPlus = true ↔
          MisusedAt (front ++ opener :: (e.inside ++ e.closer :: e.after))
            (front.length + 1 + s.front.length) :=
        isDoubledPlus_iff_misusedAt front e.after hopener hcloser (mem_splits.mp hs)
      simp only [Option.elim_some, List.mem_map, List.mem_filter, hopen, hclose,
        Option.some.injEq, exists_eq_left']
      constructor
      · rintro ⟨s, ⟨hs, hdoubled⟩, rfl⟩
        have hlength : e.inside.length = s.front.length + 1 + s.rest.length := by
          rw [mem_splits.mp hs, List.length_append, List.length_cons]
          omega
        exact ⟨⟨by omega, by omega⟩, (hmisused hs).mp hdoubled⟩
      · rintro ⟨⟨hfirst, hlast⟩, hdoubled⟩
        have hlt : i - (front.length + 1) < e.inside.length := by omega
        obtain ⟨before, behind, hinside, hbefore⟩ :=
          exists_split_of_getElem? (List.getElem?_eq_getElem hlt)
        have hs : ⟨before, _, behind⟩ ∈ splits e.inside := mem_splits.mpr hinside
        have hplace : front.length + 1 + before.length = i := by omega
        rw [← hplace] at hdoubled ⊢
        exact ⟨_, ⟨hs, (hmisused hs).mpr hdoubled⟩, rfl⟩

/-- A misused operator has a site for every closed call around it. -/
theorem mem_doubledPlusSites :
    (start, i) ∈ ts.doubledPlusSites ↔ ts.Encloses start i ∧ ts.MisusedAt i := by
  have hsites : (start, i) ∈ ts.doubledPlusSites ↔
      ∃ call, ts.outputCall? start = some call ∧ i ∈ doubledPlusNumbers call start := by
    simp [doubledPlusSites, ← mem_outputCalls_iff]
  rw [hsites]
  constructor
  · rintro ⟨call, hcall, hnumber⟩
    obtain ⟨⟨closer, hclose, hinside⟩, hmisused⟩ := (mem_doubledPlusNumbers hcall).mp hnumber
    exact ⟨⟨call, closer, hcall, hclose, hinside⟩, hmisused⟩
  · rintro ⟨⟨call, closer, hcall, hclose, hinside⟩, hmisused⟩
    exact ⟨call, hcall, (mem_doubledPlusNumbers hcall).mpr ⟨⟨closer, hclose, hinside⟩, hmisused⟩⟩

theorem pairwise_doubledPlusNumbers (call : OutputCall) (start : Nat) :
    (doubledPlusNumbers call start).Pairwise (· < ·) := by
  unfold doubledPlusNumbers
  cases call.arguments with
  | none => exact List.Pairwise.nil
  | some e =>
      rw [Option.elim_some, List.pairwise_map]
      exact ((pairwise_splits e.inside).filter _).imp fun hlt => Nat.add_lt_add_left hlt _

/-- The sites come call by call, and for each call from left to right. -/
theorem pairwise_doubledPlusSites (ts : Tokens) :
    ts.doubledPlusSites.Pairwise fun a b => a.1 < b.1 ∨ a.1 = b.1 ∧ a.2 < b.2 := by
  refine List.pairwise_flatMap.mpr ⟨fun c _ => ?_, ?_⟩
  · rw [List.pairwise_map]
    exact (pairwise_doubledPlusNumbers c.2 c.1).imp fun hlt => Or.inr ⟨rfl, hlt⟩
  · refine (pairwise_outputCalls ts).imp fun {c d} hlt a ha b hb => Or.inl ?_
    obtain ⟨_, -, rfl⟩ := List.mem_map.mp ha
    obtain ⟨_, -, rfl⟩ := List.mem_map.mp hb
    exact hlt

theorem doubledPluses_eq_map (ts : Tokens) :
    doubledPluses ts = (ts.splits.filter Split.isDoubledPlus).map fun s =>
      ⟨s.token.location, .doubledPlus⟩ := by
  rw [doubledPluses, survey_eq_flatMap]
  induction ts.splits with
  | nil => rfl
  | cons s places ih =>
      rw [List.flatMap_cons, ih, List.filter_cons, Split.isDoubledPlus]
      split <;> rfl

/-- The problems are reported at their sites. -/
theorem forall₂_doubledPlusSites (ts : Tokens) :
    List.Forall₂ (fun site p => ts.ReportsDoubledPlus site.2 p) ts.doubledPlusSites
      ts.concatenationProblems := by
  have hcalls : ts.concatenationProblems =
      ts.outputCalls.flatMap fun c => callConcatenation c.2 := by
    rw [concatenationProblems_eq_survey, survey, ← flatMap_outputCallsFrom callConcatenation 0]
    rfl
  rw [hcalls]
  refine forall₂_flatMap fun c hc => ?_
  obtain ⟨start, call⟩ := c
  have hcall := mem_outputCalls_iff.mp hc
  unfold callConcatenation doubledPlusNumbers
  cases he : call.arguments with
  | none => exact List.Forall₂.nil
  | some e =>
      obtain ⟨front, opener, rfl, -, -, hopen, -⟩ := exists_parentheses hcall he
      simp only [Option.elim_some]
      rw [doubledPluses_eq_map, List.map_map, List.forall₂_map_left_iff,
        List.forall₂_map_right_iff, List.forall₂_same]
      intro s hs
      have hinside := mem_splits.mp (List.mem_of_mem_filter hs)
      have hhere : (front ++ opener :: (e.inside ++ e.closer :: e.after))[
          front.length + 1 + s.front.length]? = some s.token := by
        rw [getElem?_behind, hinside]
        simp
      rw [ReportsDoubledPlus, Function.comp_apply, hopen, hhere, Option.map_some]

/-! ### One report for each operator -/

/-- No operator is reported twice exactly if no misused one has two closed calls around it. -/
theorem reportsOnce_iff :
    ts.ReportsOnce ↔ ∀ i start start', ts.MisusedAt i → ts.Encloses start i →
      ts.Encloses start' i → start = start' := by
  constructor
  · rintro ⟨numbers, hnodup, hmem, hreports⟩ i start start' hmisused hstart hstart'
    have hsub : numbers ⊆ ts.doubledPlusSites.map Prod.snd := by
      intro j hj
      obtain ⟨hj, k, hk⟩ := (hmem j).mp hj
      exact List.mem_map.mpr ⟨(k, j), mem_doubledPlusSites.mpr ⟨hk, hj⟩, rfl⟩
    have hlength : (ts.doubledPlusSites.map Prod.snd).length = numbers.length := by
      rw [List.length_map, (forall₂_doubledPlusSites ts).length_eq, hreports.length_eq]
    have hperm := (hnodup.subperm hsub).perm_of_length_le (Nat.le_of_eq hlength)
    have hsites := hperm.nodup_iff.mp hnodup
    exact congrArg Prod.fst (List.inj_on_of_nodup_map hsites
      (mem_doubledPlusSites.mpr ⟨hstart, hmisused⟩) (mem_doubledPlusSites.mpr ⟨hstart', hmisused⟩)
      rfl)
  · intro hunique
    refine ⟨ts.doubledPlusSites.map Prod.snd, ?_, fun i => ?_, ?_⟩
    · refine List.pairwise_map.mpr ((pairwise_doubledPlusSites ts).imp_of_mem ?_)
      rintro ⟨start, i⟩ ⟨start', j⟩ hi hj hlt rfl
      obtain ⟨hstart, hmisused⟩ := mem_doubledPlusSites.mp hi
      obtain ⟨hstart', -⟩ := mem_doubledPlusSites.mp hj
      have heq := hunique i start start' hmisused hstart hstart'
      rcases hlt with hlt | ⟨-, hlt⟩
      · exact absurd heq (Nat.ne_of_lt hlt)
      · exact absurd hlt (Nat.lt_irrefl i)
    · rw [List.mem_map]
      constructor
      · rintro ⟨⟨start, j⟩, hsite, rfl⟩
        obtain ⟨hstart, hmisused⟩ := mem_doubledPlusSites.mp hsite
        exact ⟨hmisused, start, hstart⟩
      · rintro ⟨hmisused, start, hstart⟩
        exact ⟨(start, i), mem_doubledPlusSites.mpr ⟨hstart, hmisused⟩, rfl⟩
    · exact List.forall₂_map_left_iff.mpr (forall₂_doubledPlusSites ts)

/-- A misused operator is reported once for each closed call around it, call by call and for each
call from left to right, and nothing else is reported. So every misused operator in a closed call is
reported exactly once if and only if none has two closed calls around it. -/
theorem doubledPlus_reportedPerCall (ts : Tokens) :
    (∃ sites : List (Nat × Nat),
      (∀ start i, (start, i) ∈ sites ↔ ts.Encloses start i ∧ ts.MisusedAt i) ∧
      sites.Pairwise (fun a b => a.1 < b.1 ∨ a.1 = b.1 ∧ a.2 < b.2) ∧
      List.Forall₂ (fun site p => ts.ReportsDoubledPlus site.2 p) sites
        ts.concatenationProblems) ∧
    (ts.ReportsOnce ↔ ∀ i start start', ts.MisusedAt i → ts.Encloses start i →
      ts.Encloses start' i → start = start') :=
  ⟨⟨ts.doubledPlusSites, fun _ _ => mem_doubledPlusSites, pairwise_doubledPlusSites ts,
    forall₂_doubledPlusSites ts⟩, reportsOnce_iff⟩

/-- A call among the arguments of another, and `++` behind a string in it. -/
theorem not_reportsOnce_nested :
    ¬ (Token.ofText "println(print(\"a\" ++ b));").ReportsOnce := by
  intro honce
  have hmisused : (Token.ofText "println(print(\"a\" ++ b));").MisusedAt 5 :=
    .behindText (by decide +kernel) (by decide +kernel)
  have hsame := reportsOnce_iff.mp honce 5 0 2 hmisused (by decide +kernel) (by decide +kernel)
  exact absurd hsame (by decide)

end Tokens

end LessonCheck
