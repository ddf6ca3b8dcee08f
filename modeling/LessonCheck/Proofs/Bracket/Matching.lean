import LessonCheck.Form.LoopHeader
import LessonCheck.Lexing.Tokens
import LessonCheck.Proofs.Bracket.Waiting
import LessonCheck.Proofs.Form.OutputCalls

/-!
Two ways to match parentheses. The check of brackets reads all tokens with a stack and forgets stray
closers; the search for the closer of one parenthesis starts at that parenthesis and counts how
deep it is. Where the search starts, its parenthesis is on top of the stack, and from then on the
depth is the number of positions above it: so the search ends at the closer that takes the
parenthesis off, and finds none exactly if it stays on the stack and is reported.
-/

namespace LessonCheck.Tokens

variable {ts : Tokens} {i j c d n : Nat}

/-- The closer at position `c` takes the opener at position `i` off the stack. -/
structure Pops (ts : Tokens) (i c : Nat) : Prop where
  closer : ts.hasKindAt c .rparen = true
  taken : ts.waitingParens c = i :: ts.waitingParens (c + 1)

/-- The parenthesis at position `i` is reported, as one that is never closed. -/
def ReportsOpener (ts : Tokens) (i : Nat) : Prop :=
  ∃ t, ts[i]? = some t ∧ t.kind = .lparen ∧
    ⟨t.location, "unmatched opening '('"⟩ ∈ ts.bracketProblems.map (·.diagnostic)

/-- Every position on the stack is that of an opening parenthesis. -/
theorem hasKindAt_of_mem_waitingParens (h : i ∈ ts.waitingParens n) :
    ts.hasKindAt i .lparen = true :=
  hasKindAt_of_mem_waiting (b := .paren) h

/-! ### One opener and one closer -/

namespace Pops

theorem mem (h : ts.Pops i c) : i ∈ ts.waitingParens c := by
  rw [h.taken]
  exact List.mem_cons_self

theorem lt (h : ts.Pops i c) : i < c := lt_of_mem_waitingParens h.mem

theorem opener_unique (hi : ts.Pops i c) (hj : ts.Pops j c) : i = j := by
  have htop : i :: ts.waitingParens (c + 1) = j :: ts.waitingParens (c + 1) := by
    rw [← hi.taken, hj.taken]
  exact (List.cons.inj htop).1

/-- What has been taken off the stack stays off. -/
theorem not_mem (h : ts.Pops i c) (hn : c < n) : i ∉ ts.waitingParens n := by
  intro hmem
  have hbehind : i ∈ ts.waitingParens (c + 1) :=
    mem_waitingParens_of_le (Nat.lt_succ_of_lt h.lt) hn hmem
  have hnodup := nodup_waitingParens ts c
  rw [h.taken] at hnodup
  exact (List.nodup_cons.mp hnodup).1 hbehind

theorem closer_unique (hc : ts.Pops i c) (hd : ts.Pops i d) : c = d := by
  rcases Nat.lt_trichotomy c d with hlt | heq | hgt
  · exact absurd hd.mem (hc.not_mem hlt)
  · exact heq
  · exact absurd hc.mem (hd.not_mem hgt)

/-- Of two pairs the second begins behind the first or ends inside it. -/
theorem disjoint_or_nested (hi : ts.Pops i c) (hj : ts.Pops j d) (hij : i < j) :
    c < j ∨ d < c := by
  rcases Nat.lt_or_ge c j with hdisjoint | hinside
  · exact Or.inl hdisjoint
  refine Or.inr (Nat.lt_of_not_le fun hcd => ?_)
  -- The later opener is above the earlier one and would have to be taken off first.
  have hjc : j < c := by
    refine Nat.lt_of_le_of_ne hinside ?_
    rintro rfl
    have hopener := hasKindAt_of_mem_waitingParens hj.mem
    obtain ⟨t, ht, hkind⟩ := hasKindAt_iff.mp hopener
    obtain ⟨u, hu, hcloser⟩ := hasKindAt_iff.mp hi.closer
    obtain rfl : t = u := by simpa [ht] using hu
    rw [hkind] at hcloser
    cases hcloser
  have hmem : j ∈ ts.waitingParens c := mem_waitingParens_of_le hjc hcd hj.mem
  have hsorted := (List.pairwise_cons.mp (pairwise_waitingParens ts c)).2
  rw [hi.taken] at hmem hsorted
  rcases List.mem_cons.mp hmem with rfl | hbelow
  · exact Nat.lt_irrefl _ hij
  · exact Nat.lt_asymm hij ((List.pairwise_cons.mp hsorted).1 j hbelow)

end Pops

/-! ### The search and the stack -/

/-- The search through `rest`, which begins at position `start`, ends at the closer that takes the
opener `i` off the stack, or it fails and the opener waits to the end. -/
def Settles (ts : Tokens) (i start depth : Nat) (rest : Tokens) : Prop :=
  (∃ e, Enclosed.atDepth? depth rest = some e ∧ ts.Pops i (start + e.inside.length)) ∨
    (Enclosed.atDepth? depth rest = none ∧ i ∈ ts.waitingParens ts.length)

/-- A token that does not end the search hands it on to the tokens behind. -/
theorem Settles.cons {start depth depth' : Nat} {t : Token} {rest : Tokens}
    (h : ts.Settles i (start + 1) depth' rest)
    (hdepth : Enclosed.atDepth? depth (t :: rest) =
      (Enclosed.atDepth? depth' rest).map (Enclosed.prepend t)) :
    ts.Settles i start depth (t :: rest) := by
  rcases h with ⟨e, he, hpops⟩ | ⟨hnone, hwaits⟩
  · refine Or.inl ⟨e.prepend t, by rw [hdepth, he, Option.map_some], ?_⟩
    have hplace : start + 1 + e.inside.length = start + (e.prepend t).inside.length := by
      simp only [Enclosed.prepend, List.length_cons]
      omega
    rwa [hplace] at hpops
  · exact Or.inr ⟨by rw [hdepth, hnone, Option.map_none], hwaits⟩

/-- The search through `rest` for the closer of the opener `i` settles, with as many parentheses
open above it as the stack has positions above `i`. -/
theorem settles_of_stack {front rest : Tokens} {above below : List Nat}
    (hts : ts = front ++ rest) (hstack : ts.waitingParens front.length = above ++ i :: below) :
    ts.Settles i front.length above.length rest := by
  induction rest generalizing front above with
  | nil =>
      rw [List.append_nil] at hts
      refine Or.inr ⟨rfl, ?_⟩
      rw [hts] at hstack ⊢
      simp [hstack]
  | cons t rest ih =>
      have hread : ts[front.length]? = some t := by simp [hts]
      have hnext := waitingParens_succ hread
      rw [hstack] at hnext
      have hbehind {stack : List Nat}
          (hstack' : ts.waitingParens (front.length + 1) = stack ++ i :: below) :
          ts.Settles i (front.length + 1) stack.length rest := by
        have hlength : (front ++ [t]).length = front.length + 1 := by simp
        rw [← hlength] at hstack' ⊢
        exact ih (by simp [hts]) hstack'
      by_cases hopen : t.kind = .lparen
      · rw [if_pos hopen] at hnext
        have hpushed : ts.waitingParens (front.length + 1) =
            (front.length :: above) ++ i :: below := hnext
        exact (hbehind hpushed).cons (by simp [Enclosed.atDepth?, hopen])
      · rw [if_neg hopen] at hnext
        by_cases hclose : t.kind = .rparen
        · rw [if_pos hclose] at hnext
          cases above with
          | nil =>
              refine Or.inl ⟨⟨[], t, rest⟩, by simp [Enclosed.atDepth?, hclose], ?_⟩
              refine ⟨hasKindAt_iff.mpr ⟨t, hread, hclose⟩, ?_⟩
              exact hstack.trans (congrArg (i :: ·) hnext.symm)
          | cons top above => exact (hbehind hnext).cons (by simp [Enclosed.atDepth?, hclose])
        · rw [if_neg hclose] at hnext
          exact (hbehind hnext).cons (Enclosed.atDepth?_cons_of_ne hopen hclose _ _)

theorem closingParen?_append {opener : Token} (h : opener.kind = .lparen) (front rest : Tokens) :
    closingParen? (front ++ opener :: rest) front.length =
      (Enclosed.ofTokens? rest).map fun e => front.length + 1 + e.inside.length := by
  simp [closingParen?, h]

/-- The search from an opener finds the closer that takes it off, or it waits to the end. -/
theorem pops_or_waits (h : ts.hasKindAt i .lparen = true) :
    (∃ c, ts.closingParen? i = some c ∧ ts.Pops i c) ∨
      (ts.closingParen? i = none ∧ i ∈ ts.waitingParens ts.length) := by
  obtain ⟨opener, hopener, hkind⟩ := hasKindAt_iff.mp h
  obtain ⟨front, rest, hts, rfl⟩ := exists_split_of_getElem? hopener
  have hbehind : ts = (front ++ [opener]) ++ rest := by simp [hts]
  have hpushed : ts.waitingParens (front ++ [opener]).length =
      [] ++ front.length :: ts.waitingParens front.length := by
    rw [List.length_append, List.length_singleton, waitingParens_succ hopener, if_pos hkind]
    rfl
  have hsearch : ts.closingParen? front.length =
      (Enclosed.atDepth? 0 rest).map fun e => front.length + 1 + e.inside.length := by
    rw [hts, closingParen?_append hkind]
    rfl
  rw [hsearch]
  rcases settles_of_stack hbehind hpushed with ⟨e, he, hpops⟩ | ⟨hnone, hwaits⟩
  · refine Or.inl ⟨front.length + 1 + e.inside.length, ?_, ?_⟩
    · rw [List.length_nil] at he
      rw [he, Option.map_some]
    · simpa using hpops
  · rw [List.length_nil] at hnone
    exact Or.inr ⟨by rw [hnone, Option.map_none], hwaits⟩

theorem hasKindAt_of_closingParen? (h : ts.closingParen? i = some c) :
    ts.hasKindAt i .lparen = true := by
  unfold closingParen? at h
  split at h
  · cases h
  · next t rest hdrop =>
      split at h
      · next hkind =>
          obtain ⟨front, rfl, rfl⟩ := exists_split_of_drop hdrop
          exact hasKindAt_iff.mpr ⟨t, by simp, hkind⟩
      · cases h

theorem closingParen?_eq_some_iff : ts.closingParen? i = some c ↔ ts.Pops i c := by
  constructor
  · intro h
    rcases pops_or_waits (hasKindAt_of_closingParen? h) with ⟨d, hd, hpops⟩ | ⟨hnone, -⟩
    · obtain rfl : c = d := by simpa [h] using hd
      exact hpops
    · simp [h] at hnone
  · intro h
    rcases pops_or_waits (hasKindAt_of_mem_waitingParens h.mem) with ⟨d, hd, hpops⟩ | ⟨-, hwaits⟩
    · rw [hd, h.closer_unique hpops]
    · exact absurd hwaits (h.not_mem (lt_length_of_hasKindAt h.closer))

theorem closingParen?_eq_none_iff (h : ts.hasKindAt i .lparen = true) :
    ts.closingParen? i = none ↔ i ∈ ts.waitingParens ts.length := by
  rcases pops_or_waits h with ⟨c, hc, hpops⟩ | ⟨hnone, hwaits⟩
  · have hgone := hpops.not_mem (lt_length_of_hasKindAt hpops.closer)
    simp [hc, hgone]
  · simp [hnone, hwaits]

theorem reportsOpener_of_mem (h : i ∈ ts.waitingParens ts.length) : ts.ReportsOpener i := by
  obtain ⟨t, ht, hkind⟩ := hasKindAt_iff.mp (hasKindAt_of_mem_waitingParens h)
  refine ⟨t, ht, hkind, List.mem_map.mpr ⟨⟨t.location, .unmatchedOpener .paren⟩, ?_, rfl⟩⟩
  refine List.mem_of_mem_filter (p := fun p => p.problem = .unmatchedOpener .paren) ?_
  rw [filter_bracketProblems, List.mem_filterMap]
  exact ⟨i, List.mem_reverse.mpr h, by rw [ht, Option.map_some]⟩

theorem reportsOpener_of_closingParen? (h : ts.hasKindAt i .lparen = true)
    (hnone : ts.closingParen? i = none) : ts.ReportsOpener i :=
  reportsOpener_of_mem ((closingParen?_eq_none_iff h).mp hnone)

/-! ### The readers of parentheses -/

/-- The closer of a print call is found by the search from its parenthesis. -/
theorem closeIndex?_of_outputCall? {call : OutputCall} (h : ts.outputCall? n = some call) :
    ts.hasKindAt (call.openIndex n) .lparen = true ∧
      call.closeIndex? n = ts.closingParen? (call.openIndex n) := by
  obtain ⟨front, rest, rfl, hlength, opener, behind, rfl, hkind, hopens⟩ :=
    exists_split_of_outputCall? h
  have hts : front ++ call.method :: opener :: behind =
      (front ++ [call.method]) ++ opener :: behind := by
    simp
  have hplace : call.openIndex n = (front ++ [call.method]).length := by
    rw [← call.methodIndex_succ, ← hlength, List.length_append, List.length_singleton]
  rw [hts, hplace, closingParen?_append hkind, ← hplace]
  constructor
  · exact hasKindAt_iff.mpr ⟨opener, by simp [hplace], hkind⟩
  · rw [OutputCall.closeIndex?, hopens]
    rfl

theorem exists_opener_of_parenthesis? (h : parenthesis? ts = .error .notClosed) :
    ∃ opener rest, ts = opener :: rest ∧ opener.kind = .lparen ∧
      Enclosed.ofTokens? rest = none := by
  cases ts with
  | nil => cases h
  | cons opener rest =>
      by_cases hkind : opener.kind = .lparen
      · cases hfound : Enclosed.ofTokens? rest with
        | none => exact ⟨opener, rest, rfl, hkind, hfound⟩
        | some e => simp [parenthesis?, hkind, hfound] at h
      · simp [parenthesis?, hkind] at h

/-- The header of a loop is found unclosed when the search from its parenthesis fails. -/
theorem closingParen?_of_headerLayout (h : ts.headerLayout n = .error .notClosed) :
    ts.hasKindAt (n + 1) .lparen = true ∧ ts.closingParen? (n + 1) = none := by
  have hparenthesis : parenthesis? (ts.drop (n + 1)) = .error .notClosed := by
    unfold headerLayout LoopHeader.ofTokens at h
    cases hfound : parenthesis? (ts.drop (n + 1)) with
    | ok e =>
        -- A closed parenthesis can only hold the wrong number of semicolons.
        simp only [hfound, bind, Except.bind, LoopHeader.ofEnclosed] at h
        split at h <;> cases h
    | error fault =>
        simp only [hfound, bind, Except.bind, Except.map] at h
        exact congrArg Except.error (Except.error.inj h)
  obtain ⟨opener, rest, hdrop, hkind, hnone⟩ := exists_opener_of_parenthesis? hparenthesis
  obtain ⟨front, rfl, hplace⟩ := exists_split_of_drop hdrop
  rw [← hplace, closingParen?_append hkind, hnone]
  exact ⟨hasKindAt_iff.mpr ⟨opener, by simp, hkind⟩, rfl⟩

/-- The two ways to match parentheses agree on the tokens. -/
structure MatchersAgree (ts : Tokens) : Prop where
  /-- The search ends at the closer that takes the opener off the stack. -/
  closes (i c : Nat) : ts.closingParen? i = some c ↔ ts.Pops i c
  /-- It fails for the openers that stay on the stack to the end, which are reported. -/
  waits (i : Nat) : ts.hasKindAt i .lparen = true →
    (ts.closingParen? i = none ↔ i ∈ ts.waitingParens ts.length ∧ ts.ReportsOpener i)
  /-- No other opener is reported, and none of them twice. -/
  reports : ts.bracketProblems.filter (·.problem = .unmatchedOpener .paren) =
    (ts.waitingParens ts.length).reverse.filterMap fun i =>
      ts[i]?.map fun t => ⟨t.location, .unmatchedOpener .paren⟩
  /-- A print call without a closer is reported, wherever it is recognized. -/
  recognized (start : Nat) (call : OutputCall) : ts.outputCall? start = some call →
    call.closeIndex? start = none → ts.ReportsOpener (call.openIndex start)
  outputCalls (start : Nat) (call : OutputCall) : (start, call) ∈ ts.outputCalls →
    call.closeIndex? start = none → ts.ReportsOpener (call.openIndex start)
  loops (k : Nat) : ts.headerLayout k = .error .notClosed → ts.ReportsOpener (k + 1)
  distinct (i j c : Nat) : ts.closingParen? i = some c → ts.closingParen? j = some c → i = j
  nested (i j c d : Nat) : ts.closingParen? i = some c → ts.closingParen? j = some d → i < j →
    c < j ∨ d < c

/-- The search for a closer and the stack of the bracket check match the same parentheses, whatever
the tokens are. -/
theorem matchersAgree (ts : Tokens) : ts.MatchersAgree := by
  have hunclosed (start : Nat) (call : OutputCall) (hcall : ts.outputCall? start = some call)
      (hclose : call.closeIndex? start = none) : ts.ReportsOpener (call.openIndex start) := by
    obtain ⟨hopen, heq⟩ := closeIndex?_of_outputCall? hcall
    exact reportsOpener_of_closingParen? hopen (heq ▸ hclose)
  refine {
    closes := fun i c => closingParen?_eq_some_iff
    waits := ?_
    reports := filter_bracketProblems ts
    recognized := hunclosed
    outputCalls := fun start call hcall =>
      hunclosed start call (outputCall?_of_mem_outputCalls hcall)
    loops := ?_
    distinct := ?_
    nested := ?_ }
  · intro i hopen
    rw [closingParen?_eq_none_iff hopen]
    exact ⟨fun hwaits => ⟨hwaits, reportsOpener_of_mem hwaits⟩, fun h => h.1⟩
  · intro k hk
    obtain ⟨hopen, hnone⟩ := closingParen?_of_headerLayout hk
    exact reportsOpener_of_closingParen? hopen hnone
  · intro i j c hi hj
    exact (closingParen?_eq_some_iff.mp hi).opener_unique (closingParen?_eq_some_iff.mp hj)
  · intro i j c d hi hj hij
    exact (closingParen?_eq_some_iff.mp hi).disjoint_or_nested (closingParen?_eq_some_iff.mp hj) hij

/-- A stray closer, a loop header that stays open around a print call that closes, and one that does
not. -/
theorem matchersAgree_unbalanced :
    let ts := Token.ofText ") for (println(a) print(b"
    ts.Pops 4 6 ∧ ts.headerLayout 1 = .error .notClosed ∧ ts.ReportsOpener 2 ∧
      (∃ call, (7, call) ∈ ts.outputCalls ∧ call.closeIndex? 7 = none) ∧ ts.ReportsOpener 8 := by
  intro ts
  have hagree := matchersAgree ts
  have hclosed : ts.closingParen? 4 = some 6 := by decide +kernel
  have hheader : ts.headerLayout 1 = .error .notClosed := by decide +kernel
  have hcall : (7, ⟨false, ⟨.identifier, "print", ⟨1, 19⟩⟩, none⟩) ∈ ts.outputCalls := by
    decide +kernel
  exact ⟨(hagree.closes 4 6).mp hclosed, hheader, hagree.loops 1 hheader, ⟨_, hcall, rfl⟩,
    hagree.outputCalls 7 _ hcall rfl⟩

end LessonCheck.Tokens
