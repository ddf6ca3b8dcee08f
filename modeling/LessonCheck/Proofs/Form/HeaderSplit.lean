import LessonCheck.Proofs.Access.Header
import LessonCheck.Proofs.Bracket.Depth

/-!
How a loop header is split. A header is accepted exactly if its parenthesis opens and closes and
holds two semicolons, at whatever depth; its parenthesis, its parts and its semicolons then lie side
by side and fill the numbers from the opener to the closer. The three faults are told apart by the
same conditions. All of it holds behind every token, a `for` or not.
-/

namespace LessonCheck

namespace Span

/-- The token numbers in a span. -/
def numbers (span : Span) : List Nat := List.range' span.first (span.last - span.first)

/-- The span of one token. -/
def single (i : Nat) : Span := ⟨i, i + 1⟩

/-- The spans begin at `lo`, each ends where the next begins, and the last ends at `hi`. -/
def Tile : Nat → List Span → Nat → Prop
  | lo, [], hi => lo = hi
  | lo, span :: spans, hi => span.first = lo ∧ span.first ≤ span.last ∧ Tile span.last spans hi

variable {lo hi i : Nat} {span : Span} {spans : List Span}

theorem mem_numbers : i ∈ span.numbers ↔ span.first ≤ i ∧ i < span.last := by
  rw [numbers, List.mem_range'_1]
  omega

theorem Tile.le (h : Tile lo spans hi) : lo ≤ hi := by
  induction spans generalizing lo with
  | nil => exact Nat.le_of_eq h
  | cons span spans ih =>
      obtain ⟨rfl, hspan, hrest⟩ := h
      exact Nat.le_trans hspan (ih hrest)

/-- Spans that tile a stretch of numbers go through each of them once, in order. -/
theorem Tile.numbers_eq (h : Tile lo spans hi) :
    spans.flatMap numbers = List.range' lo (hi - lo) := by
  induction spans generalizing lo with
  | nil =>
      obtain rfl : lo = hi := h
      simp
  | cons span spans ih =>
      obtain ⟨rfl, hspan, hrest⟩ := h
      have hjoin : List.range' span.first (span.last - span.first) ++
          List.range' (span.first + (span.last - span.first)) (hi - span.last) =
            List.range' span.first (span.last - span.first + (hi - span.last)) :=
        List.range'_append_1
      have hle := hrest.le
      rw [Nat.add_sub_cancel' hspan] at hjoin
      rw [List.flatMap_cons, ih hrest, numbers, hjoin]
      congr 1
      omega

end Span

/-- A header with its semicolons as spans, one behind the other. -/
def HeaderLayout.pieces (h : HeaderLayout) (first second : Nat) : List Span :=
  [.single h.opener, h.init, .single first, h.condition, .single second, h.increment,
    .single h.closer]

namespace Tokens

variable {ts : Tokens} {k c first second : Nat} {h : HeaderLayout}

/-- The layout of the header behind token number `k`, which is closed at `c` and has its semicolons
at `first` and `second`. -/
structure LaysOut (ts : Tokens) (k c first second : Nat) (h : HeaderLayout) : Prop where
  keyword : h.keyword = k
  opener : h.opener = k + 1
  closer : h.closer = c
  closes : h.closer < ts.length
  ordered (span : Span) : span ∈ [h.init, h.condition, h.increment] → span.first ≤ span.last
  tile : Span.Tile (k + 1) (h.pieces first second) (c + 1)
  covers : (h.pieces first second).flatMap Span.numbers = List.range' (k + 1) (c - k)
  noSemicolon (span : Span) (i : Nat) : span ∈ [h.init, h.condition, h.increment] →
    i ∈ span.numbers → ts.hasKindAt i .semicolon = false

/-- The layout is settled by the places of the parenthesis and of the semicolons. -/
theorem LaysOut.eq (hlay : ts.LaysOut k c first second h) :
    h = ⟨k, k + 1, c, ⟨k + 1 + 1, first⟩, ⟨first + 1, second⟩, ⟨second + 1, c⟩⟩ := by
  obtain ⟨hkeyword, hopener, hcloser, -, -, htile, -, -⟩ := hlay
  obtain ⟨keyword, opener, closer, ⟨a, b⟩, ⟨d, e⟩, ⟨f, g⟩⟩ := h
  simp only [HeaderLayout.pieces, Span.Tile, Span.single] at hkeyword hopener hcloser htile
  simp only [HeaderLayout.mk.injEq, Span.mk.injEq]
  omega

theorem mem_semicolonPositions {i : Nat} :
    i ∈ ts.semicolonPositions k c ↔ k < i ∧ i < c ∧ ts.hasKindAt i .semicolon = true := by
  rw [semicolonPositions, List.mem_filter, List.mem_range, Bool.and_eq_true, Bool.and_eq_true,
    decide_eq_true_eq, decide_eq_true_eq, and_assoc, and_iff_right_iff_imp]
  exact fun h => lt_length_of_hasKindAt h.2.2

theorem pairwise_semicolonPositions (ts : Tokens) (k c : Nat) :
    (ts.semicolonPositions k c).Pairwise (· < ·) :=
  List.pairwise_lt_range.filter _

/-- What is between the parentheses and no semicolon falls into the parts, and the parts tile the
header. -/
theorem laysOut (hclosed : ts.ClosedBy (k + 1) c)
    (hsemicolons : ts.semicolonPositions (k + 1) c = [first, second]) :
    ts.LaysOut k c first second
      ⟨k, k + 1, c, ⟨k + 1 + 1, first⟩, ⟨first + 1, second⟩, ⟨second + 1, c⟩⟩ := by
  have hmem (i : Nat) : i = first ∨ i = second ↔
      k + 1 < i ∧ i < c ∧ ts.hasKindAt i .semicolon = true := by
    rw [← mem_semicolonPositions, hsemicolons, List.mem_pair]
  obtain ⟨hafter, -, -⟩ := (hmem first).mp (Or.inl rfl)
  obtain ⟨-, hbefore, -⟩ := (hmem second).mp (Or.inr rfl)
  have horder : first < second := by
    simpa [hsemicolons] using pairwise_semicolonPositions ts (k + 1) c
  have htile : Span.Tile (k + 1) (HeaderLayout.pieces
      ⟨k, k + 1, c, ⟨k + 1 + 1, first⟩, ⟨first + 1, second⟩, ⟨second + 1, c⟩⟩ first second)
      (c + 1) := by
    simp only [HeaderLayout.pieces, Span.Tile, Span.single, true_and, and_true]
    omega
  -- Each part is in the parenthesis, on one side of each semicolon.
  have hpart (span : Span) (hspan : span ∈
      [(⟨k + 1 + 1, first⟩ : Span), ⟨first + 1, second⟩, ⟨second + 1, c⟩]) :
      span.first ≤ span.last ∧ k + 1 < span.first ∧ span.last ≤ c ∧
        (span.last ≤ first ∨ first < span.first) ∧ (span.last ≤ second ∨ second < span.first) := by
    simp only [List.mem_cons, List.not_mem_nil, or_false] at hspan
    rcases hspan with rfl | rfl | rfl <;> dsimp only <;> omega
  refine ⟨rfl, rfl, rfl, lt_length_of_hasKindAt hclosed.closer, fun span hspan => ?_, htile, ?_, ?_⟩
  · exact (hpart span hspan).1
  · rw [htile.numbers_eq, Nat.add_sub_add_right]
  · intro span i hspan hi
    obtain ⟨-, hinside, hend, hfirst, hsecond⟩ := hpart span hspan
    rw [Span.mem_numbers] at hi
    refine Bool.eq_false_iff.mpr fun hkind => ?_
    rcases (hmem i).mpr ⟨by omega, by omega, hkind⟩ with rfl | rfl <;> omega

/-! ### The answer -/

theorem headerLayout_of_not_opened (hopen : ts.hasKindAt (k + 1) .lparen = false) :
    ts.headerLayout k = .error .notOpened := by
  have hread := headerAt_eq ts k
  simpa [headerAt, hopen, eq_comm] using hread

theorem headerLayout_of_not_closed (hopen : ts.hasKindAt (k + 1) .lparen = true)
    (hnone : ∀ c, ¬ ts.ClosedBy (k + 1) c) : ts.headerLayout k = .error .notClosed := by
  have hclosing : ts.closingParen? (k + 1) = none :=
    Option.eq_none_iff_forall_ne_some.mpr fun c hc =>
      hnone c (closingParen?_eq_some_iff_closedBy.mp hc)
  have hread := headerAt_eq ts k
  simpa [headerAt, hopen, closerAt_eq, hclosing, eq_comm] using hread

theorem headerLayout_of_closedBy (hclosed : ts.ClosedBy (k + 1) c) :
    ts.headerLayout k = layoutOf k c (ts.semicolonPositions (k + 1) c) := by
  have hclosing := closingParen?_eq_some_iff_closedBy.mpr hclosed
  have hread := headerAt_eq ts k
  simpa [headerAt, hclosed.opener, closerAt_eq, hclosing, eq_comm] using hread

/-- The answers for the header behind token number `k`, each with what it takes. -/
inductive HeaderAnswer (ts : Tokens) (k : Nat) : Except HeaderFault HeaderLayout → Prop
  | notOpened : ts.hasKindAt (k + 1) .lparen = false → HeaderAnswer ts k (.error .notOpened)
  | notClosed : ts.hasKindAt (k + 1) .lparen = true → (∀ c, ¬ ts.ClosedBy (k + 1) c) →
      HeaderAnswer ts k (.error .notClosed)
  | parts {c first second : Nat} {h : HeaderLayout} : ts.ClosedBy (k + 1) c →
      ts.semicolonPositions (k + 1) c = [first, second] → ts.LaysOut k c first second h →
      HeaderAnswer ts k (.ok h)
  | semicolons {c : Nat} : ts.ClosedBy (k + 1) c → (ts.semicolonPositions (k + 1) c).length ≠ 2 →
      HeaderAnswer ts k (.error (.semicolons (ts.semicolonPositions (k + 1) c).length))

theorem HeaderAnswer.eq {answer : Except HeaderFault HeaderLayout}
    (hanswer : ts.HeaderAnswer k answer) : ts.headerLayout k = answer := by
  cases hanswer with
  | notOpened hopen => exact headerLayout_of_not_opened hopen
  | notClosed hopen hnone => exact headerLayout_of_not_closed hopen hnone
  | parts hclosed hpair hlay => rw [headerLayout_of_closedBy hclosed, hpair, layoutOf, hlay.eq]
  | semicolons hclosed hcount =>
      rw [headerLayout_of_closedBy hclosed]
      unfold layoutOf
      split
      · next hpair => exact absurd (congrArg List.length hpair) hcount
      · rfl

theorem exists_headerAnswer (ts : Tokens) (k : Nat) : ∃ answer, ts.HeaderAnswer k answer := by
  cases hopen : ts.hasKindAt (k + 1) .lparen with
  | false => exact ⟨_, .notOpened hopen⟩
  | true =>
      by_cases hclosed : ∃ c, ts.ClosedBy (k + 1) c
      · obtain ⟨c, hc⟩ := hclosed
        by_cases htwo : (ts.semicolonPositions (k + 1) c).length = 2
        · obtain ⟨first, second, hpair⟩ := List.length_eq_two.mp htwo
          exact ⟨_, .parts hc hpair (laysOut hc hpair)⟩
        · exact ⟨_, .semicolons hc htwo⟩
      · exact ⟨_, .notClosed hopen (not_exists.mp hclosed)⟩

theorem headerLayout_eq_iff {answer : Except HeaderFault HeaderLayout} :
    ts.headerLayout k = answer ↔ ts.HeaderAnswer k answer := by
  refine ⟨?_, HeaderAnswer.eq⟩
  rintro rfl
  obtain ⟨answer, hanswer⟩ := exists_headerAnswer ts k
  exact hanswer.eq ▸ hanswer

/-- When the header behind token number `k` is accepted and where its parts are, and which fault it
has otherwise. -/
structure SplitsHeader (ts : Tokens) (k : Nat) : Prop where
  byNumber : ts.headerAt k = .ok (ts.headerLayout k)
  accepted : (∃ h, ts.headerLayout k = .ok h) ↔
    ∃ c, ts.ClosedBy (k + 1) c ∧ (ts.semicolonPositions (k + 1) c).length = 2
  laysOut (h : HeaderLayout) : ts.headerLayout k = .ok h ↔
    ∃ c first second, ts.ClosedBy (k + 1) c ∧
      ts.semicolonPositions (k + 1) c = [first, second] ∧ ts.LaysOut k c first second h
  notOpened : ts.headerLayout k = .error .notOpened ↔ ts.hasKindAt (k + 1) .lparen = false
  notClosed : ts.headerLayout k = .error .notClosed ↔
    ts.hasKindAt (k + 1) .lparen = true ∧ ∀ c, ¬ ts.ClosedBy (k + 1) c
  semicolons (m : Nat) : ts.headerLayout k = .error (.semicolons m) ↔
    ∃ c, ts.ClosedBy (k + 1) c ∧ (ts.semicolonPositions (k + 1) c).length = m ∧ m ≠ 2

/-- Headers are split exactly, and their parts tile them. -/
theorem splitsHeader (ts : Tokens) (k : Nat) : ts.SplitsHeader k where
  byNumber := headerAt_eq ts k
  accepted := by
    constructor
    · rintro ⟨h, hread⟩
      cases headerLayout_eq_iff.mp hread with
      | parts hc hpair _ => exact ⟨_, hc, by rw [hpair]; rfl⟩
    · rintro ⟨c, hc, htwo⟩
      obtain ⟨first, second, hpair⟩ := List.length_eq_two.mp htwo
      exact ⟨_, headerLayout_eq_iff.mpr (.parts hc hpair (laysOut hc hpair))⟩
  laysOut h := by
    rw [headerLayout_eq_iff]
    constructor
    · intro hanswer
      cases hanswer with
      | parts hc hpair hlay => exact ⟨_, _, _, hc, hpair, hlay⟩
    · rintro ⟨c, first, second, hc, hpair, hlay⟩
      exact .parts hc hpair hlay
  notOpened := by
    rw [headerLayout_eq_iff]
    refine ⟨fun hanswer => ?_, .notOpened⟩
    cases hanswer with
    | notOpened hopen => exact hopen
  notClosed := by
    rw [headerLayout_eq_iff]
    refine ⟨fun hanswer => ?_, fun h => .notClosed h.1 h.2⟩
    cases hanswer with
    | notClosed hopen hnone => exact ⟨hopen, hnone⟩
  semicolons m := by
    rw [headerLayout_eq_iff]
    constructor
    · intro hanswer
      cases hanswer with
      | semicolons hc hcount => exact ⟨_, hc, rfl, hcount⟩
    · rintro ⟨c, hc, rfl, hcount⟩
      exact .semicolons hc hcount

end Tokens

end LessonCheck
