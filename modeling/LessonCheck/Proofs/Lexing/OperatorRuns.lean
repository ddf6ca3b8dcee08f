import LessonCheck.Proofs.Lexing.Starts
import LessonCheck.Proofs.Program.Lexemes

/-!
Runs of operator characters. The lexer cuts a run from the left and takes two characters wherever
they make one operator, but for one case: behind `++` or `--` the same sign once more is cut off by
itself, whatever follows it. So a run is not munched as far as it could be if three like signs are
followed by a fourth or by `=`, and only then.
-/

namespace LessonCheck

/-! ### Two ways to cut a run -/

/-- Maximal munch: from the left, two characters wherever they make one operator. -/
def Piece.munched : List Char → List Piece
  | c :: d :: run =>
    if (c, d) ∈ Cut.doubleOperators then ⟨.operator, [c, d]⟩ :: munched run
    else ⟨.operator, [c]⟩ :: munched (d :: run)
  | [c] => [⟨.operator, [c]⟩]
  | [] => []

/-- The same, except that three like signs are cut at once, into two and one. -/
def Piece.cutRun : List Char → List Piece
  | c :: d :: e :: run =>
    if c = d ∧ d = e ∧ c ∈ ['+', '-'] then
      ⟨.operator, [c, c]⟩ :: ⟨.operator, [c]⟩ :: cutRun run
    else if (c, d) ∈ Cut.doubleOperators then ⟨.operator, [c, d]⟩ :: cutRun (e :: run)
    else ⟨.operator, [c]⟩ :: cutRun (d :: e :: run)
  | run => munched run

theorem Token.scan_operator {c : Char} (hc : Cut.isOperatorChar c = true) (l : Location)
    (text : List Char) :
    scan l (c :: text) = Piece.place l (Cut.operator c text).pieces ++
      scan (l.after (Cut.operator c text).raw) (Cut.operator c text).rest := by
  rw [scan_cut (Piece.IsRegular.not_isBlank_of_isOperatorChar hc), Cut.ofText_operator hc]

theorem Token.scan_operator_one {c : Char} {text symbol rest : List Char}
    (hc : Cut.isOperatorChar c = true) (hcut : Cut.operator c text = .one .operator symbol rest)
    (l : Location) :
    scan l (c :: text) = ⟨.operator, String.ofList symbol, l⟩ :: scan (l.after symbol) rest := by
  rw [scan_operator hc, hcut]
  simp [Cut.one, Cut.raw, Piece.raw, Piece.place]

/-- The lexer cuts a run as far as it goes, whatever stands in front of it. -/
theorem Token.scan_cutRun {run rest : List Char} (hrun : ∀ c ∈ run, Cut.isOperatorChar c = true)
    (hrest : Stops Cut.isOperatorChar rest = true) (l : Location) :
    scan l (run ++ rest) = Piece.place l (Piece.cutRun run) ++ scan (l.after run) rest := by
  have hlast {c : Char} (hc : Cut.isOperatorChar c = true) (l : Location) :=
    scan_operator_one hc (Cut.operator_single hc hrest) l
  fun_induction Piece.cutRun run generalizing l with
  | case1 c d e run hsigns ih =>
      obtain ⟨rfl, rfl, hc⟩ := hsigns
      simp only [List.forall_mem_cons] at hrun
      simp only [List.cons_append]
      rw [scan_operator hrun.1, Cut.operator_triple hc, ih hrun.2.2.2]
      simp [Cut.raw, Piece.raw, Piece.place]
  | case2 c d e run hsigns hdouble ih =>
      simp only [List.forall_mem_cons] at hrun ih
      have hthird : d = c → c ∈ ['+', '-'] → (e :: run ++ rest).head? ≠ some c := by
        rintro rfl hc
        simpa using fun heq => hsigns ⟨rfl, heq.symm, hc⟩
      simp only [List.cons_append] at ih hthird ⊢
      rw [scan_operator_one hrun.1 (Cut.operator_double hdouble hthird), ih hrun.2.2]
      simp [Piece.raw, Piece.place]
  | case3 c d e run hsigns hdouble ih =>
      simp only [List.forall_mem_cons] at hrun ih
      simp only [List.cons_append] at ih ⊢
      rw [scan_operator_one hrun.1 (Cut.operator_lone hdouble _), ih hrun.2]
      simp [Piece.raw, Piece.place]
  | case4 run hshort =>
      -- At most two characters are left, and the text behind them does not go on with the run.
      rcases run with _ | ⟨c, _ | ⟨d, _ | ⟨e, run⟩⟩⟩
      · rfl
      · exact hlast (hrun c (by simp)) l
      · simp only [List.forall_mem_cons] at hrun
        simp only [List.cons_append, List.nil_append]
        by_cases hdouble : (c, d) ∈ Cut.doubleOperators
        · have hthird : d = c → c ∈ ['+', '-'] → rest.head? ≠ some c := by
            rintro - - hhead
            simp [Stops, hhead, hrun.1] at hrest
          rw [scan_operator_one hrun.1 (Cut.operator_double hdouble hthird)]
          simp [Piece.place, Piece.munched, hdouble]
        · rw [scan_operator_one hrun.1 (Cut.operator_lone hdouble _), hlast hrun.2.1]
          simp [Piece.raw, Piece.place, Piece.munched, hdouble]
      · exact absurd rfl (hshort c d e run)

/-! ### Where the two ways part -/

/-- In the run, three like signs are followed by a fourth or by an equals sign. -/
def OverlongSigns (run : List Char) : Prop :=
  ∃ sign ∈ ['+', '-'], ∃ last ∈ [sign, '='], [sign, sign, sign, last] <:+: run

section
variable {c d e : Char} {run : List Char}

theorem overlongSigns_cons : OverlongSigns (c :: run) ↔
    (c ∈ ['+', '-'] ∧ ∃ last ∈ [c, '='], [c, c, last] <+: run) ∨ OverlongSigns run := by
  constructor
  · rintro ⟨sign, hsign, last, hlast, h⟩
    rcases List.infix_cons_iff.mp h with h | h
    · obtain ⟨rfl, htail⟩ := List.cons_prefix_cons.mp h
      exact Or.inl ⟨hsign, last, hlast, htail⟩
    · exact Or.inr ⟨sign, hsign, last, hlast, h⟩
  · rintro (⟨hc, last, hlast, h⟩ | ⟨sign, hsign, last, hlast, h⟩)
    · exact ⟨c, hc, last, hlast, (List.cons_prefix_cons.mpr ⟨rfl, h⟩).isInfix⟩
    · exact ⟨sign, hsign, last, hlast, h.trans (List.suffix_cons c run).isInfix⟩

/-- A character that does not begin three like signs has no part in it. -/
theorem overlongSigns_cons_of_not (h : ¬ (c ∈ ['+', '-'] ∧ [c, c] <+: run)) :
    OverlongSigns (c :: run) ↔ OverlongSigns run := by
  refine overlongSigns_cons.trans (or_iff_right ?_)
  rintro ⟨hc, last, -, hprefix⟩
  exact h ⟨hc, (List.prefix_append [c, c] [last]).trans hprefix⟩

theorem not_overlongSigns_of_length (h : run.length < 4) : ¬ OverlongSigns run := by
  rintro ⟨sign, -, last, -, hinfix⟩
  have hlength := hinfix.length_le
  simp only [List.length_cons, List.length_nil] at hlength
  omega

theorem Cut.eq_of_mem_doubleOperators (h : (c, d) ∈ doubleOperators) (hd : d ∈ ['+', '-']) :
    c = d := by
  simp only [List.mem_cons, List.not_mem_nil, or_false] at hd
  rcases hd with rfl | rfl <;> simpa [doubleOperators] using h

/-- Three like signs, and a fourth or an equals sign behind them. -/
theorem overlongSigns_triple (hc : c ∈ ['+', '-']) :
    OverlongSigns (c :: c :: c :: e :: run) ↔
      (c, e) ∈ Cut.doubleOperators ∨ OverlongSigns (e :: run) := by
  by_cases he : (c, e) ∈ Cut.doubleOperators
  · refine iff_of_true (overlongSigns_cons.mpr (Or.inl ⟨hc, e, ?_, ?_⟩)) (Or.inl he)
    · simpa using (Cut.mem_doubleOperators_sign hc).mp he
    · exact List.prefix_append [c, c, e] run
  · have hne : ¬ (e = c ∨ e = '=') := fun h => he ((Cut.mem_doubleOperators_sign hc).mpr h)
    rw [or_iff_right he, overlongSigns_cons, or_iff_right, overlongSigns_cons_of_not,
      overlongSigns_cons_of_not]
    all_goals
      simp only [List.cons_prefix_cons, true_and]
      grind

/-- The lexer munches a run as far as it could be if and only if no three like signs in it are
followed by a fourth or by an equals sign. -/
theorem Piece.cutRun_eq_munched_iff : cutRun run = munched run ↔ ¬ OverlongSigns run := by
  fun_induction cutRun run with
  | case1 c d e run hsigns ih =>
      obtain ⟨rfl, rfl, hc⟩ := hsigns
      have hdouble : (c, c) ∈ Cut.doubleOperators :=
        (Cut.mem_doubleOperators_sign hc).mpr (Or.inl rfl)
      cases run with
      | nil => simp [munched, hdouble, cutRun, not_overlongSigns_of_length]
      | cons e run =>
          rw [overlongSigns_triple hc, not_or, ← ih]
          by_cases he : (c, e) ∈ Cut.doubleOperators <;> simp [munched, hdouble, he]
  | case2 c d e run hsigns hdouble ih =>
      rw [overlongSigns_cons_of_not, overlongSigns_cons_of_not, ← ih]
      · simp [munched, hdouble]
      · rintro ⟨hd, hprefix⟩
        obtain rfl := Cut.eq_of_mem_doubleOperators hdouble hd
        exact hsigns ⟨rfl, (List.cons_prefix_cons.mp hprefix).1, hd⟩
      · rintro ⟨hc, hprefix⟩
        obtain ⟨rfl, htail⟩ := List.cons_prefix_cons.mp hprefix
        exact hsigns ⟨rfl, (List.cons_prefix_cons.mp htail).1, hc⟩
  | case3 c d e run hsigns hdouble ih =>
      rw [overlongSigns_cons_of_not, ← ih]
      · simp [munched, hdouble]
      · rintro ⟨hc, hprefix⟩
        obtain ⟨rfl, -⟩ := List.cons_prefix_cons.mp hprefix
        exact hdouble ((Cut.mem_doubleOperators_sign hc).mpr (Or.inl rfl))
  | case4 run hshort =>
      refine iff_of_true rfl (not_overlongSigns_of_length ?_)
      rcases run with _ | ⟨c, _ | ⟨d, _ | ⟨e, run⟩⟩⟩
      iterate 3 simp
      exact absurd rfl (hshort c d e run)

end

/-! ### Runs between literals -/

/-- A token of the kind begins with a quote. -/
def Token.Kind.IsLiteral : Token.Kind → Prop
  | .string | .char | .faulty _ => True
  | _ => False

/-- A run of operator characters that goes on neither to the left nor to the right, and every
literal ends in front of it or starts behind it. -/
structure Tokens.IsOperatorRun (ts : Tokens) (source : String) (before run rest : List Char) :
    Prop where
  split : source.toList = before ++ run ++ rest
  nonempty : run ≠ []
  operators : ∀ c ∈ run, Cut.isOperatorChar c = true
  front : ∀ c ∈ before.getLast?, Cut.isOperatorChar c = false
  behind : ∀ c ∈ rest.head?, Cut.isOperatorChar c = false
  outside : ∀ t front text, ts.StartsAt source t front text → t.kind.IsLiteral →
    (front ++ t.raw).length ≤ before.length ∨ (before ++ run).length ≤ front.length

namespace Cut

theorem isPlainStart_of_isWordChar {c : Char} (h : isWordChar c = true) : IsPlainStart c :=
  .of_class h (by decide +kernel)

theorem isOperatorChar_of_mem_operator {c : Char} {text : List Char} {p : Piece}
    (hc : isOperatorChar c = true) (h : p ∈ (operator c text).pieces) :
    ∀ d ∈ p.raw, isOperatorChar d = true := by
  have hsecond : (doubleOperators.all fun q => isOperatorChar q.2) = true := by decide
  have hall : ∀ q ∈ (operator c text).pieces, ∀ d ∈ q.lexeme, isOperatorChar d = true := by
    rcases operator_cases c text with ⟨d, rest, -, hdouble, hcut⟩ | ⟨-, hcut⟩ | ⟨rest, -, -, hcut⟩
    · simp [hcut, one, hc, List.all_eq_true.mp hsecond (c, d) hdouble]
    · simp [hcut, one, hc]
    · simp [hcut, hc]
  have hraw : p.raw = p.lexeme := by rw [Piece.raw, kind_of_mem_operator h]
  rw [hraw]
  exact hall p h

theorem isOperatorChar_of_mem_word {c : Char} {text : List Char} {p : Piece}
    (hc : isWordStart c = true) (h : p ∈ (word c text).pieces) :
    ∀ d ∈ p.raw, isOperatorChar d = false := by
  obtain rfl := List.mem_singleton.mp h
  have hraw (w : List Char) : (⟨wordKind w, w⟩ : Piece).raw = w := by
    unfold wordKind
    split <;> rfl
  rw [hraw, List.forall_mem_cons]
  exact ⟨(isPlainStart_of_isWordStart hc).operator,
    fun d hd => (isPlainStart_of_isWordChar (List.mem_takeWhile_imp hd)).operator⟩

theorem isOperatorChar_of_mem_number {c : Char} {text : List Char} {p : Piece}
    (hc : c.isDigit = true) (h : p ∈ (number c text).pieces) :
    ∀ d ∈ p.raw, isOperatorChar d = false := by
  have hdigit {d : Char} (hd : d.isDigit = true) : isOperatorChar d = false :=
    (isPlainStart_of_isDigit hd).operator
  have hdigits (text : List Char) : ∀ d ∈ text.takeWhile Char.isDigit, isOperatorChar d = false :=
    fun d hd => hdigit (List.mem_takeWhile_imp hd)
  have hwhole : ∀ d ∈ c :: text.takeWhile Char.isDigit, isOperatorChar d = false :=
    List.forall_mem_cons.mpr ⟨hdigit hc, hdigits text⟩
  unfold number at h
  simp only at h
  split at h
  · next d rest _ =>
      split at h
      · next hd =>
          obtain rfl := List.mem_singleton.mp h
          have hpoint : isOperatorChar '.' = false := by decide
          exact List.forall_mem_append.mpr ⟨hwhole, List.forall_mem_cons.mpr
            ⟨hpoint, List.forall_mem_cons.mpr ⟨hdigit hd, hdigits rest⟩⟩⟩
      · obtain rfl := List.mem_singleton.mp h
        exact hwhole
  · obtain rfl := List.mem_singleton.mp h
    exact hwhole

/-- Outside literals, operator characters and others are not part of one piece. -/
theorem isOperatorChar_eq_of_mem {c : Char} {text : List Char} {p : Piece}
    (h : p ∈ (ofText c text).pieces) :
    p.kind.IsLiteral ∨ ∀ d ∈ p.raw, isOperatorChar d = isOperatorChar c := by
  have hbranch := branch_ofText c text
  generalize ofText c text = cut at hbranch h
  cases hbranch with
  | operator hc =>
      rw [hc]
      exact Or.inr (isOperatorChar_of_mem_operator hc h)
  | @mark kind hc =>
      obtain rfl := List.mem_singleton.mp h
      have hraw : (⟨kind, [c]⟩ : Piece).raw = [c] := by
        unfold punctuation? at hc
        split at hc <;> cases hc <;> rfl
      simp [hraw]
  | string hc =>
      rcases kind_of_mem_one (exists_string text) h with hkind | hkind <;> rw [hkind] <;>
        exact Or.inl True.intro
  | char hc =>
      rcases kind_of_mem_one (exists_char text) h with hkind | hkind | hkind <;> rw [hkind] <;>
        exact Or.inl True.intro
  | word hc =>
      rw [(isPlainStart_of_isWordStart hc).operator]
      exact Or.inr (isOperatorChar_of_mem_word hc h)
  | number hc =>
      rw [(isPlainStart_of_isDigit hc).operator]
      exact Or.inr (isOperatorChar_of_mem_number hc h)
  | unknown =>
      obtain rfl := List.mem_singleton.mp h
      simp [Piece.raw]

end Cut

section
variable {source : String} {t : Token} {before run rest text : List Char}

/-- A token that is no literal is made of operator characters, or there is none in it. -/
theorem isOperatorChar_eq_of_mem_raw (ht : t ∈ Token.ofText source) (hkind : ¬ t.kind.IsLiteral)
    {c d : Char} (hc : c ∈ t.raw) (hd : d ∈ t.raw) :
    Cut.isOperatorChar d = Cut.isOperatorChar c := by
  obtain ⟨front, e, rest, ts, -, -, -, hmem⟩ := Token.exists_step ht
  have hraw : t.piece.raw = t.raw := by
    unfold Piece.raw Token.raw
    rfl
  have hclass := (Cut.isOperatorChar_eq_of_mem (Piece.piece_mem_of_mem_place hmem)).resolve_left
    hkind
  rw [hraw] at hclass
  rw [hclass c hc, hclass d hd]

/-- Where a run between literals begins, a step of the lexer begins. -/
theorem Tokens.IsOperatorRun.exists_leads
    (h : (Token.ofText source).IsOperatorRun source before run rest) :
    ∃ c tail, run = c :: tail ∧ ∃ t : Token, t.Leads source before c (tail ++ rest) := by
  obtain ⟨c, tail, rfl⟩ := List.exists_cons_of_ne_nil h.nonempty
  have hc := h.operators c List.mem_cons_self
  have hsplit : source.toList = before ++ c :: (tail ++ rest) := by
    rw [h.split, List.append_assoc, List.cons_append]
  obtain ⟨t, front, inside, more, rfl, hraw, hstarts⟩ :=
    exists_startsAt_covering hsplit (Piece.IsRegular.not_isBlank_of_isOperatorChar hc)
  have hliteral : ¬ t.kind.IsLiteral := by
    intro hliteral
    have houtside := h.outside t front _ hstarts hliteral
    simp only [hraw, List.length_append, List.length_cons] at houtside
    omega
  -- A token that holds the first character of the run begins with it.
  obtain rfl : inside = [] := by
    rcases List.eq_nil_or_concat inside with rfl | ⟨init, d, rfl⟩
    · rfl
    · have hmem : c ∈ t.raw ∧ d ∈ t.raw := by simp [hraw]
      have hclass := isOperatorChar_eq_of_mem_raw hstarts.mem hliteral hmem.1 hmem.2
      rw [h.front d (by simp), hc] at hclass
      cases hclass
  rw [List.append_nil] at h ⊢
  refine ⟨c, tail, rfl, t, ?_⟩
  rcases hstarts.leads_or_trails with hleads | htrails
  · exact hleads
  · obtain ⟨earlier, ts, hbefore, -⟩ := htrails.resumes
    have hfront := h.front c (by simp [hbefore])
    rw [hc] at hfront
    cases hfront

theorem Tokens.IsOperatorRun.infix_cutRun
    (h : (Token.ofText source).IsOperatorRun source before run rest) :
    Piece.place (Location.behind before) (Piece.cutRun run) <:+: Token.ofText source := by
  obtain ⟨c, tail, rfl, t, hleads⟩ := h.exists_leads
  obtain ⟨ts, hresumes⟩ := hleads.resumes
  have hrest : Stops Cut.isOperatorChar rest = true := by
    cases rest with
    | nil => rfl
    | cons d rest => simpa [Stops] using h.behind d rfl
  rw [← List.cons_append, Token.scan_cutRun h.operators hrest] at hresumes
  exact ⟨ts, _, by rw [hresumes, List.append_assoc]⟩

/-- The sign at the place has been doubled right in front of it. -/
def Tokens.RepeatsSign (ts : Tokens) (source : String) (before : List Char) (c : Char)
    (text : List Char) : Prop :=
  c ∈ ['+', '-'] ∧ ∃ u front, before = front ++ [c, c] ∧
    ts.StartsAt source u front (c :: c :: c :: text) ∧ u.lexeme.toList = [c, c]

/-- An operator is as long as the two characters allow, or it is a sign for the third time. -/
theorem Tokens.StartsAt.operator_cases {c d : Char}
    (h : (Token.ofText source).StartsAt source t before (c :: d :: text))
    (hkind : t.kind = .operator) :
    (c, d) ∈ Cut.doubleOperators ∧ t.lexeme.toList = [c, d] ∨
      (c, d) ∉ Cut.doubleOperators ∧ t.lexeme.toList = [c] ∨
      (Token.ofText source).RepeatsSign source before c (d :: text) ∧ t.lexeme.toList = [c] := by
  have hc := h.beginsWith
  rw [hkind] at hc
  rcases h.leads_or_trails with hleads | htrails
  · have hfirst := hleads.first
    rw [Cut.ofText_operator hc] at hfirst
    rcases Cut.operator_cases c (d :: text) with
      ⟨d', rest, htext, hdouble, hcut⟩ | ⟨hlone, hcut⟩ | ⟨rest, hsign, htext, hcut⟩
    · obtain ⟨rfl, rfl⟩ := List.cons.inj htext
      rw [hcut] at hfirst
      exact Or.inl ⟨hdouble, (congrArg Piece.lexeme (Option.some.inj hfirst)).symm⟩
    · rw [hcut] at hfirst
      exact Or.inr (Or.inl ⟨hlone d rfl, (congrArg Piece.lexeme (Option.some.inj hfirst)).symm⟩)
    · obtain ⟨rfl, rfl⟩ := List.cons.inj htext
      rw [hcut] at hfirst
      exact Or.inl ⟨(Cut.mem_doubleOperators_sign hsign).mpr (Or.inl rfl),
        (congrArg Piece.lexeme (Option.some.inj hfirst)).symm⟩
  · refine Or.inr (Or.inr ⟨⟨htrails.sign_mem, ?_⟩, congrArg Piece.lexeme htrails.piece⟩)
    obtain ⟨front, ts, rfl, hresumes⟩ := htrails.resumes
    refine ⟨⟨.operator, String.ofList [c, c], Location.behind front⟩, front, rfl, ?_, by simp⟩
    refine ⟨?_, by simp [h.split], rfl⟩
    rw [hresumes, Token.scan_operator hc, Cut.operator_triple htrails.sign_mem]
    simp [Piece.place]

end

/-! ### Cut, but not munched -/

/-- Every run between literals is munched as far as it could be. -/
def Tokens.MunchesRuns (ts : Tokens) (source : String) : Prop :=
  ∀ before run rest, ts.IsOperatorRun source before run rest →
    Piece.place (Location.behind before) (Piece.munched run) <:+: ts

/-- A run of operator characters between literals is cut from the left, two characters at a time
where they make one operator, but a sign that has just been doubled is cut off by itself. The run is
munched as far as it could be if and only if no three like signs in it are followed by a fourth or
by an equals sign. -/
theorem operatorRuns_cut (cache : TextCache) (source : String) :
    (∀ before run rest, (cache.lex source).1.tokens.IsOperatorRun source before run rest →
      Piece.place (Location.behind before) (Piece.cutRun run) <:+: (cache.lex source).1.tokens ∧
      (Piece.cutRun run = Piece.munched run ↔ ¬ OverlongSigns run)) ∧
    ∀ t before c d text,
      (cache.lex source).1.tokens.StartsAt source t before (c :: d :: text) → t.kind = .operator →
      (c, d) ∈ Cut.doubleOperators ∧ t.lexeme.toList = [c, d] ∨
        (c, d) ∉ Cut.doubleOperators ∧ t.lexeme.toList = [c] ∨
        (cache.lex source).1.tokens.RepeatsSign source before c (d :: text) ∧
          t.lexeme.toList = [c] := by
  rw [TextCache.lex_eq]
  exact ⟨fun before run rest h => ⟨h.infix_cutRun, Piece.cutRun_eq_munched_iff⟩,
    fun t before c d text h hkind => h.operator_cases hkind⟩

theorem not_munchesRuns (run : List Char) (hne : run ≠ [])
    (hall : run.all Cut.isOperatorChar = true)
    (hkind : ∀ p ∈ Piece.cutRun run, p.kind = .operator)
    (hparts : ¬ Piece.place .start (Piece.munched run) <:+: Piece.place .start (Piece.cutRun run)) :
    ¬ (Token.ofText (String.ofList run)).MunchesRuns (String.ofList run) := by
  have hrun := List.all_eq_true.mp hall
  have htokens : Token.ofText (String.ofList run) = Piece.place .start (Piece.cutRun run) := by
    have hscan : Token.scan .start (run ++ []) = _ := Token.scan_cutRun hrun rfl .start
    simpa [Token.ofText] using hscan
  intro hmunches
  have hinfix := hmunches [] run [] ?_
  · rw [htokens] at hinfix
    exact hparts hinfix
  · refine ⟨by simp, hne, hrun, by simp, by simp, fun t front text h hliteral => ?_⟩
    have hmem := h.mem
    rw [htokens] at hmem
    have hoperator := hkind _ (Piece.piece_mem_of_mem_place hmem)
    rw [show t.kind = .operator from hoperator] at hliteral
    cases hliteral

/-- Four plus signs, and three of them in front of an equals sign. -/
theorem not_munchesRuns_plus :
    ¬ ((TextCache.new true).lex "++++").1.tokens.MunchesRuns "++++" ∧
      ¬ ((TextCache.new true).lex "+++=").1.tokens.MunchesRuns "+++=" := by
  rw [TextCache.lex_eq, TextCache.lex_eq]
  exact ⟨not_munchesRuns ['+', '+', '+', '+'] (by decide) (by decide) (by decide) (by decide),
    not_munchesRuns ['+', '+', '+', '='] (by decide) (by decide) (by decide) (by decide)⟩

end LessonCheck
