import LessonCheck.Proofs.Access.Lexing
import LessonCheck.Proofs.Lexing.Escapes
import LessonCheck.Proofs.Lexing.Starts

/-!
Where a literal ends. Its closing quote is the first one that an even number of backslashes stands
in front of, counted back to the opening quote at most. The scan of a literal goes from the left,
two characters at a time behind a backslash, and finds this quote, unless a character that breaks
the literal off comes before it.
-/

namespace LessonCheck

namespace Quoted

/-- Behind an opening quote, `inside` stands in front of the closing one and `rest` behind it. -/
structure Closes (quote : Char) (text inside rest : List Char) : Prop where
  split : text = inside ++ quote :: rest
  even : Even (backslashRun inside)
  first : ∀ front behind, inside = front ++ quote :: behind → ¬ Even (backslashRun front)

section
variable {quote : Char} {text inside rest : List Char}

theorem even_backslashRun_nil : Even (backslashRun []) := by simp [backslashRun]

theorem not_closes_nil : ¬ Closes quote [] inside rest := by
  intro h
  have hsplit := h.split
  cases inside <;> cases hsplit

theorem closes_quote_iff :
    Closes quote (quote :: text) inside rest ↔ inside = [] ∧ rest = text := by
  constructor
  · intro h
    cases inside with
    | nil => exact ⟨rfl, (List.cons.inj h.split).2.symm⟩
    | cons c inside =>
        -- The quote at the front would have closed the literal.
        obtain ⟨rfl, -⟩ := List.cons.inj h.split
        exact absurd even_backslashRun_nil (h.first [] inside rfl)
  · rintro ⟨rfl, rfl⟩
    exact ⟨rfl, even_backslashRun_nil, fun front behind h => by cases front <;> cases h⟩

/-- A front that neither closes the literal nor bears on what follows is a part of the literal. -/
theorem closes_append_iff (front : List Char)
    (heven : ∀ more, Even (backslashRun (front ++ more)) ↔ Even (backslashRun more))
    (hfree : ∀ a b, front = a ++ quote :: b → ¬ Even (backslashRun a)) :
    Closes quote (front ++ text) inside rest ↔
      ∃ tail, inside = front ++ tail ∧ Closes quote text tail rest := by
  constructor
  · rintro ⟨hsplit, hrun, hfirst⟩
    rcases List.append_eq_append_iff.mp hsplit with ⟨tail, rfl, htext⟩ | ⟨more, hfront, hmore⟩
    · refine ⟨tail, rfl, htext, (heven tail).mp hrun, fun a b htail => ?_⟩
      have hinside := hfirst (front ++ a) b (by rw [htail, List.append_assoc])
      rwa [heven] at hinside
    · cases more with
      | nil =>
          obtain rfl : front = inside := by simpa using hfront
          refine ⟨[], by simp, by simpa using hmore.symm, even_backslashRun_nil, fun a b h => ?_⟩
          cases a <;> cases h
      | cons c more =>
          obtain ⟨rfl, -⟩ := List.cons.inj hmore
          exact absurd hrun (hfree inside more hfront)
  · rintro ⟨tail, rfl, rfl, hrun, hfirst⟩
    refine ⟨by rw [List.append_assoc], (heven tail).mpr hrun, fun a b hinside => ?_⟩
    rcases List.append_eq_append_iff.mp hinside with ⟨more, rfl, htail⟩ | ⟨more, hfront, hmore⟩
    · rw [heven]
      exact hfirst more b htail
    · cases more with
      | nil =>
          obtain rfl : front = a := by simpa using hfront
          have htail : tail = [] ++ quote :: b := by simpa using hmore.symm
          exact absurd even_backslashRun_nil (hfirst [] b htail)
      | cons c more =>
          obtain ⟨rfl, -⟩ := List.cons.inj hmore
          exact hfree a more hfront

theorem closes_cons_iff {c : Char} (hquote : c ≠ quote) (hescape : c ≠ '\\') :
    Closes quote (c :: text) inside rest ↔
      ∃ tail, inside = c :: tail ∧ Closes quote text tail rest := by
  refine closes_append_iff [c] (even_backslashRun_cons hescape) fun a b h => ?_
  rcases a with _ | ⟨d, a⟩
  · exact absurd (List.cons.inj h).1 hquote
  · cases a <;> simp at h

theorem closes_pair_iff {d : Char} (hquote : quote ≠ '\\') :
    Closes quote ('\\' :: d :: text) inside rest ↔
      ∃ tail, inside = '\\' :: d :: tail ∧ Closes quote text tail rest := by
  refine closes_append_iff ['\\', d] (even_backslashRun_pair d) fun a b h => ?_
  rcases a with _ | ⟨e, _ | ⟨e', a⟩⟩
  · exact absurd (List.cons.inj h).1.symm hquote
  · -- The second character has one backslash in front of it.
    obtain ⟨rfl, -⟩ := List.cons.inj h
    simp [backslashRun]
  · cases a <;> simp at h

theorem not_closes_backslash (hquote : quote ≠ '\\') : ¬ Closes quote ['\\'] inside rest := by
  intro h
  rcases inside with _ | ⟨c, inside⟩
  · exact absurd (List.cons.inj h.split).1.symm hquote
  · have hsplit := (List.cons.inj h.split).2
    cases inside <;> cases hsplit

/-! ### The scan finds the closing quote -/

variable {stops : Char → Bool}

theorem prepend_eq_iff {q : Quoted} {front : List Char} {closed : Bool} :
    q.prepend front = ⟨inside, closed, rest⟩ ↔
      ∃ tail, inside = front ++ tail ∧ q = ⟨tail, closed, rest⟩ := by
  obtain ⟨tail, b, r⟩ := q
  constructor
  · intro h
    cases h
    exact ⟨tail, rfl, rfl⟩
  · rintro ⟨_, rfl, h⟩
    cases h
    rfl

theorem scan_eq_closed_iff (hquote : quote ≠ '\\') (hescape : stops '\\' = false) :
    scan quote stops text = ⟨inside, true, rest⟩ ↔
      Closes quote text inside rest ∧ ∀ c ∈ inside, stops c = false := by
  fun_induction scan quote stops text generalizing inside with
  | case1 => simp [not_closes_nil]
  | case2 text =>
      rw [closes_quote_iff]
      constructor
      · intro h
        cases h
        simp
      · rintro ⟨⟨rfl, rfl⟩, -⟩
        rfl
  | case3 c text hc hstop =>
      have hne : c ≠ '\\' := by
        rintro rfl
        simp [hescape] at hstop
      rw [closes_cons_iff hc hne]
      refine iff_of_false (by simp) ?_
      rintro ⟨⟨tail, rfl, -⟩, hall⟩
      simp [hall c List.mem_cons_self] at hstop
  | case4 hc hstop => simp [not_closes_backslash hquote]
  | case5 d text hd hc hstop =>
      rw [closes_pair_iff hquote]
      refine iff_of_false (by simp) ?_
      rintro ⟨⟨tail, rfl, -⟩, hall⟩
      simp [hall d (by simp)] at hd
  | case6 d text hd hc hstop ih =>
      rw [closes_pair_iff hquote, prepend_eq_iff]
      constructor
      · rintro ⟨tail, rfl, hscan⟩
        obtain ⟨hcloses, hall⟩ := ih.mp hscan
        refine ⟨⟨tail, rfl, hcloses⟩, ?_⟩
        simpa [hescape, hd] using hall
      · rintro ⟨⟨tail, rfl, hcloses⟩, hall⟩
        exact ⟨tail, rfl, ih.mpr ⟨hcloses, fun c hc => hall c (by simp [hc])⟩⟩
  | case7 c text hc hstop hne ih =>
      rw [closes_cons_iff hc hne, prepend_eq_iff]
      constructor
      · rintro ⟨tail, rfl, hscan⟩
        obtain ⟨hcloses, hall⟩ := ih.mp hscan
        refine ⟨⟨tail, rfl, hcloses⟩, ?_⟩
        simpa [hstop] using hall
      · rintro ⟨⟨tail, rfl, hcloses⟩, hall⟩
        exact ⟨tail, rfl, ih.mpr ⟨hcloses, fun c hc => hall c (by simp [hc])⟩⟩

/-- A literal that is not closed goes up to the first character that breaks it off. -/
theorem inside_scan_of_open (hescape : stops '\\' = false)
    (h : (scan quote stops text).closed = false) :
    (scan quote stops text).inside = text.takeWhile fun c => !stops c := by
  fun_induction scan quote stops text with
  | case1 => rfl
  | case2 text => cases h
  | case3 c text hc hstop => simp [hstop]
  | case4 hc hstop => simp [hescape]
  | case5 d text hd hc hstop => simp [hescape, hd]
  | case6 d text hd hc hstop ih => simpa [hescape, hd, prepend] using ih h
  | case7 c text hc hstop hne ih => simpa [hstop, prepend] using ih h

theorem scan_of_not_closes (hquote : quote ≠ '\\') (hescape : stops '\\' = false)
    (h : ∀ inside rest, Closes quote text inside rest → ∃ c ∈ inside, stops c = true) :
    scan quote stops text =
      ⟨text.takeWhile fun c => !stops c, false, text.dropWhile fun c => !stops c⟩ := by
  have hinside : (scan quote stops text).closed = false →
      (scan quote stops text).inside = text.takeWhile fun c => !stops c :=
    inside_scan_of_open hescape
  have htext := raw_append_rest quote stops text
  have hsplit : (text.takeWhile fun c => !stops c) ++ text.dropWhile (fun c => !stops c) = text :=
    List.takeWhile_append_dropWhile
  cases hscan : scan quote stops text with
  | mk inside closed rest =>
      rw [hscan] at hinside htext
      cases closed with
      | true =>
          obtain ⟨hcloses, hall⟩ := (scan_eq_closed_iff hquote hescape).mp hscan
          obtain ⟨c, hc, hstop⟩ := h inside rest hcloses
          simp [hall c hc] at hstop
      | false =>
          obtain rfl := hinside rfl
          obtain rfl := List.append_cancel_left (htext.trans hsplit.symm)
          rfl

end

end Quoted

/-! ### Strings -/

/-- The token is what a quote makes of the text behind it. -/
structure Token.ReadsString (t : Token) (text : List Char) : Prop where
  whole : ∀ inside rest, Quoted.Closes '"' text inside rest →
    t.kind = .string ∧ t.lexeme.toList = inside
  unterminated_iff : t.kind = .faulty .unterminatedString ↔
    ∀ inside rest, ¬ Quoted.Closes '"' text inside rest
  toEnd : t.kind = .faulty .unterminatedString → t.lexeme.toList = '"' :: text

namespace Cut

theorem string_of_closes {text inside rest : List Char} (h : Quoted.Closes '"' text inside rest) :
    string text = one .string inside rest := by
  have hscan : Quoted.scan '"' (fun _ => false) text = ⟨inside, true, rest⟩ :=
    (Quoted.scan_eq_closed_iff (by decide) rfl).mpr ⟨h, fun _ _ => rfl⟩
  rw [string, hscan]
  rfl

theorem string_of_not_closes {text : List Char}
    (h : ∀ inside rest, ¬ Quoted.Closes '"' text inside rest) :
    string text = one (.faulty .unterminatedString) ('"' :: text) [] := by
  have hscan : Quoted.scan '"' (fun _ => false) text = ⟨text, false, []⟩ := by
    rw [Quoted.scan_of_not_closes (by decide) rfl
      fun inside rest hcloses => absurd hcloses (h inside rest),
      List.takeWhile_eq_self_iff.mpr (by simp), List.dropWhile_eq_nil_iff.mpr (by simp)]
  rw [string, hscan]
  rfl

end Cut

theorem Tokens.StartsAt.readsString {source : String} {t : Token} {before text : List Char}
    (h : (Token.ofText source).StartsAt source t before ('"' :: text)) : t.ReadsString text := by
  have hfirst := (h.leads (by decide)).first
  rw [Cut.ofText_quote] at hfirst
  have hwhole (inside rest : List Char) (hcloses : Quoted.Closes '"' text inside rest) :
      t.piece = ⟨.string, inside⟩ := by
    rw [Cut.string_of_closes hcloses] at hfirst
    exact (Option.some.inj hfirst).symm
  have hopen (hnone : ∀ inside rest, ¬ Quoted.Closes '"' text inside rest) :
      t.piece = ⟨.faulty .unterminatedString, '"' :: text⟩ := by
    rw [Cut.string_of_not_closes hnone] at hfirst
    exact (Option.some.inj hfirst).symm
  have hnone (hkind : t.kind = .faulty .unterminatedString) (inside rest : List Char) :
      ¬ Quoted.Closes '"' text inside rest := by
    intro hcloses
    have hstring : t.kind = .string := congrArg Piece.kind (hwhole inside rest hcloses)
    rw [hstring] at hkind
    cases hkind
  refine ⟨fun inside rest hcloses => ?_, ⟨hnone, fun h => ?_⟩, fun hkind => ?_⟩
  · exact Piece.mk.inj (hwhole inside rest hcloses)
  · exact congrArg Piece.kind (hopen h)
  · exact congrArg Piece.lexeme (hopen (hnone hkind))

/-! ### Escapes up to the closing quote -/

/-- What a scan for illegal escapes comes to, and whether it broke off in front of a backslash with
nothing behind it. -/
structure EscapeScan where
  found : List InvalidEscape
  brokenOff : Bool
  deriving DecidableEq

namespace EscapeScan

def read (offset : Nat) : List Char → EscapeScan
  | [] => ⟨[], false⟩
  | ['\\'] => ⟨[], true⟩
  | '\\' :: c :: text =>
    let behind := read (offset + 2) text
    if legalEscapes.contains c then behind else { behind with found := ⟨c, offset⟩ :: behind.found }
  | _ :: text => read (offset + 1) text

def ofLiteral (literal : String) : EscapeScan := read 0 literal.toList

theorem found_read (offset : Nat) (text : List Char) :
    (read offset text).found = InvalidEscape.scan offset text := by
  fun_induction read offset text with
  | case1 => rfl
  | case2 => rfl
  | case3 offset c text behind hlegal ih => rw [ih, InvalidEscape.scan, if_pos hlegal]
  | case4 offset c text behind hillegal ih =>
      rw [InvalidEscape.scan, if_neg hillegal, ← ih]
  | case5 offset c text hlast hpair ih =>
      rw [ih, InvalidEscape.scan]
      exact hpair

/-- The scan breaks off at a last backslash, unless another takes it along. -/
theorem brokenOff_read (offset : Nat) (text : List Char) :
    (read offset text).brokenOff = false ↔ Even (backslashRun text) := by
  fun_induction read offset text with
  | case1 => simp [backslashRun]
  | case2 => simp [backslashRun]
  | case3 offset c text behind hlegal ih => rw [ih, even_backslashRun_pair]
  | case4 offset c text behind hillegal ih => rw [even_backslashRun_pair, ← ih]
  | case5 offset c text hlast hpair ih =>
      have hc : c ≠ '\\' := by
        rintro rfl
        cases text with
        | nil => exact hlast rfl rfl
        | cons d text => exact hpair d text rfl rfl
      rw [ih, even_backslashRun_cons hc]

end EscapeScan

/-- The closing quote stands behind whole escapes. -/
theorem Token.even_backslashRun_lexeme {source : String} {t : Token}
    (ht : t ∈ Token.ofText source) (hkind : t.kind = .string) :
    Even (backslashRun t.lexeme.toList) := by
  obtain ⟨before, c, text, hstarts⟩ := exists_startsAt ht
  have hquote := hstarts.beginsWith
  rw [hkind] at hquote
  obtain rfl : c = '"' := hquote
  have hreads := hstarts.readsString
  have hcloses : ∃ inside rest, Quoted.Closes '"' text inside rest := by
    by_contra hnone
    have hopen := hreads.unterminated_iff.mpr fun inside rest h => hnone ⟨inside, rest, h⟩
    rw [hkind] at hopen
    cases hopen
  obtain ⟨inside, rest, hcloses⟩ := hcloses
  rw [(hreads.whole inside rest hcloses).2]
  exact hcloses.even

/-- The lexer and the scan for illegal escapes agree on what an escape is. A string ends at the
first quote that an even number of backslashes stands in front of, and takes the whole text if there
is none; so the scan never breaks off in it. What it finds in any text are the backslashes in front
of a character that they do not go with, from left to right. -/
theorem escapes_agree (cache : TextCache) (source : String) :
    cache.lexByOffset source = .ok (cache.lex source) ∧
    (∀ t before text, (cache.lex source).1.tokens.StartsAt source t before ('"' :: text) →
      t.ReadsString text) ∧
    (∀ t ∈ (cache.lex source).1.tokens, t.kind = .string →
      Even (backslashRun t.lexeme.toList) ∧ (EscapeScan.ofLiteral t.lexeme).brokenOff = false) ∧
    ∀ literal, (EscapeScan.ofLiteral literal).found = (cache.invalidEscapes literal).1 ∧
      (∀ e, e ∈ (cache.invalidEscapes literal).1 ↔ e.StandsIn literal) ∧
      (cache.invalidEscapes literal).1.Pairwise fun e e' => e.offset < e'.offset := by
  refine ⟨cache.lexByOffset_eq source, ?_⟩
  simp only [TextCache.lex_eq, TextCache.fst_invalidEscapes]
  refine ⟨fun t before text h => h.readsString, fun t ht hkind => ?_, fun literal => ⟨?_, ?_, ?_⟩⟩
  · have heven := Token.even_backslashRun_lexeme ht hkind
    exact ⟨heven, (EscapeScan.brokenOff_read 0 _).mpr heven⟩
  · exact EscapeScan.found_read 0 literal.toList
  · exact fun e => InvalidEscape.mem_ofLiteral
  · exact InvalidEscape.pairwise_scan 0 literal.toList

end LessonCheck
