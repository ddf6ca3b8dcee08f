import LessonCheck.Proofs.Lexing.LineEnd
import LessonCheck.Proofs.Program.Lexemes

/-!
Tokens written out again. Whatever the lexer has cut off, faulty literals and stray characters
included, it cuts off again from a text that holds nothing else. A line end is enough to keep one
piece from the next, except behind a string that nothing closes, and such a string is always the
last. So the tokens of a text can be printed with line ends between them and are read as they were.
-/

namespace LessonCheck

open Unicode

/-! ### A piece by itself -/

/-- The lexer reads the text of the piece, with nothing behind it, as this piece. -/
def Piece.IsAlone (p : Piece) : Prop :=
  ∃ c front, p.raw = c :: front ∧ isBlank c = false ∧ Cut.ofText c front = .one p.kind p.lexeme []

/-- A piece that is also read as it is in front of a line end. -/
structure Piece.IsSeparate (p : Piece) : Prop where
  alone : p.IsAlone
  closed : p.kind ≠ .faulty .unterminatedString

theorem Piece.IsRegular.isSeparate {p : Piece} (h : p.IsRegular) : p.IsSeparate := by
  constructor
  · have hends : p.endsBefore [] = true := by
      unfold Piece.endsBefore
      split <;> rfl
    obtain ⟨c, front, hraw, hblank, hcut⟩ := h.cut [] hends
    exact ⟨c, front, hraw, hblank, by simpa using hcut⟩
  · intro hkind
    have hwhole := h.whole ⟨p.kind, String.ofList p.lexeme, .start⟩ (by simp [Token.piece])
    simp [Token.IsWhole, LexicalProblem.ofToken, hkind] at hwhole

namespace Quoted

variable (quote : Char) (stops : Char → Bool) (text : List Char)

/-- What a scan has taken is scanned to the same end when it stands alone. -/
theorem scan_raw :
    scan quote stops ((scan quote stops text).raw quote) =
      { scan quote stops text with rest := [] } := by
  fun_induction scan quote stops text with
  | case1 => rfl
  | case2 text => exact scan_closed []
  | case3 c text hquote hstops => rfl
  | case4 hquote hstops => simp [raw, scan, hquote, hstops]
  | case5 d text hd hquote hstops => simp [raw, scan, hquote, hstops]
  | case6 d text hd hquote hstops ih =>
      rw [raw_prepend, List.cons_append, List.singleton_append,
        scan_escape (Ne.symm hquote) (by simpa using hstops) (by simpa using hd), ih]
      rfl
  | case7 c text hquote hstops hescape ih =>
      rw [raw_prepend, List.singleton_append, scan_plain hquote (by simpa using hstops) hescape, ih]
      rfl

/-- Only the end of the text breaks off a literal that may stand on several lines. -/
theorem rest_scan_of_open (h : (scan quote (fun _ => false) text).closed = false) :
    (scan quote (fun _ => false) text).rest = [] := by
  fun_induction scan quote (fun _ => false) text with
  | case1 => rfl
  | case2 text => cases h
  | case3 c text hquote hstops => cases hstops
  | case4 hquote hstops => rfl
  | case5 d text hd hquote hstops => cases hd
  | case6 d text hd hquote hstops ih => exact ih h
  | case7 c text hquote hstops hescape ih => exact ih h

end Quoted

namespace Cut

variable {c : Char} {text : List Char} {p : Piece}

theorem isSeparate_operator (hc : isOperatorChar c = true) (h : p ∈ (operator c text).pieces) :
    p.IsSeparate := by
  have hsingle : (⟨.operator, [c]⟩ : Piece).IsSeparate :=
    (Piece.IsRegular.operator_single hc).isSeparate
  unfold operator at h
  split at h
  · obtain rfl : p = ⟨.operator, [c]⟩ := by simpa [one] using h
    exact hsingle
  · next d rest =>
      split at h
      · next hsign =>
          simp only [Bool.and_eq_true, decide_eq_true_eq] at hsign
          have hdouble : (⟨.operator, [c, c]⟩ : Piece).IsSeparate :=
            (Piece.IsRegular.operator_increment hc hsign.2).isSeparate
          unfold increment at h
          split at h
          · obtain rfl : p = ⟨.operator, [c, c]⟩ := by simpa [one] using h
            exact hdouble
          · split at h
            · obtain rfl | rfl : p = ⟨.operator, [c, c]⟩ ∨ p = ⟨.operator, [c]⟩ := by
                simpa using h
              · exact hdouble
              · exact hsingle
            · obtain rfl : p = ⟨.operator, [c, c]⟩ := by simpa [one] using h
              exact hdouble
      · next hsign =>
          split at h
          · next hjoins =>
              obtain rfl : p = ⟨.operator, [c, d]⟩ := by simpa [one] using h
              exact (Piece.IsRegular.operator_pair hc (by simpa using hsign) hjoins).isSeparate
          · obtain rfl : p = ⟨.operator, [c]⟩ := by simpa [one] using h
            exact hsingle

theorem isSeparate_word (hc : isWordStart c = true) (h : p ∈ (word c text).pieces) :
    p.IsSeparate := by
  obtain rfl : p = ⟨wordKind (c :: text.takeWhile isWordChar), c :: text.takeWhile isWordChar⟩ := by
    simpa [word, one] using h
  have hword : isWord (c :: text.takeWhile isWordChar) = true := by
    simp [isWord, hc, List.all_takeWhile]
  exact (Piece.IsRegular.word hword).isSeparate

theorem isSeparate_number (hc : c.isDigit = true) (h : p ∈ (number c text).pieces) :
    p.IsSeparate := by
  have hdigits : isNumeral (c :: text.takeWhile Char.isDigit) = true := by
    simp [isNumeral, hc, List.all_takeWhile]
  have hnumber : (⟨.number, c :: text.takeWhile Char.isDigit⟩ : Piece).IsSeparate :=
    (Piece.IsRegular.number hdigits).isSeparate
  unfold number at h
  simp only at h
  split at h
  · next d rest _ =>
      split at h
      · next hd =>
          have hfraction : isNumeral (d :: rest.takeWhile Char.isDigit) = true := by
            simp [isNumeral, hd, List.all_takeWhile]
          obtain rfl := List.mem_singleton.mp h
          exact (Piece.IsRegular.float hdigits hfraction).isSeparate
      · obtain rfl := List.mem_singleton.mp h
        exact hnumber
  · obtain rfl := List.mem_singleton.mp h
    exact hnumber

theorem isSeparate_string (hclosed : (Quoted.scan '"' (fun _ => false) text).closed = true)
    (h : p ∈ (string text).pieces) : p.IsSeparate := by
  have hraw := Quoted.scan_raw '"' (fun _ => false) text
  obtain rfl : p = ⟨.string, (Quoted.scan '"' (fun _ => false) text).inside⟩ := by
    simpa [string, hclosed, one] using h
  refine ⟨⟨'"', (Quoted.scan '"' (fun _ => false) text).raw '"', ?_, by decide, ?_⟩, by simp⟩
  · simp [Piece.raw, Quoted.raw, hclosed]
  · rw [ofText_quote, string, hraw]
    simp [hclosed]

theorem isSeparate_char (h : p ∈ (char text).pieces) : p.IsSeparate := by
  have hraw := Quoted.scan_raw '\'' (· == '\n') text
  have halone (hp : p.raw = '\'' :: (Quoted.scan '\'' (· == '\n') text).raw '\'')
      (hcut : char ((Quoted.scan '\'' (· == '\n') text).raw '\'') = one p.kind p.lexeme []) :
      p.IsAlone :=
    ⟨'\'', _, hp, by decide, by rw [ofText_apostrophe, hcut]⟩
  unfold char at h
  simp only at h
  split at h
  · next hclosed hinside =>
      obtain rfl := List.mem_singleton.mp h
      refine ⟨halone ?_ ?_, by simp⟩
      · simp [Piece.raw, Quoted.raw, hclosed, hinside]
      · simp [char, hraw, hclosed, hinside]
  · next d hclosed hinside =>
      obtain rfl := List.mem_singleton.mp h
      refine ⟨halone ?_ ?_, by simp⟩
      · simp [Piece.raw, Quoted.raw, hclosed, hinside]
      · simp [char, hraw, hclosed, hinside]
  · next hempty hsingle =>
      obtain rfl := List.mem_singleton.mp h
      refine ⟨halone rfl ?_, by simp⟩
      simp only [char, hraw]
      rfl

theorem isSeparate_unknown (hblank : isBlank c = false) (hoperator : isOperatorChar c = false)
    (hpunctuation : punctuation? c = none) (hquote : c ≠ '"') (hapostrophe : c ≠ '\'')
    (hword : isWordStart c = false) (hdigit : c.isDigit = false) :
    (⟨.unknown, [c]⟩ : Piece).IsSeparate := by
  refine ⟨⟨c, [], rfl, hblank, ?_⟩, by simp⟩
  rw [ofText_of_isPlainStart ⟨hoperator, hpunctuation, hquote, hapostrophe⟩]
  simp [hword, hdigit]

/-- Every piece that a step cuts off stands by itself, an open string aside. -/
theorem isSeparate_of_mem (hblank : isBlank c = false)
    (hstring : c = '"' → (Quoted.scan '"' (fun _ => false) text).closed = true)
    (h : p ∈ (ofText c text).pieces) : p.IsSeparate := by
  unfold ofText at h
  split at h
  · next hoperator => exact isSeparate_operator hoperator h
  · next hoperator =>
      split at h
      · next kind hpunctuation =>
          obtain rfl := List.mem_singleton.mp h
          exact (Piece.IsRegular.mark hpunctuation).isSeparate
      · next hpunctuation =>
          split at h
          · next hquote => exact isSeparate_string (hstring hquote) h
          · next hquote =>
              split at h
              · exact isSeparate_char h
              · next hapostrophe =>
                  split at h
                  · next hword => exact isSeparate_word hword h
                  · next hword =>
                      split at h
                      · next hdigit => exact isSeparate_number hdigit h
                      · next hdigit =>
                          obtain rfl := List.mem_singleton.mp h
                          exact isSeparate_unknown hblank (by simpa using hoperator) hpunctuation
                            hquote hapostrophe (by simpa using hword) (by simpa using hdigit)

/-- An open string takes the whole text and is read again from it. -/
theorem exists_ofText_of_open (h : (Quoted.scan '"' (fun _ => false) text).closed = false) :
    ∃ p : Piece, p.IsAlone ∧ ofText '"' text = one p.kind p.lexeme [] := by
  have hrest := Quoted.rest_scan_of_open '"' text h
  have hraw := Quoted.raw_append_rest '"' (fun _ => false) text
  have hcut : ofText '"' text = one (.faulty .unterminatedString) ('"' :: text) [] := by
    rw [hrest, List.append_nil, Quoted.raw] at hraw
    simp only [h, Bool.false_eq_true, if_false] at hraw
    simp [ofText_quote, string, h, hraw, hrest]
  exact ⟨⟨_, '"' :: text⟩, ⟨'"', text, rfl, by decide, hcut⟩, hcut⟩

end Cut

/-! ### The pieces of a text -/

namespace Piece

/-- Pieces of which all but the last can stand in front of a line end, and the last at the end of a
text. -/
inductive Separable : List Piece → Prop
  | nil : Separable []
  | last {p : Piece} : p.IsAlone → Separable [p]
  | cons {p : Piece} {ps : List Piece} : p.IsSeparate → Separable ps → Separable (p :: ps)

theorem Separable.append {ps qs : List Piece} (hps : ∀ p ∈ ps, p.IsSeparate)
    (hqs : Separable qs) : Separable (ps ++ qs) := by
  induction ps with
  | nil => exact hqs
  | cons p ps ih =>
      exact .cons (hps p List.mem_cons_self) (ih fun q hq => hps q (List.mem_cons_of_mem p hq))

/-- What the lexer cuts a text into can be written out with line ends in between. -/
theorem separable_scan (l : Location) (text : List Char) :
    Separable ((Token.scan l text).map Token.piece) := by
  fun_induction Token.scan l text with
  | case1 l => exact .nil
  | case2 l c text hblank ih => exact ih
  | case3 l c text hblank cut ih =>
      rw [List.map_append, map_piece_place]
      by_cases hopen : c = '"' ∧ (Quoted.scan '"' (fun _ => false) text).closed = false
      · obtain ⟨rfl, hopen⟩ := hopen
        obtain ⟨p, hp, hcut⟩ := Cut.exists_ofText_of_open hopen
        have hwhole : cut = Cut.one p.kind p.lexeme [] := hcut
        rw [hwhole]
        simpa [Cut.one] using Separable.last hp
      · refine Separable.append ?_ ih
        intro p hp
        refine Cut.isSeparate_of_mem (by simpa using hblank) ?_ hp
        intro hquote
        by_contra hclosed
        exact hopen ⟨hquote, by simpa using hclosed⟩

/-- The text goes on with a line end, if at all. -/
def NextLine (text : List Char) : Prop := ∀ c ∈ text.head?, c = '\n'

theorem IsSeparate.exists_cut {p : Piece} (h : p.IsSeparate) {text : List Char}
    (htext : NextLine text) : ∃ c front, p.raw = c :: front ∧ isBlank c = false ∧
      Cut.ofText c (front ++ text) = .one p.kind p.lexeme text := by
  obtain ⟨c, front, hraw, hblank, hcut⟩ := h.alone
  refine ⟨c, front, hraw, hblank, ?_⟩
  cases text with
  | nil => rw [List.append_nil, hcut]
  | cons d text =>
      obtain rfl : d = '\n' := htext d rfl
      have hc : c ≠ '\n' := by
        rintro rfl
        simp [isBlank_newline] at hblank
      have hstring : c = '"' → (Quoted.scan '"' (fun _ => false) front).closed = true := by
        rintro rfl
        refine Cut.closed_of_pieces ?_
        rw [hcut]
        simpa [Cut.one] using h.closed
      rw [Cut.ofText_append_newline hc hstring, hcut]
      rfl

end Piece

theorem nextLine_interleave {gaps : List (List Char)} (hgaps : ∀ g ∈ gaps, g.head? = some '\n')
    (texts : List (List Char)) : Piece.NextLine (interleave gaps texts) := by
  cases gaps with
  | nil => simp [Piece.NextLine]
  | cons g gaps =>
      cases texts with
      | nil => simp [Piece.NextLine, interleave]
      | cons w texts =>
          obtain ⟨tail, rfl⟩ := List.head?_eq_some_iff.mp (hgaps g List.mem_cons_self)
          simp [Piece.NextLine]

/-- Pieces that are written out with line ends between them are found again. -/
theorem scan_interleave {ps : List Piece} (h : Piece.Separable ps) {gaps : List (List Char)}
    (hlength : gaps.length = ps.length) (hblank : ∀ g ∈ gaps, Blank g)
    (hline : ∀ g ∈ gaps.tail, g.head? = some '\n') (l : Location) :
    (Token.scan l (interleave gaps (ps.map Piece.raw))).map Token.piece = ps := by
  induction h generalizing gaps l with
  | nil =>
      obtain rfl := List.length_eq_zero_iff.mp hlength
      simp
  | @last p hp =>
      obtain ⟨g, rfl⟩ := List.length_eq_one_iff.mp hlength
      obtain ⟨c, front, hraw, hc, hcut⟩ := hp
      have htext : interleave [g] [p.raw] = g ++ c :: front := by simp [hraw]
      rw [List.map_singleton, htext, Token.scan_gap (hblank g List.mem_cons_self),
        Token.scan_cut hc, hcut]
      simp [Cut.one, Piece.place, Token.piece]
  | @cons p ps hp _ ih =>
      obtain ⟨g, gaps, rfl⟩ := List.exists_cons_of_length_eq_add_one hlength
      rw [List.tail_cons] at hline
      obtain ⟨c, front, hraw, hc, hcut⟩ :=
        hp.exists_cut (nextLine_interleave hline (ps.map Piece.raw))
      have hrest := ih (by simpa using hlength)
        (fun g' hg' => hblank g' (List.mem_cons_of_mem g hg'))
        (fun g' hg' => hline g' (List.mem_of_mem_tail hg'))
        ((l.after g).after (Cut.one p.kind p.lexeme []).raw)
      rw [List.map_cons, interleave_cons, List.append_assoc, hraw, List.cons_append,
        Token.scan_gap (hblank g List.mem_cons_self), Token.scan_cut hc, hcut, List.map_append]
      rw [Cut.raw_one] at hrest ⊢
      rw [Cut.rest_one, hrest]
      simp [Cut.one, Piece.place, Token.piece]

/-! ### Printing and reading -/

/-- The tokens as they were written, with the given texts between them. -/
def Tokens.printed (separators : List (List Char)) (ts : Tokens) : String :=
  String.ofList (interleave ([] :: separators) (ts.map Token.raw))

theorem map_piece_printed {source : String} {separators : List (List Char)}
    (hcount : separators.length = (Token.ofText source).length - 1)
    (hseparators : ∀ s ∈ separators, s.head? = some '\n' ∧ Blank s) :
    (Token.ofText ((Token.ofText source).printed separators)).map Token.piece =
      (Token.ofText source).map Token.piece := by
  have hpieces := Piece.separable_scan .start source.toList
  have hraw : (Token.ofText source).map Token.raw =
      ((Token.ofText source).map Token.piece).map Piece.raw := by
    rw [List.map_map]
    rfl
  rw [Tokens.printed, Token.ofText, String.toList_ofList, hraw]
  cases htokens : Token.ofText source with
  | nil => simp [interleave]
  | cons t ts =>
      rw [← htokens]
      rw [htokens, List.length_cons] at hcount
      have hblank : ∀ g ∈ [] :: separators, Blank g := by
        intro g hg
        rcases List.mem_cons.mp hg with rfl | hg
        · simp [Blank]
        · exact (hseparators g hg).2
      have hline : ∀ g ∈ ([] :: separators).tail, g.head? = some '\n' :=
        fun g hg => (hseparators g hg).1
      have hlength : ([] :: separators).length =
          ((Token.ofText source).map Token.piece).length := by
        simp [htokens, hcount]
      exact scan_interleave hpieces hlength hblank hline .start

/-- The complaints about a text, without their places, follow from the pieces of the text. -/
theorem LexedText.map_problem_ofText (source : String) :
    (ofText source).problems.map (·.problem) =
      ((Token.ofText source).map Token.piece).flatMap fun p =>
        LexicalProblem.ofToken (InvalidEscape.ofLiteral (String.ofList p.lexeme))
          ⟨p.kind, String.ofList p.lexeme, .start⟩ := by
  simp only [ofText, ofToken, List.map_flatMap, List.map_map, List.flatMap_map, Token.piece,
    String.ofList_toList]
  congr 1
  funext t
  exact List.map_id _

/-- The tokens of a text, printed with line ends between them, are read again with the same kinds
and lexemes, and the lexer has the same to say about them. -/
theorem lex_printed (cache cache' : TextCache) {source : String} {separators : List (List Char)}
    (hcount : separators.length = (cache.lex source).1.tokens.length - 1)
    (hseparators : ∀ s ∈ separators, s.head? = some '\n' ∧ Blank s) :
    ((cache'.lex ((cache.lex source).1.tokens.printed separators)).1.tokens.map
        fun t => (t.kind, t.lexeme)) =
      ((cache.lex source).1.tokens.map fun t => (t.kind, t.lexeme)) ∧
    ((cache'.lex ((cache.lex source).1.tokens.printed separators)).1.problems.map
        fun p => p.diagnostic.message) =
      ((cache.lex source).1.problems.map fun p => p.diagnostic.message) := by
  simp only [TextCache.lex_eq] at hcount ⊢
  have hpieces := map_piece_printed hcount hseparators
  constructor
  · have hwords := congrArg (List.map fun p : Piece => (p.kind, String.ofList p.lexeme)) hpieces
    simpa [LexedText.ofText, Token.piece, Function.comp_def] using hwords
  · have hproblems := LexedText.map_problem_ofText ((Token.ofText source).printed separators)
    rw [hpieces, ← LexedText.map_problem_ofText] at hproblems
    have hmessages := congrArg (List.map LexicalProblem.message) hproblems
    rw [List.map_map, List.map_map] at hmessages
    exact hmessages

/-- Three plus signs, faulty literals, a stray character and, at the end, a string left open. -/
theorem lex_printed_faulty :
    let lexed := ((TextCache.new true).lex "x+++y '' 'ab' 1.2.3 # \"a\\q\" '\\\n\"z").1
    let again := ((TextCache.new false).lex
      (lexed.tokens.printed (List.replicate 12 ['\n', '\t']))).1
    (again.tokens.map fun t => (t.kind, t.lexeme)) =
        (lexed.tokens.map fun t => (t.kind, t.lexeme)) ∧
      (again.problems.map fun p => p.diagnostic.message) =
        (lexed.problems.map fun p => p.diagnostic.message) := by
  refine lex_printed _ _ (by decide +kernel) ?_
  intro s hs
  obtain rfl := List.eq_of_mem_replicate hs
  have hblank : ['\n', '\t'].all isBlank = true := by decide
  exact ⟨rfl, List.all_eq_true.mp hblank⟩

end LessonCheck
