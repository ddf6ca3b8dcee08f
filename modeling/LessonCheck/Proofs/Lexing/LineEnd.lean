import LessonCheck.Proofs.Lexing.CharClass
import LessonCheck.Proofs.Lexing.Layout

/-!
Line ends. Nothing that the lexer cuts off goes on past the end of its line, a string in quotes
aside, so what it makes of a text up to a line end does not depend on the text behind. Lexing
therefore composes there: the second part of a text is read as if it were alone, only further down.
-/

namespace LessonCheck

open Unicode

/-! ### Steps in front of a line end -/

namespace Quoted

/-- The same scan with more text behind what it has left. -/
def append (q : Quoted) (text : List Char) : Quoted := { q with rest := q.rest ++ text }

@[simp] theorem append_prepend (q : Quoted) (front text : List Char) :
    (q.prepend front).append text = (q.append text).prepend front := rfl

variable {quote : Char} {stops : Char → Bool} {front : List Char}

/-- A literal that has been closed is the same in front of any text. -/
theorem scan_append_of_closed (h : (scan quote stops front).closed = true) (text : List Char) :
    scan quote stops (front ++ text) = (scan quote stops front).append text := by
  fun_induction scan quote stops front with
  | case1 => cases h
  | case2 front => exact scan_closed _
  | case3 => cases h
  | case4 => cases h
  | case5 => cases h
  | case6 d front hd hquote hstops ih =>
      rw [append_prepend, ← ih h]
      exact scan_escape (Ne.symm hquote) (by simpa using hstops) (by simpa using hd) _
  | case7 c front hquote hstops hescape ih =>
      rw [append_prepend, ← ih h]
      exact scan_plain hquote (by simpa using hstops) hescape _

/-- A literal does not go on past a character that breaks it off. -/
theorem scan_append_of_stops {c : Char} (hc : stops c = true) (hquote : c ≠ quote)
    (text : List Char) :
    scan quote stops (front ++ c :: text) = (scan quote stops front).append (c :: text) := by
  fun_induction scan quote stops front with
  | case1 => exact scan_stop hquote hc text
  | case2 front => exact scan_closed _
  | case3 d front hd hstops => exact scan_stop hd hstops _
  | case4 hd hstops =>
      exact scan_escape_stop (Ne.symm hd) (by simpa using hstops) hc text
  | case5 e front he hd hstops =>
      exact scan_escape_stop (Ne.symm hd) (by simpa using hstops) he _
  | case6 e front he hd hstops ih =>
      rw [append_prepend, ← ih]
      exact scan_escape (Ne.symm hd) (by simpa using hstops) (by simpa using he) _
  | case7 d front hd hstops hescape ih =>
      rw [append_prepend, ← ih]
      exact scan_plain hd (by simpa using hstops) hescape _

/-- One more character closes no literal, unless it is the quote. -/
theorem closed_of_concat {c : Char} (hquote : c ≠ quote)
    (h : (scan quote stops (front ++ [c])).closed = true) :
    (scan quote stops front).closed = true := by
  fun_induction scan quote stops front with
  | case1 =>
      have hlast : (scan quote stops [c]).closed = false := by
        simp only [scan, hquote, if_false]
        split
        · rfl
        · split <;> rfl
      simp [hlast] at h
  | case2 front => rfl
  | case3 d front hd hstops => simp [scan_stop hd hstops] at h
  | case4 hd hstops =>
      cases hc : stops c with
      | true =>
          have hscan := scan_escape_stop (Ne.symm hd) (by simpa using hstops) hc []
          simp [hscan] at h
      | false =>
          have hscan := scan_escape (Ne.symm hd) (by simpa using hstops) hc []
          simp [hscan, prepend, scan] at h
  | case5 e front he hd hstops =>
      have hscan := scan_escape_stop (Ne.symm hd) (by simpa using hstops) he (front ++ [c])
      simp [hscan] at h
  | case6 e front he hd hstops ih =>
      have hscan :=
        scan_escape (Ne.symm hd) (by simpa using hstops) (by simpa using he) (front ++ [c])
      exact ih (by simpa [hscan, prepend] using h)
  | case7 d front hd hstops hescape ih =>
      have hscan := scan_plain hd (by simpa using hstops) hescape (front ++ [c])
      exact ih (by simpa [hscan, prepend] using h)

end Quoted

namespace Cut

/-- The same step with more text behind what it leaves. -/
def append (k : Cut) (text : List Char) : Cut := { k with rest := k.rest ++ text }

@[simp] theorem pieces_append (k : Cut) (text : List Char) :
    (k.append text).pieces = k.pieces := rfl

@[simp] theorem rest_append (k : Cut) (text : List Char) :
    (k.append text).rest = k.rest ++ text := rfl

@[simp] theorem raw_append (k : Cut) (text : List Char) : (k.append text).raw = k.raw := rfl

theorem append_one (kind : Token.Kind) (lexeme rest text : List Char) :
    (one kind lexeme rest).append text = one kind lexeme (rest ++ text) := rfl

section Class
variable {p : Char → Bool} {c : Char} (hc : p c = false) (front text : List Char)
include hc

theorem takeWhile_append_cons : (front ++ c :: text).takeWhile p = front.takeWhile p := by
  induction front with
  | nil => simp [hc]
  | cons d front ih => cases hd : p d <;> simp [hd, ih]

theorem dropWhile_append_cons :
    (front ++ c :: text).dropWhile p = front.dropWhile p ++ c :: text := by
  induction front with
  | nil => simp [hc]
  | cons d front ih => cases hd : p d <;> simp [hd, ih]

end Class

theorem isWordChar_newline : isWordChar '\n' = false := by decide +kernel

theorem increment_append_newline {sign : Char} (hsign : sign ≠ '\n') (front text : List Char) :
    increment sign (front ++ '\n' :: text) = (increment sign front).append ('\n' :: text) := by
  cases front with
  | nil => simp [increment, hsign.symm, append_one]
  | cons d front =>
      simp only [increment, List.cons_append]
      split <;> rfl

theorem operator_append_newline {c : Char} (hc : c ≠ '\n') (front text : List Char) :
    operator c (front ++ '\n' :: text) = (operator c front).append ('\n' :: text) := by
  cases front with
  | nil => simp [operator, joins, hc, append_one]
  | cons d front =>
      simp only [operator, List.cons_append]
      split
      · exact increment_append_newline hc front text
      · split <;> rfl

theorem word_append_newline (c : Char) (front text : List Char) :
    word c (front ++ '\n' :: text) = (word c front).append ('\n' :: text) := by
  simp only [word, takeWhile_append_cons isWordChar_newline, append_one,
    dropWhile_append_cons isWordChar_newline]

theorem number_append_newline (c : Char) (front text : List Char) :
    number c (front ++ '\n' :: text) = (number c front).append ('\n' :: text) := by
  have hdigit : Char.isDigit '\n' = false := by decide
  simp only [number, takeWhile_append_cons hdigit, dropWhile_append_cons hdigit]
  -- What follows the digits decides whether a fraction is read.
  rcases front.dropWhile Char.isDigit with _ | ⟨point, _ | ⟨d, rest⟩⟩
  · rfl
  · by_cases hpoint : point = '.'
    · subst hpoint
      rfl
    · simp [hpoint, append_one]
  · by_cases hpoint : point = '.'
    · subst hpoint
      simp only [List.cons_append, takeWhile_append_cons hdigit, dropWhile_append_cons hdigit]
      split <;> rfl
    · simp [hpoint, append_one]

theorem char_append_newline (front text : List Char) :
    char (front ++ '\n' :: text) = (char front).append ('\n' :: text) := by
  have hscan : Quoted.scan '\'' (· == '\n') (front ++ '\n' :: text) =
      (Quoted.scan '\'' (· == '\n') front).append ('\n' :: text) :=
    Quoted.scan_append_of_stops rfl (by decide) text
  simp only [char, hscan, Quoted.append]
  split <;> rfl

theorem string_append_of_closed {front : List Char}
    (h : (Quoted.scan '"' (fun _ => false) front).closed = true) (text : List Char) :
    string (front ++ text) = (string front).append text := by
  simp [string, Quoted.scan_append_of_closed h, Quoted.append, h, append_one]

/-- Up to a line end, a step does not depend on what follows it. A string has to be closed there. -/
theorem ofText_append_newline {c : Char} (hc : c ≠ '\n') {front : List Char}
    (hstring : c = '"' → (Quoted.scan '"' (fun _ => false) front).closed = true)
    (text : List Char) :
    ofText c (front ++ '\n' :: text) = (ofText c front).append ('\n' :: text) := by
  unfold ofText
  split
  · exact operator_append_newline hc front text
  · split
    · rfl
    · split
      · next hquote => exact string_append_of_closed (hstring hquote) _
      · split
        · exact char_append_newline front text
        · split
          · exact word_append_newline c front text
          · split
            · exact number_append_newline c front text
            · rfl

theorem closed_of_pieces {front : List Char}
    (h : ∀ p ∈ (ofText '"' front).pieces, p.kind ≠ .faulty .unterminatedString) :
    (Quoted.scan '"' (fun _ => false) front).closed = true := by
  rw [ofText_quote] at h
  by_contra hopen
  simp [string, hopen, one] at h

end Cut

/-! ### Texts further down -/

namespace Location

/-- The place so many lines further down, in the same column. -/
def down (n : Nat) (l : Location) : Location := { l with line := l.line + n }

theorem step_down (n : Nat) (l : Location) (c : Char) : (l.down n).step c = (l.step c).down n := by
  unfold step
  split
  · simp [down, newline, Nat.add_right_comm]
  · rfl

theorem after_down (n : Nat) (l : Location) (text : List Char) :
    (l.down n).after text = (l.after text).down n := by
  induction text generalizing l with
  | nil => rfl
  | cons c text ih => rw [after_cons, after_cons, step_down, ih]

/-- Behind a line end, the next text begins in the first column. -/
theorem after_start_newline (front : List Char) :
    start.after (front ++ ['\n']) = start.down ((front ++ ['\n']).count '\n') := by
  rw [after_start, behind_concat]
  simp [behind, step, newline, down, start, Nat.add_assoc]

end Location

def Located.down {α : Type} (n : Nat) (p : Located α) : Located α :=
  { p with location := p.location.down n }

def Token.down (n : Nat) (t : Token) : Token := { t with location := t.location.down n }

/-- The same tokens and complaints so many lines further down. -/
def LexedText.down (n : Nat) (lexed : LexedText) : LexedText :=
  ⟨lexed.tokens.map (.down n), lexed.problems.map (.down n)⟩

theorem Piece.place_down (n : Nat) (l : Location) (ps : List Piece) :
    place (l.down n) ps = (place l ps).map (.down n) := by
  induction ps generalizing l with
  | nil => rfl
  | cons p ps ih =>
      rw [place, place, Location.after_down, ih]
      rfl

theorem Piece.map_kind_place (l : Location) (ps : List Piece) :
    (place l ps).map Token.kind = ps.map Piece.kind := by
  induction ps generalizing l with
  | nil => rfl
  | cons p ps ih => simp [place, ih]

namespace Token

/-- The lexer does not look at the place where a text begins. -/
theorem scan_down (n : Nat) (l : Location) (text : List Char) :
    scan (l.down n) text = (scan l text).map (.down n) := by
  fun_induction scan l text with
  | case1 l => simp
  | case2 l c text hblank ih => rw [scan_blank hblank, Location.step_down, ih]
  | case3 l c text hblank cut ih =>
      rw [scan_cut (by simpa using hblank), Piece.place_down, Location.after_down]
      rw [List.map_append, ih]

/-- What stands above a line end is read without what stands below, and the other way round. -/
theorem scan_append_newline {l : Location} {front : List Char}
    (h : ∀ t ∈ scan l (front ++ ['\n']), t.kind ≠ .faulty .unterminatedString)
    (text : List Char) :
    scan l (front ++ '\n' :: text) = scan l front ++ scan (l.after (front ++ ['\n'])) text := by
  fun_induction scan l front with
  | case1 l => exact scan_blank isBlank_newline l text
  | case2 l c front hblank ih =>
      rw [List.cons_append, scan_blank hblank] at h ⊢
      exact ih h
  | case3 l c front hblank cut ih =>
      have hblank' : isBlank c = false := by simpa using hblank
      have hc : c ≠ '\n' := by
        rintro rfl
        exact hblank isBlank_newline
      rw [List.cons_append, scan_cut hblank'] at h
      have hstring : c = '"' → (Quoted.scan '"' (fun _ => false) front).closed = true := by
        rintro rfl
        refine Quoted.closed_of_concat (by decide : '\n' ≠ '"') (Cut.closed_of_pieces ?_)
        intro p hp
        have hkind := List.mem_map_of_mem (f := Piece.kind) hp
        rw [← Piece.map_kind_place l] at hkind
        obtain ⟨t, ht, hkind⟩ := List.mem_map.mp hkind
        rw [← hkind]
        exact h t (List.mem_append_left _ ht)
      have hcut := Cut.ofText_append_newline hc hstring
      rw [hcut []] at h
      have hrest := ih (fun t ht => h t (List.mem_append_right _ (by simpa using ht)))
      have hraw : cut.raw ++ cut.rest = c :: front := Cut.raw_append_rest c front
      have hplace : l.after (c :: front ++ ['\n']) =
          (l.after cut.raw).after (cut.rest ++ ['\n']) := by
        rw [← hraw, List.append_assoc, Location.after_append]
      rw [List.cons_append, scan_cut hblank', hcut text]
      simp only [Cut.pieces_append, Cut.raw_append, Cut.rest_append, List.append_assoc]
      rw [hrest, hplace]

end Token

/-! ### Lexing a text in two parts -/

namespace LexedText

theorem problems_down (n : Nat) (t : Token) (escapes : List InvalidEscape) :
    (ofToken (t.down n) escapes).problems = (ofToken t escapes).problems.map (.down n) := by
  simp only [ofToken, List.map_map]
  rfl

theorem ofText_append_newline {first : String} (second : String)
    (hend : first.toList.getLast? = some '\n')
    (hclosed : ∀ t ∈ Token.ofText first, t.kind ≠ .faulty .unterminatedString) :
    ofText (first ++ second) =
      (ofText first).append ((ofText second).down (first.toList.count '\n')) := by
  obtain ⟨front, hfirst⟩ := List.getLast?_eq_some_iff.mp hend
  have htokens (text : List Char) : Token.scan .start (first.toList ++ text) =
      Token.scan .start front ++
        (Token.scan .start text).map (.down (first.toList.count '\n')) := by
    unfold Token.ofText at hclosed
    rw [hfirst] at hclosed ⊢
    rw [List.append_assoc, List.singleton_append, Token.scan_append_newline hclosed,
      Location.after_start_newline, Token.scan_down]
  have hfront : Token.scan .start first.toList = Token.scan .start front := by
    simpa using htokens []
  have happend : Token.ofText (first ++ second) = Token.ofText first ++
      (Token.ofText second).map (.down (first.toList.count '\n')) := by
    simp only [Token.ofText, String.toList_append, htokens, hfront]
  simp only [ofText, append, down, happend, List.flatMap_append, List.flatMap_map,
    List.map_flatMap, ← problems_down]
  rfl

end LexedText

/-- A text that ends with a line end and leaves no string open is lexed as if nothing followed, and
what follows as if nothing came before, so many lines further down. -/
theorem lex_append_newline (cache cache₁ cache₂ : TextCache) {first second : String}
    (hend : first.toList.getLast? = some '\n')
    (hclosed : ∀ t ∈ (cache₁.lex first).1.tokens, t.kind ≠ .faulty .unterminatedString) :
    (cache.lex (first ++ second)).1 =
      (cache₁.lex first).1.append
        ((cache₂.lex second).1.down (first.toList.count '\n')) := by
  simp only [TextCache.lex_eq] at hclosed ⊢
  exact LexedText.ofText_append_newline second hend hclosed

/-- A char literal without its closing quote ends with its line. -/
theorem lex_append_newline_char :
    ((TextCache.new true).lex ("char c = 'a\\\n" ++ "int x;")).1 =
      ((TextCache.new true).lex "char c = 'a\\\n").1.append
        (((TextCache.new true).lex "int x;").1.down 1) :=
  lex_append_newline _ _ _ (by decide +kernel) (by decide +kernel)

end LessonCheck
