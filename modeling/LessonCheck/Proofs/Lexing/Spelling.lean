import LessonCheck.Lexing.Problem
import LessonCheck.Lexing.Tokens
import LessonCheck.Proofs.Lexing.CharClass
import LessonCheck.Proofs.Session.Clean
import Mathlib.Data.List.TakeWhile

/-!
Texts that spell a list of pieces. Between two pieces there may be blanks, and there must be some
only where the text behind a piece would otherwise be read as part of it. The lexer finds the pieces
of such a text again, if each of them is one that it would cut off by itself.
-/

namespace LessonCheck

open Unicode Vocabulary

/-- What the token was cut from, without its place. -/
def Token.piece (t : Token) : Piece := ⟨t.kind, t.lexeme.toList⟩

theorem Piece.map_piece_place (l : Location) (ps : List Piece) :
    (place l ps).map Token.piece = ps := by
  induction ps generalizing l with
  | nil => rfl
  | cons p ps ih => simp [place, Token.piece, ih]

theorem Piece.piece_mem_of_mem_place {t : Token} {l : Location} {ps : List Piece}
    (h : t ∈ place l ps) : t.piece ∈ ps := by
  have hmem : t.piece ∈ (place l ps).map Token.piece := List.mem_map_of_mem h
  rwa [map_piece_place] at hmem

/-- The text does not begin with a character of the class. -/
def Stops (p : Char → Bool) (text : List Char) : Bool := !text.head?.any p

/-- A point with a digit behind it, which a number takes along. -/
def beginsFraction : List Char → Bool
  | '.' :: d :: _ => d.isDigit
  | _ => false

/-- The text behind the piece does not go on with it. -/
def Piece.endsBefore (p : Piece) (text : List Char) : Bool :=
  match p.kind with
  | .identifier | .keyword => Stops Cut.isWordChar text
  | .number => Stops Char.isDigit text && !beginsFraction text
  | .float => Stops Char.isDigit text
  | .operator => Stops Cut.isOperatorChar text
  | _ => true

/-- The text is the pieces as they are written, with blanks around them. -/
inductive Spells : List Piece → List Char → Prop
  | done : Spells [] []
  | blank {c : Char} {ps : List Piece} {text : List Char} :
      isBlank c = true → Spells ps text → Spells ps (c :: text)
  | piece {p : Piece} {ps : List Piece} {text : List Char} :
      p.endsBefore text = true → Spells ps text → Spells (p :: ps) (p.raw ++ text)

/-- Takes the pieces off the text one by one, and the blanks in front of each. -/
def isSpelled : List Piece → List Char → Bool
  | [], text => text.all isBlank
  | p :: ps, text =>
    let text := text.dropWhile isBlank
    let rest := text.drop p.raw.length
    p.raw.isPrefixOf text && p.endsBefore rest && isSpelled ps rest

theorem Spells.of_dropWhile {ps : List Piece} {text : List Char}
    (h : Spells ps (text.dropWhile isBlank)) : Spells ps text := by
  induction text with
  | nil => exact h
  | cons c text ih =>
      rw [List.dropWhile_cons] at h
      split at h
      · next hblank => exact .blank hblank (ih h)
      · exact h

theorem Spells.of_isSpelled {ps : List Piece} {text : List Char}
    (h : isSpelled ps text = true) : Spells ps text := by
  induction ps generalizing text with
  | nil =>
      apply Spells.of_dropWhile
      rw [List.dropWhile_eq_nil_iff.mpr (by simpa [isSpelled] using h)]
      exact .done
  | cons p ps ih =>
      simp only [isSpelled, Bool.and_eq_true] at h
      obtain ⟨rest, htext⟩ := List.isPrefixOf_iff_prefix.mp h.1.1
      apply Spells.of_dropWhile
      rw [← htext, List.drop_left] at h
      rw [← htext]
      exact .piece h.1.2 (ih h.2)

/-- In front of a text that does not go on with it, the piece is cut off as it is, and the lexer has
no complaint about it. -/
structure Piece.IsRegular (p : Piece) : Prop where
  cut : ∀ text, p.endsBefore text = true → ∃ c front, p.raw = c :: front ∧ isBlank c = false ∧
    Cut.ofText c (front ++ text) = .one p.kind p.lexeme text
  whole : ∀ t : Token, t.piece = p → t.IsWhole

/-- The lexer finds the pieces that a text spells. -/
theorem scan_of_spells {ps : List Piece} {text : List Char} (h : Spells ps text)
    (hps : ∀ p ∈ ps, p.IsRegular) (l : Location) : (Token.scan l text).map Token.piece = ps := by
  induction h generalizing l with
  | done => simp
  | blank hblank _ ih =>
      rw [Token.scan_blank hblank]
      exact ih hps _
  | @piece p ps text hends _ ih =>
      -- The step at the first character of the piece cuts off this piece and nothing else.
      obtain ⟨c, front, hraw, hblank, hcut⟩ := (hps p List.mem_cons_self).cut text hends
      rw [hraw, List.cons_append, Token.scan_cut hblank, hcut]
      have hrest := ih (fun q hq => hps q (List.mem_cons_of_mem p hq))
        (l.after (Cut.one p.kind p.lexeme text).raw)
      simp only [Cut.one, Piece.place, List.cons_append, List.nil_append, List.map_cons] at hrest ⊢
      rw [hrest]
      simp [Token.piece]

/-! ### Taking characters of a class -/

section Class
variable {p : Char → Bool} {front text : List Char}

theorem takeWhile_append_of_stops (hfront : front.all p = true) (h : Stops p text = true) :
    (front ++ text).takeWhile p = front := by
  rw [List.takeWhile_append_of_pos (by simpa using hfront)]
  cases text with
  | nil => simp
  | cons c text =>
      have hc : p c = false := by simpa [Stops] using h
      simp [hc]

theorem dropWhile_append_of_stops (hfront : front.all p = true) (h : Stops p text = true) :
    (front ++ text).dropWhile p = text := by
  rw [List.dropWhile_append_of_pos (by simpa using hfront)]
  cases text with
  | nil => simp
  | cons c text =>
      have hc : p c = false := by simpa [Stops] using h
      simp [hc]

end Class

namespace Cut

theorem ofText_of_isPlainStart {c : Char} (h : IsPlainStart c) (text : List Char) :
    ofText c text = if isWordStart c then word c text
      else if c.isDigit then number c text else one .unknown [c] text := by
  unfold ofText
  simp only [h.operator, h.punctuation, h.quote, h.apostrophe, Bool.false_eq_true, if_false]

theorem ofText_word {c : Char} {front text : List Char} (hc : isWordStart c = true)
    (hfront : front.all isWordChar = true) (h : Stops isWordChar text = true) :
    ofText c (front ++ text) = one (wordKind (c :: front)) (c :: front) text := by
  rw [ofText_of_isPlainStart (isPlainStart_of_isWordStart hc), if_pos hc]
  simp only [word, takeWhile_append_of_stops hfront h, dropWhile_append_of_stops hfront h]

theorem ofText_digit {c : Char} (hc : c.isDigit = true) (text : List Char) :
    ofText c text = number c text := by
  rw [ofText_of_isPlainStart (isPlainStart_of_isDigit hc), isWordStart_of_isDigit hc]
  simp [hc]

theorem number_of_stops {c : Char} {front text : List Char} (hfront : front.all Char.isDigit = true)
    (h : Stops Char.isDigit text = true) (hpoint : beginsFraction text = false) :
    number c (front ++ text) = one .number (c :: front) text := by
  unfold number
  simp only [takeWhile_append_of_stops hfront h, dropWhile_append_of_stops hfront h]
  split
  · next d rest =>
      have hd : d.isDigit = false := hpoint
      simp [hd]
  · rfl

theorem number_point {c d : Char} {front tail text : List Char}
    (hfront : front.all Char.isDigit = true) (hd : d.isDigit = true)
    (htail : tail.all Char.isDigit = true) (h : Stops Char.isDigit text = true) :
    number c (front ++ '.' :: d :: (tail ++ text)) =
      one .float (c :: (front ++ '.' :: d :: tail)) text := by
  have hpoint : Stops Char.isDigit ('.' :: d :: (tail ++ text)) = true := by
    simp [Stops, show Char.isDigit '.' = false by decide]
  unfold number
  simp only [takeWhile_append_of_stops hfront hpoint, dropWhile_append_of_stops hfront hpoint,
    takeWhile_append_of_stops htail h, dropWhile_append_of_stops htail h, hd, if_true,
    List.cons_append]

theorem operator_single {c : Char} {text : List Char} (hc : isOperatorChar c = true)
    (h : Stops isOperatorChar text = true) : operator c text = one .operator [c] text := by
  cases text with
  | nil => rfl
  | cons d text =>
      have hd : isOperatorChar d = false := by simpa [Stops] using h
      have hne : c ≠ d := by
        rintro rfl
        simp [hc] at hd
      have hequals : d ≠ '=' := by
        rintro rfl
        simp [isOperatorChar] at hd
      simp [operator, joins, hne, hequals]

theorem increment_single {sign : Char} {text : List Char} (hsign : isOperatorChar sign = true)
    (h : Stops isOperatorChar text = true) :
    increment sign text = one .operator [sign, sign] text := by
  cases text with
  | nil => rfl
  | cons d text =>
      have hd : isOperatorChar d = false := by simpa [Stops] using h
      have hne : d ≠ sign := by
        rintro rfl
        simp [hsign] at hd
      simp [increment, hne]

theorem ofText_operator {c : Char} (hc : isOperatorChar c = true) (text : List Char) :
    ofText c text = operator c text := by
  simp [ofText, hc]

end Cut

/-! ### Literals in quotes -/

/-- What may stand between the quotes of a string: every backslash begins a legal escape. -/
def isQuotable : List Char → Bool
  | [] => true
  | '\\' :: c :: text => legalEscapes.contains c && isQuotable text
  | c :: text => c != '\\' && c != '"' && isQuotable text

namespace Quoted

theorem scan_of_isQuotable {body : List Char} (h : isQuotable body = true) (text : List Char) :
    scan '"' (fun _ => false) (body ++ '"' :: text) = ⟨body, true, text⟩ := by
  fun_induction isQuotable body with
  | case1 => exact scan_closed text
  | case2 c body ih =>
      simp only [Bool.and_eq_true] at h
      rw [List.cons_append, List.cons_append, scan_escape (by decide) rfl rfl, ih h.2]
      rfl
  | case3 c body _ ih =>
      simp only [Bool.and_eq_true, bne_iff_ne, ne_eq] at h
      rw [List.cons_append, scan_plain h.1.2 rfl h.1.1, ih h.2]
      rfl

end Quoted

theorem InvalidEscape.scan_of_isQuotable {body : List Char} (h : isQuotable body = true)
    (offset : Nat) : InvalidEscape.scan offset body = [] := by
  fun_induction isQuotable body generalizing offset with
  | case1 => rfl
  | case2 c body ih =>
      simp only [Bool.and_eq_true] at h
      simp only [InvalidEscape.scan, h.1, if_true]
      exact ih h.2 _
  | case3 c body _ ih =>
      simp only [Bool.and_eq_true, bne_iff_ne, ne_eq] at h
      rw [InvalidEscape.scan]
      · exact ih h.2 _
      · intro d rest heq
        exact absurd heq h.1.1

namespace Cut

theorem ofText_string {body : List Char} (h : isQuotable body = true) (text : List Char) :
    ofText '"' (body ++ '"' :: text) = one .string body text := by
  rw [ofText_quote, string, Quoted.scan_of_isQuotable h]
  rfl

theorem ofText_char {c : Char} (hquote : c ≠ '\'') (hescape : c ≠ '\\') (hline : c ≠ '\n')
    (text : List Char) : ofText '\'' (c :: '\'' :: text) = one .char [c] text := by
  have hscan : Quoted.scan '\'' (· == '\n') (c :: '\'' :: text) = ⟨[c], true, text⟩ := by
    rw [Quoted.scan_plain hquote (by simpa using hline) hescape, Quoted.scan_closed]
    rfl
  rw [ofText_apostrophe, char, hscan]

end Cut

end LessonCheck
