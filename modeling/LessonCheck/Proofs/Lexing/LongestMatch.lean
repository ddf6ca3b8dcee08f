import LessonCheck.Proofs.Lexing.Starts
import LessonCheck.Proofs.Program.Lexemes

/-!
Words and numbers. What kind of token begins with a letter or a digit is settled by that character,
and the token takes the longest beginning of the text that has the form of its kind. In a chain of
digit groups with points between them the groups are therefore joined two by two, from the left.
-/

namespace LessonCheck

open Unicode Vocabulary Program

/-! ### Longest beginnings -/

/-- Of the beginnings of the text that have the form, `front` is the longest. -/
structure IsLongest (form : List Char → Prop) (text front : List Char) : Prop where
  isPrefix : front <+: text
  hasForm : form front
  longest : ∀ other, form other → other <+: text → other.length ≤ front.length

section Class
variable {p : Char → Bool} {front tail : List Char}

theorem stops_dropWhile (p : Char → Bool) (text : List Char) :
    Stops p (text.dropWhile p) = true := by
  have hhead := List.head?_dropWhile_not p text
  unfold Stops
  cases h : (text.dropWhile p).head? with
  | none => rfl
  | some c => simpa [h] using hhead

theorem exists_run (p : Char → Bool) (text : List Char) :
    ∃ front tail, text = front ++ tail ∧ front.all p = true ∧ Stops p tail = true :=
  ⟨text.takeWhile p, text.dropWhile p, List.takeWhile_append_dropWhile.symm, List.all_takeWhile,
    stops_dropWhile p text⟩

/-- The part of a text that is of one class, and the rest, are the only such parts. -/
theorem eq_of_stops {front' tail' : List Char} (hfront : front.all p = true)
    (htail : Stops p tail = true) (hfront' : front'.all p = true) (htail' : Stops p tail' = true)
    (h : front ++ tail = front' ++ tail') : front = front' ∧ tail = tail' := by
  have htake := congrArg (List.takeWhile p) h
  rw [takeWhile_append_of_stops hfront htail, takeWhile_append_of_stops hfront' htail'] at htake
  subst htake
  exact ⟨rfl, List.append_cancel_left h⟩

theorem length_le_of_stops {other : List Char} (hfront : front.all p = true)
    (htail : Stops p tail = true) (hother : other.all p = true) (h : other <+: front ++ tail) :
    other.length ≤ front.length := by
  obtain ⟨more, hmore⟩ := h
  have htake := congrArg (List.takeWhile p) hmore
  rw [takeWhile_append_of_stops hfront htail,
    List.takeWhile_append_of_pos (by simpa using hother)] at htake
  rw [← htake, List.length_append]
  omega

theorem isLongest_run {form : List Char → Prop} (hform : ∀ w, form w ↔ w.all p = true)
    (hfront : front.all p = true) (htail : Stops p tail = true) :
    IsLongest form (front ++ tail) front where
  isPrefix := List.prefix_append front tail
  hasForm := (hform front).mpr hfront
  longest := fun other hother h => length_le_of_stops hfront htail ((hform other).mp hother) h

theorem not_of_stops {c : Char} (htail : Stops p (c :: tail) = true) : p c = false := by
  simpa [Stops] using htail

end Class

/-! ### The forms of words and numbers -/

/-- A run of letters, digits of any script and underscores. -/
def IsWordRun (w : List Char) : Prop :=
  ∀ c ∈ w, isAlphabetic c = true ∨ isNumeric c = true ∨ c = '_'

/-- Digits, or digits on both sides of a point. -/
def IsNumberForm (w : List Char) : Prop :=
  isNumeral w = true ∨ ∃ whole fraction, isNumeral whole = true ∧ isNumeral fraction = true ∧
    w = whole ++ '.' :: fraction

theorem isWordRun_iff (w : List Char) : IsWordRun w ↔ w.all Cut.isWordChar = true := by
  simp [IsWordRun, Cut.isWordChar, or_assoc]

theorem all_isDigit_of_isNumeral {w : List Char} (h : isNumeral w = true) :
    w.all Char.isDigit = true := by
  cases w with
  | nil => rfl
  | cons c w => simpa [isNumeral] using h

theorem stops_isDigit_point (text : List Char) : Stops Char.isDigit ('.' :: text) = true := rfl

theorem exists_of_beginsFraction {text : List Char} (h : beginsFraction text = true) :
    ∃ d rest, text = '.' :: d :: rest ∧ d.isDigit = true := by
  unfold beginsFraction at h
  split at h
  · next d rest => exact ⟨d, rest, rfl, h⟩
  · cases h

theorem exists_cons_of_isNumeral {w : List Char} (h : isNumeral w = true) :
    ∃ c tail, w = c :: tail ∧ c.isDigit = true ∧ tail.all Char.isDigit = true := by
  cases w with
  | nil => cases h
  | cons c tail => exact ⟨c, tail, rfl, by simpa [isNumeral] using h⟩

section Number
variable {digits fraction tail : List Char}

/-- In front of a text that goes on with no digit, a number with a point has all the digits in front
of that point. -/
theorem eq_of_point {whole more : List Char} (hdigits : isNumeral digits = true)
    (htail : Stops Char.isDigit tail = true) (hwhole : isNumeral whole = true)
    (h : whole ++ '.' :: more = digits ++ tail) : whole = digits ∧ '.' :: more = tail :=
  eq_of_stops (all_isDigit_of_isNumeral hwhole) (stops_isDigit_point more)
    (all_isDigit_of_isNumeral hdigits) htail h

theorem isLongest_number (hdigits : isNumeral digits = true)
    (htail : Stops Char.isDigit tail = true) (hpoint : beginsFraction tail = false) :
    IsLongest IsNumberForm (digits ++ tail) digits := by
  refine ⟨List.prefix_append digits tail, Or.inl hdigits, fun other hother h => ?_⟩
  rcases hother with hother | ⟨whole, fraction, hwhole, hfraction, rfl⟩
  · exact length_le_of_stops (all_isDigit_of_isNumeral hdigits) htail
      (all_isDigit_of_isNumeral hother) h
  · obtain ⟨more, hmore⟩ := h
    rw [List.append_assoc, List.cons_append] at hmore
    obtain ⟨rfl, rfl⟩ := eq_of_point hdigits htail hwhole hmore
    obtain ⟨d, fraction, rfl, hd, -⟩ := exists_cons_of_isNumeral hfraction
    simp [beginsFraction, hd] at hpoint

theorem isLongest_float (hdigits : isNumeral digits = true) (hfraction : isNumeral fraction = true)
    (htail : Stops Char.isDigit tail = true) :
    IsLongest IsNumberForm (digits ++ '.' :: fraction ++ tail) (digits ++ '.' :: fraction) := by
  refine ⟨List.prefix_append _ tail, Or.inr ⟨digits, fraction, hdigits, hfraction, rfl⟩,
    fun other hother h => ?_⟩
  rw [List.append_assoc, List.cons_append] at h
  have hstop := stops_isDigit_point (fraction ++ tail)
  rcases hother with hother | ⟨whole, fraction', hwhole, hfraction', rfl⟩
  · have hle := length_le_of_stops (all_isDigit_of_isNumeral hdigits) hstop
      (all_isDigit_of_isNumeral hother) h
    rw [List.length_append]
    omega
  · obtain ⟨more, hmore⟩ := h
    rw [List.append_assoc, List.cons_append] at hmore
    obtain ⟨rfl, htext⟩ := eq_of_point hdigits hstop hwhole hmore
    have hle := length_le_of_stops (all_isDigit_of_isNumeral hfraction) htail
      (all_isDigit_of_isNumeral hfraction') ⟨more, (List.cons.inj htext).2⟩
    simpa using hle

end Number

/-! ### Tokens -/

namespace Token

def IsWord (t : Token) : Prop := t.kind = .identifier ∨ t.kind = .keyword

def IsNumber (t : Token) : Prop := t.kind = .number ∨ t.kind = .float

/-- The token is the word that the text begins with. -/
structure MatchesWord (t : Token) (text : List Char) : Prop where
  longest : IsLongest IsWordRun text t.lexeme.toList
  keyword_iff : t.kind = .keyword ↔ t.lexeme ∈ keywords
  ends : ∀ c rest, text = t.lexeme.toList ++ c :: rest →
    ¬ (isAlphabetic c = true ∨ isNumeric c = true ∨ c = '_')

/-- The token is the number that the text begins with. -/
structure MatchesNumber (t : Token) (text : List Char) : Prop where
  longest : IsLongest IsNumberForm text t.lexeme.toList
  float_iff : t.kind = .float ↔ '.' ∈ t.lexeme.toList
  ends : ∀ c rest, text = t.lexeme.toList ++ c :: rest → c.isDigit = false
  noFraction : t.kind = .number → ∀ c rest, text = t.lexeme.toList ++ '.' :: c :: rest →
    c.isDigit = false

end Token

namespace Cut

theorem IsPlainStart.not_mem_signs {c : Char} (h : IsPlainStart c) : c ∉ ['+', '-'] := by
  intro hsign
  have hc := h.operator
  rw [isOperatorChar_of_sign hsign] at hc
  cases hc

theorem isWordStart_iff (c : Char) : isWordStart c = true ↔ isAlphabetic c = true ∨ c = '_' := by
  simp [isWordStart]

theorem isWordChar_iff (c : Char) :
    isWordChar c = true ↔ isAlphabetic c = true ∨ isNumeric c = true ∨ c = '_' := by
  simp [isWordChar, or_assoc]

/-- A digit is read with the digits behind it, and with a fraction if there is one. -/
theorem number_cases {c : Char} (hc : c.isDigit = true) (text : List Char) :
    (∃ digits fraction tail, c :: text = digits ++ '.' :: fraction ++ tail ∧
      isNumeral digits = true ∧ isNumeral fraction = true ∧ Stops Char.isDigit tail = true ∧
      number c text = one .float (digits ++ '.' :: fraction) tail) ∨
    ∃ digits tail, c :: text = digits ++ tail ∧ isNumeral digits = true ∧
      Stops Char.isDigit tail = true ∧ beginsFraction tail = false ∧
      number c text = one .number digits tail := by
  obtain ⟨front, tail, rfl, hfront, hstops⟩ := exists_run Char.isDigit text
  have hdigits : isNumeral (c :: front) = true := by simp [isNumeral, hc, hfront]
  cases hpoint : beginsFraction tail with
  | false =>
      exact Or.inr ⟨c :: front, tail, rfl, hdigits, hstops, hpoint,
        number_of_stops hfront hstops hpoint⟩
  | true =>
      obtain ⟨d, rest, rfl, hd⟩ := exists_of_beginsFraction hpoint
      obtain ⟨fraction, tail, rfl, hfraction, hend⟩ := exists_run Char.isDigit rest
      exact Or.inl ⟨c :: front, d :: fraction, tail, by simp, hdigits,
        by simp [isNumeral, hd, hfraction], hend, number_point hfront hd hfraction hend⟩

end Cut

section
variable {source : String} {t : Token} {before text : List Char} {c : Char}

theorem Tokens.StartsAt.matchesWord
    (h : (Token.ofText source).StartsAt source t before (c :: text))
    (hc : Cut.isWordStart c = true) : t.IsWord ∧ t.MatchesWord (c :: text) := by
  have hfirst := (h.leads (Cut.isPlainStart_of_isWordStart hc).not_mem_signs).first
  obtain ⟨front, tail, rfl, hfront, hstops⟩ := exists_run Cut.isWordChar text
  rw [Cut.ofText_word hc hfront hstops] at hfirst
  obtain ⟨hkind, hlexeme⟩ : t.kind = _ ∧ t.lexeme.toList = _ :=
    Piece.mk.inj (Option.some.inj hfirst).symm
  have hchar : Cut.isWordChar c = true := by
    rcases (Cut.isWordStart_iff c).mp hc with h | h <;> simp [Cut.isWordChar, h]
  have hrun : (c :: front).all Cut.isWordChar = true := by simp [hchar, hfront]
  refine ⟨?_, ?_, ?_, fun d rest hrest => ?_⟩
  · rw [Token.IsWord, hkind, Cut.wordKind]
    split <;> simp
  · rw [hlexeme]
    exact isLongest_run isWordRun_iff hrun hstops
  · rw [hkind, ← hlexeme, Cut.wordKind, String.ofList_toList, isKeyword]
    split <;> simp_all
  · rw [hlexeme, ← List.cons_append] at hrest
    obtain rfl := List.append_cancel_left hrest
    rw [← Cut.isWordChar_iff, not_of_stops hstops]
    exact Bool.false_ne_true

theorem Token.MatchesNumber.of_float {digits fraction tail : List Char}
    (hkind : t.kind = .float) (hlexeme : t.lexeme.toList = digits ++ '.' :: fraction)
    (hdigits : isNumeral digits = true) (hfraction : isNumeral fraction = true)
    (htail : Stops Char.isDigit tail = true) :
    t.MatchesNumber (digits ++ '.' :: fraction ++ tail) := by
  refine ⟨?_, by simp [hkind, hlexeme], fun d rest hrest => ?_, fun hnumber => ?_⟩
  · rw [hlexeme]
    exact isLongest_float hdigits hfraction htail
  · rw [hlexeme] at hrest
    obtain rfl := List.append_cancel_left hrest
    exact not_of_stops htail
  · rw [hkind] at hnumber
    cases hnumber

theorem Token.MatchesNumber.of_whole {digits tail : List Char}
    (hkind : t.kind = .number) (hlexeme : t.lexeme.toList = digits)
    (hdigits : isNumeral digits = true) (htail : Stops Char.isDigit tail = true)
    (hpoint : beginsFraction tail = false) : t.MatchesNumber (digits ++ tail) := by
  have hwhole : '.' ∉ digits := by
    intro hmem
    have hdigit := List.all_eq_true.mp (all_isDigit_of_isNumeral hdigits) '.' hmem
    cases hdigit
  refine ⟨?_, by simp [hkind, hlexeme, hwhole], fun d rest hrest => ?_, fun _ d rest hrest => ?_⟩
  · rw [hlexeme]
    exact isLongest_number hdigits htail hpoint
  · rw [hlexeme] at hrest
    obtain rfl := List.append_cancel_left hrest
    exact not_of_stops htail
  · rw [hlexeme] at hrest
    obtain rfl := List.append_cancel_left hrest
    exact hpoint

theorem Tokens.StartsAt.matchesNumber
    (h : (Token.ofText source).StartsAt source t before (c :: text)) (hc : c.isDigit = true) :
    t.IsNumber ∧ t.MatchesNumber (c :: text) := by
  have hfirst := (h.leads (Cut.isPlainStart_of_isDigit hc).not_mem_signs).first
  rw [Cut.ofText_digit hc] at hfirst
  rcases Cut.number_cases hc text with
    ⟨digits, fraction, tail, htext, hdigits, hfraction, hstops, hcut⟩ |
    ⟨digits, tail, htext, hdigits, hstops, hpoint, hcut⟩
  · rw [hcut] at hfirst
    obtain ⟨hkind, hlexeme⟩ : t.kind = _ ∧ t.lexeme.toList = _ :=
      Piece.mk.inj (Option.some.inj hfirst).symm
    rw [htext]
    exact ⟨Or.inr hkind, .of_float hkind hlexeme hdigits hfraction hstops⟩
  · rw [hcut] at hfirst
    obtain ⟨hkind, hlexeme⟩ : t.kind = _ ∧ t.lexeme.toList = _ :=
      Piece.mk.inj (Option.some.inj hfirst).symm
    rw [htext]
    exact ⟨Or.inl hkind, .of_whole hkind hlexeme hdigits hstops hpoint⟩

end

/-! ### Chains of digit groups -/

/-- The groups two by two as floats, with a point between one pair and the next; of an odd number of
groups the last is a number. -/
def Piece.pairedUp : List (List Char) → List Piece
  | [] => []
  | [g] => [⟨.number, g⟩]
  | [g, h] => [⟨.float, g ++ '.' :: h⟩]
  | g :: h :: gs => ⟨.float, g ++ '.' :: h⟩ :: ⟨.dot, ['.']⟩ :: pairedUp gs

theorem Piece.flatMap_raw_pairedUp (groups : List (List Char)) :
    (pairedUp groups).flatMap Piece.raw = ['.'].intercalate groups := by
  fun_induction pairedUp groups with
  | case1 => rfl
  | case2 g => simp [Piece.raw]
  | case3 g h => simp [Piece.raw]
  | case4 g h gs hne ih =>
      cases gs with
      | nil => exact absurd rfl hne
      | cons k gs => simp [Piece.raw, ih]

/-- Each piece is one that the lexer cuts off as it is in front of what follows it, which are the
other pieces and then `rest`. -/
def Piece.Adjoin : List Piece → List Char → Prop
  | [], _ => True
  | p :: ps, rest =>
    p.IsRegular ∧ p.endsBefore (ps.flatMap Piece.raw ++ rest) = true ∧ Adjoin ps rest

theorem Token.scan_adjoin {ps : List Piece} {rest : List Char} (h : Piece.Adjoin ps rest)
    (l : Location) :
    scan l (ps.flatMap Piece.raw ++ rest) =
      Piece.place l ps ++ scan (l.after (ps.flatMap Piece.raw)) rest := by
  induction ps generalizing l with
  | nil => rfl
  | cons p ps ih =>
      obtain ⟨hregular, hends, hps⟩ := h
      obtain ⟨c, front, hraw, hblank, hcut⟩ := hregular.cut _ hends
      rw [List.flatMap_cons, List.append_assoc, hraw, List.cons_append, scan_cut hblank, hcut,
        Cut.raw_one, hraw]
      simp only [Cut.one, ih hps, Piece.place, hraw, List.cons_append, List.nil_append,
        Location.after_cons, Location.after_append]

theorem Piece.adjoin_pairedUp {groups : List (List Char)}
    (hgroups : ∀ g ∈ groups, isNumeral g = true) {rest : List Char}
    (hrest : Stops Char.isDigit rest = true) (hpoint : beginsFraction rest = false) :
    Adjoin (pairedUp groups) rest := by
  fun_induction pairedUp groups with
  | case1 => exact True.intro
  | case2 g =>
      have hg := hgroups g List.mem_cons_self
      exact ⟨.number hg, by simp [endsBefore, hrest, hpoint], True.intro⟩
  | case3 g h =>
      have hg := hgroups g (by simp)
      have hh := hgroups h (by simp)
      exact ⟨.float hg hh, by simp [endsBefore, hrest], True.intro⟩
  | case4 g h gs hne ih =>
      have hg := hgroups g (by simp)
      have hh := hgroups h (by simp)
      exact ⟨.float hg hh, rfl, .mark rfl, rfl, ih fun k hk => hgroups k (by simp [hk])⟩

/-- The text begins with the digit groups, with points between them, and no more of the kind. -/
structure BeginsChain (groups : List (List Char)) (text : List Char) : Prop where
  nonempty : groups ≠ []
  numerals : ∀ g ∈ groups, isNumeral g = true
  ends : ∃ rest, text = ['.'].intercalate groups ++ rest ∧ Stops Char.isDigit rest = true ∧
    beginsFraction rest = false

section
variable {source : String} {t : Token} {before text : List Char} {groups : List (List Char)}

theorem BeginsChain.exists_cons (h : BeginsChain groups text) :
    ∃ c rest, text = c :: rest ∧ c.isDigit = true := by
  obtain ⟨rest, rfl, -, -⟩ := h.ends
  rcases groups with _ | ⟨g, _ | ⟨k, groups⟩⟩
  · exact absurd rfl h.nonempty
  all_goals
    obtain ⟨c, front, rfl, hc, -⟩ := exists_cons_of_isNumeral (h.numerals g (by simp))
    exact ⟨c, _, by simp; rfl, hc⟩

/-- The tokens of a chain are its groups, joined two by two. -/
theorem Tokens.StartsAt.infix_pairedUp
    (h : (Token.ofText source).StartsAt source t before text) (hchain : BeginsChain groups text) :
    Piece.place (Location.behind before) (Piece.pairedUp groups) <:+: Token.ofText source := by
  obtain ⟨c, text, rfl, hc⟩ := hchain.exists_cons
  obtain ⟨ts, hresumes⟩ := (h.leads (Cut.isPlainStart_of_isDigit hc).not_mem_signs).resumes
  obtain ⟨rest, htext, hrest, hpoint⟩ := hchain.ends
  have hadjoin := Piece.adjoin_pairedUp hchain.numerals hrest hpoint
  rw [htext, ← Piece.flatMap_raw_pairedUp, Token.scan_adjoin hadjoin] at hresumes
  exact ⟨ts, _, by rw [hresumes, List.append_assoc]⟩

end

/-- A letter or an underscore begins a word, a digit begins a number, and nothing else does. Such a
token is as long as its form allows. Digit groups with points between them are therefore joined two
by two, from the left. -/
theorem words_and_numbers_longest (cache : TextCache) (source : String) :
    (∀ t ∈ (cache.lex source).1.tokens,
      ∃ before c text, (cache.lex source).1.tokens.StartsAt source t before (c :: text)) ∧
    (∀ t before c text, (cache.lex source).1.tokens.StartsAt source t before (c :: text) →
      (t.IsWord ↔ isAlphabetic c = true ∨ c = '_') ∧ (t.IsWord → t.MatchesWord (c :: text)) ∧
      (t.IsNumber ↔ c.isDigit = true) ∧ (t.IsNumber → t.MatchesNumber (c :: text))) ∧
    ∀ t before text groups, (cache.lex source).1.tokens.StartsAt source t before text →
      BeginsChain groups text →
      Piece.place (Location.behind before) (Piece.pairedUp groups) <:+:
        (cache.lex source).1.tokens := by
  rw [TextCache.lex_eq]
  refine ⟨fun t ht => exists_startsAt ht, fun t before c text h => ?_,
    fun t before text groups h => h.infix_pairedUp⟩
  have hbegins := h.beginsWith
  have hword (hkind : t.IsWord) : Cut.isWordStart c = true := by
    rcases hkind with hkind | hkind <;> rw [hkind] at hbegins <;> exact hbegins
  have hnumber (hkind : t.IsNumber) : c.isDigit = true := by
    rcases hkind with hkind | hkind <;> rw [hkind] at hbegins <;> exact hbegins
  rw [← Cut.isWordStart_iff]
  exact ⟨⟨hword, fun hc => (h.matchesWord hc).1⟩, fun hkind => (h.matchesWord (hword hkind)).2,
    ⟨hnumber, fun hc => (h.matchesNumber hc).1⟩, fun hkind => (h.matchesNumber (hnumber hkind)).2⟩

end LessonCheck
