import LessonCheck.Settings.Document
import LessonCheck.Settings.Writing

/-!
Written values read back. The four ways in which a character is written are told apart by how they
begin, and each is read to its end and no further, whatever stands behind it. Of an escaped
character the digits are put together again; the other ways keep the character as it is.
-/

namespace LessonCheck.Settings

/-! ### Escapes -/

section
variable {c x : Char} {text : List Char}

theorem unescape?_plain (h : c ≠ '\\') :
    unescape? false (c :: text) = (unescape? false text).map (c :: ·) := by
  rw [unescape?.eq_def]
  simp [h]

theorem unescape?_short (h : shortEscape? c = some x) :
    unescape? false ('\\' :: c :: text) = (unescape? false text).map (x :: ·) := by
  unfold shortEscape? at h
  split at h <;> cases h <;> rfl

theorem unescape?_hex {a b c d : Char} (h : Number.hexChar? [a, b, c, d] = some x) :
    unescape? false ('\\' :: 'u' :: a :: b :: c :: d :: text) =
      (unescape? false text).map (x :: ·) := by
  change (Number.hexChar? [a, b, c, d]).bind _ = _
  rw [h, Option.bind_some]

end

/-- How a control character is escaped: by a letter, or by two digits behind two zeros. -/
theorem escapeControl_cases (c : Char) :
    (∃ letter, escapeControl c = ['\\', letter] ∧ shortEscape? letter = some c ∧
        isControl letter = false) ∨
      escapeControl c =
        ['\\', 'u', '0', '0', hexDigit (c.toNat / 16), hexDigit (c.toNat % 16)] := by
  unfold escapeControl
  split
  · exact Or.inl ⟨'b', rfl, rfl, rfl⟩
  · exact Or.inl ⟨'t', rfl, rfl, rfl⟩
  · exact Or.inl ⟨'f', rfl, rfl, rfl⟩
  · exact Or.inl ⟨'r', rfl, rfl, rfl⟩
  · exact Or.inr rfl

theorem unescape?_escapeControl {c : Char} (h : c.toNat < 128) :
    unescape? false (escapeControl c) = some [c] := by
  rcases escapeControl_cases c with ⟨letter, heq, hletter, -⟩ | heq
  · rw [heq, unescape?_short hletter]
    rfl
  · have hdigits :
        Number.hexChar? ['0', '0', hexDigit (c.toNat / 16), hexDigit (c.toNat % 16)] = some c :=
      Number.hexChar?_hexDigit (.inr rfl) (by omega)
    rw [heq, unescape?_hex hdigits]
    rfl

/-- What stands between double quotes as it is. -/
def isPlain (c : Char) : Bool := c ≠ '"' && c ≠ '\\' && !isControl c

theorem scan_plain_append {chars : List Char} (h : chars.all isPlain = true) (text : List Char) :
    Quoted.scan '"' isControl (chars ++ text) = (Quoted.scan '"' isControl text).prepend chars := by
  induction chars with
  | nil => rfl
  | cons c chars ih =>
      simp only [List.all_cons, Bool.and_eq_true, isPlain, decide_eq_true_eq, ne_eq,
        Bool.not_eq_true'] at h
      obtain ⟨⟨⟨hquote, hescape⟩, hcontrol⟩, hchars⟩ := h
      rw [List.cons_append, Quoted.scan_plain hquote hcontrol hescape, ih hchars]
      rfl

theorem isPlain_hexDigit {n : Nat} (h : n < 16) : isPlain (hexDigit n) = true := by
  have hall : ∀ m : Fin 16, isPlain (hexDigit m) = true := by decide
  exact hall ⟨n, h⟩

/-- An escape is a backslash with a character behind it, and then only plain ones. -/
theorem exists_escapeControl {c : Char} (h : c.toNat < 128) :
    ∃ d digits, escapeControl c = '\\' :: d :: digits ∧ isControl d = false ∧
      digits.all isPlain = true := by
  rcases escapeControl_cases c with ⟨letter, heq, -, hletter⟩ | heq
  · exact ⟨letter, [], heq, hletter, rfl⟩
  · refine ⟨'u', _, heq, by decide, ?_⟩
    have hhigh := isPlain_hexDigit (show c.toNat / 16 < 16 by omega)
    have hlow := isPlain_hexDigit (Nat.mod_lt c.toNat (show 0 < 16 by decide))
    have hzero : isPlain '0' = true := by decide
    simp [hhigh, hlow, hzero]

theorem scan_escapeControl {c : Char} (h : c.toNat < 128) (rest : List Char) :
    Quoted.scan '"' isControl (escapeControl c ++ '"' :: rest) =
      ⟨escapeControl c, true, rest⟩ := by
  obtain ⟨d, digits, heq, hd, hdigits⟩ := exists_escapeControl h
  have hescape (text : List Char) : Quoted.scan '"' isControl ('\\' :: d :: text) =
      (Quoted.scan '"' isControl text).prepend ['\\', d] :=
    Quoted.scan_escape (by decide) (by decide) hd text
  rw [heq, List.cons_append, List.cons_append, hescape, scan_plain_append hdigits,
    Quoted.scan_closed]
  simp [Quoted.prepend]

/-- An escape has no control character in it. -/
theorem not_isControl_of_mem_escapeControl {c d : Char} (h : c.toNat < 128)
    (hd : d ∈ escapeControl c) : isControl d = false := by
  obtain ⟨e, digits, heq, he, hdigits⟩ := exists_escapeControl h
  rw [heq] at hd
  rcases List.mem_cons.mp hd with rfl | hd
  · decide
  · rcases List.mem_cons.mp hd with rfl | hd
    · exact he
    · have hplain := List.all_eq_true.mp hdigits d hd
      simp only [isPlain, Bool.and_eq_true, Bool.not_eq_true'] at hplain
      exact hplain.2

/-! ### Values -/

theorem toNat_lt_of_isControl {c : Char} (h : isControl c = true ∨ c = '\t') : c.toNat < 128 := by
  rcases h with h | rfl
  · simp only [isControl, Bool.or_eq_true, Bool.and_eq_true, decide_eq_true_eq] at h
    omega
  · decide

/-- A text between double quotes, with neither quotes behind the opening one. -/
theorem text?_basic {text : List Char} (h : text.take 2 ≠ ['"', '"']) :
    text? ('"' :: text) = basic? text := by
  simp [text?, startsWithQuotes, h]

theorem basic?_of_scan {text inside rest value : List Char}
    (hscan : Quoted.scan '"' isControl text = ⟨inside, true, rest⟩)
    (hvalue : unescape? false inside = some value) : basic? text = some (value, rest) := by
  simp [basic?, hscan, hvalue]

/-- A written character is read up to the end of its line; a block would take further quotes. -/
theorem text?_writeChar (c : Char) (rest : List Char) :
    text? (writeChar c ++ '\n' :: rest) = some ([c], '\n' :: rest) := by
  unfold writeChar
  split
  · next hquoted =>
      have hc : c ≠ '\'' ∧ isControl c = false := by
        simp only [Bool.or_eq_true, decide_eq_true_eq] at hquoted
        rcases hquoted with rfl | rfl <;> decide
      simp [text?, startsWithQuotes, literal?, hc]
  · next hquoted =>
      simp only [Bool.or_eq_true, decide_eq_true_eq, not_or] at hquoted
      split
      · next hline =>
          rw [hline]
          rfl
      · split
        · next hcontrol =>
            simp only [Bool.or_eq_true, decide_eq_true_eq] at hcontrol
            have hlt := toNat_lt_of_isControl hcontrol
            rw [List.cons_append, List.cons_append, List.append_assoc, List.singleton_append,
              text?_basic ?_,
              basic?_of_scan (scan_escapeControl hlt _) (unescape?_escapeControl hlt)]
            obtain ⟨d, digits, heq, -⟩ := exists_escapeControl hlt
            simp [heq]
        · next hcontrol =>
            simp only [Bool.or_eq_true, decide_eq_true_eq, not_or, Bool.not_eq_true] at hcontrol
            have hscan : Quoted.scan '"' isControl ([c] ++ '"' :: '\n' :: rest) =
                ⟨[c], true, '\n' :: rest⟩ := by
              rw [scan_plain_append (by simp [isPlain, hquoted, hcontrol]), Quoted.scan_closed]
              rfl
            have hvalue : unescape? false [c] = some [c] := by
              rw [unescape?_plain hquoted.2]
              rfl
            exact (text?_basic (by simp [hquoted])).trans (basic?_of_scan hscan hvalue)

theorem value?_writeBool (b : Bool) (rest : List Char) :
    value? (writeBool b ++ rest) = some (.bool b, rest) := by
  cases b <;> rfl

theorem value?_writeChar (c : Char) (rest : List Char) :
    value? (writeChar c ++ '\n' :: rest) = some (.text [c], '\n' :: rest) := by
  have htext := text?_writeChar c rest
  obtain ⟨q, tail, hq, heq⟩ : ∃ q tail, (q = '"' ∨ q = '\'') ∧ writeChar c = q :: tail := by
    unfold writeChar
    split
    · exact ⟨'\'', _, Or.inr rfl, rfl⟩
    · split
      · exact ⟨'"', _, Or.inl rfl, rfl⟩
      · split
        · exact ⟨'"', _, Or.inl rfl, rfl⟩
        · exact ⟨'"', _, Or.inl rfl, rfl⟩
  rw [heq, List.cons_append] at htext ⊢
  have hvalue : value? (q :: (tail ++ '\n' :: rest)) =
      (text? (q :: (tail ++ '\n' :: rest))).map fun r => (.text r.1, r.2) := by
    rcases hq with rfl | rfl <;> rfl
  rw [hvalue, htext]
  rfl

/-! ### Bare keys -/

def isBareKey (chars : List Char) : Bool := !chars.isEmpty && chars.all isBareKeyChar

theorem isBareKeyChar_of_mem {key : List Char} {c : Char} (h : isBareKey key = true)
    (hc : c ∈ key) : isBareKeyChar c = true := by
  simp only [isBareKey, Bool.and_eq_true, List.all_eq_true] at h
  exact h.2 c hc

theorem exists_of_isBareKey {key : List Char} (h : isBareKey key = true) :
    ∃ c chars, key = c :: chars ∧ isBareKeyChar c = true := by
  cases key with
  | nil => exact absurd h (by decide)
  | cons c chars =>
      exact ⟨c, chars, rfl, isBareKeyChar_of_mem h List.mem_cons_self⟩

/-- A bare key begins neither a quoted key nor a comment, nor is its first character a blank. -/
theorem begins_of_isBareKeyChar {c : Char} (h : isBareKeyChar c = true) :
    c ≠ '"' ∧ c ≠ '\'' ∧ c ≠ '#' ∧ c ≠ '\n' ∧ isSpace c = false := by
  have hne {d : Char} (hd : isBareKeyChar d = false) : c ≠ d := by
    rintro rfl
    rw [hd] at h
    cases h
  refine ⟨hne (by decide), hne (by decide), hne (by decide), hne (by decide), ?_⟩
  simp [isSpace, hne (show isBareKeyChar ' ' = false by decide),
    hne (show isBareKeyChar '\t' = false by decide)]

section
variable {key : List Char} {rest : List Char}

theorem skipSpaces_bareKey (h : isBareKey key = true) : skipSpaces (key ++ rest) = key ++ rest := by
  obtain ⟨c, chars, rfl, hc⟩ := exists_of_isBareKey h
  exact List.dropWhile_cons_of_neg (by simp [(begins_of_isBareKeyChar hc).2.2.2.2])

theorem isEmptyLine_bareKey (h : isBareKey key = true) : isEmptyLine (key ++ rest) = false := by
  unfold isEmptyLine
  rw [skipSpaces_bareKey h]
  obtain ⟨c, chars, rfl, hc⟩ := exists_of_isBareKey h
  obtain ⟨-, -, hcomment, hline, -⟩ := begins_of_isBareKeyChar hc
  simp [hcomment, hline]

theorem key?_bareKey (h : isBareKey key = true) :
    key? (key ++ ' ' :: rest) = some (key, ' ' :: rest) := by
  have hall : ∀ c ∈ key, isBareKeyChar c = true := fun c hc => isBareKeyChar_of_mem h hc
  have htake : (key ++ ' ' :: rest).takeWhile isBareKeyChar = key := by
    rw [List.takeWhile_append_of_pos hall, List.takeWhile_cons_of_neg (by decide), List.append_nil]
  have hdrop : (key ++ ' ' :: rest).dropWhile isBareKeyChar = ' ' :: rest := by
    rw [List.dropWhile_append_of_pos hall, List.dropWhile_cons_of_neg (by decide)]
  obtain ⟨c, chars, rfl, hc⟩ := exists_of_isBareKey h
  obtain ⟨hdouble, hsingle, -⟩ := begins_of_isBareKeyChar hc
  rw [key?, bareKey?, htake, hdrop]
  · exact fun text heq => hdouble (List.cons.inj heq).1
  · exact fun text heq => hsingle (List.cons.inj heq).1

end

/-! ### Lines -/

/-- No value begins with a blank. -/
theorem skipSpaces_of_value? {text : List Char} {r : Value × List Char}
    (h : value? text = some r) : skipSpaces text = text := by
  cases text with
  | nil => rfl
  | cons c text =>
      refine List.dropWhile_cons_of_neg fun hspace => ?_
      simp only [isSpace, Bool.or_eq_true, decide_eq_true_eq] at hspace
      rcases hspace with rfl | rfl <;> cases h

/-- A line is read to its end if its value is. -/
theorem line?_writeLine {key : String} {written : List Char} {value : Value} {rest : List Char}
    (hkey : isBareKey key.toList = true)
    (hvalue : value? (written ++ '\n' :: rest) = some (value, '\n' :: rest)) :
    line? (writeLine key written ++ rest) = some ([⟨key.toList, value⟩], rest) := by
  have hline : writeLine key written ++ rest =
      key.toList ++ ' ' :: ('=' :: ' ' :: (written ++ '\n' :: rest)) := by
    simp [writeLine]
  have hequals : skipSpaces (' ' :: '=' :: ' ' :: (written ++ '\n' :: rest)) =
      '=' :: ' ' :: (written ++ '\n' :: rest) := rfl
  have hspace : skipSpaces (' ' :: (written ++ '\n' :: rest)) = written ++ '\n' :: rest :=
    skipSpaces_of_value? hvalue
  rw [hline, line?, isEmptyLine_bareKey hkey, if_neg (by decide), skipSpaces_bareKey hkey,
    keyValue?, key?_bareKey hkey, Option.bind_some, hequals, equals?, Option.bind_some, hspace,
    hvalue]
  rfl

/-! ### No line ends in values -/

/-- A carriage return is always escaped. -/
theorem return_not_mem_writeChar (c : Char) : '\r' ∉ writeChar c := by
  intro hmem
  unfold writeChar at hmem
  split at hmem
  · next hquoted =>
      simp only [Bool.or_eq_true, decide_eq_true_eq] at hquoted
      rcases hquoted with rfl | rfl <;> exact absurd hmem (by decide)
  · split at hmem
    · exact absurd hmem (by decide)
    · split at hmem
      · next hcontrol =>
          simp only [Bool.or_eq_true, decide_eq_true_eq] at hcontrol
          have hlt := toNat_lt_of_isControl hcontrol
          rw [List.cons_append, List.mem_cons, List.mem_append, List.mem_singleton] at hmem
          rcases hmem with h | h | h
          · exact absurd h (by decide)
          · exact absurd (not_isControl_of_mem_escapeControl hlt h) (by decide)
          · exact absurd h (by decide)
      · next hcontrol =>
          simp only [List.mem_cons, List.not_mem_nil, or_false] at hmem
          rcases hmem with h | rfl | h
          · exact absurd h (by decide)
          · exact absurd hcontrol (by decide)
          · exact absurd h (by decide)

theorem return_not_mem_writeBool (b : Bool) : '\r' ∉ writeBool b := by
  cases b <;> decide

end LessonCheck.Settings
