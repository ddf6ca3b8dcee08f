import LessonCheck.Report.Json
import LessonCheck.Settings.QuotedValue

/-!
A reader for the notation of JSON values, and that it undoes the writer. The reader goes by the
first character of a value and passes over the blanks and line ends between values, so it knows
nothing of depths. It takes fuel, one unit for each step down or on; a value uses no more of it than
it has characters, so the length of a text is enough for all that it can hold.
-/

namespace LessonCheck.Json

/-! ### The reader -/

/-- Reads the characters of a text up to its closing quote. -/
def characters? : List Char → Option (List Char × List Char)
  | [] => none
  | '"' :: rest => some ([], rest)
  | '\\' :: 'u' :: a :: b :: c :: d :: rest =>
    (Number.hexChar? [a, b, c, d]).bind fun x =>
      (characters? rest).map fun r => (x :: r.1, r.2)
  | '\\' :: c :: rest =>
    (Settings.shortEscape? c).bind fun x => (characters? rest).map fun r => (x :: r.1, r.2)
  | c :: rest => if c = '\\' then none else (characters? rest).map fun r => (c :: r.1, r.2)

def number? (rest : List Char) : Option (Nat × List Char) :=
  match rest.takeWhile Char.isDigit with
  | [] => none
  | c :: digits => some (Nat.ofDigitChars 10 (c :: digits) 0, rest.dropWhile Char.isDigit)

def isBlank (c : Char) : Bool := c = ' ' || c = '\n'

def skipBlanks (rest : List Char) : List Char := rest.dropWhile isBlank

/-- Reads the name of a field with the colon behind it. -/
def name? : List Char → Option (String × List Char)
  | '"' :: rest =>
    (characters? rest).bind fun r =>
      match r.2 with
      | ':' :: more => some (String.ofList r.1, skipBlanks more)
      | _ => none
  | _ => none

mutual

/-- Reads a value that stands at the very front. -/
def value? : Nat → List Char → Option (Json × List Char)
  | 0, _ => none
  | _ + 1, 't' :: 'r' :: 'u' :: 'e' :: rest => some (.bool true, rest)
  | _ + 1, 'f' :: 'a' :: 'l' :: 's' :: 'e' :: rest => some (.bool false, rest)
  | _ + 1, '"' :: rest => (characters? rest).map fun r => (.text (String.ofList r.1), r.2)
  | _ + 1, '[' :: ']' :: rest => some (.list [], rest)
  | fuel + 1, '[' :: rest =>
    (value? fuel (skipBlanks rest)).bind fun item =>
      (moreItems? fuel (skipBlanks item.2)).map fun r => (.list (item.1 :: r.1), r.2)
  | _ + 1, '\x7b' :: '\x7d' :: rest => some (.object [], rest)
  | fuel + 1, '\x7b' :: rest =>
    (name? (skipBlanks rest)).bind fun key =>
      (value? fuel key.2).bind fun value =>
        (moreFields? fuel (skipBlanks value.2)).map fun r =>
          (.object ((key.1, value.1) :: r.1), r.2)
  | _ + 1, rest => (number? rest).map fun r => (.number r.1, r.2)

/-- Reads the items behind the first one, and the closing bracket. -/
def moreItems? : Nat → List Char → Option (List Json × List Char)
  | 0, _ => none
  | _ + 1, ']' :: rest => some ([], rest)
  | fuel + 1, ',' :: rest =>
    (value? fuel (skipBlanks rest)).bind fun item =>
      (moreItems? fuel (skipBlanks item.2)).map fun r => (item.1 :: r.1, r.2)
  | _ + 1, _ => none

/-- Reads the fields behind the first one, and the closing brace. -/
def moreFields? : Nat → List Char → Option (List (String × Json) × List Char)
  | 0, _ => none
  | _ + 1, '\x7d' :: rest => some ([], rest)
  | fuel + 1, ',' :: rest =>
    (name? (skipBlanks rest)).bind fun key =>
      (value? fuel key.2).bind fun value =>
        (moreFields? fuel (skipBlanks value.2)).map fun r => ((key.1, value.1) :: r.1, r.2)
  | _ + 1, _ => none

end

/-- The value that a whole text is the notation of. -/
def ofText? (written : String) : Option Json :=
  match value? written.length written.toList with
  | some (j, []) => some j
  | _ => none

/-! ### Texts -/

theorem characters?_hex {a b c d x : Char} {rest : List Char}
    (h : Number.hexChar? [a, b, c, d] = some x) :
    characters? ('\\' :: 'u' :: a :: b :: c :: d :: rest) =
      (characters? rest).map fun r => (x :: r.1, r.2) := by
  change (Number.hexChar? [a, b, c, d]).bind _ = _
  rw [h, Option.bind_some]

theorem characters?_plain {c : Char} {rest : List Char} (hquote : c ≠ '"') (hescape : c ≠ '\\') :
    characters? (c :: rest) = (characters? rest).map fun r => (c :: r.1, r.2) := by
  rw [characters?.eq_def]
  simp [hescape]

theorem characters?_escapeChar (c : Char) (rest : List Char) :
    characters? (escapeChar c ++ rest) = (characters? rest).map fun r => (c :: r.1, r.2) := by
  unfold escapeChar
  split
  iterate 7 rfl
  next hquote hescape _ _ _ _ _ =>
    split
    · have hdigits :
          Number.hexChar? ['0', '0', hexDigit (c.toNat / 16), hexDigit (c.toNat % 16)] = some c :=
        Number.hexChar?_hexDigit (.inl rfl) (by omega)
      exact characters?_hex hdigits
    · exact characters?_plain hquote hescape

theorem characters?_append (chars rest : List Char) :
    characters? (chars.flatMap escapeChar ++ '"' :: rest) = some (chars, rest) := by
  induction chars with
  | nil => rfl
  | cons c chars ih =>
      rw [List.flatMap_cons, List.append_assoc, characters?_escapeChar, ih]
      rfl

theorem quote_append (s : String) (rest : List Char) :
    quote s ++ rest = '"' :: (s.toList.flatMap escapeChar ++ '"' :: rest) := by
  simp [quote]

theorem value?_quote (s : String) (fuel : Nat) (rest : List Char) :
    value? (fuel + 1) (quote s ++ rest) = some (.text s, rest) := by
  rw [quote_append]
  change (characters? _).map _ = _
  rw [characters?_append, Option.map_some, String.ofList_toList]

theorem name?_quote (s : String) (rest : List Char) :
    name? (quote s ++ ':' :: rest) = some (s, skipBlanks rest) := by
  rw [quote_append]
  change (characters? _).bind _ = _
  simp [characters?_append]

/-! ### Numbers -/

theorem isDigit_of_mem_toDigits {n : Nat} {c : Char} (hc : c ∈ Nat.toDigits 10 n) :
    c.isDigit = true :=
  Nat.isDigit_of_mem_toDigits (by decide) (by decide) hc

theorem exists_toDigits (n : Nat) :
    ∃ c digits, Nat.toDigits 10 n = c :: digits ∧ c.isDigit = true := by
  obtain ⟨c, digits, heq⟩ := List.exists_cons_of_ne_nil (Nat.toDigits_ne_nil (b := 10) (n := n))
  exact ⟨c, digits, heq, isDigit_of_mem_toDigits (n := n) (by simp [heq])⟩

theorem ne_of_isDigit {c d : Char} (hc : c.isDigit = true) (hd : d.isDigit = false) : c ≠ d := by
  rintro rfl
  rw [hc] at hd
  cases hd

/-- No digit stands behind a number, so that the number ends there. -/
def EndsNumber (rest : List Char) : Prop := rest.head?.any Char.isDigit = false

theorem endsNumber_cons {c : Char} (h : c.isDigit = false) (rest : List Char) :
    EndsNumber (c :: rest) := h

theorem number?_toDigits (n : Nat) {rest : List Char} (h : EndsNumber rest) :
    number? (Nat.toDigits 10 n ++ rest) = some (n, rest) := by
  have hdigits : ∀ c ∈ Nat.toDigits 10 n, c.isDigit = true := fun c hc =>
    isDigit_of_mem_toDigits hc
  have hrest : rest.takeWhile Char.isDigit = [] ∧ rest.dropWhile Char.isDigit = rest := by
    cases rest with
    | nil => exact ⟨rfl, rfl⟩
    | cons c rest =>
        have hc : ¬ c.isDigit = true := by simpa [EndsNumber] using h
        exact ⟨List.takeWhile_cons_of_neg hc, List.dropWhile_cons_of_neg hc⟩
  obtain ⟨c, digits, heq, -⟩ := exists_toDigits n
  rw [number?, List.takeWhile_append_of_pos hdigits, List.dropWhile_append_of_pos hdigits,
    hrest.1, hrest.2, List.append_nil, heq]
  dsimp only
  rw [← heq, Nat.ofDigitChars_toDigits (by decide) (by decide)]

theorem value?_number (n fuel : Nat) {rest : List Char} (h : EndsNumber rest) :
    value? (fuel + 1) (Nat.toDigits 10 n ++ rest) = some (.number n, rest) := by
  have hnumber := number?_toDigits n h
  obtain ⟨c, digits, heq, hc⟩ := exists_toDigits n
  rw [heq, List.cons_append] at hnumber ⊢
  rw [value?, hnumber]
  · rfl
  -- The other ways to begin a value are with characters that are no digits.
  · exact fun rest heq => absurd (List.cons.inj heq).1 (ne_of_isDigit hc (by decide))
  · exact fun rest heq => absurd (List.cons.inj heq).1 (ne_of_isDigit hc (by decide))
  · exact fun rest heq => absurd (List.cons.inj heq).1 (ne_of_isDigit hc (by decide))
  · exact fun rest heq => absurd (List.cons.inj heq).1 (ne_of_isDigit hc (by decide))
  · exact fun rest heq => absurd (List.cons.inj heq).1 (ne_of_isDigit hc (by decide))
  · exact fun rest heq => absurd (List.cons.inj heq).1 (ne_of_isDigit hc (by decide))
  · exact fun rest heq => absurd (List.cons.inj heq).1 (ne_of_isDigit hc (by decide))

/-! ### Blanks -/

theorem skipBlanks_cons {c : Char} (h : isBlank c = false) (rest : List Char) :
    skipBlanks (c :: rest) = c :: rest :=
  List.dropWhile_cons_of_neg (by simp [h])

theorem skipBlanks_indent (depth : Nat) (rest : List Char) :
    skipBlanks (indent depth ++ rest) = skipBlanks rest := by
  have hblank : ∀ c ∈ indent depth, isBlank c = true := by
    simp [indent, isBlank]
  exact List.dropWhile_append_of_pos hblank

/-- No value begins with a blank. -/
theorem exists_write (depth : Nat) (j : Json) :
    ∃ c rest, write depth j = c :: rest ∧ isBlank c = false := by
  cases j with
  | bool b => cases b <;> exact ⟨_, _, rfl, by decide⟩
  | number n =>
      obtain ⟨c, digits, heq, hc⟩ := exists_toDigits n
      have hblank : isBlank c = false := by
        simp [isBlank, ne_of_isDigit hc (show ' '.isDigit = false by decide),
          ne_of_isDigit hc (show '\n'.isDigit = false by decide)]
      exact ⟨c, digits, by rw [write, heq], hblank⟩
  | text s => exact ⟨'"', _, rfl, by decide⟩
  | list items => cases items <;> exact ⟨'[', _, rfl, by decide⟩
  | object fields => cases fields <;> exact ⟨'\x7b', _, rfl, by decide⟩

theorem skipBlanks_write (before depth : Nat) (j : Json) (rest : List Char) :
    skipBlanks (indent before ++ (write depth j ++ rest)) = write depth j ++ rest := by
  obtain ⟨c, more, heq, hc⟩ := exists_write depth j
  rw [skipBlanks_indent, heq, List.cons_append, skipBlanks_cons hc]

theorem name?_indent (before depth : Nat) (key : String) (j : Json) (rest : List Char) :
    name? (skipBlanks (indent before ++ (quote key ++ ':' :: ' ' :: (write depth j ++ rest)))) =
      some (key, write depth j ++ rest) := by
  obtain ⟨c, more, heq, hc⟩ := exists_write depth j
  have hspace : skipBlanks (' ' :: (write depth j ++ rest)) = write depth j ++ rest := by
    rw [heq]
    exact skipBlanks_cons hc _
  have hquote : skipBlanks (quote key ++ ':' :: ' ' :: (write depth j ++ rest)) =
      quote key ++ ':' :: ' ' :: (write depth j ++ rest) := by
    rw [quote_append, skipBlanks_cons (by decide)]
  rw [skipBlanks_indent, hquote, name?_quote, hspace]

/-! ### Values -/

theorem exists_fuel {depth fuel : Nat} {j : Json} (h : (write depth j).length ≤ fuel) :
    ∃ less, fuel = less + 1 := by
  obtain ⟨c, rest, heq, -⟩ := exists_write depth j
  rw [heq, List.length_cons] at h
  exact ⟨fuel - 1, by omega⟩

theorem length_indent (depth : Nat) : (indent depth).length = 2 * depth + 1 := by
  simp [indent]

/-- Behind an item stands another one or the end of its line. -/
theorem endsNumber_items (depth before : Nat) (items : List Json) (rest : List Char) :
    EndsNumber (writeItems depth items ++ (indent before ++ rest)) := by
  cases items <;> exact endsNumber_cons (by decide) _

theorem endsNumber_fields (depth before : Nat) (fields : List (String × Json))
    (rest : List Char) : EndsNumber (writeFields depth fields ++ (indent before ++ rest)) := by
  cases fields <;> exact endsNumber_cons (by decide) _

mutual

/-- A written value is read back, whatever stands behind it. -/
theorem value?_write (depth : Nat) : (j : Json) → (fuel : Nat) → (rest : List Char) →
    (write depth j).length ≤ fuel → EndsNumber rest →
    value? fuel (write depth j ++ rest) = some (j, rest)
  | .bool b, fuel, rest, hfuel, _ => by
      obtain ⟨fuel, rfl⟩ := exists_fuel hfuel
      cases b <;> rfl
  | .number n, fuel, rest, hfuel, hrest => by
      obtain ⟨fuel, rfl⟩ := exists_fuel hfuel
      exact value?_number n fuel hrest
  | .text s, fuel, rest, hfuel, _ => by
      obtain ⟨fuel, rfl⟩ := exists_fuel hfuel
      exact value?_quote s fuel rest
  | .list [], fuel, rest, hfuel, _ => by
      obtain ⟨fuel, rfl⟩ := exists_fuel hfuel
      rfl
  | .list (item :: items), fuel, rest, hfuel, _ => by
      obtain ⟨fuel, rfl⟩ := exists_fuel hfuel
      have hlength : (write (depth + 1) item).length + (writeItems (depth + 1) items).length + 1 ≤
          fuel := by
        simp only [write, List.length_append, List.length_cons, length_indent,
          List.length_nil] at hfuel
        omega
      have hitem := value?_write (depth + 1) item fuel
        (writeItems (depth + 1) items ++ (indent depth ++ ']' :: rest)) (by omega)
        (endsNumber_items _ _ _ _)
      have hitems := moreItems?_write (depth + 1) depth items fuel rest (by omega)
      have htext : write depth (.list (item :: items)) ++ rest =
          '[' :: (indent (depth + 1) ++ (write (depth + 1) item ++
            (writeItems (depth + 1) items ++ (indent depth ++ ']' :: rest)))) := by
        simp [write]
      rw [htext]
      change (value? fuel (skipBlanks (indent (depth + 1) ++ _))).bind _ = _
      rw [skipBlanks_write, hitem, Option.bind_some, hitems]
      rfl
  | .object [], fuel, rest, hfuel, _ => by
      obtain ⟨fuel, rfl⟩ := exists_fuel hfuel
      rfl
  | .object ((key, value) :: fields), fuel, rest, hfuel, _ => by
      obtain ⟨fuel, rfl⟩ := exists_fuel hfuel
      have hlength : (write (depth + 1) value).length +
          (writeFields (depth + 1) fields).length + 1 ≤ fuel := by
        simp only [write, List.length_append, List.length_cons, length_indent,
          List.length_nil] at hfuel
        omega
      have hvalue := value?_write (depth + 1) value fuel
        (writeFields (depth + 1) fields ++ (indent depth ++ '\x7d' :: rest)) (by omega)
        (endsNumber_fields _ _ _ _)
      have hfields := moreFields?_write (depth + 1) depth fields fuel rest (by omega)
      have htext : write depth (.object ((key, value) :: fields)) ++ rest =
          '\x7b' :: (indent (depth + 1) ++ (quote key ++ ':' :: ' ' ::
            (write (depth + 1) value ++
              (writeFields (depth + 1) fields ++ (indent depth ++ '\x7d' :: rest))))) := by
        simp [write]
      rw [htext]
      change (name? (skipBlanks (indent (depth + 1) ++ _))).bind _ = _
      rw [name?_indent, Option.bind_some, hvalue, Option.bind_some, hfields]
      rfl

/-- So are the items behind the first one. -/
theorem moreItems?_write (depth before : Nat) : (items : List Json) → (fuel : Nat) →
    (rest : List Char) → (writeItems depth items).length < fuel →
    moreItems? fuel (skipBlanks (writeItems depth items ++ (indent before ++ ']' :: rest))) =
      some (items, rest)
  | [], 0, _, hfuel => absurd hfuel (Nat.not_lt_zero _)
  | [], fuel + 1, rest, _ => by
      rw [writeItems, List.nil_append, skipBlanks_indent, skipBlanks_cons (by decide)]
      rfl
  | item :: items, 0, rest, hfuel => absurd hfuel (Nat.not_lt_zero _)
  | item :: items, fuel + 1, rest, hfuel => by
      have hlength : (write depth item).length + (writeItems depth items).length + 1 ≤ fuel := by
        simp only [writeItems, List.length_append, List.length_cons, length_indent] at hfuel
        omega
      have hitem := value?_write depth item fuel
        (writeItems depth items ++ (indent before ++ ']' :: rest)) (by omega)
        (endsNumber_items _ _ _ _)
      have hitems := moreItems?_write depth before items fuel rest (by omega)
      have htext : writeItems depth (item :: items) ++ (indent before ++ ']' :: rest) =
          ',' :: (indent depth ++ (write depth item ++
            (writeItems depth items ++ (indent before ++ ']' :: rest)))) := by
        simp [writeItems]
      rw [htext, skipBlanks_cons (by decide), moreItems?, skipBlanks_write, hitem,
        Option.bind_some, hitems]
      rfl

/-- So are the fields behind the first one. -/
theorem moreFields?_write (depth before : Nat) : (fields : List (String × Json)) → (fuel : Nat) →
    (rest : List Char) → (writeFields depth fields).length < fuel →
    moreFields? fuel (skipBlanks (writeFields depth fields ++ (indent before ++ '\x7d' :: rest))) =
      some (fields, rest)
  | [], 0, _, hfuel => absurd hfuel (Nat.not_lt_zero _)
  | [], fuel + 1, rest, _ => by
      rw [writeFields, List.nil_append, skipBlanks_indent, skipBlanks_cons (by decide)]
      rfl
  | field :: fields, 0, rest, hfuel => absurd hfuel (Nat.not_lt_zero _)
  | (key, value) :: fields, fuel + 1, rest, hfuel => by
      have hlength : (write depth value).length + (writeFields depth fields).length + 1 ≤ fuel := by
        simp only [writeFields, List.length_append, List.length_cons, length_indent] at hfuel
        omega
      have hvalue := value?_write depth value fuel
        (writeFields depth fields ++ (indent before ++ '\x7d' :: rest)) (by omega)
        (endsNumber_fields _ _ _ _)
      have hfields := moreFields?_write depth before fields fuel rest (by omega)
      have htext : writeFields depth ((key, value) :: fields) ++ (indent before ++ '\x7d' :: rest) =
          ',' :: (indent depth ++ (quote key ++ ':' :: ' ' :: (write depth value ++
            (writeFields depth fields ++ (indent before ++ '\x7d' :: rest))))) := by
        simp [writeFields]
      rw [htext, skipBlanks_cons (by decide), moreFields?, name?_indent,
        Option.bind_some, hvalue, Option.bind_some, hfields]
      rfl

end

/-- The reader undoes the writer. -/
theorem ofText?_render (j : Json) : ofText? j.render = some j := by
  have hread := value?_write 0 j (write 0 j).length [] (Nat.le_refl _) rfl
  rw [List.append_nil] at hread
  rw [ofText?, render, String.length_ofList, String.toList_ofList, hread]

end LessonCheck.Json
