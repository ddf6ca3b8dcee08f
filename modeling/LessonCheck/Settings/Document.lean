import LessonCheck.Settings.QuotedValue

/-!
Settings documents: lines that are blank, hold a comment, or give a key a value, which is a truth
value or a text. This is the flat part of the TOML notation, with all its ways to write keys and
texts; a document that uses anything else is not read at all. `line?` takes one line off a document,
and `length_line?` says that this always makes the document shorter.
-/

namespace LessonCheck.Settings

inductive Value
  | bool (value : Bool)
  | text (value : List Char)
  deriving DecidableEq

structure Entry where
  key : List Char
  value : Value
  deriving DecidableEq

/-- What a reader has read, and the text behind it. -/
abbrev Reading (α : Type) := Option (α × List Char)

def skipSpaces (text : List Char) : List Char := text.dropWhile isSpace

def isBareKeyChar (c : Char) : Bool := c.isAlphanum || c = '_' || c = '-'

def bareKey? (text : List Char) : Reading (List Char) :=
  match text.takeWhile isBareKeyChar with
  | [] => none
  | c :: key => some (c :: key, text.dropWhile isBareKeyChar)

def key? : List Char → Reading (List Char)
  | '"' :: text => basic? text
  | '\'' :: text => literal? text
  | text => bareKey? text

def equals? : List Char → Option (List Char)
  | '=' :: text => some text
  | _ => none

def value? : List Char → Reading Value
  | 't' :: 'r' :: 'u' :: 'e' :: text => some (.bool true, text)
  | 'f' :: 'a' :: 'l' :: 's' :: 'e' :: text => some (.bool false, text)
  | text => (text? text).map fun r => (.text r.1, r.2)

/-- Takes the line end off; the end of the document is one, too. -/
def lineEnd? : List Char → Option (List Char)
  | [] => some []
  | '\n' :: text => some text
  | _ => none

/-- Takes the rest of a line off that holds nothing but a comment, if that. -/
def lineRest? (text : List Char) : Option (List Char) :=
  match skipSpaces text with
  | '#' :: comment => lineEnd? (comment.dropWhile (!isControl ·))
  | text => lineEnd? text

def keyValue? (text : List Char) : Reading Entry :=
  (key? text).bind fun k =>
    (equals? (skipSpaces k.2)).bind fun afterEquals =>
      (value? (skipSpaces afterEquals)).map fun v => (⟨k.1, v.1⟩, v.2)

/-- A line without an entry begins with its end or with a comment. -/
def isEmptyLine (text : List Char) : Bool :=
  match skipSpaces text with
  | [] => true
  | c :: _ => c = '\n' || c = '#'

def line? (text : List Char) : Reading (List Entry) :=
  if isEmptyLine text then (lineRest? text).map ([], ·)
  else (keyValue? (skipSpaces text)).bind fun e => (lineRest? e.2).map ([e.1], ·)

/-! ### Every line is shorter than the document it is taken off -/

private theorem length_dropWhile_le (p : Char → Bool) (text : List Char) :
    (text.dropWhile p).length ≤ text.length :=
  (List.dropWhile_sublist p).length_le

private theorem length_literal? {text : List Char} {r : List Char × List Char}
    (h : literal? text = some r) : r.2.length < text.length := by
  induction text generalizing r with
  | nil => simp [literal?] at h
  | cons c text ih =>
    unfold literal? at h
    split at h
    · cases h
      simp
    · split at h
      · cases h
      · obtain ⟨s, hs, rfl⟩ := Option.map_eq_some_iff.mp h
        have := ih hs
        simp only [List.length_cons]
        omega

private theorem length_basic? {text : List Char} {r : List Char × List Char}
    (h : basic? text = some r) : r.2.length ≤ text.length := by
  unfold basic? at h
  simp only at h
  split at h
  · obtain ⟨s, _, rfl⟩ := Option.map_eq_some_iff.mp h
    exact Quoted.length_rest_le ..
  · cases h

private theorem length_block? {quote : Char} {text : List Char} {r : List Char × List Char}
    (h : block? quote text = some r) : r.2.length ≤ text.length := by
  fun_induction block? quote text generalizing r with
  | case1 => cases h
  | case2 c text _ =>
    unfold blockEnd? at h
    simp only at h
    split at h
    · cases h
      have := length_dropWhile_le (· = quote) (text.drop 2)
      simp only [List.length_drop, List.length_cons] at this ⊢
      omega
    · cases h
  | case3 => cases h
  | case4 => cases h
  | case5 c d text _ _ _ ih =>
    obtain ⟨s, hs, rfl⟩ := Option.map_eq_some_iff.mp h
    have := ih hs
    simp only [List.length_cons]
    omega
  | case6 c text _ _ _ ih =>
    obtain ⟨s, hs, rfl⟩ := Option.map_eq_some_iff.mp h
    have := ih hs
    simp only [List.length_cons]
    omega

private theorem length_dropLineEnd (text : List Char) :
    (dropLineEnd text).length ≤ text.length := by
  unfold dropLineEnd
  split <;> simp

private theorem length_text? {text : List Char} {r : List Char × List Char}
    (h : text? text = some r) : r.2.length ≤ text.length := by
  unfold text? at h
  split at h
  · obtain ⟨b, hb, h⟩ := Option.bind_eq_some_iff.mp h
    obtain ⟨s, _, rfl⟩ := Option.map_eq_some_iff.mp h
    have := length_block? hb
    have := length_dropLineEnd (text.drop 3)
    simp only [List.length_drop] at this ⊢
    omega
  · split at h
    · have := length_block? h
      have := length_dropLineEnd (text.drop 3)
      simp only [List.length_drop] at this ⊢
      omega
    · split at h
      · have := length_basic? h
        simp only [List.length_cons]
        omega
      · have := length_literal? h
        simp only [List.length_cons]
        omega
      · cases h

private theorem length_value? {text : List Char} {r : Value × List Char}
    (h : value? text = some r) : r.2.length ≤ text.length := by
  unfold value? at h
  split at h
  · cases h
    simp only [List.length_cons]
    omega
  · cases h
    simp only [List.length_cons]
    omega
  · obtain ⟨s, hs, rfl⟩ := Option.map_eq_some_iff.mp h
    exact length_text? hs

private theorem length_key? {text : List Char} {r : List Char × List Char}
    (h : key? text = some r) : r.2.length < text.length := by
  unfold key? at h
  split at h
  · have := length_basic? h
    simp only [List.length_cons]
    omega
  · have := length_literal? h
    simp only [List.length_cons]
    omega
  · unfold bareKey? at h
    split at h
    · cases h
    · next c key hk =>
      cases h
      have := congrArg List.length
        (List.takeWhile_append_dropWhile (p := isBareKeyChar) (l := text))
      rw [hk] at this
      simp only [List.length_append, List.length_cons] at this ⊢
      omega

private theorem length_keyValue? {text : List Char} {r : Entry × List Char}
    (h : keyValue? text = some r) : r.2.length < text.length := by
  unfold keyValue? at h
  obtain ⟨k, hk, h⟩ := Option.bind_eq_some_iff.mp h
  obtain ⟨e, he, h⟩ := Option.bind_eq_some_iff.mp h
  obtain ⟨v, hv, rfl⟩ := Option.map_eq_some_iff.mp h
  have hk := length_key? hk
  have hv := length_value? hv
  have spaces₁ := length_dropWhile_le isSpace k.2
  have spaces₂ := length_dropWhile_le isSpace e
  have : e.length ≤ (skipSpaces k.2).length := by
    unfold equals? at he
    split at he
    · next heq =>
      cases he
      rw [heq]
      simp
    · cases he
  simp only [skipSpaces] at *
  omega

private theorem length_lineEnd? {text rest : List Char} (h : lineEnd? text = some rest) :
    rest.length ≤ text.length := by
  unfold lineEnd? at h
  split at h <;> cases h
  · exact Nat.le_refl _
  · simp

private theorem length_lineRest? {text rest : List Char} (h : lineRest? text = some rest) :
    rest.length ≤ text.length := by
  have spaces := length_dropWhile_le isSpace text
  unfold lineRest? at h
  split at h
  · next comment hc =>
    have := length_lineEnd? h
    have := length_dropWhile_le (!isControl ·) comment
    have := congrArg List.length hc
    simp only [skipSpaces, List.length_cons] at *
    omega
  · exact Nat.le_trans (length_lineEnd? h) spaces

theorem length_line? {text : List Char} (nonempty : text ≠ []) {r : List Entry × List Char}
    (h : line? text = some r) : r.2.length < text.length := by
  have spaces := length_dropWhile_le isSpace text
  have positive := List.length_pos_iff.mpr nonempty
  unfold line? at h
  split at h
  · next blank =>
    obtain ⟨rest, hr, rfl⟩ := Option.map_eq_some_iff.mp h
    unfold isEmptyLine at blank
    unfold lineRest? at hr
    split at hr
    · next comment hc =>
      have := length_lineEnd? hr
      have := length_dropWhile_le (!isControl ·) comment
      have := congrArg List.length hc
      simp only [skipSpaces, List.length_cons] at *
      omega
    · cases hs : skipSpaces text with
      | nil =>
        rw [hs] at hr
        cases hr
        simpa using positive
      | cons c rest' =>
        rw [hs] at hr
        have := congrArg List.length hs
        unfold lineEnd? at hr
        split at hr
        · next heq => cases heq
        · next heq =>
          cases heq
          cases hr
          simp only [skipSpaces, List.length_cons] at this ⊢
          omega
        · cases hr
  · obtain ⟨e, he, h⟩ := Option.bind_eq_some_iff.mp h
    obtain ⟨rest, hr, rfl⟩ := Option.map_eq_some_iff.mp h
    have := length_keyValue? he
    have := length_lineRest? hr
    simp only [skipSpaces] at *
    omega

/-! ### Whole documents -/

/-- The entries of a document whose lines all end in a line feed alone. -/
def entries? (text : List Char) : Option (List Entry) :=
  if _nonempty : text = [] then some []
  else
    match _line : line? text with
    | none => none
    | some (found, rest) => (entries? rest).map (found ++ ·)
termination_by text.length
decreasing_by exact length_line? _nonempty _line

/-- Writes every line end as a line feed alone. -/
def unifyLineEnds : List Char → List Char
  | '\r' :: '\n' :: text => '\n' :: unifyLineEnds text
  | c :: text => c :: unifyLineEnds text
  | [] => []

/-- Takes a byte order mark off the front. -/
def dropMark : List Char → List Char
  | '\ufeff' :: text => text
  | text => text

/-- The entries of a document, in order. -/
def document? (text : String) : Option (List Entry) :=
  entries? (unifyLineEnds (dropMark text.toList))

end LessonCheck.Settings
