/-!
Text between quotes. The literal ends at the first quote that no backslash keeps from closing it; a
literal that may not go on past certain characters is broken off in front of the first of them.
-/

namespace LessonCheck

/-- What a scan for the closing quote found. -/
structure Quoted where
  inside : List Char
  closed : Bool
  rest : List Char
  deriving DecidableEq

namespace Quoted

def prepend (text : List Char) (q : Quoted) : Quoted := { q with inside := text ++ q.inside }

/-- Scans the text behind an opening quote. -/
def scan (quote : Char) (stops : Char → Bool) : List Char → Quoted
  | [] => ⟨[], false, []⟩
  | c :: text =>
    if c = quote then ⟨[], true, text⟩
    else if stops c then ⟨[], false, c :: text⟩
    else if c = '\\' then
      match text with
      | [] => ⟨[c], false, []⟩
      | d :: text =>
        -- The character behind a backslash goes along with it and cannot close the literal.
        if stops d then ⟨[c], false, d :: text⟩ else (scan quote stops text).prepend [c, d]
    else (scan quote stops text).prepend [c]

section
variable {quote : Char} {stops : Char → Bool}

theorem scan_closed (text : List Char) : scan quote stops (quote :: text) = ⟨[], true, text⟩ := by
  rw [scan.eq_def]
  simp

theorem scan_stop {c : Char} (hquote : c ≠ quote) (hstops : stops c = true) (text : List Char) :
    scan quote stops (c :: text) = ⟨[], false, c :: text⟩ := by
  rw [scan.eq_def]
  simp [hquote, hstops]

theorem scan_plain {c : Char} (hquote : c ≠ quote) (hstops : stops c = false) (hescape : c ≠ '\\')
    (text : List Char) : scan quote stops (c :: text) = (scan quote stops text).prepend [c] := by
  rw [scan.eq_def]
  simp [hquote, hstops, hescape]

theorem scan_escape {d : Char} (hquote : quote ≠ '\\') (hstops : stops '\\' = false)
    (hd : stops d = false) (text : List Char) :
    scan quote stops ('\\' :: d :: text) = (scan quote stops text).prepend ['\\', d] := by
  rw [scan.eq_def]
  simp [hquote.symm, hstops, hd]

/-- A backslash does not take along a character that breaks the literal off. -/
theorem scan_escape_stop {d : Char} (hquote : quote ≠ '\\') (hstops : stops '\\' = false)
    (hd : stops d = true) (text : List Char) :
    scan quote stops ('\\' :: d :: text) = ⟨['\\'], false, d :: text⟩ := by
  rw [scan.eq_def]
  simp [hquote.symm, hstops, hd]

end

/-- The scanned text, the closing quote included. -/
def raw (quote : Char) (q : Quoted) : List Char :=
  if q.closed then q.inside ++ [quote] else q.inside

@[simp] theorem raw_prepend (quote : Char) (text : List Char) (q : Quoted) :
    (q.prepend text).raw quote = text ++ q.raw quote := by
  cases h : q.closed <;> simp [raw, prepend, h]

@[simp] theorem rest_prepend (text : List Char) (q : Quoted) : (q.prepend text).rest = q.rest := rfl

/-- Nothing of the text is lost. -/
theorem raw_append_rest (quote : Char) (stops : Char → Bool) (text : List Char) :
    (scan quote stops text).raw quote ++ (scan quote stops text).rest = text := by
  fun_induction scan quote stops text with
  | case1 => rfl
  | case2 => simp [raw]
  | case3 => simp [raw]
  | case4 => simp [raw]
  | case5 => simp [raw]
  | case6 _ _ _ _ _ ih => simp [ih]
  | case7 _ _ _ _ _ ih => simp [ih]

theorem length_rest_le (quote : Char) (stops : Char → Bool) (text : List Char) :
    (scan quote stops text).rest.length ≤ text.length := by
  have h := congrArg List.length (raw_append_rest quote stops text)
  simp only [List.length_append] at h
  omega

end Quoted

end LessonCheck
