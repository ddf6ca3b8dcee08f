import LessonCheck.Lexing.Quoted
import LessonCheck.Location
import LessonCheck.Proofs.Access.Checked

/-!
A cursor in a text: a byte offset, the place there and the characters still unread. It moves by one
character at a time; what its loops amount to is a text that has been read and the rest, and every
law below says so in these terms.
-/

namespace LessonCheck

namespace Quoted

@[simp] theorem closed_prepend (text : List Char) (q : Quoted) :
    (q.prepend text).closed = q.closed := rfl

@[simp] theorem inside_prepend (text : List Char) (q : Quoted) :
    (q.prepend text).inside = text ++ q.inside := rfl

end Quoted

structure Cursor where
  offset : Nat
  location : Location
  unread : List Char

namespace Cursor

def start (text : List Char) : Cursor := ⟨0, .start, text⟩

/-- The cursor once `text` has been read and `rest` is left. -/
def past (k : Cursor) (text rest : List Char) : Cursor :=
  ⟨k.offset + byteLength text, k.location.after text, rest⟩

@[simp] theorem offset_past (k : Cursor) (text rest : List Char) :
    (k.past text rest).offset = k.offset + byteLength text := rfl

@[simp] theorem location_past (k : Cursor) (text rest : List Char) :
    (k.past text rest).location = k.location.after text := rfl

@[simp] theorem unread_past (k : Cursor) (text rest : List Char) :
    (k.past text rest).unread = rest := rfl

@[simp] theorem past_past (k : Cursor) (a b c d : List Char) :
    (k.past a b).past c d = k.past (a ++ c) d := by
  simp [past, Location.after_append, Nat.add_assoc]

/-- Reads one character, if one is left. -/
def bump (k : Cursor) : Cursor :=
  match k.unread with
  | [] => k
  | c :: text => ⟨k.offset + c.utf8Size, k.location.step c, text⟩

theorem bump_of_cons {k : Cursor} {c : Char} {text : List Char} (h : k.unread = c :: text) :
    k.bump = k.past [c] text := by
  simp [bump, h, past]

/-- The unread text stands at the offset of the cursor in `content`. -/
def In (k : Cursor) (content : List Char) : Prop :=
  ∃ before, content = before ++ k.unread ∧ byteLength before = k.offset

section
variable {k : Cursor} {content a b : List Char}

theorem in_start (text : List Char) : (start text).In text := ⟨[], rfl, rfl⟩

theorem In.past (hk : k.In content) (h : k.unread = a ++ b) : (k.past a b).In content := by
  obtain ⟨before, rfl, hoffset⟩ := hk
  exact ⟨before ++ a, by simp [h], by simp [hoffset]⟩

/-- A lexeme is what stands between two positions of the cursor. -/
theorem In.sliceText_eq (hk : k.In content) (h : k.unread = a ++ b) :
    sliceText content k.offset (k.offset + byteLength a) = .ok a := by
  obtain ⟨before, rfl, hoffset⟩ := hk
  exact sliceText_eq_ok_iff.mpr ⟨before, b, by simp [h], hoffset, rfl⟩

end

def skipFrom (p : Char → Bool) (offset : Nat) (l : Location) : List Char → Cursor
  | [] => ⟨offset, l, []⟩
  | c :: text =>
    if p c then skipFrom p (offset + c.utf8Size) (l.step c) text else ⟨offset, l, c :: text⟩

/-- Reads on as long as the characters are of one class. -/
def skipWhile (p : Char → Bool) (k : Cursor) : Cursor := skipFrom p k.offset k.location k.unread

theorem skipWhile_eq (p : Char → Bool) (k : Cursor) :
    k.skipWhile p = k.past (k.unread.takeWhile p) (k.unread.dropWhile p) := by
  obtain ⟨offset, l, text⟩ := k
  unfold skipWhile past
  induction text generalizing offset l with
  | nil => rfl
  | cons c text ih =>
      cases hc : p c with
      | false => simp [skipFrom, hc]
      | true => simpa [skipFrom, hc, Nat.add_assoc] using ih (offset + c.utf8Size) (l.step c)

/-- Reads on behind an opening quote. The answer has the offset of the closing quote, if one comes
before the text ends or breaks the literal off. -/
def seekFrom (quote : Char) (stops : Char → Bool) (offset : Nat) (l : Location) :
    List Char → Option Nat × Cursor
  | [] => (none, ⟨offset, l, []⟩)
  | c :: text =>
    if c = quote then (some offset, ⟨offset + c.utf8Size, l.step c, text⟩)
    else if stops c then (none, ⟨offset, l, c :: text⟩)
    else if c = '\\' then
      match text with
      | [] => (none, ⟨offset + c.utf8Size, l.step c, []⟩)
      | d :: text =>
        if stops d then (none, ⟨offset + c.utf8Size, l.step c, d :: text⟩)
        else seekFrom quote stops (offset + c.utf8Size + d.utf8Size) ((l.step c).step d) text
    else seekFrom quote stops (offset + c.utf8Size) (l.step c) text

def seek (quote : Char) (stops : Char → Bool) (k : Cursor) : Option Nat × Cursor :=
  seekFrom quote stops k.offset k.location k.unread

theorem seek_eq (quote : Char) (stops : Char → Bool) (k : Cursor) :
    let q := Quoted.scan quote stops k.unread
    k.seek quote stops =
      (if q.closed then some (k.offset + byteLength q.inside) else none,
        k.past (q.raw quote) q.rest) := by
  obtain ⟨offset, l, text⟩ := k
  unfold seek past
  simp only
  fun_induction Quoted.scan quote stops text generalizing offset l with
  | case1 => rfl
  | case2 text =>
      rw [seekFrom.eq_def]
      simp [Quoted.raw]
  | case3 c text hquote hstops =>
      rw [seekFrom.eq_def]
      simp [hquote, hstops, Quoted.raw]
  | case4 hquote hstops =>
      rw [seekFrom.eq_def]
      simp [hquote, hstops, Quoted.raw]
  | case5 d text hd hquote hstops =>
      rw [seekFrom.eq_def]
      simp [hquote, hstops, hd, Quoted.raw]
  | case6 d text hd hquote hstops ih =>
      rw [seekFrom.eq_def]
      simp only [hquote, hstops, hd, if_false, if_true, Bool.false_eq_true]
      rw [ih]
      cases hclosed : (Quoted.scan quote stops text).closed <;> simp [hclosed, Nat.add_assoc]
  | case7 c text hquote hstops hescape ih =>
      rw [seekFrom.eq_def]
      simp only [hquote, hstops, hescape, if_false, Bool.false_eq_true]
      rw [ih]
      cases hclosed : (Quoted.scan quote stops text).closed <;> simp [hclosed, Nat.add_assoc]

end Cursor

end LessonCheck
