import LessonCheck.Lexing.Cut
import LessonCheck.Token.Basic
import LessonCheck.Unicode.Blank

/-!
From a text to its tokens. Blank characters are passed over, every other character begins a step of
the lexer, and the place of a token follows from the text before it alone.
-/

namespace LessonCheck

open Unicode

/-- The pieces as tokens, the first of them at `l` and each next one directly behind. -/
def Piece.place (l : Location) : List Piece → Tokens
  | [] => []
  | p :: ps => ⟨p.kind, String.ofList p.lexeme, l⟩ :: place (l.after p.raw) ps

namespace Cut

theorem length_rest_lt (c : Char) (text : List Char) :
    (ofText c text).rest.length < text.length + 1 := by
  have nonempty : (ofText c text).raw ≠ [] := by
    unfold ofText operator increment string char word number
    simp only
    repeat' split
    all_goals simp_all [raw, one, Piece.raw, wordKind]
    all_goals (try split) <;> simp
  have h := congrArg List.length (raw_append_rest c text)
  have := List.length_pos_iff.mpr nonempty
  simp only [List.length_append, List.length_cons] at h
  omega

end Cut

/-- The tokens of a text that begins at `l`. -/
def Token.scan (l : Location) : List Char → Tokens
  | [] => []
  | c :: text =>
    if isBlank c then scan (l.step c) text
    else
      let cut := Cut.ofText c text
      Piece.place l cut.pieces ++ scan (l.after cut.raw) cut.rest
termination_by text => text.length
decreasing_by
  · simp
  · exact Cut.length_rest_lt c text

namespace Token

@[simp] theorem scan_nil (l : Location) : scan l [] = [] := by
  rw [scan]

theorem scan_blank {c : Char} (h : isBlank c = true) (l : Location) (text : List Char) :
    scan l (c :: text) = scan (l.step c) text := by
  rw [scan]
  simp [h]

theorem scan_cut {c : Char} (h : isBlank c = false) (l : Location) (text : List Char) :
    scan l (c :: text) =
      Piece.place l (Cut.ofText c text).pieces ++
        scan (l.after (Cut.ofText c text).raw) (Cut.ofText c text).rest := by
  rw [scan]
  simp [h]

/-- The tokens of a whole source text. -/
def ofText (source : String) : Tokens := scan .start source.toList

end Token

end LessonCheck
