import Mathlib.Data.List.Lex
import Mathlib.Data.String.Basic

/-!
The order of texts. Texts are compared character by character, by the numbers of the characters. The
bytes that encode a character grow with its number, from the first byte on in which two encodings
differ, so texts stand in the same order when their bytes are compared instead.
-/

namespace LessonCheck.Unicode

/-- The bytes of a text in UTF-8, as numbers. -/
def bytes (text : String) : List ℕ := text.toUTF8.data.toList.map UInt8.toNat

/-- The bytes of a character. -/
def encoding (c : Char) : List ℕ := (String.utf8EncodeChar c).map UInt8.toNat

theorem bytes_eq (text : String) : bytes text = text.toList.flatMap encoding := by
  obtain ⟨chars, rfl⟩ := text.exists_eq_ofList
  rw [bytes, String.toUTF8_eq_toByteArray, String.toByteArray_ofList, String.toList_ofList,
    List.utf8Encode, List.data_toByteArray]
  exact List.map_flatMap

theorem toNat_lt (c : Char) : c.toNat < 1114112 := by
  rcases c.valid with h | h
  · exact Nat.lt_trans h (by decide)
  · exact h.2

/-- One to four bytes, by the size of the number: a first byte that tells how many there are, and
behind it the rest of the number in groups of six binary digits. -/
theorem encoding_eq (c : Char) : encoding c =
    if c.toNat ≤ 127 then [c.toNat]
    else if c.toNat ≤ 2047 then [c.toNat / 64 + 192, c.toNat % 64 + 128]
    else if c.toNat ≤ 65535 then
      [c.toNat / 4096 + 224, c.toNat / 64 % 64 + 128, c.toNat % 64 + 128]
    else
      [c.toNat / 262144 + 240, c.toNat / 4096 % 64 + 128, c.toNat / 64 % 64 + 128,
        c.toNat % 64 + 128] := by
  have hlast := toNat_lt c
  have hbyte (n : ℕ) : (UInt8.ofNat n).toNat = n % 256 := UInt8.toNat_ofNat'
  simp only [encoding, String.utf8EncodeChar, Char.toNat] at hlast ⊢
  split_ifs
  all_goals
    simp only [List.map_cons, List.map_nil, hbyte, List.cons.injEq, and_true]
    omega

theorem encoding_ne_nil (c : Char) : encoding c ≠ [] := by
  rw [encoding_eq]
  split_ifs <;> exact List.cons_ne_nil _ _

/-- The first bytes of longer encodings are larger; of two encodings of the same length the one of
the larger number is larger where they differ first. -/
theorem encoding_append_lt {c d : Char} (h : c < d) (s t : List ℕ) :
    encoding c ++ s < encoding d ++ t := by
  have hless : c.toNat < d.toNat := h
  have hlast := toNat_lt d
  rw [encoding_eq, encoding_eq]
  generalize c.toNat = n at hless
  generalize d.toNat = k at hless hlast
  have hgroups (n : ℕ) : n / 4096 = n / 64 / 64 ∧ n / 262144 = n / 64 / 64 / 64 := by
    omega
  obtain ⟨hn, hn'⟩ := hgroups n
  obtain ⟨hk, hk'⟩ := hgroups k
  split_ifs
  all_goals
    simp only [List.cons_append, List.nil_append, List.cons_lt_cons_iff]
    omega

theorem flatMap_encoding_lt {s t : List Char} (h : s < t) :
    s.flatMap encoding < t.flatMap encoding := by
  induction s generalizing t with
  | nil =>
      cases t with
      | nil => exact absurd h (lt_irrefl _)
      | cons d t =>
          obtain ⟨first, others, hd⟩ := List.exists_cons_of_ne_nil (encoding_ne_nil d)
          rw [List.flatMap_cons, hd]
          exact List.nil_lt_cons _ _
  | cons c s ih =>
      cases t with
      | nil => exact absurd h (List.not_lt_nil _)
      | cons d t =>
          rw [List.flatMap_cons, List.flatMap_cons]
          rcases List.cons_lt_cons_iff.mp h with hfirst | ⟨rfl, hrest⟩
          · exact encoding_append_lt hfirst _ _
          · exact List.append_left_lt (ih hrest)

/-- Texts have the order of their bytes. -/
theorem strictMono_bytes : StrictMono bytes := by
  intro a b h
  rw [bytes_eq, bytes_eq]
  exact flatMap_encoding_lt h

end LessonCheck.Unicode
