import LessonCheck.Lexing.Escape
import Mathlib.Algebra.Group.Nat.Even
import Mathlib.Data.List.Induction

/-!
Which backslashes begin a sequence. The scan for illegal escapes reads a literal from the left and
takes two characters at a time behind a backslash. Seen from a single backslash the left does not
matter: it begins a sequence if the backslashes directly in front of it are even in number. The scan
finds the sequences that are illegal in this sense, in order, and no others.
-/

namespace LessonCheck

/-- The number of backslashes at the end of a text. -/
def backslashRun (text : List Char) : Nat := (text.reverse.takeWhile (· = '\\')).length

theorem backslashRun_concat (text : List Char) (c : Char) :
    backslashRun (text ++ [c]) = if c = '\\' then backslashRun text + 1 else 0 := by
  by_cases h : c = '\\' <;> simp [backslashRun, h]

/-- Whether the run at the end is even does not depend on more of the text in front than that. -/
theorem even_backslashRun_append {a b : List Char}
    (h : Even (backslashRun a) ↔ Even (backslashRun b)) (text : List Char) :
    Even (backslashRun (a ++ text)) ↔ Even (backslashRun (b ++ text)) := by
  induction text using List.reverseRecOn with
  | nil => simpa using h
  | append_singleton text c ih =>
      rw [← List.append_assoc, ← List.append_assoc, backslashRun_concat, backslashRun_concat]
      by_cases hc : c = '\\'
      · simp only [if_pos hc, Nat.even_add_one, ih]
      · simp only [if_neg hc]

/-- A character that is no backslash does not count. -/
theorem even_backslashRun_cons {c : Char} (h : c ≠ '\\') (text : List Char) :
    Even (backslashRun (c :: text)) ↔ Even (backslashRun text) := by
  have hempty : Even (backslashRun [c]) ↔ Even (backslashRun []) := by simp [backslashRun, h]
  exact even_backslashRun_append hempty text

/-- Neither do a backslash and what it takes along. -/
theorem even_backslashRun_pair (c : Char) (text : List Char) :
    Even (backslashRun ('\\' :: c :: text)) ↔ Even (backslashRun text) := by
  have hempty : Even (backslashRun ['\\', c]) ↔ Even (backslashRun []) := by
    have htwo : Even 2 := ⟨1, rfl⟩
    by_cases h : c = '\\' <;> simp [backslashRun, h, htwo]
  exact even_backslashRun_append hempty text

namespace InvalidEscape

/-- The sequence stands in the text, which has `start` characters before it: its backslash is not
taken along by another one. -/
def StandsFrom (e : InvalidEscape) (start : Nat) (text : List Char) : Prop :=
  ∃ front rest, text = front ++ '\\' :: e.escaped :: rest ∧ start + front.length = e.offset ∧
    Even (backslashRun front) ∧ e.escaped ∉ legalEscapes

def StandsIn (e : InvalidEscape) (literal : String) : Prop := e.StandsFrom 0 literal.toList

variable {e : InvalidEscape} {start : Nat} {text : List Char} {c : Char}

theorem not_standsFrom_nil : ¬ e.StandsFrom start [] := by
  rintro ⟨front, rest, h, -⟩
  cases front <;> cases h

theorem standsFrom_cons (h : c ≠ '\\') :
    e.StandsFrom start (c :: text) ↔ e.StandsFrom (start + 1) text := by
  constructor
  · rintro ⟨front, rest, htext, hplace, heven, hillegal⟩
    cases front with
    | nil => exact absurd (List.cons.inj htext).1 h
    | cons d front =>
        obtain ⟨rfl, rfl⟩ := List.cons.inj htext
        refine ⟨front, rest, rfl, ?_, (even_backslashRun_cons h front).mp heven, hillegal⟩
        rw [← hplace, List.length_cons]
        omega
  · rintro ⟨front, rest, rfl, hplace, heven, hillegal⟩
    refine ⟨c :: front, rest, rfl, ?_, (even_backslashRun_cons h front).mpr heven, hillegal⟩
    rw [← hplace, List.length_cons]
    omega

/-- A backslash with nothing behind it begins no sequence. -/
theorem not_standsFrom_backslash : ¬ e.StandsFrom start ['\\'] := by
  rintro ⟨front, rest, h, -⟩
  rcases front with _ | ⟨d, _ | ⟨d', front⟩⟩ <;> cases h

theorem standsFrom_pair :
    e.StandsFrom start ('\\' :: c :: text) ↔
      (e = ⟨c, start⟩ ∧ c ∉ legalEscapes) ∨ e.StandsFrom (start + 2) text := by
  constructor
  · rintro ⟨front, rest, htext, hplace, heven, hillegal⟩
    rcases front with _ | ⟨d, _ | ⟨d', front⟩⟩
    · obtain ⟨escaped, offset⟩ := e
      obtain ⟨rfl, rfl⟩ := List.cons.inj (List.cons.inj htext).2
      obtain rfl : start = offset := hplace
      exact Or.inl ⟨rfl, hillegal⟩
    · -- The backslash at the front would be a run of its own.
      obtain ⟨rfl, -⟩ := List.cons.inj htext
      simp [backslashRun] at heven
    · obtain ⟨rfl, htail⟩ := List.cons.inj htext
      obtain ⟨rfl, rfl⟩ := List.cons.inj htail
      refine Or.inr ⟨front, rest, rfl, ?_, (even_backslashRun_pair _ front).mp heven, hillegal⟩
      rw [← hplace, List.length_cons, List.length_cons]
      omega
  · rintro (⟨rfl, hillegal⟩ | ⟨front, rest, rfl, hplace, heven, hillegal⟩)
    · exact ⟨[], text, rfl, rfl, by simp [backslashRun], hillegal⟩
    · refine ⟨'\\' :: c :: front, rest, rfl, ?_, (even_backslashRun_pair _ front).mpr heven,
        hillegal⟩
      rw [← hplace, List.length_cons, List.length_cons]
      omega

theorem mem_scan : e ∈ scan start text ↔ e.StandsFrom start text := by
  fun_induction scan start text with
  | case1 => simp [not_standsFrom_nil]
  | case2 start c text hlegal ih =>
      rw [standsFrom_pair, ih]
      simp_all
  | case3 start c text hillegal ih =>
      rw [standsFrom_pair, List.mem_cons, ih]
      simp_all
  | case4 start c text hsingle ih =>
      rw [ih]
      by_cases hc : c = '\\'
      · cases text with
        | nil => simp [hc, not_standsFrom_nil, not_standsFrom_backslash]
        | cons d text => exact absurd rfl (hsingle d text hc)
      · exact (standsFrom_cons hc).symm

theorem start_le_of_standsFrom (h : e.StandsFrom start text) : start ≤ e.offset := by
  obtain ⟨front, rest, -, hplace, -⟩ := h
  omega

/-- The sequences are found from left to right. -/
theorem pairwise_scan (start : Nat) (text : List Char) :
    (scan start text).Pairwise fun e e' => e.offset < e'.offset := by
  fun_induction scan start text with
  | case1 => exact List.Pairwise.nil
  | case2 start c text _ ih => exact ih
  | case3 start c text _ ih =>
      refine List.Pairwise.cons (fun e he => ?_) ih
      exact Nat.lt_of_lt_of_le (by simp) (start_le_of_standsFrom (mem_scan.mp he))
  | case4 start c text _ ih => exact ih

/-- The illegal escapes of a literal are its illegal sequences, wherever they stand. -/
theorem mem_ofLiteral {literal : String} : e ∈ ofLiteral literal ↔ e.StandsIn literal := mem_scan

/-- The illegal escapes of a literal are one list, since no two of them stand at the same place. -/
theorem list_unique {literal : String} {es es' : List InvalidEscape}
    (h : ∀ e, e ∈ es ↔ e.StandsIn literal) (hes : es.Pairwise fun e e' => e.offset < e'.offset)
    (h' : ∀ e, e ∈ es' ↔ e.StandsIn literal)
    (hes' : es'.Pairwise fun e e' => e.offset < e'.offset) : es = es' := by
  have hne {e e' : InvalidEscape} (hlt : e.offset < e'.offset) : e ≠ e' := by
    rintro rfl
    exact Nat.lt_irrefl _ hlt
  have hperm : es.Perm es' := by
    rw [List.perm_ext_iff_of_nodup (hes.imp hne) (hes'.imp hne)]
    exact fun e => (h e).trans (h' e).symm
  refine hperm.eq_of_pairwise (fun e e' _ _ hlt hgt => ?_) hes hes'
  exact absurd (Nat.lt_trans hlt hgt) (Nat.lt_irrefl _)

end InvalidEscape

end LessonCheck
