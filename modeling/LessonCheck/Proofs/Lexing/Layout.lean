import LessonCheck.Caching.TextCache
import Mathlib.Data.List.Induction

/-!
What the lexer says of a text, read backwards: the text is its tokens as they were written, with
blanks around them, and the place of each token is that of the text before it. `Laid` says so along
the recursion of the lexer; `exists_gaps` reads the blanks off and states it of the source as a
whole. The cache that a text is lexed through has no part in it.
-/

namespace LessonCheck

open Unicode

/-- A text of blank characters only. -/
def Blank (text : List Char) : Prop := ∀ c ∈ text, isBlank c = true

theorem Token.scan_gap {gap : List Char} (h : Blank gap) (l : Location) (text : List Char) :
    scan l (gap ++ text) = scan (l.after gap) text := by
  induction gap generalizing l with
  | nil => rfl
  | cons c gap ih =>
      rw [List.cons_append, scan_blank (h c List.mem_cons_self)]
      exact ih (fun d hd => h d (List.mem_cons_of_mem c hd)) _

/-- The place behind a whole text: its line ends give the line, and what follows the last of them
gives the column. -/
def Location.behind (text : List Char) : Location :=
  ⟨1 + text.count '\n', 1 + (text.reverse.takeWhile (· ≠ '\n')).length⟩

theorem Location.behind_concat (text : List Char) (c : Char) :
    Location.behind (text ++ [c]) = (Location.behind text).step c := by
  by_cases h : c = '\n'
  · subst h
    simp [behind, step, newline, List.count_append, Nat.add_assoc]
  · simp [behind, step, advance, h, List.count_append, Nat.add_comm]

/-- Reading character by character leads to the same place. -/
theorem Location.after_start (text : List Char) :
    Location.start.after text = Location.behind text := by
  induction text using List.reverseRecOn with
  | nil => rfl
  | append_singleton text c ih =>
      rw [after_append, ih, behind_concat]
      rfl

/-- From `l` on, the text is the tokens with blanks around them, each token at its place. -/
inductive Laid : Location → Tokens → List Char → Prop
  | done {l : Location} : Laid l [] []
  | blank {l : Location} {c : Char} {ts : Tokens} {text : List Char} :
      isBlank c = true → Laid (l.step c) ts text → Laid l ts (c :: text)
  | token {l : Location} {t : Token} {ts : Tokens} {text : List Char} :
      t.location = l → t.raw ≠ [] → Laid (l.after t.raw) ts text → Laid l (t :: ts) (t.raw ++ text)

/-- A placed piece stands for the text that it was cut from. -/
theorem Piece.raw_mk (p : Piece) (l : Location) :
    (⟨p.kind, String.ofList p.lexeme, l⟩ : Token).raw = p.raw := by
  unfold Token.raw Piece.raw
  split <;> simp_all

theorem Laid.place_append {ps : List Piece} (hne : ∀ p ∈ ps, p.raw ≠ []) {l : Location}
    {ts : Tokens} {text : List Char} (h : Laid (l.after (ps.flatMap Piece.raw)) ts text) :
    Laid l (Piece.place l ps ++ ts) (ps.flatMap Piece.raw ++ text) := by
  induction ps generalizing l with
  | nil => exact h
  | cons p ps ih =>
      rw [List.flatMap_cons, Location.after_append] at h
      have hrest := ih (fun q hq => hne q (List.mem_cons_of_mem p hq)) h
      have hraw := Piece.raw_mk p l
      rw [List.flatMap_cons, List.append_assoc, ← hraw, Piece.place, List.cons_append]
      apply Laid.token
      · rfl
      · rw [hraw]
        exact hne p List.mem_cons_self
      · rw [hraw]
        exact hrest

/-- Every piece of a step takes some of the text. -/
theorem Cut.raw_ne_nil_of_mem {c : Char} {text : List Char} {p : Piece}
    (h : p ∈ (Cut.ofText c text).pieces) : p.raw ≠ [] := by
  revert p
  unfold ofText operator increment string char word number
  simp only
  repeat' split
  all_goals simp_all [one, Piece.raw, wordKind]
  all_goals (try split) <;> simp

/-- The lexer's answer describes the text it was given. -/
theorem Laid.scan (l : Location) (text : List Char) : Laid l (Token.scan l text) text := by
  fun_induction Token.scan l text with
  | case1 => exact .done
  | case2 l c text hblank ih => exact .blank hblank ih
  | case3 l c text hblank cut ih =>
      have h := Laid.place_append (fun p hp => Cut.raw_ne_nil_of_mem hp) ih
      have hraw : cut.pieces.flatMap Piece.raw ++ cut.rest = c :: text :=
        Cut.raw_append_rest c text
      rwa [hraw] at h

/-- Every token stands for a stretch of the text, and its place is that behind the text before. -/
theorem Laid.exists_split_of_mem {l : Location} {ts : Tokens} {text : List Char}
    (h : Laid l ts text) {t : Token} (ht : t ∈ ts) :
    ∃ before after, text = before ++ t.raw ++ after ∧ t.raw ≠ [] ∧
      t.location = l.after before := by
  induction h with
  | done => cases ht
  | @blank l c ts text _ _ ih =>
      obtain ⟨before, after, rfl, hne, hlocation⟩ := ih ht
      exact ⟨c :: before, after, rfl, hne, hlocation⟩
  | @token l u ts text hu hne _ ih =>
      rcases List.mem_cons.mp ht with rfl | ht
      · exact ⟨[], text, rfl, hne, hu⟩
      · obtain ⟨before, after, rfl, htne, hlocation⟩ := ih ht
        exact ⟨u.raw ++ before, after, by simp, htne, by rw [hlocation, Location.after_append]⟩

theorem exists_split_of_mem_ofText {source : String} {t : Token} (ht : t ∈ Token.ofText source) :
    ∃ before after, source.toList = before ++ t.raw ++ after ∧ t.raw ≠ [] ∧
      t.location = Location.behind before := by
  obtain ⟨before, after, htext, hne, hlocation⟩ :=
    (Laid.scan .start source.toList).exists_split_of_mem ht
  exact ⟨before, after, htext, hne, by rw [hlocation, Location.after_start]⟩

/-! ### Reading order -/

namespace Location

theorem le_refl (l : Location) : l.le l = true := by simp [le]

theorem le_trans {a b c : Location} (hab : a.le b = true) (hbc : b.le c = true) :
    a.le c = true := by
  simp only [le, Bool.or_eq_true, decide_eq_true_eq, Bool.and_eq_true, beq_iff_eq] at hab hbc ⊢
  omega

theorem le_step (l : Location) (c : Char) : l.le (l.step c) = true := by
  by_cases h : c = '\n' <;> simp [step, newline, advance, le, h]

theorem le_after (l : Location) (text : List Char) : l.le (l.after text) = true := by
  induction text generalizing l with
  | nil => exact le_refl l
  | cons c text ih => exact le_trans (le_step l c) (ih _)

end Location

/-- The tokens come in reading order. -/
theorem Laid.pairwise {l : Location} {ts : Tokens} {text : List Char} (h : Laid l ts text) :
    (ts.map Token.location).Pairwise fun a b => a.le b = true := by
  induction h with
  | done => exact List.Pairwise.nil
  | blank _ _ ih => exact ih
  | @token l t ts text hlocation _ hbehind ih =>
      refine List.Pairwise.cons (fun l' hl' => ?_) ih
      obtain ⟨u, hu, rfl⟩ := List.mem_map.mp hl'
      obtain ⟨before, after, -, -, hplace⟩ := hbehind.exists_split_of_mem hu
      rw [hlocation, hplace]
      exact Location.le_trans (Location.le_after l t.raw) (Location.le_after _ before)

/-! ### The blanks in between -/

/-- Every gap with the text behind it. -/
def interleave (gaps texts : List (List Char)) : List Char :=
  (List.zipWith (· ++ ·) gaps texts).flatten

@[simp] theorem interleave_nil (texts : List (List Char)) : interleave [] texts = [] := by
  simp [interleave]

@[simp] theorem interleave_cons (g w : List Char) (gaps texts : List (List Char)) :
    interleave (g :: gaps) (w :: texts) = g ++ w ++ interleave gaps texts := by
  simp [interleave]

/-- The blanks of a layout, one text of them in front of every token and one at the end. -/
theorem Laid.exists_gaps {l : Location} {ts : Tokens} {text : List Char} (h : Laid l ts text) :
    ∃ (gaps : List (List Char)) (last : List Char),
      gaps.length = ts.length ∧ (∀ g ∈ gaps, Blank g) ∧ Blank last ∧
      text = interleave gaps (ts.map Token.raw) ++ last ∧
      ∀ (i : Nat) (t : Token), ts[i]? = some t → ∃ gap, gaps[i]? = some gap ∧ t.raw ≠ [] ∧
        t.location = l.after (interleave (gaps.take i) (ts.map Token.raw) ++ gap) := by
  induction h with
  | done => exact ⟨[], [], rfl, by simp, by simp [Blank], rfl, by simp⟩
  | @blank l c ts text hc _ ih =>
      obtain ⟨gaps, last, hlen, hgaps, hlast, rfl, hplace⟩ := ih
      -- The blank joins the first gap; without tokens it joins the end.
      cases gaps with
      | nil =>
          obtain rfl : ts = [] := List.length_eq_zero_iff.mp hlen.symm
          refine ⟨[], c :: last, rfl, by simp, ?_, by simp, by simp⟩
          intro d hd
          rcases List.mem_cons.mp hd with rfl | hd
          · exact hc
          · exact hlast d hd
      | cons g gaps =>
          obtain ⟨u, us, rfl⟩ : ∃ u us, ts = u :: us := by
            cases ts with
            | nil => simp at hlen
            | cons u us => exact ⟨u, us, rfl⟩
          refine ⟨(c :: g) :: gaps, last, by simpa using hlen, ?_, hlast, by simp, ?_⟩
          · intro g' hg' d hd
            rcases List.mem_cons.mp hg' with rfl | hg'
            · rcases List.mem_cons.mp hd with rfl | hd
              · exact hc
              · exact hgaps g List.mem_cons_self d hd
            · exact hgaps g' (List.mem_cons_of_mem g hg') d hd
          · intro i t ht
            obtain ⟨gap, hgap, hne, hloc⟩ := hplace i t ht
            cases i with
            | zero =>
                obtain rfl : g = gap := by simpa using hgap
                exact ⟨c :: g, rfl, hne, by simpa using hloc⟩
            | succ i => exact ⟨gap, by simpa using hgap, hne, by simpa using hloc⟩
  | @token l t ts text ht hne _ ih =>
      obtain ⟨gaps, last, hlen, hgaps, hlast, rfl, hplace⟩ := ih
      refine ⟨[] :: gaps, last, by simpa using hlen, ?_, hlast, by simp, ?_⟩
      · intro g hg
        rcases List.mem_cons.mp hg with rfl | hg
        · simp [Blank]
        · exact hgaps g hg
      · intro i u hu
        cases i with
        | zero =>
            obtain rfl : t = u := by simpa using hu
            exact ⟨[], rfl, hne, by simpa using ht⟩
        | succ i =>
            obtain ⟨gap, hgap, hune, hloc⟩ := hplace i u (by simpa using hu)
            refine ⟨gap, by simpa using hgap, hune, ?_⟩
            rw [hloc]
            simp [Location.after_append]

theorem exists_gaps_ofText (source : String) :
    ∃ (gaps : List (List Char)) (last : List Char),
      gaps.length = (Token.ofText source).length ∧ (∀ g ∈ gaps, Blank g) ∧ Blank last ∧
      source.toList = interleave gaps ((Token.ofText source).map Token.raw) ++ last ∧
      ∀ (i : Nat) (t : Token), (Token.ofText source)[i]? = some t →
        ∃ gap, gaps[i]? = some gap ∧ t.raw ≠ [] ∧
          t.location = Location.behind
            (interleave (gaps.take i) ((Token.ofText source).map Token.raw) ++ gap) := by
  obtain ⟨gaps, last, hlen, hgaps, hlast, htext, hplace⟩ :=
    (Laid.scan .start source.toList).exists_gaps
  refine ⟨gaps, last, hlen, hgaps, hlast, htext, ?_⟩
  intro i t ht
  obtain ⟨gap, hgap, hne, hloc⟩ := hplace i t ht
  exact ⟨gap, hgap, hne, by rw [hloc, Location.after_start]; rfl⟩

/-- A source text is its tokens as they were written, none of them empty, with blanks around them,
and every token stands at the place that the text before it leads to. -/
theorem exists_gaps_lex (cache : TextCache) (source : String) :
    ∃ (gaps : List (List Char)) (last : List Char),
      gaps.length = (cache.lex source).1.tokens.length ∧ (∀ g ∈ gaps, Blank g) ∧ Blank last ∧
      source.toList = interleave gaps ((cache.lex source).1.tokens.map Token.raw) ++ last ∧
      ∀ (i : Nat) (t : Token), (cache.lex source).1.tokens[i]? = some t →
        ∃ gap, gaps[i]? = some gap ∧ t.raw ≠ [] ∧
          t.location = Location.behind
            (interleave (gaps.take i) ((cache.lex source).1.tokens.map Token.raw) ++ gap) := by
  rw [TextCache.lex_eq]
  exact exists_gaps_ofText source

end LessonCheck
