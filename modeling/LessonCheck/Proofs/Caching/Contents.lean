import LessonCheck.Caching.EscapeMemo
import LessonCheck.Caching.Pool
import Mathlib.Data.Finset.Card

/-!
What the two parts of a text cache hold after a row of uses. A pool that caches holds one copy for
each text it has been asked for, and it is the copy that was handed out every time; one that does
not makes a new copy each time and holds none. A memory of escapes that caches knows every literal
it has looked through, and no others.
-/

namespace LessonCheck

/-! ### The pool -/

namespace Pool

/-- Asks for the texts one after the other. -/
def internAll (p : Pool) : List String → List Interned × Pool
  | [] => ([], p)
  | text :: texts =>
    let (first, p) := p.intern text
    let (others, p) := p.internAll texts
    (first :: others, p)

/-- All that can come of asking for a text. -/
inductive Interns (p : Pool) (text : String) : Interned × Pool → Prop
  | known {copy : Nat} : p.caching = true → p.copies[text]? = some copy →
      Interns p text (⟨text, copy⟩, p)
  | kept : p.caching = true → p.copies[text]? = none →
      Interns p text (⟨text, p.made⟩, p.keepCopy text)
  | made : p.caching = false → Interns p text (⟨text, p.made⟩, p.makeCopy)

theorem interns (p : Pool) (text : String) : Interns p text (p.intern text) := by
  unfold intern
  split
  · next hcaching =>
      split
      · next copy hcopy => exact .known hcaching hcopy
      · next hnone => exact .kept hcaching hnone
  · next hcaching => exact .made (Bool.eq_false_iff.mpr hcaching)

@[simp] theorem internAll_nil (p : Pool) : p.internAll [] = ([], p) := rfl

theorem internAll_cons (p : Pool) (text : String) (texts : List String) :
    p.internAll (text :: texts) =
      ((p.intern text).1 :: ((p.intern text).2.internAll texts).1,
        ((p.intern text).2.internAll texts).2) := rfl

theorem internAll_append (p : Pool) (texts more : List String) :
    p.internAll (texts ++ more) =
      ((p.internAll texts).1 ++ ((p.internAll texts).2.internAll more).1,
        ((p.internAll texts).2.internAll more).2) := by
  induction texts generalizing p with
  | nil => rfl
  | cons text texts ih =>
      rw [List.cons_append, internAll_cons, ih, internAll_cons, List.cons_append]

theorem map_text_internAll (p : Pool) (texts : List String) :
    (p.internAll texts).1.map (·.text) = texts := by
  induction texts generalizing p with
  | nil => rfl
  | cons text texts ih => rw [internAll_cons, List.map_cons, text_intern, ih]

/-- The pool holds the copies in `results` and no others, one for each text. -/
structure Holds (p : Pool) (results : List Interned) : Prop where
  copy_iff (text : String) (copy : Nat) : p.copies[text]? = some copy ↔ ⟨text, copy⟩ ∈ results
  size_eq : p.size = (results.map (·.text)).toFinset.card

section
variable {p : Pool} {results : List Interned}

theorem Holds.copy_eq_iff (h : p.Holds results) {a b : Interned} (ha : a ∈ results)
    (hb : b ∈ results) : a.copy = b.copy ↔ a.text = b.text := by
  have hacopy := (h.copy_iff a.text a.copy).mpr ha
  have hbcopy := (h.copy_iff b.text b.copy).mpr hb
  constructor
  · intro hsame
    rw [hsame] at hacopy
    exact p.distinct a.text b.text b.copy hacopy hbcopy
  · intro hsame
    rw [hsame, hbcopy] at hacopy
    exact (Option.some.inj hacopy).symm

theorem Holds.not_mem_of_none (h : p.Holds results) {text : String}
    (hnone : p.copies[text]? = none) : text ∉ results.map (·.text) := by
  intro hmem
  obtain ⟨a, ha, rfl⟩ := List.mem_map.mp hmem
  rw [(h.copy_iff a.text a.copy).mpr ha] at hnone
  cases hnone

theorem Holds.intern (h : p.Holds results) (hcaching : p.caching = true) (text : String) :
    (p.intern text).2.Holds (results ++ [(p.intern text).1]) := by
  have hstep := interns p text
  generalize p.intern text = step at hstep ⊢
  cases hstep with
  | @known copy _ hcopy =>
      have hmem := (h.copy_iff text copy).mp hcopy
      refine ⟨fun other c => ?_, ?_⟩
      · rw [h.copy_iff, List.mem_append, List.mem_singleton]
        exact ⟨Or.inl, fun hor => hor.elim id fun heq => heq ▸ hmem⟩
      · have htext : text ∈ (results.map (·.text)).toFinset :=
          List.mem_toFinset.mpr (List.mem_map_of_mem hmem)
        rw [h.size_eq, List.map_append, List.toFinset_append]
        simp [Finset.insert_eq_of_mem htext]
  | kept _ hnone =>
      have hfresh := h.not_mem_of_none hnone
      refine ⟨fun other c => ?_, ?_⟩
      · rw [keepCopy, Std.HashMap.getElem?_insert, List.mem_append, List.mem_singleton,
          Interned.mk.injEq]
        split
        · next heq =>
            obtain rfl := eq_of_beq heq
            have hnot : ⟨text, c⟩ ∉ results := fun hmem => hfresh (List.mem_map_of_mem hmem)
            simp [hnot, eq_comm]
        · next hne =>
            have hother : other ≠ text := fun heq => hne (by simp [heq])
            simp [h.copy_iff, hother]
      · have hsize : (p.keepCopy text).size = p.size + 1 := by
          rw [size, keepCopy, Std.HashMap.size_insert, if_neg (by simpa using hnone)]
          rfl
        rw [hsize, h.size_eq, List.map_append, List.toFinset_append]
        simp [Finset.card_insert_of_notMem, hfresh]
  | made hoff =>
      rw [hcaching] at hoff
      cases hoff

/-- A pool that caches holds in the end what it has handed out. -/
theorem Holds.internAll (h : p.Holds results) (hcaching : p.caching = true)
    (texts : List String) : (p.internAll texts).2.Holds (results ++ (p.internAll texts).1) := by
  induction texts generalizing p results with
  | nil => simpa using h
  | cons text texts ih =>
      have hrest := ih (h.intern hcaching text) (by rw [caching_intern, hcaching])
      rw [internAll_cons]
      simpa using hrest

theorem holds_new (caching : Bool) : (new caching).Holds [] :=
  ⟨by simp [new], by simp [new, size]⟩

/-- A pool that does not cache makes one copy after the other and holds none. -/
theorem internAll_of_not_caching (hcaching : p.caching = false) (texts : List String) :
    (p.internAll texts).1.map (·.copy) = List.range' p.made texts.length ∧
      (p.internAll texts).2.copies = p.copies := by
  induction texts generalizing p with
  | nil => exact ⟨rfl, rfl⟩
  | cons text texts ih =>
      have hintern : p.intern text = (⟨text, p.made⟩, p.makeCopy) := by simp [Pool.intern, hcaching]
      obtain ⟨hcopies, hkept⟩ := ih (p := p.makeCopy) hcaching
      rw [internAll_cons, hintern, List.map_cons, hcopies, hkept, List.length_cons,
        List.range'_succ]
      exact ⟨rfl, rfl⟩

end

end Pool

/-! ### The memory of escapes -/

namespace EscapeMemo

variable {m : EscapeMemo}

/-- Looks the literals through one after the other. -/
def lookThrough (m : EscapeMemo) : List String → EscapeMemo
  | [] => m
  | literal :: literals => (m.invalidEscapes literal).2.lookThrough literals

theorem lookThrough_append (m : EscapeMemo) (literals more : List String) :
    m.lookThrough (literals ++ more) = (m.lookThrough literals).lookThrough more := by
  induction literals generalizing m with
  | nil => rfl
  | cons literal literals ih => exact ih _

@[simp] theorem caching_invalidEscapes (m : EscapeMemo) (literal : String) :
    (m.invalidEscapes literal).2.caching = m.caching := by
  unfold invalidEscapes
  split
  · split <;> rfl
  · rfl

theorem known_invalidEscapes (hcaching : m.caching = true) (literal other : String) :
    (m.invalidEscapes literal).2.known[other]? =
      if other = literal then some (InvalidEscape.ofLiteral literal) else m.known[other]? := by
  unfold invalidEscapes
  rw [if_pos hcaching]
  split
  · next escapes hknown =>
      split
      · next heq => rw [heq, hknown, m.exact literal escapes hknown]
      · rfl
  · simp only [remember, Std.HashMap.getElem?_insert, beq_iff_eq, eq_comm (a := literal)]

/-- A memory that caches knows every literal that it has looked through. -/
theorem known_lookThrough (hcaching : m.caching = true) (literals : List String) (other : String) :
    (m.lookThrough literals).known[other]? =
      if other ∈ literals then some (InvalidEscape.ofLiteral other) else m.known[other]? := by
  induction literals generalizing m with
  | nil => rfl
  | cons literal literals ih =>
      rw [lookThrough, ih (by rw [caching_invalidEscapes, hcaching]),
        known_invalidEscapes hcaching]
      by_cases hrest : other ∈ literals
      · simp [hrest]
      · by_cases hfirst : other = literal <;> simp [hrest, hfirst]

theorem lookThrough_of_not_caching (hcaching : m.caching = false) (literals : List String) :
    m.lookThrough literals = m := by
  induction literals with
  | nil => rfl
  | cons literal literals ih => simpa [lookThrough, invalidEscapes, hcaching] using ih

end EscapeMemo

end LessonCheck
