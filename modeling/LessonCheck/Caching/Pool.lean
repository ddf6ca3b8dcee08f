import Std.Data.HashMap

/-!
A pool of texts. Asked for a text that it holds, a pool that caches hands out the stored copy once
more; otherwise a new copy is made. Copies are told apart by their number, and the numbers follow
the order in which the copies were made. The type carries what makes the numbers reliable: a
stored copy has been made before, and no two texts have the same one.
-/

namespace LessonCheck

/-- A text as the pool hands it out. -/
structure Interned where
  text : String
  /-- The number of the copy; two results share storage exactly if it is the same. -/
  copy : Nat
  deriving DecidableEq

structure Pool where
  caching : Bool
  copies : Std.HashMap String Nat
  /-- How many copies have been made so far. -/
  made : Nat
  made_before : ∀ (text : String) (copy : Nat), copies[text]? = some copy → copy < made
  distinct : ∀ (a b : String) (copy : Nat),
    copies[a]? = some copy → copies[b]? = some copy → a = b

namespace Pool

def new (caching : Bool) : Pool := ⟨caching, ∅, 0, by simp, by simp⟩

/-- Makes a copy that the pool does not keep. -/
def makeCopy (p : Pool) : Pool where
  caching := p.caching
  copies := p.copies
  made := p.made + 1
  made_before := fun text copy h => Nat.lt_succ_of_lt (p.made_before text copy h)
  distinct := p.distinct

/-- Makes a copy of `text` and keeps it. -/
def keepCopy (p : Pool) (text : String) : Pool where
  caching := p.caching
  copies := p.copies.insert text p.made
  made := p.made + 1
  made_before := by
    intro other copy h
    rw [Std.HashMap.getElem?_insert] at h
    split at h
    · cases h
      exact Nat.lt_succ_self _
    · exact Nat.lt_succ_of_lt (p.made_before other copy h)
  distinct := by
    intro a b copy ha hb
    rw [Std.HashMap.getElem?_insert] at ha hb
    split at ha <;> split at hb
    · next sameA sameB => rw [← eq_of_beq sameA, ← eq_of_beq sameB]
    · cases ha
      exact absurd (p.made_before b _ hb) (Nat.lt_irrefl _)
    · cases hb
      exact absurd (p.made_before a _ ha) (Nat.lt_irrefl _)
    · exact p.distinct a b copy ha hb

def intern (p : Pool) (text : String) : Interned × Pool :=
  if p.caching then
    match p.copies[text]? with
    | some copy => (⟨text, copy⟩, p)
    | none => (⟨text, p.made⟩, p.keepCopy text)
  else (⟨text, p.made⟩, p.makeCopy)

/-- The number of texts that the pool holds. -/
def size (p : Pool) : Nat := p.copies.size

@[simp] theorem text_intern (p : Pool) (text : String) : (p.intern text).1.text = text := by
  unfold intern
  split
  · split <;> rfl
  · rfl

@[simp] theorem caching_intern (p : Pool) (text : String) :
    (p.intern text).2.caching = p.caching := by
  unfold intern
  split
  · split <;> rfl
  · rfl

end Pool

end LessonCheck
