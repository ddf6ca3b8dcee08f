import LessonCheck.Proofs.Token.Survey

/-!
Reading by number. The checks are written over what stands in front of a token and behind it, and
cannot miss a place. Here is the other way to read: by token numbers and byte offsets, where every
subtraction, every access and every slice has a condition to meet and answers with a fault when it
is not met. A check that is written this way and gives the same result never meets a fault; the laws
below say when the single operations do not.
-/

namespace LessonCheck

/-- What an access by number can fail at. -/
inductive AccessFault
  | underflow (minuend amount : Nat)
  | noToken (i : Nat)
  | noSlice (first last : Nat)
  /-- A reader goes round without having read anything. -/
  | noProgress
  deriving DecidableEq

/-- A computation that ends at the first fault. -/
abbrev Checked (α : Type) := Except AccessFault α

namespace Checked

variable {α β : Type}

@[simp] theorem ok_bind (a : α) (next : α → Checked β) : (Except.ok a >>= next) = next a := rfl

@[simp] theorem pure_eq (a : α) : (pure a : Checked α) = .ok a := rfl

theorem ite_ok (c : Prop) [Decidable c] (a b : α) :
    (if c then .ok a else .ok b : Checked α) = .ok (if c then a else b) :=
  (apply_ite Except.ok c a b).symm

theorem mapM_eq_ok {f : α → Checked β} {g : α → β} {items : List α}
    (h : ∀ a ∈ items, f a = .ok (g a)) : items.mapM f = .ok (items.map g) := by
  induction items with
  | nil => rfl
  | cons a items ih =>
      have hitems := ih fun b hb => h b (List.mem_cons_of_mem a hb)
      rw [List.mapM_cons, h a List.mem_cons_self, hitems]
      rfl

def difference (n amount : Nat) : Checked Nat :=
  if amount ≤ n then .ok (n - amount) else .error (.underflow n amount)

theorem difference_eq_ok_iff {n amount d : Nat} : difference n amount = .ok d ↔ d + amount = n := by
  unfold difference
  split
  · simp only [Except.ok.injEq]
    omega
  · simp only [reduceCtorEq, false_iff]
    omega

@[simp] theorem difference_add (n amount : Nat) : difference (n + amount) amount = .ok n :=
  difference_eq_ok_iff.mpr rfl

end Checked

/-! ### Tokens by number -/

namespace Tokens

def tokenAt (ts : Tokens) (i : Nat) : Checked Token :=
  match ts[i]? with
  | some t => .ok t
  | none => .error (.noToken i)

theorem tokenAt_eq_ok_iff {ts : Tokens} {i : Nat} {t : Token} :
    ts.tokenAt i = .ok t ↔ ts[i]? = some t := by
  unfold tokenAt
  cases ts[i]? <;> simp

theorem tokenAt_append (front : Tokens) (t : Token) (rest : Tokens) :
    tokenAt (front ++ t :: rest) front.length = .ok t :=
  tokenAt_eq_ok_iff.mpr (by simp)

theorem getElem?_behind (front : Tokens) (t : Token) (rest : Tokens) (n : Nat) :
    (front ++ t :: rest)[front.length + 1 + n]? = rest[n]? := by
  have hplace : front.length + 1 + n - front.length = n + 1 := by omega
  rw [List.getElem?_append_right (by omega), hplace, List.getElem?_cons_succ]

theorem hasKindAt_behind (front : Tokens) (t : Token) (rest : Tokens) (kind : Token.Kind) :
    hasKindAt (front ++ t :: rest) (front.length + 1) kind = rest[0]?.any (·.kind = kind) := by
  have hnext := getElem?_behind front t rest 0
  rw [Nat.add_zero] at hnext
  rw [hasKindAt, kind?, hnext]
  cases rest <;> simp

/-- The tokens from number `first` up to number `last`, which is excluded. -/
def slice (ts : Tokens) (first last : Nat) : Checked Tokens :=
  if first ≤ last ∧ last ≤ ts.length then .ok ((ts.take last).drop first)
  else .error (.noSlice first last)

theorem slice_eq_ok_iff {ts inside : Tokens} {first last : Nat} :
    ts.slice first last = .ok inside ↔ ∃ front rest, ts = front ++ inside ++ rest ∧
      front.length = first ∧ first + inside.length = last := by
  unfold slice
  constructor
  · intro h
    split at h
    · next hbounds =>
        obtain ⟨hfirst, hlast⟩ := hbounds
        cases h
        refine ⟨ts.take first, ts.drop last, ?_, List.length_take_of_le (by omega), ?_⟩
        · have hfront : (ts.take last).take first = ts.take first := by
            rw [List.take_take, Nat.min_eq_left hfirst]
          rw [← hfront, List.take_append_drop, List.take_append_drop]
        · rw [List.length_drop, List.length_take_of_le hlast]
          omega
    · cases h
  · rintro ⟨front, rest, rfl, rfl, rfl⟩
    rw [if_pos ⟨Nat.le_add_right _ _, by simp⟩, ← List.length_append, List.take_left,
      List.drop_left]

/-- The token in front of number `i`, if there is one. -/
def before (ts : Tokens) (i : Nat) : Checked (Option Token) :=
  if 0 < i then do
    let previous ← Checked.difference i 1
    return ts[previous]?
  else return none

theorem before_append (front rest : Tokens) :
    before (front ++ rest) front.length = .ok front.getLast? := by
  unfold before
  rcases List.eq_nil_or_concat front with rfl | ⟨front, t, rfl⟩
  · rfl
  · simp [Checked.ok_bind]

/-- What `look` finds at the numbers of `ts`, in order, when `ts` begins at number `i`. -/
def walkFrom {α : Type} (look : Nat → Token → Checked (List α)) :
    Nat → Tokens → Checked (List α)
  | _, [] => .ok []
  | i, t :: rest => do
    let here ← look i t
    let behind ← walkFrom look (i + 1) rest
    return here ++ behind

def walk {α : Type} (look : Nat → Token → Checked (List α)) (ts : Tokens) : Checked (List α) :=
  walkFrom look 0 ts

/-- A walk by number finds what a survey finds, if it does at every place. -/
theorem walkFrom_eq_survey {α : Type} {lookAt : Nat → Token → Checked (List α)}
    {look : Option Token → Token → Tokens → List α} {start : Nat} {ts : Tokens}
    (h : ∀ front t rest, ts = front ++ t :: rest →
      lookAt (start + front.length) t = .ok (look front.getLast? t rest)) :
    walkFrom lookAt start ts = .ok (ts.survey look) := by
  suffices hfrom : ∀ front rest, ts = front ++ rest →
      walkFrom lookAt (start + front.length) rest = .ok (surveyFrom look front.getLast? rest) from
    hfrom [] ts rfl
  intro front rest
  induction rest generalizing front with
  | nil => exact fun _ => rfl
  | cons t rest ih =>
      intro hts
      have hbehind := ih (front ++ [t]) (by simpa using hts)
      rw [List.getLast?_concat, List.length_append, List.length_singleton] at hbehind
      rw [walkFrom, h front t rest hts, Nat.add_assoc, hbehind]
      rfl

theorem walk_eq_survey {α : Type} {lookAt : Nat → Token → Checked (List α)}
    {look : Option Token → Token → Tokens → List α} {ts : Tokens}
    (h : ∀ front t rest, ts = front ++ t :: rest →
      lookAt front.length t = .ok (look front.getLast? t rest)) :
    ts.walk lookAt = .ok (ts.survey look) := by
  refine walkFrom_eq_survey fun front t rest hts => ?_
  rw [Nat.zero_add]
  exact h front t rest hts

end Tokens

/-! ### Text by offset -/

/-- The number of bytes of a text. -/
def byteLength : List Char → Nat
  | [] => 0
  | c :: text => c.utf8Size + byteLength text

@[simp] theorem byteLength_nil : byteLength [] = 0 := rfl

@[simp] theorem byteLength_cons (c : Char) (text : List Char) :
    byteLength (c :: text) = c.utf8Size + byteLength text := rfl

@[simp] theorem byteLength_append (a b : List Char) :
    byteLength (a ++ b) = byteLength a + byteLength b := by
  induction a with
  | nil => simp
  | cons c a ih => rw [List.cons_append, byteLength_cons, ih, byteLength_cons, Nat.add_assoc]

/-- Splits a text behind its first `n` bytes, unless a character stands across that place. -/
def splitBytes? : Nat → List Char → Option (List Char × List Char)
  | 0, text => some ([], text)
  | _ + 1, [] => none
  | n + 1, c :: text =>
    if c.utf8Size ≤ n + 1 then
      (splitBytes? (n + 1 - c.utf8Size) text).map fun parts => (c :: parts.1, parts.2)
    else none

theorem splitBytes?_append (a b : List Char) :
    splitBytes? (byteLength a) (a ++ b) = some (a, b) := by
  induction a with
  | nil => cases b <;> rfl
  | cons c a ih =>
      have hpos := c.utf8Size_pos
      obtain ⟨n, hn⟩ : ∃ n, c.utf8Size + byteLength a = n + 1 :=
        Nat.exists_eq_add_one.mpr (by omega)
      have hrest : n + 1 - c.utf8Size = byteLength a := by omega
      rw [byteLength_cons, hn, List.cons_append, splitBytes?, if_pos (by omega), hrest, ih]
      rfl

theorem eq_of_splitBytes? {n : Nat} {text a b : List Char} (h : splitBytes? n text = some (a, b)) :
    text = a ++ b ∧ byteLength a = n := by
  induction text generalizing n a with
  | nil =>
      cases n with
      | zero =>
          cases h
          exact ⟨rfl, rfl⟩
      | succ n => cases h
  | cons c text ih =>
      cases n with
      | zero =>
          cases h
          exact ⟨rfl, rfl⟩
      | succ n =>
          rw [splitBytes?] at h
          split at h
          · next hsize =>
              obtain ⟨⟨a', b'⟩, hparts, heq⟩ := Option.map_eq_some_iff.mp h
              cases heq
              obtain ⟨rfl, hlength⟩ := ih hparts
              refine ⟨rfl, ?_⟩
              rw [byteLength_cons, hlength]
              omega
          · cases h

/-- The text from offset `first` up to offset `last`. -/
def sliceText (text : List Char) (first last : Nat) : Checked (List Char) :=
  match splitBytes? last text with
  | none => .error (.noSlice first last)
  | some (upTo, _) =>
    match splitBytes? first upTo with
    | none => .error (.noSlice first last)
    | some (_, inside) => .ok inside

/-- A slice is taken between two places that no character stands across. -/
theorem sliceText_eq_ok_iff {text inside : List Char} {first last : Nat} :
    sliceText text first last = .ok inside ↔ ∃ before after, text = before ++ inside ++ after ∧
      byteLength before = first ∧ first + byteLength inside = last := by
  unfold sliceText
  constructor
  · intro h
    split at h
    · cases h
    · next upTo after hlast =>
        split at h
        · cases h
        · next before _ hfirst =>
            cases h
            obtain ⟨rfl, rfl⟩ := eq_of_splitBytes? hlast
            obtain ⟨rfl, rfl⟩ := eq_of_splitBytes? hfirst
            exact ⟨before, after, rfl, rfl, (byteLength_append _ _).symm⟩
  · rintro ⟨before, after, rfl, rfl, rfl⟩
    have hlast := splitBytes?_append (before ++ inside) after
    rw [byteLength_append] at hlast
    have hfirst := splitBytes?_append before inside
    simp only [hlast, hfirst]

end LessonCheck
