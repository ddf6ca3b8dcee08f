import LessonCheck.Proofs.Settings.Notation
import LessonCheck.Settings.Reading
import Mathlib.Data.List.Nodup

/-!
Written settings read back. A document gives values to some of the keys, each on lines of its own,
and the order of the keys does not matter: every line puts its value into the field of its key and
leaves the others as they are, so the lines of different keys can change places. Only when all
values are in is the range looked at; an end that is given may make the range empty together with an
end that is not.
-/

namespace LessonCheck.Settings

/-- One key with a value for it. -/
inductive Setting
  | checkCharRange (value : Bool)
  | firstChar (value : Char)
  | lastChar (value : Char)
  | checkStringMethods (value : Bool)
  | internLiterals (value : Bool)
  deriving DecidableEq

namespace Setting

def key : Setting → String
  | .checkCharRange _ => charRangeKey
  | .firstChar _ => firstCharKey
  | .lastChar _ => lastCharKey
  | .checkStringMethods _ => stringMethodsKey
  | .internLiterals _ => internKey

def value : Setting → Value
  | .checkCharRange b | .checkStringMethods b | .internLiterals b => .bool b
  | .firstChar c | .lastChar c => .text [c]

def entry (e : Setting) : Entry := ⟨e.key.toList, e.value⟩

/-- The value as it is written. -/
def written : Setting → List Char
  | .checkCharRange b | .checkStringMethods b | .internLiterals b => writeBool b
  | .firstChar c | .lastChar c => writeChar c

def line (e : Setting) : List Char := writeLine e.key e.written

/-- Puts the value in the place of the present one. -/
def put (s : Settings) : Setting → Settings
  | .checkCharRange b => { s with checkCharRange := b }
  | .firstChar c => { s with charRange.first := c }
  | .lastChar c => { s with charRange.last := c }
  | .checkStringMethods b => { s with checkStringMethods := b }
  | .internLiterals b => { s with internLiterals := b }

theorem set?_entry (s : Settings) (e : Setting) : s.set? e.entry = some (put s e) := by
  cases e <;> simp [set?, entry, value, key, put, charRangeKey, firstCharKey, lastCharKey,
    stringMethodsKey, internKey]

theorem foldlM_set? (es : List Setting) (s : Settings) :
    (es.map entry).foldlM set? s = some (es.foldl put s) := by
  induction es generalizing s with
  | nil => rfl
  | cons e es ih =>
      rw [List.map_cons, List.foldlM_cons, set?_entry, Option.bind_eq_bind, Option.bind_some, ih,
        List.foldl_cons]

/-- Settings of different keys do not get in each other's way. -/
theorem put_comm {e f : Setting} (h : e.key ≠ f.key) (s : Settings) :
    put (put s e) f = put (put s f) e := by
  cases e <;> cases f <;> first | rfl | exact absurd rfl h

/-- In what order settings of different keys are put in does not matter. -/
theorem foldl_put_of_perm {es fs : List Setting} (h : es.Perm fs) (hkeys : (es.map key).Nodup)
    (s : Settings) : es.foldl put s = fs.foldl put s := by
  refine h.foldl_eq' (fun e he f hf s => ?_) s
  by_cases hkey : e.key = f.key
  · rw [List.inj_on_of_nodup_map hkeys he hf hkey]
  · exact put_comm hkey s

/-! ### The text of a setting -/

theorem isBareKey_key (e : Setting) : isBareKey e.key.toList = true := by
  have hkeys : [charRangeKey, firstCharKey, lastCharKey, stringMethodsKey, internKey].all
      (fun key => isBareKey key.toList) = true := by
    decide
  refine List.all_eq_true.mp hkeys e.key ?_
  cases e <;> simp [key]

theorem value?_written (e : Setting) (rest : List Char) :
    value? (e.written ++ '\n' :: rest) = some (e.value, '\n' :: rest) := by
  cases e with
  | checkCharRange b | checkStringMethods b | internLiterals b => exact value?_writeBool b _
  | firstChar c | lastChar c => exact value?_writeChar c rest

theorem line?_line (e : Setting) (rest : List Char) :
    line? (e.line ++ rest) = some ([e.entry], rest) :=
  line?_writeLine e.isBareKey_key (e.value?_written rest)

theorem entries?_lines (es : List Setting) :
    entries? (es.flatMap line) = some (es.map entry) := by
  induction es with
  | nil => rw [List.flatMap_nil, entries?.eq_def, dif_pos rfl, List.map_nil]
  | cons e es ih =>
      have hne : e.line ++ es.flatMap line ≠ [] := by simp [line, writeLine]
      rw [List.flatMap_cons, entries?.eq_def, dif_neg hne]
      split
      · next hnone =>
          rw [line?_line] at hnone
          cases hnone
      · next found rest hsome =>
          rw [line?_line] at hsome
          cases hsome
          rw [ih]
          rfl

theorem return_not_mem_line (e : Setting) : '\r' ∉ e.line := by
  have hkey : '\r' ∉ e.key.toList := fun hmem =>
    absurd (isBareKeyChar_of_mem e.isBareKey_key hmem) (by decide)
  have hwritten : '\r' ∉ e.written := by
    cases e with
    | checkCharRange b | checkStringMethods b | internLiterals b => exact return_not_mem_writeBool b
    | firstChar c | lastChar c => exact return_not_mem_writeChar c
  simp [line, writeLine, hkey, hwritten]

end Setting

/-! ### Documents -/

theorem unifyLineEnds_of_not_mem {text : List Char} (h : '\r' ∉ text) :
    unifyLineEnds text = text := by
  induction text with
  | nil => rfl
  | cons c text ih =>
      rw [List.mem_cons, not_or] at h
      rw [unifyLineEnds, ih h.2]
      exact fun rest heq => absurd heq.symm h.1

theorem dropMark_lines (es : List Setting) :
    dropMark (es.flatMap Setting.line) = es.flatMap Setting.line := by
  cases es with
  | nil => rfl
  | cons e es =>
      obtain ⟨c, chars, heq, hc⟩ := exists_of_isBareKey e.isBareKey_key
      have hmark : c ≠ '\ufeff' := by
        rintro rfl
        exact absurd hc (by decide)
      rw [List.flatMap_cons, Setting.line, writeLine, heq]
      unfold dropMark
      split
      · next hcons => exact absurd (List.cons.inj hcons).1 hmark
      · rfl

theorem document?_lines (es : List Setting) :
    document? (String.ofList (es.flatMap Setting.line)) = some (es.map Setting.entry) := by
  have hreturn : '\r' ∉ es.flatMap Setting.line := fun hmem => by
    obtain ⟨e, -, he⟩ := List.mem_flatMap.mp hmem
    exact e.return_not_mem_line he
  rw [document?, String.toList_ofList, dropMark_lines, unifyLineEnds_of_not_mem hreturn,
    Setting.entries?_lines]

theorem nodup_key_entry {es : List Setting} :
    ((es.map Setting.entry).map (·.key)).Nodup ↔ (es.map Setting.key).Nodup := by
  have hmap : (es.map Setting.entry).map (·.key) = (es.map Setting.key).map String.toList := by
    simp [Setting.entry]
  rw [hmap]
  exact List.nodup_map_iff fun a b hab => String.toList_inj.mp hab

theorem overlay?_entries {es : List Setting} (h : (es.map Setting.key).Nodup) :
    overlay? (es.map Setting.entry) = some (es.foldl Setting.put standard) := by
  rw [overlay?, if_pos (nodup_key_entry.mpr h), Setting.foldlM_set?]

theorem ofDocument_entries {text : String} {es : List Setting}
    (hdocument : document? text = some (es.map Setting.entry)) (h : (es.map Setting.key).Nodup) :
    ofDocument text = (es.foldl Setting.put standard).validate := by
  rw [ofDocument, hdocument, Option.bind_some, overlay?_entries h]

/-- The lines of a document with different keys are read one after the other. -/
theorem ofDocument_lines {es : List Setting} (h : (es.map Setting.key).Nodup) :
    ofDocument (String.ofList (es.flatMap Setting.line)) =
      (es.foldl Setting.put standard).validate :=
  ofDocument_entries (document?_lines es) h

/-! ### Which keys are given -/

/-- The values that a document gives, each for one key. -/
structure Choice where
  checkCharRange : Option Bool
  firstChar : Option Char
  lastChar : Option Char
  checkStringMethods : Option Bool
  internLiterals : Option Bool

namespace Choice

def settings (c : Choice) : List Setting :=
  c.checkCharRange.toList.map .checkCharRange ++ c.firstChar.toList.map .firstChar ++
    c.lastChar.toList.map .lastChar ++ c.checkStringMethods.toList.map .checkStringMethods ++
    c.internLiterals.toList.map .internLiterals

/-- The standard settings, with the given values in the place of theirs. -/
def overlay (c : Choice) : Settings where
  checkCharRange := c.checkCharRange.getD standard.checkCharRange
  charRange :=
    ⟨c.firstChar.getD standard.charRange.first, c.lastChar.getD standard.charRange.last⟩
  checkStringMethods := c.checkStringMethods.getD standard.checkStringMethods
  internLiterals := c.internLiterals.getD standard.internLiterals

theorem sublist_key {α : Type} (value : Option α) (setting : α → Setting) (key : String)
    (h : ∀ a, (setting a).key = key) :
    ((value.toList.map setting).map Setting.key).Sublist [key] := by
  cases value with
  | none => exact List.nil_sublist _
  | some a => simp [h a]

theorem nodup_keys (c : Choice) : (c.settings.map Setting.key).Nodup := by
  have hkeys : [charRangeKey, firstCharKey, lastCharKey, stringMethodsKey, internKey].Nodup := by
    decide
  refine hkeys.sublist ?_
  simp only [settings, List.map_append]
  have hrange := sublist_key c.checkCharRange .checkCharRange charRangeKey fun _ => rfl
  have hfirst := sublist_key c.firstChar .firstChar firstCharKey fun _ => rfl
  have hlast := sublist_key c.lastChar .lastChar lastCharKey fun _ => rfl
  have hmethods := sublist_key c.checkStringMethods .checkStringMethods stringMethodsKey
    fun _ => rfl
  have hintern := sublist_key c.internLiterals .internLiterals internKey fun _ => rfl
  exact (((hrange.append hfirst).append hlast).append hmethods).append hintern

theorem foldl_put (c : Choice) : c.settings.foldl Setting.put standard = c.overlay := by
  rcases c with ⟨_ | _, _ | _, _ | _, _ | _, _ | _⟩ <;> rfl

/-- The choice that gives every key the value it has in `s`. -/
def all (s : Settings) : Choice :=
  ⟨s.checkCharRange, s.charRange.first, s.charRange.last, s.checkStringMethods, s.internLiterals⟩

theorem overlay_all (s : Settings) : (all s).overlay = s := rfl

end Choice

theorem toDocument_eq (s : Settings) :
    s.toDocument = String.ofList ((Choice.all s).settings.flatMap Setting.line) := by
  simp [toDocument, Choice.all, Choice.settings, Setting.line, Setting.key, Setting.written]

theorem validate_eq (s : Settings) : s.validate =
    if s.charRange.last < s.charRange.first then .error (.emptyCharRange s.charRange)
    else .ok s := by
  simp [validate, CharRange.isEmpty]

theorem ofDocument_choice {c : Choice} {es : List Setting} (h : es.Perm c.settings) :
    ofDocument (String.ofList (es.flatMap Setting.line)) = c.overlay.validate := by
  have hkeys : (es.map Setting.key).Nodup := (h.map Setting.key).nodup_iff.mpr c.nodup_keys
  rw [ofDocument_lines hkeys, Setting.foldl_put_of_perm h hkeys, c.foldl_put]

/-- Settings that are written are read back, whatever characters their range has; and so is what a
document says that gives some of the keys, in any order. The answer is the range alone where that is
empty, be it given whole or with one end from the standard settings. -/
theorem written_readBack :
    (∀ s : Settings, ofDocument s.toDocument =
      if s.charRange.last < s.charRange.first then .error (.emptyCharRange s.charRange)
      else .ok s) ∧
    ∀ (c : Choice) (es : List Setting), es.Perm c.settings →
      ofDocument (String.ofList (es.flatMap Setting.line)) =
        if c.overlay.charRange.last < c.overlay.charRange.first then
          .error (.emptyCharRange c.overlay.charRange)
        else .ok c.overlay := by
  refine ⟨fun s => ?_, fun c es h => ?_⟩
  · rw [toDocument_eq, ofDocument_choice (List.Perm.refl _), Choice.overlay_all, validate_eq]
  · rw [ofDocument_choice h, validate_eq]

/-- Two keys in the other order, one of them with a quote for its value; and the first end of the
range alone, with a character behind the last one of the standard range. -/
theorem written_readBack_some :
    ofDocument (String.ofList
      ([.internLiterals false, .firstChar '"'].flatMap Setting.line)) =
        .ok ⟨true, ⟨'"', 'z'⟩, true, false⟩ ∧
    ofDocument (String.ofList ([.firstChar '~'].flatMap Setting.line)) =
      .error (.emptyCharRange ⟨'~', 'z'⟩) :=
  ⟨(written_readBack.2 ⟨none, some '"', none, none, some false⟩ _ (by decide)).trans (by decide),
    (written_readBack.2 ⟨none, some '~', none, none, none⟩ _ (by decide)).trans (by decide)⟩

end LessonCheck.Settings
