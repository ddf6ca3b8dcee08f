import LessonCheck.Proofs.Settings.RoundTrip
import LessonCheck.Settings.Loading
import Mathlib.Data.Set.List

/-!
Why settings cannot be loaded. A path may lead to no file, or to one whose bytes are no text; a text
may be no document, give a key twice or give something that is no setting; and the range that comes
of a document may be empty. Each of these has its error, and loading fails in no other way.
-/

namespace LessonCheck

/-! ### Files and their texts -/

theorem decodeText_eq_ok_iff {bytes : ByteArray} {text : String} :
    decodeText bytes = .ok text ↔ bytes = text.toUTF8 := by
  unfold decodeText String.fromUTF8?
  split
  · next found hfound =>
      split at hfound
      · cases hfound
        simp only [Except.ok.injEq]
        exact ⟨fun h => by rw [← h]; rfl, fun h => String.toByteArray_inj.mp h⟩
      · cases hfound
  · next hnone =>
      split at hnone
      · cases hnone
      · next hinvalid =>
          refine iff_of_false (by simp) ?_
          rintro rfl
          exact hinvalid text.isValidUTF8

theorem decodeText_of_invalid {bytes : ByteArray} (h : ¬ bytes.IsValidUTF8) :
    decodeText bytes = .error .invalidText := by
  simp only [decodeText, String.fromUTF8?, dif_neg h]

theorem exists_text_of_valid {bytes : ByteArray} (h : bytes.IsValidUTF8) :
    ∃ text : String, bytes = text.toUTF8 :=
  ⟨String.fromUTF8 bytes h, rfl⟩

theorem mapError_eq_ok_iff {ε ε' α : Type} {f : ε → ε'} {x : Except ε α} {a : α} :
    x.mapError f = .ok a ↔ x = .ok a := by
  cases x <;> simp [Except.mapError]

/-! ### Documents -/

namespace Settings

/-- A document that gives no settings, and what is said of it. -/
inductive DocumentFails : String → SettingsError → Prop
  /-- It has a line that is neither empty nor an entry. -/
  | notDocument {text : String} : document? text = none → DocumentFails text .unreadable
  | repeatedKey {text : String} {entries : List Entry} : document? text = some entries →
      ¬ (entries.map (·.key)).Nodup → DocumentFails text .unreadable
  /-- Nothing has the key of an entry, or its value is of another sort. -/
  | notSetting {text : String} {entries : List Entry} {entry : Entry} :
      document? text = some entries → entry ∈ entries → (∀ e : Setting, e.entry ≠ entry) →
        DocumentFails text .unreadable
  /-- The range is empty; an end of it that is not given is the standard one. -/
  | emptyRange {text : String} {es : List Setting} {s : Settings} :
      document? text = some (es.map Setting.entry) → (es.map Setting.key).Nodup →
      es.foldl Setting.put standard = s → s.charRange.last < s.charRange.first →
        DocumentFails text (.emptyCharRange s.charRange)

theorem exists_setting_of_set? {s s' : Settings} {entry : Entry} (h : s.set? entry = some s') :
    ∃ e : Setting, e.entry = entry := by
  obtain ⟨key, value⟩ := entry
  have hkey {name : String} (hname : String.ofList key = name) : name.toList = key := by
    rw [← hname, String.toList_ofList]
  unfold set? at h
  dsimp only at h
  split at h
  · next b =>
      split at h
      · next hname => exact ⟨.checkCharRange b, congrArg (Entry.mk · _) (hkey hname)⟩
      · split at h
        · next hname => exact ⟨.checkStringMethods b, congrArg (Entry.mk · _) (hkey hname)⟩
        · split at h
          · next hname => exact ⟨.internLiterals b, congrArg (Entry.mk · _) (hkey hname)⟩
          · cases h
  · next c =>
      split at h
      · next hname => exact ⟨.firstChar c, congrArg (Entry.mk · _) (hkey hname)⟩
      · split at h
        · next hname => exact ⟨.lastChar c, congrArg (Entry.mk · _) (hkey hname)⟩
        · cases h
  · cases h

theorem exists_setting_of_foldlM {entries : List Entry} {s s' : Settings}
    (h : entries.foldlM set? s = some s') : ∀ entry ∈ entries, ∃ e : Setting, e.entry = entry := by
  induction entries generalizing s with
  | nil => simp
  | cons first entries ih =>
      rw [List.foldlM_cons] at h
      obtain ⟨next, hfirst, hrest⟩ := Option.bind_eq_some_iff.mp h
      rw [List.forall_mem_cons]
      exact ⟨exists_setting_of_set? hfirst, ih hrest⟩

/-- Entries are those of settings with different keys, or there are two ways in which they are
not. -/
theorem entries_cases (entries : List Entry) :
    (∃ es : List Setting, es.map Setting.entry = entries ∧ (es.map Setting.key).Nodup) ∨
      ¬ (entries.map (·.key)).Nodup ∨ ∃ entry ∈ entries, ∀ e : Setting, e.entry ≠ entry := by
  by_cases hknown : ∀ entry ∈ entries, entry ∈ Set.range Setting.entry
  · have hrange : entries ∈ Set.range (List.map Setting.entry) := by
      rw [Set.range_list_map]
      exact hknown
    obtain ⟨es, rfl⟩ := hrange
    by_cases hkeys : (es.map Setting.key).Nodup
    · exact .inl ⟨es, rfl, hkeys⟩
    · exact .inr (.inl (mt nodup_key_entry.mp hkeys))
  · push Not at hknown
    obtain ⟨entry, hentry, hunknown⟩ := hknown
    exact .inr (.inr ⟨entry, hentry, fun e he => hunknown ⟨e, he⟩⟩)

section
variable {text : String} {entries : List Entry} {entry : Entry} {e : SettingsError}

theorem overlay?_of_repeatedKey (h : ¬ (entries.map (·.key)).Nodup) : overlay? entries = none :=
  if_neg h

theorem overlay?_of_notSetting (hentry : entry ∈ entries) (h : ∀ e : Setting, e.entry ≠ entry) :
    overlay? entries = none := by
  unfold overlay?
  split
  · cases hfold : entries.foldlM set? standard with
    | none => rfl
    | some s =>
        obtain ⟨e, he⟩ := exists_setting_of_foldlM hfold entry hentry
        exact absurd he (h e)
  · rfl

theorem ofDocument_of_notDocument (h : document? text = none) :
    ofDocument text = .error .unreadable := by
  rw [ofDocument, h, Option.bind_none]

theorem ofDocument_of_overlay? (hdocument : document? text = some entries)
    (h : overlay? entries = none) : ofDocument text = .error .unreadable := by
  rw [ofDocument, hdocument, Option.bind_some, h]

theorem DocumentFails.ofDocument_eq (h : DocumentFails text e) : ofDocument text = .error e := by
  cases h with
  | notDocument hdocument => exact ofDocument_of_notDocument hdocument
  | repeatedKey hdocument hrepeated =>
      exact ofDocument_of_overlay? hdocument (overlay?_of_repeatedKey hrepeated)
  | notSetting hdocument hentry hunknown =>
      exact ofDocument_of_overlay? hdocument (overlay?_of_notSetting hentry hunknown)
  | emptyRange hdocument hkeys heq hempty =>
      rw [ofDocument_entries hdocument hkeys, heq, validate_eq, if_pos hempty]

theorem documentFails_of_ofDocument (h : ofDocument text = .error e) : DocumentFails text e := by
  cases hdocument : document? text with
  | none =>
      rw [ofDocument_of_notDocument hdocument] at h
      cases h
      exact .notDocument hdocument
  | some entries =>
      rcases entries_cases entries with ⟨es, rfl, hkeys⟩ | hrepeated | ⟨entry, hentry, hunknown⟩
      · rw [ofDocument_entries hdocument hkeys, validate_eq] at h
        split at h
        · next hempty =>
            cases h
            exact .emptyRange hdocument hkeys rfl hempty
        · cases h
      · rw [ofDocument_of_overlay? hdocument (overlay?_of_repeatedKey hrepeated)] at h
        cases h
        exact .repeatedKey hdocument hrepeated
      · rw [ofDocument_of_overlay? hdocument (overlay?_of_notSetting hentry hunknown)] at h
        cases h
        exact .notSetting hdocument hentry hunknown

/-- A document is refused for one of these reasons and for no other. -/
theorem ofDocument_eq_error_iff : ofDocument text = .error e ↔ DocumentFails text e :=
  ⟨documentFails_of_ofDocument, DocumentFails.ofDocument_eq⟩

end

/-! ### Loading -/

/-- What a path leads to, when no settings can be loaded from it, and why. -/
inductive LoadFails : FileState → LoadError → Prop
  | absent : LoadFails .absent (.read .notFound)
  | blocked : LoadFails .blocked (.read .notADirectory)
  | tooLong : LoadFails .tooLong (.read .nameTooLong)
  | directory : LoadFails .directory (.read .isADirectory)
  | notText {content : ByteArray} : ¬ content.IsValidUTF8 →
      LoadFails (.file content) (.read .invalidText)
  | invalid {text : String} {e : SettingsError} : DocumentFails text e →
      LoadFails (.file text.toUTF8) (.invalid e)

theorem load_file (text : String) :
    load (.file text.toUTF8) = (ofDocument text).mapError .invalid := by
  rw [load, FileState.text, decodeText_eq_ok_iff.mpr rfl]

theorem load_file_of_invalid {content : ByteArray} (h : ¬ content.IsValidUTF8) :
    load (.file content) = .error (.read .invalidText) := by
  rw [load, FileState.text, decodeText_of_invalid h]

/-- Loading fails where reading the file fails, or the document in it is refused. -/
theorem load_eq_error_iff {state : FileState} {e : LoadError} :
    load state = .error e ↔ LoadFails state e := by
  constructor
  · intro h
    cases state with
    | absent | blocked | tooLong | directory =>
        cases Except.error.inj h
        constructor
    | file content =>
        by_cases hvalid : content.IsValidUTF8
        · obtain ⟨text, rfl⟩ := exists_text_of_valid hvalid
          rw [load_file] at h
          cases hdocument : ofDocument text with
          | ok s =>
              rw [hdocument] at h
              cases h
          | error invalid =>
              rw [hdocument] at h
              cases Except.error.inj h
              exact .invalid (ofDocument_eq_error_iff.mp hdocument)
        · rw [load_file_of_invalid hvalid] at h
          cases h
          exact .notText hvalid
  · intro h
    cases h with
    | absent | blocked | tooLong | directory => rfl
    | notText hinvalid => exact load_file_of_invalid hinvalid
    | invalid hfails =>
        rw [load_file, ofDocument_eq_error_iff.mpr hfails]
        rfl

end Settings

end LessonCheck
