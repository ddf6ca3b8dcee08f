import LessonCheck.Proofs.Report.JsonReader
import LessonCheck.Report.Basic
import Mathlib.Logic.Function.Basic

/-!
Reports written as JSON lose nothing. A reader takes a report off its JSON value field by field, and
together with the reader of JSON texts it gives back every report that was rendered, whatever its
texts are. Nor can a text pass for more than one text: what stands outside the quotes of a rendered
report, and with it how the report is divided, is the same when all its texts are empty.
-/

namespace LessonCheck

namespace Json

/-! ### Outside the quotes -/

/-- What stands outside the quotes, and the quotes themselves. Between quotes a backslash takes the
character behind it along; `quoted` says that the text begins there. -/
def frame : Bool → List Char → List Char
  | _, [] => []
  | false, c :: rest => if c = '"' then '"' :: frame true rest else c :: frame false rest
  | true, '\\' :: _ :: rest => frame true rest
  | true, c :: rest => if c = '"' then '"' :: frame false rest else frame true rest

section
variable {c : Char} {rest : List Char}

theorem frame_closing : frame true ('"' :: rest) = '"' :: frame false rest := rfl

theorem frame_opening : frame false ('"' :: rest) = '"' :: frame true rest := rfl

theorem frame_inside (hquote : c ≠ '"') (hescape : c ≠ '\\') :
    frame true (c :: rest) = frame true rest := by
  rw [frame, if_neg hquote]
  exact fun d rest heq => absurd heq hescape

theorem frame_outside (h : c ≠ '"') : frame false (c :: rest) = c :: frame false rest := by
  rw [frame, if_neg h]

end

theorem frame_outside_append {chars : List Char} (h : '"' ∉ chars) (rest : List Char) :
    frame false (chars ++ rest) = chars ++ frame false rest := by
  induction chars with
  | nil => rfl
  | cons c chars ih =>
      rw [List.mem_cons, not_or] at h
      rw [List.cons_append, frame_outside (Ne.symm h.1), ih h.2, List.cons_append]

/-- A digit of an escape neither closes the text nor escapes anything itself. -/
theorem frame_hexDigit {n : Nat} (h : n < 16) (rest : List Char) :
    frame true (hexDigit n :: rest) = frame true rest := by
  have hall : ∀ m : Fin 16, hexDigit m ≠ '"' ∧ hexDigit m ≠ '\\' := by decide
  exact frame_inside (hall ⟨n, h⟩).1 (hall ⟨n, h⟩).2

theorem frame_escapeChar (c : Char) (rest : List Char) :
    frame true (escapeChar c ++ rest) = frame true rest := by
  unfold escapeChar
  split
  iterate 7 rfl
  next hquote hescape _ _ _ _ _ =>
    split
    · change frame true (hexDigit _ :: hexDigit _ :: rest) = _
      rw [frame_hexDigit (by omega), frame_hexDigit (Nat.mod_lt _ (by decide))]
    · exact frame_inside hquote hescape

theorem frame_quote (s : String) (rest : List Char) :
    frame false (quote s ++ rest) = '"' :: '"' :: frame false rest := by
  have hinside (chars : List Char) :
      frame true (chars.flatMap escapeChar ++ '"' :: rest) = '"' :: frame false rest := by
    induction chars with
    | nil => exact frame_closing
    | cons c chars ih => rw [List.flatMap_cons, List.append_assoc, frame_escapeChar, ih]
  rw [quote_append, frame_opening, hinside]

mutual

/-- The value with all its texts empty, the names of its fields among them. -/
def hollow : Json → Json
  | .bool b => .bool b
  | .number n => .number n
  | .text _ => .text ""
  | .list items => .list (hollowItems items)
  | .object fields => .object (hollowFields fields)

def hollowItems : List Json → List Json
  | [] => []
  | item :: items => hollow item :: hollowItems items

def hollowFields : List (String × Json) → List (String × Json)
  | [] => []
  | (_, value) :: fields => ("", hollow value) :: hollowFields fields

end

theorem quote_not_mem_indent (depth : Nat) : '"' ∉ indent depth := by
  simp [indent]

theorem frame_indent (depth : Nat) (rest : List Char) :
    frame false (indent depth ++ rest) = indent depth ++ frame false rest :=
  frame_outside_append (quote_not_mem_indent depth) rest

theorem frame_comma (rest : List Char) :
    frame false (',' :: rest) = ',' :: frame false rest := rfl

theorem frame_colon (rest : List Char) :
    frame false (':' :: ' ' :: rest) = ':' :: ' ' :: frame false rest := rfl

theorem quote_empty : quote "" = ['"', '"'] := rfl

mutual

/-- Outside the quotes a written value is as it is with empty texts. -/
theorem frame_write (depth : Nat) : (j : Json) → (rest : List Char) →
    frame false (write depth j ++ rest) = write depth j.hollow ++ frame false rest
  | .bool b, rest => by cases b <;> rfl
  | .number n, rest => by
      refine frame_outside_append (fun hmem => ?_) rest
      exact absurd (isDigit_of_mem_toDigits hmem) (by decide)
  | .text s, rest => frame_quote s rest
  | .list [], rest => rfl
  | .list (item :: items), rest => by
      have hopen (more : List Char) : frame false ('[' :: more) = '[' :: frame false more := rfl
      have hclose : frame false (']' :: rest) = ']' :: frame false rest := rfl
      simp only [write, hollow, hollowItems, List.append_assoc, List.cons_append, List.nil_append,
        hopen, frame_indent, frame_write, frame_writeItems, hclose]
  | .object [], rest => rfl
  | .object ((key, value) :: fields), rest => by
      have hopen (more : List Char) :
          frame false ('\x7b' :: more) = '\x7b' :: frame false more := rfl
      have hclose : frame false ('\x7d' :: rest) = '\x7d' :: frame false rest := rfl
      simp only [write, hollow, hollowFields, List.append_assoc, List.cons_append, List.nil_append,
        hopen, frame_indent, frame_quote, frame_colon, frame_write, frame_writeFields, hclose,
        quote_empty]

theorem frame_writeItems (depth : Nat) : (items : List Json) → (rest : List Char) →
    frame false (writeItems depth items ++ rest) =
      writeItems depth (hollowItems items) ++ frame false rest
  | [], rest => rfl
  | item :: items, rest => by
      simp only [writeItems, hollowItems, List.append_assoc, List.cons_append, frame_comma,
        frame_indent, frame_write, frame_writeItems]

theorem frame_writeFields (depth : Nat) : (fields : List (String × Json)) →
    (rest : List Char) → frame false (writeFields depth fields ++ rest) =
      writeFields depth (hollowFields fields) ++ frame false rest
  | [], rest => rfl
  | (key, value) :: fields, rest => by
      simp only [writeFields, hollowFields, List.append_assoc, List.cons_append, List.nil_append,
        frame_comma, frame_indent, frame_quote, frame_colon, frame_write, frame_writeFields,
        quote_empty]

end

theorem hollowItems_eq (items : List Json) : hollowItems items = items.map hollow := by
  induction items with
  | nil => rfl
  | cons item items ih => rw [hollowItems, ih, List.map_cons]

/-- Values that are alike but for their texts are alike outside the quotes. -/
theorem frame_render_congr {j j' : Json} (h : j.hollow = j'.hollow) :
    frame false j.render.toList = frame false j'.render.toList := by
  have hframe (j : Json) : frame false j.render.toList = write 0 j.hollow := by
    have hwrite := frame_write 0 j []
    rw [List.append_nil] at hwrite
    rw [render, String.toList_ofList, hwrite]
    exact List.append_nil _
  rw [hframe, hframe, h]

/-! ### Parts of a value -/

def field? (name : String) : Json → Option Json
  | .object fields => fields.lookup name
  | _ => none

def truth? : Json → Option Bool
  | .bool b => some b
  | _ => none

def natural? : Json → Option Nat
  | .number n => some n
  | _ => none

def string? : Json → Option String
  | .text s => some s
  | _ => none

def items? : Json → Option (List Json)
  | .list items => some items
  | _ => none

end Json

namespace Report

open Json

/-! ### The reader -/

def plainKinds : List Token.Kind :=
  [.identifier, .keyword, .number, .float, .string, .char, .operator, .semicolon, .lparen, .rparen,
    .lbrace, .rbrace, .comma, .dot, .unknown]

def faults : List LiteralFault := [.unterminatedString, .emptyChar, .invalidChar]

/-- The kind of a token: a word, or for a broken literal the word for what is wrong with it. -/
def kind? : Json → Option Token.Kind
  | .text word => plainKinds.find? (·.name = word)
  | j => do
    let word ← (← j.field? "error").string?
    (faults.find? (faultWord · = word)).map .faulty

def location? (j : Json) : Option Location := do
  let line ← (← j.field? "line").natural?
  let column ← (← j.field? "column").natural?
  return ⟨line, column⟩

def token? (j : Json) : Option Token := do
  let kind ← kind? (← j.field? "kind")
  let lexeme ← (← j.field? "lexeme").string?
  let location ← location? (← j.field? "location")
  return ⟨kind, lexeme, location⟩

def diagnostic? (j : Json) : Option Diagnostic := do
  let location ← location? (← j.field? "location")
  let message ← (← j.field? "message").string?
  return ⟨location, message⟩

def section? (heading : String) (j : Json) : Option ReportSection := do
  let ok ← (← j.field? (heading ++ "_ok")).truth?
  let items ← (← j.field? (heading ++ "_diagnostics")).items?
  let diagnostics ← items.mapM diagnostic?
  return ⟨ok, diagnostics⟩

/-- The report that a value is the JSON of; without a second section it is one of the form alone. -/
def ofJson? (j : Json) : Option Report := do
  let items ← (← j.field? "tokens").items?
  let tokens ← items.mapM token?
  let form ← section? "syntax" j
  return ⟨tokens, form, section? "semantic" j⟩

def ofText? (text : String) : Option Report := (Json.ofText? text).bind ofJson?

/-! ### It undoes the writer -/

theorem kind?_kindJson (kind : Token.Kind) : kind? (kindJson kind) = some kind := by
  cases kind with
  | faulty fault => cases fault <;> simp [kind?, kindJson, field?, string?, faults, faultWord]
  | _ => simp [kind?, kindJson, plainKinds, Token.Kind.name]

theorem location?_locationJson (l : Location) : location? (locationJson l) = some l := by
  simp [location?, locationJson, field?, natural?, List.lookup_cons]

theorem token?_tokenJson (t : Token) : token? (tokenJson t) = some t := by
  simp [token?, tokenJson, field?, string?, List.lookup_cons, kind?_kindJson,
    location?_locationJson]

theorem diagnostic?_diagnosticJson (d : Diagnostic) : diagnostic? (diagnosticJson d) = some d := by
  simp [diagnostic?, diagnosticJson, field?, string?, List.lookup_cons, location?_locationJson]

theorem mapM_map_eq_some {α β : Type} {f : α → β} {g : β → Option α}
    (h : ∀ x, g (f x) = some x) (xs : List α) : (xs.map f).mapM g = some xs := by
  induction xs with
  | nil => rfl
  | cons x xs ih => simp [h x, ih]

theorem ofJson?_toJson (r : Report) : ofJson? r.toJson = some r := by
  obtain ⟨tokens, form, meaning⟩ := r
  have htokens := mapM_map_eq_some token?_tokenJson tokens
  have hdiagnostics := mapM_map_eq_some diagnostic?_diagnosticJson
  cases meaning with
  | none | some m =>
      simp [ofJson?, toJson, sectionFields, section?, field?, items?, truth?, List.lookup_cons,
        htokens, hdiagnostics]

theorem ofText?_render (r : Report) : ofText? (r.render .json) = some r := by
  rw [ofText?, render, Json.ofText?_render, Option.bind_some, ofJson?_toJson]

/-! ### Texts forge nothing -/

def emptyTexts (s : ReportSection) : ReportSection :=
  { s with diagnostics := s.diagnostics.map fun d => { d with message := "" } }

/-- The report with its lexemes and messages empty, and all else as it is. -/
def withoutTexts (r : Report) : Report where
  tokens := r.tokens.map fun t => { t with lexeme := "" }
  form := emptyTexts r.form
  meaning := r.meaning.map emptyTexts

theorem hollow_toJson (r : Report) : r.withoutTexts.toJson.hollow = r.toJson.hollow := by
  obtain ⟨tokens, form, meaning⟩ := r
  have htoken (t : Token) : (tokenJson { t with lexeme := "" }).hollow = (tokenJson t).hollow := rfl
  have hdiagnostic (d : Diagnostic) :
      (diagnosticJson { d with message := "" }).hollow = (diagnosticJson d).hollow := rfl
  cases meaning <;>
    simp [withoutTexts, emptyTexts, toJson, sectionFields, hollow, hollowFields, hollowItems_eq,
      Function.comp_def, htoken, hdiagnostic]

/-- A report is read back from its JSON whole, whatever its lexemes and messages are, and so no two
reports have the same JSON; and outside the quotes that is the same for all texts. -/
theorem json_lossless :
    (∀ r : Report, ofText? (r.render .json) = some r) ∧
    Function.Injective (fun r : Report => r.render .json) ∧
    ∀ r : Report, frame false (r.render .json).toList =
      frame false (r.withoutTexts.render .json).toList := by
  refine ⟨ofText?_render, fun r r' h => ?_, fun r => ?_⟩
  · have hread := congrArg ofText? h
    rw [ofText?_render, ofText?_render] at hread
    exact Option.some.inj hread
  · exact frame_render_congr (hollow_toJson r).symm

end Report

end LessonCheck
