import LessonCheck.Settings.Basic
import LessonCheck.Settings.Document

/-!
Settings from a document. Every key may be given once, with a value of its own sort; keys that are
not given keep their standard value, and the range is looked at only when all keys are in.
-/

namespace LessonCheck

inductive SettingsError
  /-- The document is not one of settings. -/
  | unreadable
  | emptyCharRange (range : CharRange)
  deriving DecidableEq

namespace SettingsError

def message : SettingsError → String
  | .unreadable => "invalid configuration"
  | .emptyCharRange r =>
    "char range '" ++ String.ofList [r.first] ++ "'-'" ++ String.ofList [r.last] ++ "' is empty"

end SettingsError

namespace Settings

def charRangeKey : String := "check_char_range"

def firstCharKey : String := "char_range_start"

def lastCharKey : String := "char_range_end"

def stringMethodsKey : String := "check_string_methods"

def internKey : String := "intern_literals"

/-- Puts the value of one entry in place of the present one. -/
def set? (s : Settings) (e : Entry) : Option Settings :=
  let key := String.ofList e.key
  match e.value with
  | .bool b =>
    if key = charRangeKey then some { s with checkCharRange := b }
    else if key = stringMethodsKey then some { s with checkStringMethods := b }
    else if key = internKey then some { s with internLiterals := b }
    else none
  | .text [c] =>
    if key = firstCharKey then some { s with charRange.first := c }
    else if key = lastCharKey then some { s with charRange.last := c }
    else none
  | .text _ => none

/-- The standard settings with the given entries laid over them. -/
def overlay? (entries : List Entry) : Option Settings :=
  if (entries.map (·.key)).Nodup then entries.foldlM set? standard else none

/-- Settings whose range is not empty. -/
def validate (s : Settings) : Except SettingsError Settings :=
  if s.charRange.isEmpty then .error (.emptyCharRange s.charRange) else .ok s

/-- The settings that a document gives. -/
def ofDocument (text : String) : Except SettingsError Settings :=
  match (document? text).bind overlay? with
  | some s => s.validate
  | none => .error .unreadable

end Settings

end LessonCheck
