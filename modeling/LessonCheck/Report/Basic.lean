import LessonCheck.Report.Json
import LessonCheck.Session

/-!
Reports: what a check shows to a reader. A report lists the tokens and has a section for the form
and, after a full check, one for the meaning. As text, a section is a heading and a line for each
diagnostic; as JSON, the report is written out whole.
-/

namespace LessonCheck

structure ReportSection where
  /-- What the section says of itself. -/
  ok : Bool
  diagnostics : List Diagnostic
  deriving DecidableEq

structure Report where
  tokens : Tokens
  form : ReportSection
  /-- Absent when the meaning was not checked. -/
  meaning : Option ReportSection
  deriving DecidableEq

inductive ReportFormat
  | text
  | json
  deriving DecidableEq

def ReportSection.ofProblems {α : Type} [Described α] (problems : List (Located α)) :
    ReportSection :=
  ⟨problems.isEmpty, problems.map Located.diagnostic⟩

def FormAnalysis.report (a : FormAnalysis) : Report :=
  ⟨a.tokens, .ofProblems a.problems, none⟩

def Analysis.report (a : Analysis) : Report :=
  ⟨a.form.tokens, .ofProblems a.form.problems, some (.ofProblems a.meaning.problems)⟩

namespace Report

/-- The sections with their headings. -/
def sections (r : Report) : List (String × List Diagnostic) :=
  ("syntax", r.form.diagnostics) ::
    match r.meaning with
    | some m => [("semantic", m.diagnostics)]
    | none => []

/-- No section lists anything. -/
def isClean (r : Report) : Bool := r.sections.all (·.2.isEmpty)

/-! ### Text -/

def verdict (problems : Nat) : String :=
  match problems with
  | 0 => "ok"
  | 1 => "1 problem"
  | n => n.repr ++ " problems"

/-- The lines of a section, each with its line end. -/
def sectionText (heading : String) (diagnostics : List Diagnostic) : String :=
  heading ++ ": " ++ verdict diagnostics.length ++ "\n" ++
    String.join (diagnostics.map fun d => "  " ++ d.text ++ "\n")

def toText (r : Report) : String := String.join (r.sections.map fun s => sectionText s.1 s.2)

/-! ### JSON -/

def faultWord : LiteralFault → String
  | .unterminatedString => "unterminated_string"
  | .emptyChar => "empty_char"
  | .invalidChar => "invalid_char"

def kindJson (kind : Token.Kind) : Json :=
  match kind with
  | .faulty fault => .object [("error", .text (faultWord fault))]
  | kind => .text kind.name

def locationJson (l : Location) : Json :=
  .object [("line", .number l.line), ("column", .number l.column)]

def tokenJson (t : Token) : Json :=
  .object [("kind", kindJson t.kind), ("lexeme", .text t.lexeme),
    ("location", locationJson t.location)]

def diagnosticJson (d : Diagnostic) : Json :=
  .object [("location", locationJson d.location), ("message", .text d.message)]

def sectionFields (heading : String) (s : ReportSection) : List (String × Json) :=
  [(heading ++ "_ok", .bool s.ok),
    (heading ++ "_diagnostics", .list (s.diagnostics.map diagnosticJson))]

def toJson (r : Report) : Json :=
  .object (("tokens", .list (r.tokens.map tokenJson)) :: sectionFields "syntax" r.form ++
    match r.meaning with
    | some m => sectionFields "semantic" m
    | none => [])

/-- The report in a format. -/
def render (r : Report) : ReportFormat → String
  | .text => r.toText
  | .json => r.toJson.render

end Report

end LessonCheck
