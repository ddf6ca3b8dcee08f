import LessonCheck.Caching.TextCache
import LessonCheck.Form.Check
import LessonCheck.Settings.Basic

/-!
Sessions. A session checks one source text after the other under the same settings and hands its
text cache on from each to the next; nothing else of a check outlives it.
-/

namespace LessonCheck

/-- A text of length zero is not checked. -/
inductive SourceError
  | empty
  deriving DecidableEq

def SourceError.message : SourceError → String
  | .empty => "source text is empty"

/-- The result of lexing and of the checks of form. -/
structure FormAnalysis where
  tokens : Tokens
  problems : List (Located FormProblem)

/-- The result of all checks. -/
structure Analysis where
  form : FormAnalysis
  meaning : Meaning

namespace LexedText

def formAnalysis (lexed : LexedText) : FormAnalysis :=
  ⟨lexed.tokens, lexed.problems.map (·.map .lexical) ++ lexed.tokens.formProblems⟩

end LexedText

structure Session where
  settings : Settings
  cache : TextCache

namespace Session

def new (settings : Settings) : Session := ⟨settings, .new settings.internLiterals⟩

/-- Checks the form of a source text. -/
def checkForm (s : Session) (source : String) : Except SourceError FormAnalysis × Session :=
  if source.isEmpty then (.error .empty, s)
  else
    let (lexed, cache) := s.cache.lex source
    (.ok lexed.formAnalysis, { s with cache })

/-- Checks form and meaning of a source text. -/
def analyze (s : Session) (source : String) : Except SourceError Analysis × Session :=
  let (form, s) := s.checkForm source
  (form.map fun form => ⟨form, form.tokens.meaning s.settings.meaningOptions⟩, s)

end Session

end LessonCheck
