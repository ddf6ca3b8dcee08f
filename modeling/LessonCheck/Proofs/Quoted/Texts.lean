import LessonCheck.Form.Check
import LessonCheck.Meaning.Check

/-!
What messages quote. A message is made of fixed words, of numbers and of texts taken from the
program, and only the latter can have a line end in them. `Quoting` gives the texts that a problem
quotes and says that a line end in its message comes from one of them. The range of permitted
characters is quoted from the settings and not from the program, so it is not here.
-/

namespace LessonCheck

/-- The problems of which it is known what texts they quote: a line end in the message comes from
one of them. -/
class Quoting (α : Type) [Described α] where
  quotes : α → List String
  lineFeed (p : α) : '\n' ∈ (Described.message p).toList → ∃ q ∈ quotes p, '\n' ∈ q.toList

theorem lineFeed_not_mem_name (kind : Token.Kind) : '\n' ∉ kind.name.toList := by
  unfold Token.Kind.name
  cases kind <;> simp

theorem lineFeed_not_mem_word (type : VariableType) : '\n' ∉ type.word.toList := by
  cases type <;> decide

theorem lineFeed_not_mem_toDigits (n : Nat) : '\n' ∉ Nat.toDigits 10 n := fun h =>
  absurd (Nat.isDigit_of_mem_toDigits (by decide) (by decide) h) (by decide)

namespace LexicalProblem

def quotes : LexicalProblem → List String
  | .unterminatedString | .emptyChar => []
  | .invalidEscape e => [e.sequence]
  | .invalidChar text | .unrecognized text => [text]

theorem lineFeed (p : LexicalProblem) (h : '\n' ∈ p.message.toList) :
    ∃ q ∈ p.quotes, '\n' ∈ q.toList := by
  unfold message at h
  cases p <;> simp_all [quotes]

instance : Quoting LexicalProblem := ⟨quotes, lineFeed⟩

end LexicalProblem

instance : Quoting BracketProblem where
  quotes _ := []
  lineFeed p h := by
    refine absurd h ?_
    rcases p with ⟨_ | _⟩ | ⟨_ | _⟩ <;> decide

namespace EndingProblem

def quotes : EndingProblem → List String
  | .declaration => []
  | .assignment name | .printCall name => [name]

theorem lineFeed (p : EndingProblem) (h : '\n' ∈ p.message.toList) :
    ∃ q ∈ p.quotes, '\n' ∈ q.toList := by
  unfold message at h
  cases p <;> simp_all [quotes]

instance : Quoting EndingProblem := ⟨quotes, lineFeed⟩

end EndingProblem

namespace LoopFormProblem

def quotes : LoopFormProblem → List String
  | .initLiteral _ name _ lexeme => [name, lexeme]
  | .initValue lexeme | .conditionVariable lexeme | .conditionOperator lexeme
  | .conditionValue lexeme | .incrementVariable lexeme | .incrementOperator lexeme => [lexeme]
  | .incrementCompound operator extra | .incrementExtra operator extra => [operator, extra]
  | .incrementValueCount operator => [operator]
  | .incrementValue operator lexeme => [operator, lexeme]
  | _ => []

theorem lineFeed (p : LoopFormProblem) (h : '\n' ∈ p.message.toList) :
    ∃ q ∈ p.quotes, '\n' ∈ q.toList := by
  unfold message at h
  cases p <;> simp_all [quotes, lineFeed_not_mem_name, lineFeed_not_mem_word,
    lineFeed_not_mem_toDigits, or_comm]

instance : Quoting LoopFormProblem := ⟨quotes, lineFeed⟩

end LoopFormProblem

instance : Quoting ConcatenationProblem where
  quotes _ := []
  lineFeed p h := by
    refine absurd h ?_
    cases p
    decide

namespace FormProblem

def quotes : FormProblem → List String
  | .lexical p => Quoting.quotes p
  | .bracket p => Quoting.quotes p
  | .ending p => Quoting.quotes p
  | .loop p => Quoting.quotes p
  | .concatenation p => Quoting.quotes p

theorem lineFeed (p : FormProblem) (h : '\n' ∈ p.message.toList) :
    ∃ q ∈ p.quotes, '\n' ∈ q.toList := by
  cases p with
  | lexical p => exact Quoting.lineFeed p h
  | bracket p => exact Quoting.lineFeed p h
  | ending p => exact Quoting.lineFeed p h
  | loop p => exact Quoting.lineFeed p h
  | concatenation p => exact Quoting.lineFeed p h

instance : Quoting FormProblem := ⟨quotes, lineFeed⟩

end FormProblem

namespace TypeClash

def quotes : TypeClash → List String
  | .wrongKind name _ _ value | .notBoolean name value => [name, value]
  | .unreadable _ value => [value]
  | .wrongType name _ sourceName _ => [name, sourceName]

theorem lineFeed (e : TypeClash) (h : '\n' ∈ e.message.toList) :
    ∃ q ∈ e.quotes, '\n' ∈ q.toList := by
  unfold message at h
  cases e <;> simp_all [quotes, lineFeed_not_mem_name, lineFeed_not_mem_word, or_comm]

instance : Described TypeClash := ⟨message⟩

instance : Quoting TypeClash := ⟨quotes, lineFeed⟩

end TypeClash

namespace DeclarationProblem

def quotes : DeclarationProblem → List String
  | .alreadyDeclared name _ => [name]
  | .value e => e.quotes

theorem lineFeed (p : DeclarationProblem) (h : '\n' ∈ p.message.toList) :
    ∃ q ∈ p.quotes, '\n' ∈ q.toList := by
  cases p with
  | alreadyDeclared name line =>
      unfold message at h
      simpa [quotes, lineFeed_not_mem_toDigits] using h
  | value e => exact e.lineFeed h

instance : Quoting DeclarationProblem := ⟨quotes, lineFeed⟩

end DeclarationProblem

namespace UsageProblem

def quotes : UsageProblem → List String
  | .undeclared name => [name]
  | .value e => e.quotes

theorem lineFeed (p : UsageProblem) (h : '\n' ∈ p.message.toList) :
    ∃ q ∈ p.quotes, '\n' ∈ q.toList := by
  cases p with
  | undeclared name =>
      unfold message at h
      simpa [quotes] using h
  | value e => exact e.lineFeed h

instance : Quoting UsageProblem := ⟨quotes, lineFeed⟩

end UsageProblem

namespace LoopProblem

def quotes : LoopProblem → List String
  | .undeclared name => [name]
  | .otherVariable _ found expected => [found, expected]
  | .comparedVariable v _ other => [v.name, other]
  | .comparedValue v _ lexeme => [v.name, lexeme]
  | .value e => e.quotes

theorem lineFeed (p : LoopProblem) (h : '\n' ∈ p.message.toList) :
    ∃ q ∈ p.quotes, '\n' ∈ q.toList := by
  cases p with
  | undeclared name =>
      unfold message at h
      simpa [quotes] using h
  | otherVariable part found expected =>
      have hpart : '\n' ∉ part.word.toList := by cases part <;> decide
      unfold message at h
      simpa [quotes, hpart] using h
  | comparedVariable v otherType other =>
      change '\n' ∈ ("cannot compare " ++ v.type.word ++ " loop variable '" ++ v.name ++
        "' with " ++ otherType.word ++ " variable '" ++ other ++ "'").toList at h
      simpa [quotes, lineFeed_not_mem_word] using h
  | comparedValue v found lexeme =>
      change '\n' ∈ ("cannot compare " ++ v.type.word ++ " loop variable '" ++ v.name ++
        "' with " ++ found.name ++ " '" ++ lexeme ++ "'").toList at h
      simpa [quotes, lineFeed_not_mem_word, lineFeed_not_mem_name] using h
  | value e => exact e.lineFeed h

instance : Quoting LoopProblem := ⟨quotes, lineFeed⟩

end LoopProblem

namespace StringMethodProblem

def quotes : StringMethodProblem → List String
  | .unknownMethod name => [name]

theorem lineFeed (p : StringMethodProblem) (h : '\n' ∈ p.message.toList) :
    ∃ q ∈ p.quotes, '\n' ∈ q.toList := by
  cases p
  unfold message at h
  simpa [quotes] using h

instance : Quoting StringMethodProblem := ⟨quotes, lineFeed⟩

end StringMethodProblem

end LessonCheck
