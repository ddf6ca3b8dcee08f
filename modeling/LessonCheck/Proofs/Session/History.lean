import LessonCheck.Session

/-!
A session and its past. The text cache that a session hands on from one request to the next changes
with every source text, but no answer depends on it: `fst_checkForm` and `fst_analyze` give the
answers without any cache, and a run of requests is answered as if each of them were the first. The
second half is about settings: the form of a text does not depend on them at all, and each optional
pass over its meaning can be switched without touching what the other passes find.
-/

namespace LessonCheck

/-- What a session can be asked. -/
inductive Request
  | checkForm (source : String)
  | analyze (source : String)
  deriving DecidableEq

inductive Answer
  | form (result : Except SourceError FormAnalysis)
  | full (result : Except SourceError Analysis)

/-- What is known of the form of a source text without any cache. -/
def FormAnalysis.ofSource (source : String) : Except SourceError FormAnalysis :=
  if source.isEmpty then .error .empty else .ok (LexedText.ofText source).formAnalysis

/-- What is known of a source text without any cache. -/
def Analysis.ofSource (options : MeaningOptions) (source : String) : Except SourceError Analysis :=
  (FormAnalysis.ofSource source).map fun form => ⟨form, form.tokens.meaning options⟩

theorem Analysis.ofSource_of_nonempty {source : String} (h : source.isEmpty = false)
    (options : MeaningOptions) :
    ofSource options source =
      .ok ⟨(LexedText.ofText source).formAnalysis, (Token.ofText source).meaning options⟩ := by
  simp only [ofSource, FormAnalysis.ofSource, h]
  rfl

/-- Whatever is answered about a source text is what its tokens say. -/
theorem Analysis.eq_of_ofSource {options : MeaningOptions} {source : String} {a : Analysis}
    (h : ofSource options source = .ok a) :
    a = ⟨(LexedText.ofText source).formAnalysis, (Token.ofText source).meaning options⟩ := by
  cases hsource : source.isEmpty with
  | true => simp [ofSource, FormAnalysis.ofSource, hsource, Except.map] at h
  | false =>
      rw [ofSource_of_nonempty hsource] at h
      exact (Except.ok.inj h).symm

namespace Session

def answer (s : Session) : Request → Answer × Session
  | .checkForm source => let (result, s) := s.checkForm source; (.form result, s)
  | .analyze source => let (result, s) := s.analyze source; (.full result, s)

/-- The answers to requests that are made one after the other. -/
def answers (s : Session) : List Request → List Answer
  | [] => []
  | r :: rs => (s.answer r).1 :: (s.answer r).2.answers rs

theorem fst_checkForm (s : Session) (source : String) :
    (s.checkForm source).1 = FormAnalysis.ofSource source := by
  unfold checkForm FormAnalysis.ofSource
  split
  · rfl
  · simp only [TextCache.lex_eq]

@[simp] theorem settings_checkForm (s : Session) (source : String) :
    (s.checkForm source).2.settings = s.settings := by
  unfold checkForm
  split <;> rfl

theorem fst_analyze (s : Session) (source : String) :
    (s.analyze source).1 = Analysis.ofSource s.settings.meaningOptions source := by
  unfold analyze Analysis.ofSource
  simp only [fst_checkForm, settings_checkForm]

@[simp] theorem settings_analyze (s : Session) (source : String) :
    (s.analyze source).2.settings = s.settings :=
  settings_checkForm s source

@[simp] theorem settings_answer (s : Session) (r : Request) :
    (s.answer r).2.settings = s.settings := by
  cases r with
  | checkForm source => exact settings_checkForm s source
  | analyze source => exact settings_analyze s source

/-- An answer is settled by the settings and the request; the cache has no part in it. -/
theorem fst_answer_congr {s s' : Session}
    (h : s.settings.meaningOptions = s'.settings.meaningOptions) (r : Request) :
    (s.answer r).1 = (s'.answer r).1 := by
  cases r with
  | checkForm source =>
      show Answer.form (s.checkForm source).1 = Answer.form (s'.checkForm source).1
      rw [fst_checkForm, fst_checkForm]
  | analyze source =>
      show Answer.full (s.analyze source).1 = Answer.full (s'.analyze source).1
      rw [fst_analyze, fst_analyze, h]

/-- In a run of requests each is answered as by any other session with these options. -/
theorem answers_eq_map {s t : Session}
    (h : s.settings.meaningOptions = t.settings.meaningOptions) (rs : List Request) :
    s.answers rs = rs.map fun r => (t.answer r).1 := by
  induction rs generalizing s with
  | nil => rfl
  | cons r rs ih =>
      rw [answers, List.map_cons, fst_answer_congr h r]
      rw [ih (by rw [settings_answer, h])]

end Session

/-! ### What the settings decide -/

namespace MeaningProblem

def isCharRange : MeaningProblem → Bool
  | .charRange _ => true
  | _ => false

def isStringMethod : MeaningProblem → Bool
  | .stringMethod _ => true
  | _ => false

end MeaningProblem

namespace Meaning

/-- The problems that the pass over char literals has not found. -/
def withoutCharRange (m : Meaning) : List (Located MeaningProblem) :=
  m.problems.filter fun p => !p.problem.isCharRange

/-- The problems that the pass over the methods of strings has not found. -/
def withoutStringMethod (m : Meaning) : List (Located MeaningProblem) :=
  m.problems.filter fun p => !p.problem.isStringMethod

end Meaning

/-- A filter against the sort of problem that a pass finds leaves nothing of what it found. -/
theorem filter_not_map_located {α : Type} (sort : MeaningProblem → Bool) (f : α → MeaningProblem)
    (h : ∀ a, sort (f a) = true) (ps : List (Located α)) :
    (ps.map (Located.map f)).filter (fun p => !sort p.problem) = [] := by
  rw [List.filter_eq_nil_iff]
  intro p hp
  obtain ⟨q, -, rfl⟩ := List.mem_map.mp hp
  simp [Located.map, h]

theorem withoutCharRange_meaning (ts : Tokens) (options : MeaningOptions)
    (range : Option CharRange) :
    (ts.meaning { options with charRange := range }).withoutCharRange =
      (ts.meaning options).withoutCharRange := by
  have dropped (r : CharRange) :
      ((r.problems ts).map (Located.map MeaningProblem.charRange)).filter
        (fun p => !p.problem.isCharRange) = [] :=
    filter_not_map_located MeaningProblem.isCharRange .charRange (fun _ => rfl) _
  simp only [Meaning.withoutCharRange, Tokens.meaning, List.filter_append]
  congr 2
  cases range <;> cases options.charRange <;> simp only [dropped, List.filter_nil]

theorem withoutStringMethod_meaning (ts : Tokens) (options : MeaningOptions) (check : Bool) :
    (ts.meaning { options with stringMethods := check }).withoutStringMethod =
      (ts.meaning options).withoutStringMethod := by
  have dropped (scope : Scope) :
      ((scope.stringMethodProblems ts).map (Located.map MeaningProblem.stringMethod)).filter
        (fun p => !p.problem.isStringMethod) = [] :=
    filter_not_map_located MeaningProblem.isStringMethod .stringMethod (fun _ => rfl) _
  simp only [Meaning.withoutStringMethod, Tokens.meaning, List.filter_append]
  congr 1
  cases check <;> cases options.stringMethods <;> simp [dropped]

/-- Neither the requests before one, nor whether texts are kept for reuse, nor a setting that is
about something else has any part in an answer. -/
theorem answers_independent (c : Settings) :
    (∀ rs : List Request,
      (Session.new c).answers rs = rs.map (fun r => ((Session.new c).answer r).1) ∧
      (Session.new c).answers rs = rs.map fun r =>
        ((Session.new { c with internLiterals := !c.internLiterals }).answer r).1) ∧
    ∀ source : String,
      (∀ c' : Settings,
        ((Session.new c).analyze source).1.map (·.form) = ((Session.new c').checkForm source).1) ∧
      (∀ (check : Bool) (range : CharRange),
        ((Session.new { c with checkCharRange := check, charRange := range }).analyze source).1.map
            (·.meaning.withoutCharRange) =
          ((Session.new c).analyze source).1.map (·.meaning.withoutCharRange)) ∧
      ∀ check : Bool,
        ((Session.new { c with checkStringMethods := check }).analyze source).1.map
            (·.meaning.withoutStringMethod) =
          ((Session.new c).analyze source).1.map (·.meaning.withoutStringMethod) := by
  constructor
  · intro rs
    constructor <;>
      · apply Session.answers_eq_map
        rfl
  intro source
  simp only [Session.fst_analyze, Session.fst_checkForm, Analysis.ofSource]
  cases FormAnalysis.ofSource source with
  | error e => exact ⟨fun _ => rfl, fun _ _ => rfl, fun _ => rfl⟩
  | ok form =>
      refine ⟨fun _ => rfl, fun check range => ?_, fun check => ?_⟩
      · exact congrArg Except.ok (withoutCharRange_meaning form.tokens
          (Session.new c).settings.meaningOptions (if check then some range else none))
      · exact congrArg Except.ok (withoutStringMethod_meaning form.tokens
          (Session.new c).settings.meaningOptions check)

end LessonCheck
