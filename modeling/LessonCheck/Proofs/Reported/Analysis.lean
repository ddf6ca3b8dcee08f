import LessonCheck.Proofs.Lexing.Layout
import LessonCheck.Proofs.Reported.Meaning
import LessonCheck.Proofs.Session.History

/-!
Where the problems of a source text are reported. The complaints of the lexer, the problems of form
and those of meaning are all at tokens of the text, and a token stands on one of its lines. So every
problem that a session answers with leads a reader to a place at which there is something to see.
-/

namespace LessonCheck

theorem LexedText.reportedIn_problems (source : String) :
    ReportedIn (ofText source).tokens (ofText source).problems := by
  refine .flatMap fun t ht p hp => ?_
  obtain ⟨problem, -, rfl⟩ := List.mem_map.mp hp
  exact ⟨t, ht, rfl⟩

theorem LexedText.reportedIn_formAnalysis (source : String) :
    ReportedIn (ofText source).formAnalysis.tokens (ofText source).formAnalysis.problems :=
  reportedIn_append.mpr
    ⟨(reportedIn_map _).mpr (reportedIn_problems source), Tokens.reportedIn_formProblems _⟩

/-! ### Lines -/

/-- The number of lines of a text. A line feed ends a line, and what follows the last one is a line
unless it is empty. -/
def lineCount (text : List Char) : Nat :=
  text.count '\n' + if text.getLast?.any (· ≠ '\n') then 1 else 0

theorem lineCount_append (before : List Char) {after : List Char} (h : after ≠ []) :
    lineCount (before ++ after) = before.count '\n' + lineCount after := by
  simp [lineCount, List.count_append, List.getLast?_append_of_ne_nil before h, Nat.add_assoc]

theorem lineCount_pos {text : List Char} (h : text ≠ []) : 0 < lineCount text := by
  obtain ⟨front, last, rfl⟩ := (List.eq_nil_or_concat text).resolve_left h
  by_cases hlast : last = '\n' <;> simp [lineCount, hlast]

theorem Location.line_behind_le (before : List Char) {after : List Char} (h : after ≠ []) :
    (behind before).line ≤ lineCount (before ++ after) := by
  have hpos := lineCount_pos h
  change 1 + before.count '\n' ≤ lineCount (before ++ after)
  rw [lineCount_append before h]
  omega

/-- A token begins on one of the lines of the text. -/
theorem Token.line_mem_of_ofText {source : String} {t : Token} (ht : t ∈ ofText source) :
    1 ≤ t.location.line ∧ t.location.line ≤ lineCount source.toList := by
  obtain ⟨before, after, htext, hne, hlocation⟩ := exists_split_of_mem_ofText ht
  have hrest : t.raw ++ after ≠ [] := List.append_ne_nil_of_left_ne_nil hne after
  rw [htext, hlocation, List.append_assoc]
  exact ⟨Nat.le_add_right 1 _, Location.line_behind_le before hrest⟩

/-! ### Whole analyses -/

/-- The problems are reported at the tokens, and on one of the lines of the source text. -/
def PointsInto {α : Type} (source : String) (ts : Tokens) (ps : List (Located α)) : Prop :=
  ∀ p ∈ ps, (∃ t ∈ ts, t.location = p.location) ∧
    1 ≤ p.location.line ∧ p.location.line ≤ lineCount source.toList

theorem ReportedIn.pointsInto {α : Type} {source : String} {ps : List (Located α)}
    (h : ReportedIn (Token.ofText source) ps) : PointsInto source (Token.ofText source) ps := by
  intro p hp
  obtain ⟨t, ht, hlocation⟩ := h p hp
  have hline := Token.line_mem_of_ofText ht
  rw [hlocation] at hline
  exact ⟨⟨t, ht, hlocation⟩, hline⟩

/-- Whatever a session finds wrong with a source text is reported at a token of the text. In
particular the method of a print call, at which a missing semicolon is reported, is always there. -/
theorem analyze_pointsInto {s : Session} {source : String} {a : Analysis}
    (ha : (s.analyze source).1 = .ok a) :
    PointsInto source a.form.tokens a.form.problems ∧
      PointsInto source a.form.tokens a.meaning.problems ∧
      ∀ start call, a.form.tokens.outputCall? start = some call →
        a.form.tokens[call.methodIndex start]? = some call.method := by
  rw [Session.fst_analyze] at ha
  obtain rfl := Analysis.eq_of_ofSource ha
  exact ⟨(LexedText.reportedIn_formAnalysis source).pointsInto,
    (Tokens.reportedIn_meaning _ _).pointsInto,
    fun start call hcall => Tokens.getElem?_methodIndex hcall⟩

/-- A print call that lacks its semicolon at the end of the text, behind a bad initial value. -/
theorem analyze_pointsInto_truncated :
    ∃ a, ((Session.new .standard).analyze "int n = 'a';\n System.out.println(n)\n").1 = .ok a ∧
      (∃ p ∈ a.form.problems, p.location = ⟨2, 13⟩ ∧ ∃ t ∈ a.form.tokens, t.location = p.location) ∧
      (∃ p ∈ a.meaning.problems, p.location = ⟨1, 9⟩ ∧
        ∃ t ∈ a.form.tokens, t.location = p.location) ∧
      lineCount "int n = 'a';\n System.out.println(n)\n".toList = 2 := by
  have ha : ((Session.new .standard).analyze "int n = 'a';\n System.out.println(n)\n").1 = .ok _ :=
    (Session.fst_analyze _ _).trans (Analysis.ofSource_of_nonempty (by decide) _)
  obtain ⟨hform, hmeaning, -⟩ := analyze_pointsInto ha
  have hending : (⟨⟨2, 13⟩, .ending (.printCall "System.out.println")⟩ : Located FormProblem) ∈
      (LexedText.ofText "int n = 'a';\n System.out.println(n)\n").formAnalysis.problems := by
    decide +kernel
  have hvalue : (⟨⟨1, 9⟩, .declaration (.value (.wrongKind "n" .int .char "a"))⟩ :
      Located MeaningProblem) ∈
      ((Token.ofText "int n = 'a';\n System.out.println(n)\n").meaning
        Settings.standard.meaningOptions).problems := by
    decide +kernel
  exact ⟨_, ha, ⟨_, hending, rfl, (hform _ hending).1⟩, ⟨_, hvalue, rfl, (hmeaning _ hvalue).1⟩,
    by decide⟩

end LessonCheck
