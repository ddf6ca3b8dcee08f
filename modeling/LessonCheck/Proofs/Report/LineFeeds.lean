import LessonCheck.Command.Run
import LessonCheck.Proofs.Lexing.LineEnd
import LessonCheck.Proofs.Lexing.Spelling
import LessonCheck.Proofs.Lexing.Starts
import LessonCheck.Proofs.Quoted.Meaning
import LessonCheck.Proofs.Report.Lines
import LessonCheck.Proofs.Session.History

/-!
Line ends in the messages of a report. A string goes on past the end of its line, and it is the only
token that does, so of the program only a string can bring a line end into a message. The other way
in is an end of the permitted range. Where neither happens the text of a report has a line for each
diagnostic; where one does, the quoted text has lines of its own there.
-/

namespace LessonCheck

open Unicode

/-! ### Tokens of more than one line -/

/-- No step but that of a string takes a line end along. -/
theorem Cut.lineFeed_not_mem_raw {c : Char} (hc : c ≠ '\n') (hquote : c ≠ '"')
    (text : List Char) : '\n' ∉ (ofText c text).raw := by
  have htaken {text : List Char} (h : '\n' ∈ (ofText c text).raw) : '\n' ∈ text := by
    have hmem : '\n' ∈ c :: text := raw_append_rest c text ▸ List.mem_append_left _ h
    exact (List.mem_cons.mp hmem).resolve_left hc.symm
  intro hline
  -- The step is the same on the text in front of the first line end, and that text has none.
  obtain ⟨front, behind, rfl, hfront⟩ := List.eq_append_cons_of_mem (htaken hline)
  rw [ofText_append_newline hc fun h => absurd h hquote, raw_append] at hline
  exact hfront (htaken hline)

theorem Piece.lexeme_subset_raw (p : Piece) : p.lexeme ⊆ p.raw := by
  unfold raw
  split <;> intro c hc <;> simp [hc]

theorem Token.linesInStrings_ofText (source : String) : LinesInStrings (ofText source) := by
  intro t ht hline
  obtain ⟨front, c, rest, ts, -, hblank, -, hplace⟩ := exists_step ht
  have hpiece := Piece.piece_mem_of_mem_place hplace
  have hc : c ≠ '\n' := by
    rintro rfl
    rw [isBlank_newline] at hblank
    cases hblank
  by_cases hquote : c = '"'
  · subst hquote
    rw [Cut.ofText_quote] at hpiece
    exact Cut.kind_of_mem_one (Cut.exists_string rest) hpiece
  · refine absurd ?_ (Cut.lineFeed_not_mem_raw hc hquote rest)
    exact List.mem_flatMap.mpr ⟨t.piece, hpiece, t.piece.lexeme_subset_raw hline⟩

/-! ### Reports -/

/-- Where a line end in the message of a diagnostic comes from: the diagnostic is at a string that
goes on past its line, or at a char literal when the permitted range begins or ends with a line
end. -/
def Diagnostic.LineEndFrom (ts : Tokens) (settings : Settings) (d : Diagnostic) : Prop :=
  (∃ t ∈ ts, t.location = d.location ∧ '\n' ∈ t.lexeme.toList ∧
    (t.kind = .string ∨ t.kind = .faulty .unterminatedString)) ∨
  (settings.checkCharRange = true ∧ settings.charRange.LineEndAt ts d.location)

theorem Settings.charRange_of_meaningOptions {settings : Settings} {r : CharRange}
    (h : settings.meaningOptions.charRange = some r) :
    settings.checkCharRange = true ∧ settings.charRange = r := by
  unfold meaningOptions at h
  split at h
  · next hcheck => exact ⟨hcheck, Option.some.inj h⟩
  · cases h

namespace LexedText

variable (source : String)

theorem lineEndFrom_form (settings : Settings) {p : Located FormProblem}
    (hp : p ∈ (ofText source).formAnalysis.problems) (hline : '\n' ∈ p.diagnostic.message.toList) :
    p.diagnostic.LineEndFrom (Token.ofText source) settings := by
  have hts := Token.linesInStrings_ofText source
  obtain ⟨t, ht, hplace, htline⟩ := (quotesIn_formAnalysis hts).exists_token hp hline
  exact Or.inl ⟨t, ht, hplace, htline, hts t ht htline⟩

theorem lineEndFrom_meaning (settings : Settings) {p : Located MeaningProblem}
    (hp : p ∈ ((Token.ofText source).meaning settings.meaningOptions).problems)
    (hline : '\n' ∈ p.diagnostic.message.toList) :
    p.diagnostic.LineEndFrom (Token.ofText source) settings := by
  have hts := Token.linesInStrings_ofText source
  rcases Tokens.lineFeed_of_meaning hts hp hline with ⟨t, ht, hplace, htline⟩ | ⟨r, hr, hrange⟩
  · exact Or.inl ⟨t, ht, hplace, htline, hts t ht htline⟩
  · obtain ⟨hcheck, rfl⟩ := Settings.charRange_of_meaningOptions hr
    exact Or.inr ⟨hcheck, hrange⟩

end LexedText

@[simp] theorem Report.mem_diagnostics_form {a : FormAnalysis} {d : Diagnostic} :
    d ∈ a.report.diagnostics ↔ ∃ p ∈ a.problems, p.diagnostic = d := by
  simp [diagnostics, sections, FormAnalysis.report, ReportSection.ofProblems]

@[simp] theorem Report.mem_diagnostics_full {a : Analysis} {d : Diagnostic} :
    d ∈ a.report.diagnostics ↔ (∃ p ∈ a.form.problems, p.diagnostic = d) ∨
      ∃ p ∈ a.meaning.problems, p.diagnostic = d := by
  simp [diagnostics, sections, Analysis.report, ReportSection.ofProblems]

namespace Command

section
variable {source : String} (h : source.isEmpty = false) (settings : Settings)
include h

theorem report_formOnly :
    report settings true source = .ok (LexedText.ofText source).formAnalysis.report := by
  simp only [report, Session.fst_checkForm, FormAnalysis.ofSource, h]
  rfl

theorem report_full : report settings false source =
    .ok (Analysis.report ⟨(LexedText.ofText source).formAnalysis,
      (Token.ofText source).meaning settings.meaningOptions⟩) := by
  simp only [report, Session.fst_analyze]
  rw [Analysis.ofSource_of_nonempty h]
  rfl

/-- Split at the line ends, the text of a report is the headings and behind each of them the pieces
of its diagnostics, one for each diagnostic exactly if no message has a line end. A message that has
one is that of a problem at a string that goes on past its line, or at a char literal when the
permitted range begins or ends with a line end. -/
theorem report_lines (formOnly : Bool) :
    ∃ r, report settings formOnly source = .ok r ∧
      r.splitText = (r.sections.flatMap fun s => Report.headingLine s.1 s.2.length ::
        s.2.flatMap fun d => (Report.diagnosticLine d).splitOn '\n') ++ [[]] ∧
      (r.OneLineEach ↔ ∀ d ∈ r.diagnostics, '\n' ∉ d.message.toList) ∧
      ∀ d ∈ r.diagnostics, '\n' ∈ d.message.toList → d.LineEndFrom r.tokens settings := by
  cases formOnly with
  | true =>
      refine ⟨_, report_formOnly h settings, Report.splitText_eq _, Report.oneLineEach_iff, ?_⟩
      intro d hd hline
      obtain ⟨p, hp, rfl⟩ := Report.mem_diagnostics_form.mp hd
      exact LexedText.lineEndFrom_form source settings hp hline
  | false =>
      refine ⟨_, report_full h settings, Report.splitText_eq _, Report.oneLineEach_iff, ?_⟩
      intro d hd hline
      rcases Report.mem_diagnostics_full.mp hd with ⟨p, hp, rfl⟩ | ⟨p, hp, rfl⟩
      · exact LexedText.lineEndFrom_form source settings hp hline
      · exact LexedText.lineEndFrom_meaning source settings hp hline

end

/-- A string over three lines, quoted because it is no number. -/
theorem exists_lineFeed_string :
    ∃ p ∈ ((Token.ofText "int n = \"\nsemantic: ok\n\";").meaning
      Settings.standard.meaningOptions).problems,
      p.location = ⟨1, 9⟩ ∧ '\n' ∈ p.diagnostic.message.toList := by
  decide +kernel

theorem report_lines_string :
    ∃ r, report .standard false "int n = \"\nsemantic: ok\n\";" = .ok r ∧
      ∃ d ∈ r.diagnostics, d.location = ⟨1, 9⟩ ∧ '\n' ∈ d.message.toList ∧
        d.LineEndFrom r.tokens .standard := by
  have hsource : "int n = \"\nsemantic: ok\n\";".isEmpty = false := by decide
  obtain ⟨r, hr, -, -, hends⟩ := report_lines hsource .standard false
  obtain ⟨p, hp, hplace, hline⟩ := exists_lineFeed_string
  have hd : p.diagnostic ∈ r.diagnostics := by
    rw [report_full hsource] at hr
    obtain rfl := Except.ok.inj hr
    exact Report.mem_diagnostics_full.mpr (Or.inr ⟨p, hp, rfl⟩)
  exact ⟨r, hr, _, hd, hplace, hline, hends _ hd hline⟩

/-- There the text has a line that reads like the heading of a section without problems. -/
theorem not_oneLineEach_string :
    ∃ r, report .standard false "int n = \"\nsemantic: ok\n\";" = .ok r ∧
      "semantic: ok".toList ∈ r.splitText ∧ ¬ r.OneLineEach := by
  refine ⟨_, report_full (by decide) _, by decide +kernel, fun h => ?_⟩
  obtain ⟨p, hp, -, hline⟩ := exists_lineFeed_string
  refine Report.oneLineEach_iff.mp h p.diagnostic ?_ hline
  exact Report.mem_diagnostics_full.mpr (Or.inr ⟨p, hp, rfl⟩)

end Command

end LessonCheck
