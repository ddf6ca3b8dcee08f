import LessonCheck.Proofs.Quoted.Texts
import LessonCheck.Report.Basic
import Mathlib.Data.List.Basic

/-!
The lines of a report. The text of a report is put together from lines, each with its line end, and
a section is its heading with the diagnostics behind it. Split at the line ends, the text has these
lines again as long as no diagnostic has a line end of its own in its message; one that has is
several lines, and then the whole text has too many.
-/

namespace LessonCheck

/-- A stretch of texts with a line end behind each is split into the pieces of each of them. -/
theorem splitOn_append_lineFeed (line rest : List Char) :
    (line ++ '\n' :: rest).splitOn '\n' = line.splitOn '\n' ++ rest.splitOn '\n' :=
  List.splitOnP_append_cons line rest (beq_self_eq_true '\n')

theorem splitOn_of_not_mem {line : List Char} (h : '\n' ∉ line) : line.splitOn '\n' = [line] := by
  refine List.splitOnP_eq_singleton fun c hc => ?_
  rw [beq_eq_false_iff_ne]
  rintro rfl
  exact h hc

theorem length_splitOn (text : List Char) :
    (text.splitOn '\n').length = text.count '\n' + 1 := by
  induction text with
  | nil => rfl
  | cons c text ih =>
      rw [List.splitOn] at ih ⊢
      rw [List.splitOnP_cons_eq_if_modifyHead, List.count_cons]
      by_cases hc : (c == '\n') = true <;> simp [hc, ih]

/-- Pieces that are no more than there are texts are the texts themselves. -/
theorem not_mem_of_flatMap_splitOn {lines : List (List Char)}
    (h : (lines.flatMap (·.splitOn '\n')).length = lines.length) : ∀ line ∈ lines, '\n' ∉ line := by
  have hpieces (lines : List (List Char)) :
      lines.length ≤ (lines.flatMap (·.splitOn '\n')).length := by
    induction lines with
    | nil => exact Nat.le_refl 0
    | cons line lines ih =>
        rw [List.flatMap_cons, List.length_append, length_splitOn, List.length_cons]
        omega
  induction lines with
  | nil => simp
  | cons line lines ih =>
      have hrest := hpieces lines
      rw [List.flatMap_cons, List.length_append, length_splitOn, List.length_cons] at h
      rw [List.forall_mem_cons, ← List.count_eq_zero]
      exact ⟨by omega, ih (by omega)⟩

theorem splitOn_lines (lines : List (List Char)) :
    (lines.flatMap (· ++ ['\n'])).splitOn '\n' = lines.flatMap (·.splitOn '\n') ++ [[]] := by
  induction lines with
  | nil => rfl
  | cons line lines ih =>
      rw [List.flatMap_cons, List.append_assoc, List.singleton_append, splitOn_append_lineFeed, ih,
        List.flatMap_cons, List.append_assoc]

namespace Report

def headingLine (heading : String) (problems : Nat) : List Char :=
  (heading ++ ": " ++ verdict problems).toList

def diagnosticLine (d : Diagnostic) : List Char := ("  " ++ d.text).toList

/-- The lines that the text is put together from. -/
def lines (r : Report) : List (List Char) :=
  r.sections.flatMap fun s => headingLine s.1 s.2.length :: s.2.map diagnosticLine

/-- What the text is when it is split at the line ends. -/
def splitText (r : Report) : List (List Char) := r.toText.toList.splitOn '\n'

def diagnostics (r : Report) : List Diagnostic := r.sections.flatMap (·.2)

/-- Split at the line ends, the text is the heading of each section and behind it a line for each
diagnostic, in order, with nothing behind the last line end. -/
def OneLineEach (r : Report) : Prop := r.splitText = r.lines ++ [[]]

theorem toList_sectionText (heading : String) (ds : List Diagnostic) :
    (sectionText heading ds).toList =
      (headingLine heading ds.length :: ds.map diagnosticLine).flatMap (· ++ ['\n']) := by
  simp [sectionText, headingLine, diagnosticLine, List.flatMap_map]

theorem toList_toText (r : Report) : r.toText.toList = r.lines.flatMap (· ++ ['\n']) := by
  rw [toText, String.toList_join, List.flatMap_map, lines, List.flatMap_assoc]
  simp only [toList_sectionText]

theorem heading_cases {r : Report} {s : String × List Diagnostic} (hs : s ∈ r.sections) :
    s.1 = "syntax" ∨ s.1 = "semantic" := by
  unfold sections at hs
  rcases List.mem_cons.mp hs with rfl | hs
  · exact Or.inl rfl
  · split at hs
    · rw [List.mem_singleton.mp hs]
      exact Or.inr rfl
    · cases hs

theorem lineFeed_not_mem_headingLine {r : Report} {s : String × List Diagnostic}
    (hs : s ∈ r.sections) : '\n' ∉ headingLine s.1 s.2.length := by
  have hverdict : '\n' ∉ (verdict s.2.length).toList := by
    unfold verdict
    split
    · decide
    · decide
    · simp [lineFeed_not_mem_toDigits]
  rcases heading_cases hs with h | h <;> simp [headingLine, h, hverdict]

theorem lineFeed_mem_diagnosticLine {d : Diagnostic} :
    '\n' ∈ diagnosticLine d ↔ '\n' ∈ d.message.toList := by
  simp [diagnosticLine, Diagnostic.text, lineFeed_not_mem_toDigits]

/-- Only a diagnostic can give more than its line. -/
theorem splitText_eq (r : Report) : r.splitText =
    (r.sections.flatMap fun s => headingLine s.1 s.2.length ::
      s.2.flatMap fun d => (diagnosticLine d).splitOn '\n') ++ [[]] := by
  rw [splitText, toList_toText, splitOn_lines, lines, List.flatMap_assoc]
  refine congrArg (· ++ [[]]) (List.flatMap_congr fun s hs => ?_)
  rw [List.flatMap_cons, splitOn_of_not_mem (lineFeed_not_mem_headingLine hs), List.flatMap_map,
    List.singleton_append]

theorem oneLineEach_iff {r : Report} :
    r.OneLineEach ↔ ∀ d ∈ r.diagnostics, '\n' ∉ d.message.toList := by
  rw [OneLineEach, splitText, toList_toText, splitOn_lines, List.append_cancel_right_eq]
  constructor
  · intro h d hd
    obtain ⟨s, hs, hds⟩ := List.mem_flatMap.mp hd
    have hline : diagnosticLine d ∈ r.lines :=
      List.mem_flatMap.mpr ⟨s, hs, List.mem_cons_of_mem _ (List.mem_map_of_mem hds)⟩
    rw [← lineFeed_mem_diagnosticLine]
    exact not_mem_of_flatMap_splitOn (congrArg List.length h) _ hline
  · intro h
    have hlines : ∀ line ∈ r.lines, line.splitOn '\n' = [line] := by
      intro line hline
      obtain ⟨s, hs, hline⟩ := List.mem_flatMap.mp hline
      refine splitOn_of_not_mem ?_
      rcases List.mem_cons.mp hline with rfl | hline
      · exact lineFeed_not_mem_headingLine hs
      · obtain ⟨d, hd, rfl⟩ := List.mem_map.mp hline
        rw [lineFeed_mem_diagnosticLine]
        exact h d (List.mem_flatMap.mpr ⟨s, hs, hd⟩)
    rw [List.flatMap_congr hlines, List.flatMap_singleton']

end Report

end LessonCheck
