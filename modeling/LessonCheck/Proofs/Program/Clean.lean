import LessonCheck.Proofs.Program.Lexemes
import LessonCheck.Proofs.Program.Meaning

/-!
Programs without mistakes are not reported. Whatever blanks a program is written with, the lexer
finds its pieces; at every place of them the checks of form and the passes over the meaning are
silent; so the analysis is clean, in any session and under any settings that permit the characters
of the program.
-/

namespace LessonCheck

namespace Program

theorem spells_ne_nil {ps : List Piece} (hps : ps ≠ []) (hregular : AllRegular ps)
    {text : List Char} (h : Spells ps text) : text ≠ [] := by
  rintro rfl
  have hscan := scan_of_spells h hregular .start
  rw [Token.scan_nil] at hscan
  exact hps hscan.symm

theorem pieces_ne_nil {P : Program} (hP : P ≠ .done) : P.pieces ≠ [] := by
  cases P with
  | done => exact absurd rfl hP
  | statement first next =>
      cases first with
      | print qualified line arguments =>
          cases qualified <;> simp [pieces, Statement.pieces, outputPath]
      | _ => simp [pieces, Statement.pieces]
  | loop head body next => simp [pieces, LoopHead.pieces]

end Program

open Program

/-- A program that is not empty, declares no name twice, has well-typed values and keeps to the
permitted characters is not reported, however it is written out. -/
theorem clean_of_wellTyped (s : Session) {P : Program} {source : String} (hP : P ≠ .done)
    (hdistinct : Distinct P.declared) (htyped : P.WellTyped P.declared)
    (hchars : P.Permitted s.settings.meaningOptions) (hsource : Spells P.pieces source.toList) :
    ∃ a, (s.analyze source).1 = .ok a ∧ (s.checkForm source).1 = .ok a.form ∧
      a.form.problems = [] ∧ a.meaning.problems = [] := by
  have hregular := allRegular_pieces P
  have hts := scan_of_spells hsource hregular .start
  have hne : source.isEmpty = false := by
    have htext := spells_ne_nil (pieces_ne_nil hP) hregular hsource
    simpa using htext
  have hok := Analysis.ofSource_of_nonempty hne s.settings.meaningOptions
  refine ⟨_, (s.fst_analyze source).trans hok, ?_, ?_⟩
  · rw [s.fst_checkForm, FormAnalysis.ofSource, hne]
    rfl
  · refine (Analysis.clean_iff hok).mpr ⟨?_, ?_, ?_⟩
    · intro t ht
      have hpiece : t.piece ∈ P.pieces := hts ▸ List.mem_map_of_mem ht
      exact (hregular t.piece hpiece).whole t rfl
    · exact formProblems_eq_nil htyped hts
    · exact problems_meaning_eq_nil htyped hdistinct hchars hts

namespace Program

/-- A declaration of each sort, and a loop around an assignment and two calls. -/
def sample : Program :=
  let s : VariableName := ⟨"s", by decide +kernel, by decide, by decide⟩
  let n : VariableName := ⟨"n", by decide +kernel, by decide, by decide⟩
  let i : VariableName := ⟨"i", by decide +kernel, by decide, by decide⟩
  let c : VariableName := ⟨"c", by decide +kernel, by decide, by decide⟩
  .statement (.define .string s (.literal (.text ⟨"a\\n".toList, by decide⟩))) <|
  .statement (.declare .long n) <|
  .statement (.define .char c (.literal (.char ⟨'q', by decide⟩))) <|
  .loop ⟨i, .declare .int (.whole ⟨"0".toList, by decide⟩), .le, .var n, .step .up⟩
    (.statement (.assign n (.var i)) <|
      .statement (.call s ⟨"trim", by decide⟩) <|
      .statement (.print true true [.var s, .var i]) .done)
    .done

def sampleText : String :=
  "String s = \"a\\n\"; long n; char c='q';
  for (int i = 0; i <= n; i++) \x7b
    n=i; s.trim(); System.out.println(s + i);
  \x7d"

theorem wellTyped_sample : sample.WellTyped sample.declared := by
  refine ⟨rfl, trivial, rfl, ⟨.int, by decide, ⟨rfl, rfl, by decide⟩, ⟨.long, by decide, rfl⟩,
    trivial⟩, ⟨⟨.long, by decide, .int, by decide, rfl⟩, ?_, ?_, trivial⟩, trivial⟩
  · show (_, VariableType.string) ∈ _
    decide
  · exact List.forall_mem_cons.mpr ⟨⟨.string, by decide⟩,
      List.forall_mem_singleton.mpr ⟨.int, by decide⟩⟩

end Program

theorem clean_of_wellTyped_sample :
    ∃ a, ((Session.new .standard).analyze sampleText).1 = .ok a ∧
      ((Session.new .standard).checkForm sampleText).1 = .ok a.form ∧
      a.form.problems = [] ∧ a.meaning.problems = [] := by
  refine clean_of_wellTyped _ (P := sample) nofun ?_ wellTyped_sample ?_ (.of_isSpelled ?_)
  · unfold Distinct
    decide
  · unfold Permitted
    decide +kernel
  · decide +kernel

end LessonCheck
