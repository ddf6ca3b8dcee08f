import LessonCheck.Proofs.Lexing.Closing

/-!
Char literals. What an apostrophe makes of the text behind it is settled on its line: if the literal
closes there, it depends on the number of characters in front of the closing apostrophe, and if it
does not, the rest of the line is at fault.
-/

namespace LessonCheck

/-- The literal closes behind `inside`, and its line goes on up to there. -/
structure ClosesOnLine (text inside rest : List Char) : Prop where
  closes : Quoted.Closes '\'' text inside rest
  line : '\n' ∉ inside

/-- The token is what an apostrophe makes of the text behind it. -/
structure Token.ReadsChar (t : Token) (text : List Char) : Prop where
  single : ∀ c rest, ClosesOnLine text [c] rest → t.kind = .char ∧ t.lexeme.toList = [c]
  empty : ∀ rest, ClosesOnLine text [] rest →
    t.kind = .faulty .emptyChar ∧ t.lexeme.toList = ['\'', '\'']
  several : ∀ inside rest, ClosesOnLine text inside rest → 1 < inside.length →
    t.kind = .faulty .invalidChar ∧ t.lexeme.toList = '\'' :: (inside ++ ['\''])
  unclosed : (∀ inside rest, ¬ ClosesOnLine text inside rest) →
    t.kind = .faulty .invalidChar ∧ t.lexeme.toList = '\'' :: text.takeWhile (· != '\n')

namespace ClosesOnLine

variable {text inside rest : List Char}

theorem scan_eq (h : ClosesOnLine text inside rest) :
    Quoted.scan '\'' (· == '\n') text = ⟨inside, true, rest⟩ := by
  refine (Quoted.scan_eq_closed_iff (by decide) rfl).mpr ⟨h.closes, fun c hc => ?_⟩
  rw [beq_eq_false_iff_ne]
  rintro rfl
  exact h.line hc

theorem scan_of_none (h : ∀ inside rest, ¬ ClosesOnLine text inside rest) :
    Quoted.scan '\'' (· == '\n') text =
      ⟨text.takeWhile (· != '\n'), false, text.dropWhile (· != '\n')⟩ := by
  refine Quoted.scan_of_not_closes (by decide) rfl fun inside rest hcloses => ?_
  have hline : '\n' ∈ inside := by
    by_contra hline
    exact h inside rest ⟨hcloses, hline⟩
  exact ⟨'\n', hline, rfl⟩

/-- One character between apostrophes is neither of the two that mean something there. -/
theorem single_ne {c : Char} (h : ClosesOnLine text [c] rest) : c ≠ '\'' ∧ c ≠ '\\' ∧ c ≠ '\n' := by
  refine ⟨?_, ?_, ?_⟩
  · rintro rfl
    exact h.closes.first [] [] rfl Quoted.even_backslashRun_nil
  · rintro rfl
    have heven := h.closes.even
    simp [backslashRun] at heven
  · rintro rfl
    exact h.line List.mem_cons_self

end ClosesOnLine

section
variable {source : String} {t : Token} {before text : List Char}

theorem Tokens.StartsAt.readsChar
    (h : (Token.ofText source).StartsAt source t before ('\'' :: text)) : t.ReadsChar text := by
  have hfirst := (h.leads (by decide)).first
  rw [Cut.ofText_apostrophe, Cut.char] at hfirst
  constructor
  · intro c rest hcloses
    rw [hcloses.scan_eq] at hfirst
    exact Piece.mk.inj (Option.some.inj hfirst).symm
  · intro rest hcloses
    rw [hcloses.scan_eq] at hfirst
    exact Piece.mk.inj (Option.some.inj hfirst).symm
  · intro inside rest hcloses hlength
    rw [hcloses.scan_eq] at hfirst
    rcases inside with _ | ⟨c, _ | ⟨d, inside⟩⟩
    · cases hlength
    · exact absurd hlength (by simp)
    · exact Piece.mk.inj (Option.some.inj hfirst).symm
  · intro hnone
    rw [ClosesOnLine.scan_of_none hnone] at hfirst
    exact Piece.mk.inj (Option.some.inj hfirst).symm

/-- A token that an apostrophe begins, faulty or not. -/
def Token.IsCharLiteral (t : Token) : Prop :=
  t.kind = .char ∨ t.kind = .faulty .emptyChar ∨ t.kind = .faulty .invalidChar

theorem exists_readsChar (ht : t ∈ Token.ofText source) (hkind : t.IsCharLiteral) :
    ∃ text, t.ReadsChar text := by
  obtain ⟨before, c, text, hstarts⟩ := exists_startsAt ht
  have hbegins := hstarts.beginsWith
  obtain rfl : c = '\'' := by
    rcases hkind with hkind | hkind | hkind <;> rw [hkind] at hbegins <;> exact hbegins
  exact ⟨text, hstarts.readsChar⟩

namespace Token.ReadsChar

/-- The text that the token stands for, apostrophes included, if the literal closes. -/
theorem raw_of_closes {inside rest : List Char} (h : t.ReadsChar text)
    (hcloses : ClosesOnLine text inside rest) : t.raw = '\'' :: (inside ++ ['\'']) := by
  rcases inside with _ | ⟨c, _ | ⟨d, inside⟩⟩
  · obtain ⟨hkind, hlexeme⟩ := h.empty rest hcloses
    simp [Token.raw, hkind, hlexeme]
  · obtain ⟨hkind, hlexeme⟩ := h.single c rest hcloses
    simp [Token.raw, hkind, hlexeme]
  · obtain ⟨hkind, hlexeme⟩ := h.several _ rest hcloses (by simp)
    simp [Token.raw, hkind, hlexeme]

theorem newline_not_mem_raw (h : t.ReadsChar text) : '\n' ∉ t.raw := by
  by_cases hcloses : ∃ inside rest, ClosesOnLine text inside rest
  · obtain ⟨inside, rest, hcloses⟩ := hcloses
    rw [h.raw_of_closes hcloses]
    simp [hcloses.line]
  · obtain ⟨hkind, hlexeme⟩ := h.unclosed fun inside rest hone => hcloses ⟨inside, rest, hone⟩
    have htake : '\n' ∉ text.takeWhile (· != '\n') := by
      intro hmem
      have hne := List.mem_takeWhile_imp hmem
      simp at hne
    simp [Token.raw, hkind, hlexeme, htake]

theorem exists_single (h : t.ReadsChar text) (hkind : t.kind = .char) :
    ∃ c, t.lexeme.toList = [c] ∧ c ≠ '\'' ∧ c ≠ '\\' ∧ c ≠ '\n' := by
  by_cases hcloses : ∃ inside rest, ClosesOnLine text inside rest
  · obtain ⟨inside, rest, hcloses⟩ := hcloses
    rcases inside with _ | ⟨c, _ | ⟨d, inside⟩⟩
    · simp [(h.empty rest hcloses).1] at hkind
    · exact ⟨c, (h.single c rest hcloses).2, hcloses.single_ne⟩
    · simp [(h.several _ rest hcloses (by simp)).1] at hkind
  · have hfaulty := (h.unclosed fun inside rest hone => hcloses ⟨inside, rest, hone⟩).1
    simp [hfaulty] at hkind

end Token.ReadsChar

end

/-- An apostrophe that begins a token makes a char of the one character in front of the closing
apostrophe, an empty literal if there is none and an invalid one if there are more; without a
closing apostrophe on the line the literal is invalid and goes up to the end of the line. So such a
token stays on its line, and a char is neither an apostrophe nor a backslash nor a line end. -/
theorem charLiterals_classified (cache : TextCache) (source : String) :
    cache.lexByOffset source = .ok (cache.lex source) ∧
    (∀ t before text, (cache.lex source).1.tokens.StartsAt source t before ('\'' :: text) →
      t.ReadsChar text) ∧
    (∀ t ∈ (cache.lex source).1.tokens, t.IsCharLiteral → '\n' ∉ t.raw) ∧
    ∀ t ∈ (cache.lex source).1.tokens, t.kind = .char →
      ∃ c, t.lexeme.toList = [c] ∧ c ≠ '\'' ∧ c ≠ '\\' ∧ c ≠ '\n' := by
  refine ⟨cache.lexByOffset_eq source, ?_⟩
  rw [TextCache.lex_eq]
  refine ⟨fun t before text h => h.readsChar, fun t ht hkind => ?_, fun t ht hkind => ?_⟩
  · obtain ⟨text, hreads⟩ := exists_readsChar ht hkind
    exact hreads.newline_not_mem_raw
  · obtain ⟨text, hreads⟩ := exists_readsChar ht (Or.inl hkind)
    exact hreads.exists_single hkind

end LessonCheck
