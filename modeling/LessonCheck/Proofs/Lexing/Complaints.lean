import LessonCheck.Proofs.Access.Lexing
import LessonCheck.Proofs.Lexing.Escapes
import LessonCheck.Proofs.Session.Clean
import Mathlib.Data.List.Forall2

/-!
What the lexer complains about. The complaints about a text are those about its tokens, token by
token and each at its place: one about a character that the lexer does not know, one about a literal
that is broken, one about each illegal escape of a whole string, and none about anything else. The
lexer makes them here and there while it reads and looks strings up in its cache, and all the same
nothing is left out, said twice or out of order.
-/

namespace LessonCheck

/-! ### What is due for a token -/

def Token.say (t : Token) (messages : List String) : List Diagnostic :=
  messages.map (Diagnostic.mk t.location)

/-- The diagnostics that are due for the token, in their order. -/
inductive Due (t : Token) : List Diagnostic → Prop
  | unknown : t.kind = .unknown → Due t (t.say ["unrecognized character '" ++ t.lexeme ++ "'"])
  | unterminatedString : t.kind = .faulty .unterminatedString →
      Due t (t.say ["unterminated string literal, missing closing '\"'"])
  | emptyChar : t.kind = .faulty .emptyChar → Due t (t.say ["empty char literal"])
  | invalidChar : t.kind = .faulty .invalidChar →
      Due t (t.say ["invalid char literal " ++ t.lexeme ++ ", expected exactly one character"])
  /-- One for each illegal escape of a whole string, from left to right. -/
  | string (escapes : List InvalidEscape) : t.kind = .string →
      (∀ e, e ∈ escapes ↔ e.StandsIn t.lexeme) →
      escapes.Pairwise (fun e e' => e.offset < e'.offset) →
      Due t (t.say (escapes.map fun e =>
        "illegal escape sequence '" ++ e.sequence ++ "' in string literal"))
  | quiet : t.kind ≠ .unknown → t.kind.isFaulty = false → t.kind ≠ .string → Due t []

/-- What is due is settled by the token. -/
theorem Due.unique {t : Token} {ds ds' : List Diagnostic} (h : Due t ds) (h' : Due t ds') :
    ds = ds' := by
  cases h with
  | string escapes hkind hmem hsorted =>
      cases h' with
      | string escapes' _ hmem' hsorted' =>
          rw [InvalidEscape.list_unique hmem hsorted hmem' hsorted']
      | _ => simp_all
  | _ => cases h' <;> simp_all [Token.Kind.isFaulty]

/-- There is nothing to be said of the token. -/
structure Token.IsFaultless (t : Token) : Prop where
  known : t.kind ≠ .unknown
  whole : t.kind.isFaulty = false
  legal : t.kind = .string → ∀ e : InvalidEscape, ¬ e.StandsIn t.lexeme

/-- The lexer has no complaint about the tokens of which there is nothing to be said. -/
theorem Token.isWhole_iff (t : Token) : t.IsWhole ↔ t.IsFaultless := by
  unfold IsWhole LexicalProblem.ofToken
  cases hkind : t.kind with
  | unknown => exact iff_of_false (by simp) fun h => h.known hkind
  | faulty fault =>
      refine iff_of_false (by cases fault <;> simp) fun h => ?_
      have hwhole := h.whole
      rw [hkind] at hwhole
      cases hwhole
  | string =>
      have hknown : t.kind ≠ .unknown := by simp [hkind]
      have hwhole : t.kind.isFaulty = false := by simp [hkind, Kind.isFaulty]
      refine List.map_eq_nil_iff.trans (List.eq_nil_iff_forall_not_mem.trans ?_)
      simp only [InvalidEscape.mem_ofLiteral]
      exact ⟨fun h => ⟨hknown, hwhole, fun _ => h⟩, fun h => h.legal hkind⟩
  | _ =>
      have hstring : t.kind ≠ .string := by simp [hkind]
      exact iff_of_true rfl ⟨by simp [hkind], by simp [hkind, Kind.isFaulty],
        fun h => absurd h hstring⟩

namespace LexedText

/-- The complaints about a single token. -/
def tokenProblems (t : Token) : List (Located LexicalProblem) :=
  (ofToken t (InvalidEscape.ofLiteral t.lexeme)).problems

theorem due_tokenProblems (t : Token) : Due t ((tokenProblems t).map (·.diagnostic)) := by
  have hsay : (tokenProblems t).map (·.diagnostic) = t.say
      ((LexicalProblem.ofToken (InvalidEscape.ofLiteral t.lexeme) t).map (·.message)) := by
    simp only [tokenProblems, ofToken, Token.say, List.map_map]
    rfl
  rw [hsay]
  cases hkind : t.kind with
  | unknown =>
      simp only [LexicalProblem.ofToken, hkind]
      exact .unknown hkind
  | faulty fault =>
      simp only [LexicalProblem.ofToken, hkind]
      cases fault with
      | unterminatedString => exact .unterminatedString hkind
      | emptyChar => exact .emptyChar hkind
      | invalidChar => exact .invalidChar hkind
  | string =>
      simp only [LexicalProblem.ofToken, hkind, List.map_map]
      exact .string _ hkind (fun e => InvalidEscape.mem_ofLiteral) (InvalidEscape.pairwise_scan 0 _)
  | _ =>
      simp only [LexicalProblem.ofToken, hkind]
      exact .quiet (by simp [hkind]) (by simp [hkind, Token.Kind.isFaulty]) (by simp [hkind])

theorem location_of_mem_tokenProblems {t : Token} {p : Located LexicalProblem}
    (h : p ∈ tokenProblems t) : p.location = t.location := by
  obtain ⟨_, _, rfl⟩ := List.mem_map.mp h
  rfl

/-- The complaints are what is due for the tokens. -/
structure IsExact (lexed : LexedText) : Prop where
  due : ∃! parts, List.Forall₂ Due lexed.tokens parts ∧
    lexed.problems.map (·.diagnostic) = parts.flatten
  silent : lexed.problems = [] ↔ ∀ t ∈ lexed.tokens, t.IsFaultless
  ordered : (lexed.problems.map (·.location)).Pairwise fun a b => a.le b = true

theorem isExact_ofText (source : String) : (ofText source).IsExact where
  due := by
    have hdue : List.Forall₂ Due (Token.ofText source)
        ((Token.ofText source).map fun t => (tokenProblems t).map (·.diagnostic)) := by
      rw [List.forall₂_map_right_iff]
      exact List.forall₂_same.mpr fun t _ => due_tokenProblems t
    refine ⟨_, ⟨hdue, List.map_flatMap⟩, fun parts hparts => ?_⟩
    exact List.right_unique_forall₂' (fun _ _ _ h h' => h.unique h') hparts.1 hdue
  silent := problems_ofText_eq_nil_iff.trans (forall₂_congr fun t _ => t.isWhole_iff)
  ordered := by
    have hflat : (ofText source).problems = (Token.ofText source).flatMap tokenProblems := rfl
    have htokens := List.pairwise_map.mp (Laid.scan .start source.toList).pairwise
    rw [hflat, List.pairwise_map, List.pairwise_flatMap]
    constructor
    · intro t _
      refine List.pairwise_of_forall_mem_list fun p hp q hq => ?_
      rw [location_of_mem_tokenProblems hp, location_of_mem_tokenProblems hq]
      exact Location.le_refl t.location
    · refine htokens.imp fun {t u} htu p hp q hq => ?_
      rw [location_of_mem_tokenProblems hp, location_of_mem_tokenProblems hq]
      exact htu

end LexedText

/-- Reading a text by offsets, with the complaints made wherever the lexer comes upon their causes
and the strings looked up in the cache, leaves exactly what is due for its tokens. -/
theorem complaints_exact (cache : TextCache) (source : String) :
    cache.lexByOffset source = .ok (cache.lex source) ∧ (cache.lex source).1.IsExact := by
  refine ⟨cache.lexByOffset_eq source, ?_⟩
  rw [TextCache.lex_eq]
  exact LexedText.isExact_ofText source

end LessonCheck
