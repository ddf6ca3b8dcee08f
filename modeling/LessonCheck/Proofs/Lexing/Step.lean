import LessonCheck.Lexing.Cut

/-!
One step of the lexer, by its branches. The character that a step begins with settles the branch,
and so what kinds of token the step can cut off. An operator takes a second character where the two
make one operator; of three like signs the third is cut off along with `++` or `--`.
-/

namespace LessonCheck

/-- A token of the kind can begin with the character. Marks and stray characters are left open. -/
def Token.Kind.BeginsWith (c : Char) : Token.Kind → Prop
  | .identifier | .keyword => Cut.isWordStart c = true
  | .number | .float => c.isDigit = true
  | .string | .faulty .unterminatedString => c = '"'
  | .char | .faulty .emptyChar | .faulty .invalidChar => c = '\''
  | .operator => Cut.isOperatorChar c = true
  | _ => True

namespace Cut

/-! ### Operators -/

/-- The operators of two characters. -/
def doubleOperators : List (Char × Char) :=
  [('+', '+'), ('-', '-'), ('+', '='), ('-', '='), ('*', '='), ('/', '='), ('<', '='), ('>', '='),
   ('=', '='), ('!', '='), ('&', '&'), ('|', '|')]

theorem mem_doubleOperators {c d : Char} :
    (c, d) ∈ doubleOperators ↔ c = d ∧ c ∈ ['+', '-'] ∨ joins c d = true := by
  simp [doubleOperators, joins]
  grind

/-- A sign is doubled by the same sign, and it may stand in front of an equals sign. -/
theorem mem_doubleOperators_sign {c d : Char} (hc : c ∈ ['+', '-']) :
    (c, d) ∈ doubleOperators ↔ d = c ∨ d = '=' := by
  simp only [List.mem_cons, List.not_mem_nil, or_false] at hc
  rcases hc with rfl | rfl <;> simp [doubleOperators]

theorem isOperatorChar_of_sign {c : Char} (h : c ∈ ['+', '-']) : isOperatorChar c = true := by
  simp only [List.mem_cons, List.not_mem_nil, or_false] at h
  rcases h with rfl | rfl <;> rfl

theorem operator_sign {c : Char} (hc : c ∈ ['+', '-']) (text : List Char) :
    operator c (c :: text) = increment c text := by
  simp only [List.mem_cons, List.not_mem_nil, or_false] at hc
  simp [operator, hc]

theorem operator_of_not_sign {c d : Char} (h : ¬ (c = d ∧ c ∈ ['+', '-'])) (text : List Char) :
    operator c (d :: text) =
      if joins c d then one .operator [c, d] text else one .operator [c] (d :: text) := by
  have hsign : (decide (c = d) && ['+', '-'].contains c) = false := by
    simpa only [← Bool.not_eq_true, Bool.and_eq_true, decide_eq_true_eq, List.contains_iff_mem]
      using h
  simp only [operator, hsign, Bool.false_eq_true, if_false]

theorem operator_triple {c : Char} (hc : c ∈ ['+', '-']) (text : List Char) :
    operator c (c :: c :: text) = ⟨[⟨.operator, [c, c]⟩, ⟨.operator, [c]⟩], text⟩ := by
  rw [operator_sign hc]
  simp [increment]

theorem operator_double {c d : Char} {text : List Char} (h : (c, d) ∈ doubleOperators)
    (hthird : d = c → c ∈ ['+', '-'] → text.head? ≠ some c) :
    operator c (d :: text) = one .operator [c, d] text := by
  by_cases hsign : c = d ∧ c ∈ ['+', '-']
  · obtain ⟨rfl, hc⟩ := hsign
    rw [operator_sign hc]
    cases text with
    | nil => rfl
    | cons e text =>
        have he : e ≠ c := by simpa using hthird rfl hc
        simp [increment, he]
  · rw [operator_of_not_sign hsign, if_pos ((mem_doubleOperators.mp h).resolve_left hsign)]

theorem operator_lone {c d : Char} (h : (c, d) ∉ doubleOperators) (text : List Char) :
    operator c (d :: text) = one .operator [c] (d :: text) := by
  rw [mem_doubleOperators, not_or] at h
  rw [operator_of_not_sign h.1, if_neg h.2]

/-- What the branch for operators does. -/
theorem operator_cases (c : Char) (text : List Char) :
    (∃ d rest, text = d :: rest ∧ (c, d) ∈ doubleOperators ∧
      operator c text = one .operator [c, d] rest) ∨
    ((∀ d ∈ text.head?, (c, d) ∉ doubleOperators) ∧ operator c text = one .operator [c] text) ∨
    ∃ rest, c ∈ ['+', '-'] ∧ text = c :: c :: rest ∧
      operator c text = ⟨[⟨.operator, [c, c]⟩, ⟨.operator, [c]⟩], rest⟩ := by
  cases text with
  | nil => exact Or.inr (Or.inl ⟨by simp, rfl⟩)
  | cons d text =>
      by_cases hdouble : (c, d) ∈ doubleOperators
      · by_cases hthird : d = c ∧ c ∈ ['+', '-'] ∧ text.head? = some c
        · obtain ⟨rfl, hsign, hhead⟩ := hthird
          obtain ⟨text, rfl⟩ := List.head?_eq_some_iff.mp hhead
          exact Or.inr (Or.inr ⟨text, hsign, rfl, operator_triple hsign text⟩)
        · exact Or.inl ⟨d, text, rfl, hdouble, operator_double hdouble
            fun heq hsign hhead => hthird ⟨heq, hsign, hhead⟩⟩
      · exact Or.inr (Or.inl ⟨by simpa using hdouble, operator_lone hdouble text⟩)

theorem kind_of_mem_operator {c : Char} {text : List Char} {p : Piece}
    (h : p ∈ (operator c text).pieces) : p.kind = .operator := by
  rcases operator_cases c text with ⟨d, rest, -, -, hcut⟩ | ⟨-, hcut⟩ | ⟨rest, -, -, hcut⟩
  · rw [hcut] at h
    rw [List.mem_singleton.mp h]
  · rw [hcut] at h
    rw [List.mem_singleton.mp h]
  · rw [hcut] at h
    simp only [List.mem_cons, List.not_mem_nil, or_false] at h
    rcases h with rfl | rfl <;> rfl

/-! ### All branches -/

/-- The branch that a step takes. -/
inductive Branch (c : Char) (text : List Char) : Cut → Prop
  | operator : isOperatorChar c = true → Branch c text (operator c text)
  | mark {kind : Token.Kind} : punctuation? c = some kind → Branch c text (one kind [c] text)
  | string : c = '"' → Branch c text (string text)
  | char : c = '\'' → Branch c text (char text)
  | word : isWordStart c = true → Branch c text (word c text)
  | number : c.isDigit = true → Branch c text (number c text)
  | unknown : Branch c text (one .unknown [c] text)

theorem branch_ofText (c : Char) (text : List Char) : Branch c text (ofText c text) := by
  unfold ofText
  split
  · next h => exact .operator h
  · split
    · next h => exact .mark h
    · split
      · next h => exact .string h
      · split
        · next h => exact .char h
        · split
          · next h => exact .word h
          · split
            · next h => exact .number h
            · exact .unknown

theorem exists_string (text : List Char) :
    ∃ kind lexeme rest, string text = one kind lexeme rest ∧
      (kind = .string ∨ kind = .faulty .unterminatedString) := by
  unfold string
  simp only
  split
  · exact ⟨_, _, _, rfl, Or.inl rfl⟩
  · exact ⟨_, _, _, rfl, Or.inr rfl⟩

theorem exists_char (text : List Char) :
    ∃ kind lexeme rest, char text = one kind lexeme rest ∧
      (kind = .char ∨ kind = .faulty .emptyChar ∨ kind = .faulty .invalidChar) := by
  unfold char
  simp only
  split
  · exact ⟨_, _, _, rfl, Or.inr (Or.inl rfl)⟩
  · exact ⟨_, _, _, rfl, Or.inl rfl⟩
  · exact ⟨_, _, _, rfl, Or.inr (Or.inr rfl)⟩

theorem exists_word (c : Char) (text : List Char) :
    ∃ kind lexeme rest, word c text = one kind lexeme rest ∧
      (kind = .identifier ∨ kind = .keyword) := by
  refine ⟨_, _, _, rfl, ?_⟩
  unfold wordKind
  split
  · exact Or.inr rfl
  · exact Or.inl rfl

theorem exists_number (c : Char) (text : List Char) :
    ∃ kind lexeme rest, number c text = one kind lexeme rest ∧
      (kind = .number ∨ kind = .float) := by
  unfold number
  simp only
  split
  · split
    · exact ⟨_, _, _, rfl, Or.inr rfl⟩
    · exact ⟨_, _, _, rfl, Or.inl rfl⟩
  · exact ⟨_, _, _, rfl, Or.inl rfl⟩

theorem kind_of_mem_one {cut : Cut} {P : Token.Kind → Prop} {p : Piece}
    (hcut : ∃ kind lexeme rest, cut = one kind lexeme rest ∧ P kind) (h : p ∈ cut.pieces) :
    P p.kind := by
  obtain ⟨kind, lexeme, rest, rfl, hkind⟩ := hcut
  obtain rfl := List.mem_singleton.mp h
  exact hkind

/-- A step cuts off one piece, or three like signs at once. -/
theorem pieces_cases (c : Char) (text : List Char) :
    (∃ p, (ofText c text).pieces = [p]) ∨
      ∃ rest, c ∈ ['+', '-'] ∧ text = c :: c :: rest ∧
        ofText c text = ⟨[⟨.operator, [c, c]⟩, ⟨.operator, [c]⟩], rest⟩ := by
  have hbranch := branch_ofText c text
  generalize ofText c text = cut at hbranch ⊢
  cases hbranch with
  | operator h =>
      rcases operator_cases c text with ⟨d, rest, -, -, hcut⟩ | ⟨-, hcut⟩ | htriple
      · exact Or.inl ⟨_, congrArg pieces hcut⟩
      · exact Or.inl ⟨_, congrArg pieces hcut⟩
      · exact Or.inr htriple
  | mark h => exact Or.inl ⟨_, rfl⟩
  | string h =>
      obtain ⟨kind, lexeme, rest, hcut, -⟩ := exists_string text
      exact Or.inl ⟨_, congrArg pieces hcut⟩
  | char h =>
      obtain ⟨kind, lexeme, rest, hcut, -⟩ := exists_char text
      exact Or.inl ⟨_, congrArg pieces hcut⟩
  | word h =>
      obtain ⟨kind, lexeme, rest, hcut, -⟩ := exists_word c text
      exact Or.inl ⟨_, congrArg pieces hcut⟩
  | number h =>
      obtain ⟨kind, lexeme, rest, hcut, -⟩ := exists_number c text
      exact Or.inl ⟨_, congrArg pieces hcut⟩
  | unknown => exact Or.inl ⟨_, rfl⟩

theorem beginsWith_of_mem {c : Char} {text : List Char} {p : Piece}
    (h : p ∈ (ofText c text).pieces) : p.kind.BeginsWith c := by
  have hbranch := branch_ofText c text
  generalize ofText c text = cut at hbranch h
  cases hbranch with
  | operator hc =>
      rw [kind_of_mem_operator h]
      exact hc
  | mark hc =>
      obtain rfl := List.mem_singleton.mp h
      unfold punctuation? at hc
      split at hc <;> cases hc <;> exact True.intro
  | string hc =>
      rcases kind_of_mem_one (exists_string text) h with hkind | hkind <;> rw [hkind] <;> exact hc
  | char hc =>
      rcases kind_of_mem_one (exists_char text) h with hkind | hkind | hkind <;> rw [hkind] <;>
        exact hc
  | word hc =>
      rcases kind_of_mem_one (exists_word c text) h with hkind | hkind <;> rw [hkind] <;> exact hc
  | number hc =>
      rcases kind_of_mem_one (exists_number c text) h with hkind | hkind <;> rw [hkind] <;> exact hc
  | unknown =>
      obtain rfl := List.mem_singleton.mp h
      exact True.intro

end Cut

end LessonCheck
