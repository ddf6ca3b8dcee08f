import LessonCheck.Token.View

/-!
What surveys find. A pass over the tokens is silent exactly if it is silent at every place,
which turns the silence of a whole pass into facts about the tokens at one place and back. A place
is a way to split the tokens; one that is given by its number is turned into a split here. What a
pass that does find something reports, and in which order, is read off the list of all places.
-/

namespace LessonCheck.Tokens

variable {α : Type} {look : Option Token → Token → Tokens → List α}

theorem survey_eq_nil_iff {ts : Tokens} :
    ts.survey look = [] ↔
      ∀ front t rest, ts = front ++ t :: rest → look front.getLast? t rest = [] := by
  rw [List.eq_nil_iff_forall_not_mem]
  constructor
  · intro h front t rest hts
    rw [List.eq_nil_iff_forall_not_mem]
    intro x hx
    exact h x ((mem_surveyFrom look).mpr ⟨front, t, rest, hts, by simpa using hx⟩)
  · intro h x hx
    obtain ⟨front, t, rest, hts, hx⟩ := (mem_surveyFrom look).mp hx
    rw [Option.or_none, h front t rest hts] at hx
    exact List.not_mem_nil hx

/-- What a silent survey says about one place. -/
theorem eq_nil_of_survey {ts front rest : Tokens} {t : Token} (h : ts.survey look = [])
    (hts : ts = front ++ t :: rest) : look front.getLast? t rest = [] :=
  survey_eq_nil_iff.mp h front t rest hts

/-! ### All places in order -/

/-- A place of a token list: the token there, with what stands in front of it and behind it. -/
structure Split where
  front : Tokens
  token : Token
  rest : Tokens

/-- The places of `ts`, when `front` stands in front of it. -/
def splitsFrom (front : Tokens) : Tokens → List Split
  | [] => []
  | t :: rest => ⟨front, t, rest⟩ :: splitsFrom (front ++ [t]) rest

def splits (ts : Tokens) : List Split := splitsFrom [] ts

theorem mem_splitsFrom {front ts : Tokens} {s : Split} :
    s ∈ splitsFrom front ts ↔ ∃ middle, s.front = front ++ middle ∧
      ts = middle ++ s.token :: s.rest := by
  induction ts generalizing front with
  | nil => simp [splitsFrom]
  | cons t rest ih =>
      rw [splitsFrom, List.mem_cons, ih]
      constructor
      · rintro (rfl | ⟨middle, hfront, hrest⟩)
        · exact ⟨[], by simp, rfl⟩
        · exact ⟨t :: middle, by simpa using hfront, by rw [hrest, List.cons_append]⟩
      · rintro ⟨middle, hfront, hrest⟩
        cases middle with
        | nil =>
            obtain ⟨rfl, rfl⟩ := List.cons.inj hrest
            rw [List.append_nil] at hfront
            rw [← hfront]
            exact Or.inl rfl
        | cons u middle =>
            obtain ⟨rfl, rfl⟩ := List.cons.inj hrest
            exact Or.inr ⟨middle, by simpa using hfront, rfl⟩

theorem mem_splits {ts : Tokens} {s : Split} :
    s ∈ ts.splits ↔ ts = s.front ++ s.token :: s.rest := by
  simp [splits, mem_splitsFrom]

theorem pairwise_splits (ts : Tokens) :
    ts.splits.Pairwise fun s s' => s.front.length < s'.front.length := by
  suffices h : ∀ front, (splitsFrom front ts).Pairwise fun s s' =>
      s.front.length < s'.front.length from h []
  induction ts with
  | nil => exact fun _ => List.Pairwise.nil
  | cons t rest ih =>
      intro front
      refine List.Pairwise.cons (fun s hs => ?_) (ih _)
      obtain ⟨middle, hfront, -⟩ := mem_splitsFrom.mp hs
      simp only [hfront, List.length_append, List.length_singleton]
      omega

/-- A survey goes through the places in order. -/
theorem survey_eq_flatMap (ts : Tokens) :
    ts.survey look = ts.splits.flatMap fun s => look s.front.getLast? s.token s.rest := by
  suffices h : ∀ front : Tokens, surveyFrom look front.getLast? ts =
      (splitsFrom front ts).flatMap fun s => look s.front.getLast? s.token s.rest from h []
  induction ts with
  | nil => exact fun _ => rfl
  | cons t rest ih =>
      intro front
      have hrest := ih (front ++ [t])
      rw [List.getLast?_concat] at hrest
      rw [surveyFrom_cons, splitsFrom, List.flatMap_cons, hrest]

theorem filter_survey (p : α → Bool) (ts : Tokens) :
    (ts.survey look).filter p = ts.survey fun before t rest => (look before t rest).filter p := by
  rw [survey_eq_flatMap, survey_eq_flatMap, List.filter_flatMap]

theorem zipIdx_eq_splits (ts : Tokens) :
    ts.zipIdx = ts.splits.map fun s => (s.token, s.front.length) := by
  suffices h : ∀ front : Tokens, ts.zipIdx front.length =
      (splitsFrom front ts).map fun s => (s.token, s.front.length) from h []
  induction ts with
  | nil => exact fun _ => rfl
  | cons t rest ih =>
      intro front
      have hrest := ih (front ++ [t])
      rw [List.length_append, List.length_singleton] at hrest
      rw [List.zipIdx_cons, hrest, splitsFrom, List.map_cons]

/-! ### Places by number -/

theorem drop_eq (ts : Tokens) (i : Nat) :
    ts.drop i = ts[i]?.elim [] fun t => t :: ts.drop (i + 1) := by
  cases ht : ts[i]? with
  | none => exact List.drop_eq_nil_of_le (List.getElem?_eq_none_iff.mp ht)
  | some t =>
      obtain ⟨hlt, rfl⟩ := List.getElem?_eq_some_iff.mp ht
      exact List.drop_eq_getElem_cons hlt

theorem exists_split_of_getElem? {ts : Tokens} {i : Nat} {t : Token} (h : ts[i]? = some t) :
    ∃ front rest, ts = front ++ t :: rest ∧ front.length = i := by
  obtain ⟨hlt, rfl⟩ := List.getElem?_eq_some_iff.mp h
  exact ⟨ts.take i, ts.drop (i + 1), by simp, List.length_take_of_le (Nat.le_of_lt hlt)⟩

theorem exists_split_of_drop {ts rest : Tokens} {i : Nat} {t : Token} (h : ts.drop i = t :: rest) :
    ∃ front, ts = front ++ t :: rest ∧ front.length = i := by
  have hlt : i < ts.length := by
    refine Nat.lt_of_not_le fun hle => ?_
    simp [List.drop_eq_nil_of_le hle] at h
  exact ⟨ts.take i, by rw [← h, List.take_append_drop],
    List.length_take_of_le (Nat.le_of_lt hlt)⟩

theorem hasKindAt_iff {ts : Tokens} {i : Nat} {kind : Token.Kind} :
    ts.hasKindAt i kind = true ↔ ∃ t, ts[i]? = some t ∧ t.kind = kind := by
  simp [hasKindAt, kind?]

theorem hasOperatorAt_iff {ts : Tokens} {i : Nat} {symbol : String} :
    ts.hasOperatorAt i symbol = true ↔
      ∃ t, ts[i]? = some t ∧ t.kind = .operator ∧ t.lexeme = symbol := by
  simp [hasOperatorAt, Token.isOperator, Option.any_eq_true]

theorem any_kind (ts : Tokens) (i : Nat) (kind : Token.Kind) :
    ts[i]?.any (fun t => decide (t.kind = kind)) = ts.hasKindAt i kind := by
  rw [Bool.eq_iff_iff, hasKindAt_iff, Option.any_eq_true]
  simp

theorem kind_unique {ts : Tokens} {i : Nat} {kind kind' : Token.Kind}
    (h : ts.hasKindAt i kind = true) (h' : ts.hasKindAt i kind' = true) : kind = kind' := by
  obtain ⟨t, ht, rfl⟩ := hasKindAt_iff.mp h
  obtain ⟨u, hu, rfl⟩ := hasKindAt_iff.mp h'
  obtain rfl : t = u := by simpa [ht] using hu
  rfl

theorem lt_length_of_hasKindAt {ts : Tokens} {i : Nat} {kind : Token.Kind}
    (h : ts.hasKindAt i kind = true) : i < ts.length := by
  obtain ⟨t, ht, -⟩ := hasKindAt_iff.mp h
  exact (List.getElem?_eq_some_iff.mp ht).1

end LessonCheck.Tokens
