import LessonCheck.Proofs.Lexing.Layout
import LessonCheck.Proofs.Lexing.Spelling
import LessonCheck.Proofs.Lexing.Step

/-!
Where tokens start. No two beginnings of a text lead to the same place, so the place of a token says
which part of the text stands in front of it. There the lexer takes a step, and the token is the
first that the step cuts off. The one exception is a sign that stands alone behind `++` or `--`: it
is cut off together with the two signs in front of it.
-/

namespace LessonCheck

open Unicode

/-! ### Places and beginnings of a text -/

namespace Location

theorem le_step_eq_false (l : Location) (c : Char) : (l.step c).le l = false := by
  by_cases h : c = '\n' <;> simp [step, newline, advance, le, h]

/-- Reading on leads to another place. -/
theorem after_ne_self {text : List Char} (h : text ≠ []) (l : Location) : l.after text ≠ l := by
  intro heq
  cases text with
  | nil => exact h rfl
  | cons c text =>
      rw [after_cons] at heq
      have hle := le_after (l.step c) text
      rw [heq, le_step_eq_false] at hle
      cases hle

theorem after_injective {l : Location} {a b c d : List Char} (h : a ++ b = c ++ d)
    (hplace : l.after a = l.after c) : a = c := by
  rcases List.append_eq_append_iff.mp h with ⟨more, rfl, -⟩ | ⟨more, rfl, -⟩
  · rw [after_append] at hplace
    cases more with
    | nil => simp
    | cons e more => exact absurd hplace.symm (after_ne_self (by simp) _)
  · rw [after_append] at hplace
    cases more with
    | nil => simp
    | cons e more => exact absurd hplace (after_ne_self (by simp) _)

/-- In one text, the place tells how much of the text is in front of it. -/
theorem behind_injective {a b c d : List Char} (h : a ++ b = c ++ d)
    (hplace : behind a = behind c) : a = c := by
  rw [← after_start, ← after_start] at hplace
  exact after_injective h hplace

end Location

/-- No two tokens start at the same place. -/
theorem Laid.nodup_locations {l : Location} {ts : Tokens} {text : List Char} (h : Laid l ts text) :
    (ts.map Token.location).Nodup := by
  induction h with
  | done => exact List.nodup_nil
  | blank _ _ ih => exact ih
  | @token l t ts text hlocation hne hbehind ih =>
      refine List.nodup_cons.mpr ⟨fun hmem => ?_, ih⟩
      obtain ⟨u, hu, hplace⟩ := List.mem_map.mp hmem
      obtain ⟨before, after, -, -, hafter⟩ := hbehind.exists_split_of_mem hu
      rw [hplace, hlocation, ← Location.after_append] at hafter
      exact Location.after_ne_self (List.append_ne_nil_of_left_ne_nil hne before) l hafter.symm

/-! ### Steps of the lexer -/

/-- Every token comes from a step of the lexer, and what the lexer says from there on does not
depend on the text in front. -/
theorem Token.exists_step {l : Location} {text : List Char} {t : Token} (h : t ∈ scan l text) :
    ∃ front c rest ts, text = front ++ c :: rest ∧ isBlank c = false ∧
      scan l text = ts ++ scan (l.after front) (c :: rest) ∧
      t ∈ Piece.place (l.after front) (Cut.ofText c rest).pieces := by
  fun_induction scan l text with
  | case1 l => cases h
  | case2 l c text hblank ih =>
      obtain ⟨front, d, rest, ts, rfl, hd, hscan, hmem⟩ := ih h
      exact ⟨c :: front, d, rest, ts, rfl, hd, hscan, hmem⟩
  | case3 l c text hblank cut ih =>
      have hc : isBlank c = false := by simpa using hblank
      have hraw : cut.raw ++ cut.rest = c :: text := Cut.raw_append_rest c text
      rcases List.mem_append.mp h with hmem | hmem
      · exact ⟨[], c, text, [], rfl, hc, (scan_cut hc l text).symm, hmem⟩
      · obtain ⟨front, d, rest, ts, hrest, hd, hscan, hpiece⟩ := ih hmem
        refine ⟨cut.raw ++ front, d, rest, Piece.place l cut.pieces ++ ts, ?_, hd, ?_, ?_⟩
        · rw [← hraw, hrest, List.append_assoc]
        · rw [hscan, Location.after_append, List.append_assoc]
        · rw [Location.after_append]
          exact hpiece

/-! ### The start of a token -/

/-- The token is one of `ts`, and it starts in the source behind `before`, where `text` is left. -/
structure Tokens.StartsAt (ts : Tokens) (source : String) (t : Token) (before text : List Char) :
    Prop where
  mem : t ∈ ts
  split : source.toList = before ++ text
  place : t.location = Location.behind before

namespace Token

/-- The token is the first of a step that the lexer takes behind `before`. -/
structure Leads (source : String) (t : Token) (before : List Char) (c : Char) (rest : List Char) :
    Prop where
  nonblank : isBlank c = false
  first : (Cut.ofText c rest).pieces.head? = some t.piece
  resumes : ∃ ts, ofText source = ts ++ scan (Location.behind before) (c :: rest)

/-- The token is the last sign of a step that has cut off `++` or `--` with the same sign behind. -/
structure Trails (source : String) (t : Token) (before : List Char) (sign : Char)
    (rest : List Char) : Prop where
  sign_mem : sign ∈ ['+', '-']
  piece : t.piece = ⟨.operator, [sign]⟩
  resumes : ∃ front ts, before = front ++ [sign, sign] ∧
    ofText source = ts ++ scan (Location.behind front) (sign :: sign :: sign :: rest)

end Token

section
variable {source : String} {t : Token} {before text rest : List Char} {c : Char}

/-- A token starts at one place only. -/
theorem Tokens.StartsAt.unique {ts : Tokens} {before' text' : List Char}
    (h : ts.StartsAt source t before text) (h' : ts.StartsAt source t before' text') :
    before = before' ∧ text = text' := by
  have hsplit : before ++ text = before' ++ text' := h.split.symm.trans h'.split
  have hbefore := Location.behind_injective hsplit (h.place.symm.trans h'.place)
  subst hbefore
  exact ⟨rfl, List.append_cancel_left hsplit⟩

theorem exists_startsAt (ht : t ∈ Token.ofText source) :
    ∃ before c text, (Token.ofText source).StartsAt source t before (c :: text) := by
  obtain ⟨before, after, hsplit, hne, hplace⟩ := exists_split_of_mem_ofText ht
  obtain ⟨c, inside, hraw⟩ := List.exists_cons_of_ne_nil hne
  exact ⟨before, c, inside ++ after, ht, by simp [hsplit, hraw], hplace⟩

/-- Whatever is not blank is part of a token. -/
theorem Laid.exists_covering {l : Location} {ts : Tokens} {text : List Char} (h : Laid l ts text)
    {before rest : List Char} {c : Char} (htext : text = before ++ c :: rest)
    (hc : isBlank c = false) : ∃ t ∈ ts, ∃ front inside tail, before = front ++ inside ∧
      t.raw = inside ++ c :: tail ∧ t.location = l.after front := by
  induction h generalizing before with
  | done => simp at htext
  | @blank l d ts text hd _ ih =>
      cases before with
      | nil =>
          obtain ⟨rfl, -⟩ := List.cons.inj htext
          rw [hd] at hc
          cases hc
      | cons d' before =>
          obtain ⟨rfl, htail⟩ := List.cons.inj htext
          obtain ⟨t, ht, front, inside, tail, rfl, hraw, hplace⟩ := ih htail
          exact ⟨t, ht, d :: front, inside, tail, rfl, hraw, hplace⟩
  | @token l t ts text hlocation _ _ ih =>
      rcases List.append_eq_append_iff.mp htext with ⟨more, rfl, hmore⟩ | ⟨more, hraw, hmore⟩
      · obtain ⟨u, hu, front, inside, tail, rfl, hraw, hplace⟩ := ih hmore
        refine ⟨u, List.mem_cons_of_mem t hu, t.raw ++ front, inside, tail, by simp, hraw, ?_⟩
        rw [hplace, Location.after_append]
      · cases more with
        | nil =>
            -- The token ends right in front of the character.
            have hbehind : text = [] ++ c :: rest := hmore.symm
            obtain ⟨u, hu, front, inside, tail, hfront, huraw, hplace⟩ := ih hbehind
            refine ⟨u, List.mem_cons_of_mem t hu, t.raw ++ front, inside, tail, ?_, huraw, ?_⟩
            · rw [List.append_assoc, ← hfront, hraw, List.append_nil, List.append_nil]
            · rw [hplace, Location.after_append]
        | cons d tail =>
            obtain ⟨rfl, -⟩ := List.cons.inj hmore
            exact ⟨t, List.mem_cons_self, [], before, tail, rfl, hraw, hlocation⟩

theorem exists_startsAt_covering
    (hsplit : source.toList = before ++ c :: rest) (hc : isBlank c = false) :
    ∃ t front inside tail, before = front ++ inside ∧ t.raw = inside ++ c :: tail ∧
      (Token.ofText source).StartsAt source t front (inside ++ c :: rest) := by
  obtain ⟨t, ht, front, inside, tail, rfl, hraw, hplace⟩ :=
    (Laid.scan .start source.toList).exists_covering hsplit hc
  refine ⟨t, front, inside, tail, rfl, hraw, ht, by rw [hsplit, List.append_assoc], ?_⟩
  rw [hplace, Location.after_start]

theorem Tokens.StartsAt.leads_or_trails
    (h : (Token.ofText source).StartsAt source t before (c :: rest)) :
    t.Leads source before c rest ∨ t.Trails source before c rest := by
  obtain ⟨front, d, tail, ts, hsplit, hblank, hscan, hmem⟩ := Token.exists_step h.mem
  rw [Location.after_start] at hscan hmem
  have hresumes : Token.ofText source = ts ++ Token.scan (Location.behind front) (d :: tail) :=
    hscan
  rcases Cut.pieces_cases d tail with ⟨p, hp⟩ | ⟨tail, hsign, rfl, hcut⟩
  · obtain rfl : t = ⟨p.kind, String.ofList p.lexeme, Location.behind front⟩ := by
      simpa [hp, Piece.place] using hmem
    obtain ⟨rfl, heq⟩ := h.unique ⟨h.mem, hsplit, rfl⟩
    obtain ⟨rfl, rfl⟩ := List.cons.inj heq
    exact Or.inl ⟨hblank, by simp [hp, Token.piece], ts, hresumes⟩
  · have hpieces : (Cut.ofText d (d :: d :: tail)).pieces =
        [⟨.operator, [d, d]⟩, ⟨.operator, [d]⟩] := by rw [hcut]
    rw [hpieces] at hmem
    simp only [Piece.place, List.mem_cons, List.not_mem_nil, or_false] at hmem
    rcases hmem with rfl | rfl
    · obtain ⟨rfl, heq⟩ := h.unique ⟨h.mem, hsplit, rfl⟩
      obtain ⟨rfl, rfl⟩ := List.cons.inj heq
      exact Or.inl ⟨hblank, by simp [hpieces, Token.piece], ts, hresumes⟩
    · have hplace : (Location.behind front).after (⟨.operator, [d, d]⟩ : Piece).raw =
          Location.behind (front ++ [d, d]) := by
        rw [← Location.after_start, ← Location.after_start, Location.after_append]
        rfl
      obtain ⟨rfl, heq⟩ := h.unique ⟨h.mem, (by simpa using hsplit), hplace⟩
      obtain ⟨rfl, rfl⟩ := List.cons.inj heq
      exact Or.inr ⟨hsign, by simp [Token.piece], front, ts, rfl, hresumes⟩

theorem Tokens.StartsAt.beginsWith
    (h : (Token.ofText source).StartsAt source t before (c :: rest)) : t.kind.BeginsWith c := by
  rcases h.leads_or_trails with hleads | htrails
  · exact Cut.beginsWith_of_mem (List.mem_of_head? hleads.first)
  · have hkind : t.kind = .operator := congrArg Piece.kind htrails.piece
    rw [hkind]
    exact Cut.isOperatorChar_of_sign htrails.sign_mem

/-- Only a plus or a minus sign can be other than the first of a step. -/
theorem Tokens.StartsAt.leads
    (h : (Token.ofText source).StartsAt source t before (c :: rest)) (hc : c ∉ ['+', '-']) :
    t.Leads source before c rest :=
  h.leads_or_trails.resolve_right fun htrails => hc htrails.sign_mem

end

end LessonCheck
