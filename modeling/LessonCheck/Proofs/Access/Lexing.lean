import LessonCheck.Proofs.Access.Lexer
import LessonCheck.Proofs.Lexing.Layout

/-!
Lexing by offsets comes to the same. The lexer that cuts a text in pieces says what each step of the
one by offsets has to give: `Yields` is that for one step, and an induction on the unread text puts
the steps together. So no slice and no subtraction fails, and the tokens, the complaints and the
cache in the end are the same.
-/

namespace LessonCheck

open Unicode Cut

namespace Lexer

/-! ### What one token leaves behind -/

/-- The state behind a token: its lexeme is in the pool and the complaints about it are made. -/
def takeIn (s : Lexer) (t : Token) : Lexer :=
  { s with
    cache := (s.cache.takeIn t).2
    problems := s.problems ++ (s.cache.takeIn t).1.problems }

def takeInAll (s : Lexer) (ts : Tokens) : Lexer := ts.foldl takeIn s

theorem cache_takeInAll (s : Lexer) (ts : Tokens) :
    (s.takeInAll ts).cache = (s.cache.takeInAll ts).2 := by
  induction ts generalizing s with
  | nil => rfl
  | cons t ts ih => exact ih (s.takeIn t)

theorem problems_takeInAll (s : Lexer) (ts : Tokens) :
    (s.takeInAll ts).problems = s.problems ++ (s.cache.takeInAll ts).1.problems := by
  induction ts generalizing s with
  | nil => simp [takeInAll, TextCache.takeInAll]
  | cons t ts ih =>
      refine (ih (s.takeIn t)).trans ?_
      simp [takeIn, TextCache.takeInAll, LexedText.append]

/-- A token that is no string goes to the pool without a look at its escapes. -/
theorem intern_eq {kind : Token.Kind} (hkind : kind ≠ .string) (s : Lexer) (lexeme : List Char)
    (l : Location) :
    let t : Token := ⟨kind, String.ofList lexeme, l⟩
    s.intern kind lexeme l = (t, { s with cache := (s.cache.takeIn t).2 }) := by
  simp [intern, TextCache.takeIn, hkind]

/-! ### One step -/

section
variable {content lexeme rest text : List Char} {k : Cursor} {kind : Token.Kind}

@[simp] theorem cursor_moveTo (s : Lexer) (k : Cursor) : (s.moveTo k).cursor = k := rfl

@[simp] theorem moveTo_moveTo (s : Lexer) (k k' : Cursor) :
    (s.moveTo k).moveTo k' = s.moveTo k' := rfl

theorem bump_moveTo {c : Char} (h : k.unread = c :: text) (s : Lexer) :
    (s.moveTo k).bump = s.moveTo (k.past [c] text) := by
  rw [bump, cursor_moveTo, Cursor.bump_of_cons h, moveTo_moveTo]

theorem make_eq {s : Lexer} (hk : k.In content) (h : k.unread = lexeme ++ rest)
    (hkind : kind ≠ .string) (l : Location) (hs : s.cursor = k.past lexeme rest) :
    let t : Token := ⟨kind, String.ofList lexeme, l⟩
    make content kind k.offset l s = .ok (t, { s with cache := (s.cache.takeIn t).2 }) := by
  simp only [make, hs, Cursor.offset_past, hk.sliceText_eq h, Checked.ok_bind, intern_eq hkind]
  rfl

theorem make_quiet (s : Lexer) (kind : Token.Kind) (hk : k.In content)
    (h : k.unread = lexeme ++ rest) (hkind : kind ≠ .string) (l : Location)
    (hquiet : ∀ escapes, LexicalProblem.ofToken escapes ⟨kind, String.ofList lexeme, l⟩ = []) :
    let t : Token := ⟨kind, String.ofList lexeme, l⟩
    make content kind k.offset l (s.moveTo (k.past lexeme rest)) =
      .ok (t, (s.takeIn t).moveTo (k.past lexeme rest)) := by
  rw [make_eq hk h hkind l rfl]
  simp [takeIn, moveTo, TextCache.fst_takeIn, LexedText.ofToken, hquiet]

theorem make_complain (s : Lexer) (kind : Token.Kind) (hk : k.In content)
    (h : k.unread = lexeme ++ rest) (hkind : kind ≠ .string) (l : Location)
    {problem : LexicalProblem} (hproblem : ∀ escapes,
      LexicalProblem.ofToken escapes ⟨kind, String.ofList lexeme, l⟩ = [problem]) :
    let t : Token := ⟨kind, String.ofList lexeme, l⟩
    make content kind k.offset l ((s.moveTo (k.past lexeme rest)).complain l problem) =
      .ok (t, (s.takeIn t).moveTo (k.past lexeme rest)) := by
  rw [make_eq hk h hkind l rfl]
  simp [takeIn, moveTo, complain, TextCache.fst_takeIn, LexedText.ofToken, hproblem]

theorem skipWhile_moveTo (p : Char → Bool) (s : Lexer) (k : Cursor) :
    (s.moveTo k).skipWhile p =
      s.moveTo (k.past (k.unread.takeWhile p) (k.unread.dropWhile p)) := by
  rw [skipWhile, cursor_moveTo, Cursor.skipWhile_eq, moveTo_moveTo]

/-- The step that begins at `k` hands out the first token of the cut, keeps a second one back, and
is behind the text of the cut. -/
def Yields (s : Lexer) (k : Cursor) (cut : Cut) (result : Checked (Token × Lexer)) : Prop :=
  ∃ t queue, Piece.place k.location cut.pieces = t :: Option.toList queue ∧
    result = .ok (t,
      ((s.takeInAll (t :: Option.toList queue)).moveTo (k.past cut.raw cut.rest)).keep queue)

variable {s : Lexer}

theorem yields_one {raw : List Char} {result : Checked (Token × Lexer)}
    (hpending : s.pending = none) (hraw : (⟨kind, lexeme⟩ : Piece).raw = raw)
    (h : let t : Token := ⟨kind, String.ofList lexeme, k.location⟩
      result = .ok (t, (s.takeIn t).moveTo (k.past raw rest))) :
    Yields s k (.one kind lexeme rest) result := by
  refine ⟨⟨kind, String.ofList lexeme, k.location⟩, none, rfl, ?_⟩
  rw [h, raw_one, rest_one, hraw]
  simp [takeInAll, takeIn, moveTo, keep, hpending]

theorem yields_make (kind : Token.Kind) (hpending : s.pending = none) (hk : k.In content)
    (h : k.unread = lexeme ++ rest) (hkind : kind ≠ .string)
    (hraw : (⟨kind, lexeme⟩ : Piece).raw = lexeme)
    (hquiet : ∀ escapes l, LexicalProblem.ofToken escapes ⟨kind, String.ofList lexeme, l⟩ = []) :
    Yields s k (.one kind lexeme rest)
      (make content kind k.offset k.location (s.moveTo (k.past lexeme rest))) :=
  yields_one hpending hraw (make_quiet s kind hk h hkind k.location fun escapes => hquiet escapes _)

theorem yields_make_operator (hpending : s.pending = none) (hk : k.In content)
    (h : k.unread = lexeme ++ rest) :
    Yields s k (.one .operator lexeme rest)
      (make content .operator k.offset k.location (s.moveTo (k.past lexeme rest))) :=
  yields_make .operator hpending hk h (by simp) rfl fun _ _ => rfl

theorem yields_increment {sign : Char} (hpending : s.pending = none) (hk : k.In content)
    (h : k.unread = sign :: sign :: text) :
    Yields s k (increment sign text) (readIncrement content sign k.offset k.location
      (s.moveTo (k.past [sign, sign] text))) := by
  have hread : k.unread = [sign, sign] ++ text := h
  have hpair := make_quiet s .operator hk hread (by simp) k.location fun _ => rfl
  unfold readIncrement increment
  rw [hpair]
  simp only [Checked.ok_bind, cursor_moveTo, Cursor.unread_past]
  cases text with
  | nil => exact yields_one hpending rfl rfl
  | cons c rest =>
      simp only
      split
      · next hsign =>
          subst hsign
          have hbehind : (k.past [c, c] (c :: rest)).unread = [c] ++ rest := rfl
          have hsingle := make_quiet (s.takeIn ⟨.operator, String.ofList [c, c], k.location⟩)
            .operator (hk.past hread) hbehind (by simp) (k.past [c, c] (c :: rest)).location
            fun _ => rfl
          rw [bump_moveTo rfl, hsingle]
          refine ⟨_, some _, rfl, ?_⟩
          simp [takeInAll, takeIn, moveTo, keep, raw, Piece.raw]
      · exact yields_one hpending rfl rfl

theorem yields_operator {c : Char} (hpending : s.pending = none) (hk : k.In content)
    (h : k.unread = c :: text) :
    Yields s k (operator c text)
      (readOperator content c k.offset k.location (s.moveTo (k.past [c] text))) := by
  unfold readOperator operator
  rw [cursor_moveTo, Cursor.unread_past]
  cases text with
  | nil => exact yields_make_operator hpending hk h
  | cons d rest =>
      have hbump := @bump_moveTo _ (k.past [c] (d :: rest)) d rfl s
      rw [Cursor.past_past] at hbump
      simp only [hbump]
      split
      · next hincrement =>
          simp only [Bool.and_eq_true, decide_eq_true_eq] at hincrement
          obtain ⟨rfl, -⟩ := hincrement
          exact yields_increment hpending hk h
      · split
        · exact yields_make_operator hpending hk h
        · exact yields_make_operator hpending hk h

theorem yields_word {c : Char} (hpending : s.pending = none) (hk : k.In content)
    (h : k.unread = c :: text) :
    Yields s k (word c text)
      (readWord content k.offset k.location (s.moveTo (k.past [c] text))) := by
  have hread : k.unread =
      (c :: text.takeWhile isWordChar) ++ text.dropWhile isWordChar := by
    rw [h, List.cons_append, List.takeWhile_append_dropWhile]
  unfold readWord word
  rw [skipWhile_moveTo, Cursor.past_past, Cursor.unread_past]
  simp only [cursor_moveTo, Cursor.offset_past]
  rw [List.singleton_append, hk.sliceText_eq hread, Checked.ok_bind]
  unfold wordKind
  split
  · exact yields_make .keyword hpending hk hread (by simp) rfl fun _ _ => rfl
  · exact yields_make .identifier hpending hk hread (by simp) rfl fun _ _ => rfl

theorem yields_number {c : Char} (hpending : s.pending = none) (hk : k.In content)
    (h : k.unread = c :: text) :
    Yields s k (number c text)
      (readNumber content k.offset k.location (s.moveTo (k.past [c] text))) := by
  unfold readNumber number
  rw [skipWhile_moveTo, Cursor.past_past, Cursor.unread_past, List.singleton_append]
  simp only [cursor_moveTo, Cursor.unread_past]
  have htext : text.takeWhile Char.isDigit ++ text.dropWhile Char.isDigit = text :=
    List.takeWhile_append_dropWhile
  generalize text.takeWhile Char.isDigit = digits at htext ⊢
  generalize text.dropWhile Char.isDigit = tail at htext ⊢
  have hread : k.unread = (c :: digits) ++ tail := by rw [h, ← htext, List.cons_append]
  have hnumber := yields_make .number hpending hk hread (by simp) rfl fun _ _ => rfl
  by_cases hpoint : ∃ d rest, tail = '.' :: d :: rest
  · obtain ⟨d, rest, rfl⟩ := hpoint
    by_cases hdigit : d.isDigit = true
    · have hread : k.unread = (c :: digits ++ '.' :: d :: rest.takeWhile Char.isDigit) ++
          rest.dropWhile Char.isDigit := by
        rw [hread]
        simp [List.takeWhile_append_dropWhile]
      have hfloat := yields_make .float hpending hk hread (by simp) rfl fun _ _ => rfl
      have hpoint := @bump_moveTo _ (k.past (c :: digits) ('.' :: d :: rest)) '.' rfl s
      simpa only [hpoint, hdigit, if_true, skipWhile_moveTo, Cursor.past_past, Cursor.unread_past,
        List.takeWhile_cons_of_pos hdigit, List.dropWhile_cons_of_pos hdigit,
        List.append_assoc, List.singleton_append] using hfloat
    · simpa only [hdigit, if_false, Bool.false_eq_true] using hnumber
  · -- Both readers look for a point with something behind it, and there is none.
    repeat' split
    all_goals first | exact absurd ⟨_, _, rfl⟩ hpoint | exact hnumber

theorem yields_string (hpending : s.pending = none) (hk : k.In content)
    (h : k.unread = '"' :: text) :
    Yields s k (string text)
      (readString content k.offset k.location (s.moveTo (k.past ['"'] text))) := by
  have htext := Quoted.raw_append_rest '"' (fun _ => false) text
  unfold readString string
  rw [cursor_moveTo, Cursor.seek_eq, Cursor.unread_past, Cursor.past_past]
  generalize Quoted.scan '"' (fun _ => false) text = q at htext ⊢
  obtain ⟨inside, closed, rest⟩ := q
  cases closed with
  | false =>
      have hread : k.unread = ('"' :: inside) ++ rest := by rw [h, ← htext]; rfl
      have hmake := make_complain s (.faulty .unterminatedString) hk hread (by simp) k.location
        fun _ => rfl
      exact yields_one hpending rfl hmake
  | true =>
      have hquote : k.unread = ['"'] ++ text := h
      have hbehind : (k.past ['"'] text).unread = inside ++ '"' :: rest := by
        rw [Cursor.unread_past, ← htext]
        simp [Quoted.raw]
      have hfirst : (k.past ['"'] text).offset = k.offset + 1 := rfl
      have hliteral := (hk.past hquote).sliceText_eq hbehind
      rw [hfirst] at hliteral
      have hraw : (⟨.string, inside⟩ : Piece).raw = '"' :: (inside ++ ['"']) := rfl
      simp only [if_true, moveTo_moveTo, hfirst, hliteral, Checked.ok_bind, Quoted.raw]
      refine yields_one hpending hraw ?_
      simp [takeIn, TextCache.takeIn, intern, moveTo, LexedText.ofToken, LexicalProblem.ofToken]

theorem yields_char (hpending : s.pending = none) (hk : k.In content)
    (h : k.unread = '\'' :: text) :
    Yields s k (char text)
      (readChar content k.offset k.location (s.moveTo (k.past ['\''] text))) := by
  have htext := Quoted.raw_append_rest '\'' (· == '\n') text
  unfold readChar char
  rw [cursor_moveTo, Cursor.seek_eq, Cursor.unread_past, Cursor.past_past]
  generalize Quoted.scan '\'' (· == '\n') text = q at htext ⊢
  obtain ⟨inside, closed, rest⟩ := q
  have hquote : k.unread = ['\''] ++ text := h
  have hfirst : (k.past ['\''] text).offset = k.offset + 1 := rfl
  cases closed with
  | false =>
      have hread : k.unread = ('\'' :: inside) ++ rest := by rw [h, ← htext]; rfl
      have hbehind : (k.past ['\''] text).unread = inside ++ rest := htext.symm
      have hinside := (hk.past hquote).sliceText_eq hbehind
      have hlast : k.offset + byteLength ('\'' :: inside) = k.offset + 1 + byteLength inside := by
        rw [byteLength_cons, Nat.add_assoc]
        rfl
      have hraw := hk.sliceText_eq hread
      rw [hlast] at hraw
      rw [hfirst] at hinside
      simp only [Bool.false_eq_true, if_false, Option.isSome_none, Cursor.offset_past,
        Checked.ok_bind, Checked.pure_eq, Quoted.raw, moveTo_moveTo, List.singleton_append, hlast,
        hraw, hinside]
      exact yields_one hpending rfl
        (make_complain s (.faulty .invalidChar) hk hread (by simp) k.location fun _ => rfl)
  | true =>
      have hread : k.unread = ('\'' :: (inside ++ ['\''])) ++ rest := by rw [h, ← htext]; rfl
      have hbehind : (k.past ['\''] text).unread = inside ++ '\'' :: rest := by
        rw [Cursor.unread_past, ← htext]
        simp [Quoted.raw]
      have hinside := (hk.past hquote).sliceText_eq hbehind
      have hlast : k.offset + byteLength ('\'' :: (inside ++ ['\''])) =
          k.offset + 1 + byteLength inside + 1 := by
        rw [byteLength_cons, byteLength_append, ← Nat.add_assoc, ← Nat.add_assoc]
        rfl
      have hraw := hk.sliceText_eq hread
      rw [hlast] at hraw
      rw [hfirst] at hinside
      simp only [if_true, Option.isSome_some, Cursor.offset_past, Checked.ok_bind, Quoted.raw,
        moveTo_moveTo, List.singleton_append, hlast, hraw, Checked.difference_add, hinside]
      rcases inside with _ | ⟨c, _ | ⟨d, inside⟩⟩
      · exact yields_one hpending rfl
          (make_complain s (.faulty .emptyChar) hk hread (by simp) k.location fun _ => rfl)
      · have hchar : (⟨.char, [c]⟩ : Piece).raw = '\'' :: ([c] ++ ['\'']) := rfl
        refine yields_one hpending hchar ?_
        simp [intern_eq, takeIn, TextCache.fst_takeIn, moveTo, LexedText.ofToken,
          LexicalProblem.ofToken]
      · exact yields_one hpending rfl
          (make_complain s (.faulty .invalidChar) hk hread (by simp) k.location fun _ => rfl)

theorem yields_readToken {c : Char} (hpending : s.pending = none) (hk : k.In content)
    (h : k.unread = c :: text) :
    Yields s k (ofText c text)
      (readToken content c k.offset k.location (s.moveTo (k.past [c] text))) := by
  have hread : k.unread = [c] ++ text := h
  unfold readToken ofText
  cases hoperator : isOperatorChar c with
  | true => exact yields_operator hpending hk h
  | false =>
      simp only [Bool.false_eq_true, if_false]
      cases hmark : punctuation? c with
      | some kind =>
          unfold punctuation? at hmark
          split at hmark <;> cases hmark <;>
            exact yields_make _ hpending hk hread (by simp) rfl fun _ _ => rfl
      | none =>
          simp only
          split
          · next hquote =>
              subst hquote
              exact yields_string hpending hk h
          · split
            · next hquote =>
                subst hquote
                exact yields_char hpending hk h
            · split
              · exact yields_word hpending hk h
              · split
                · exact yields_number hpending hk h
                · exact yields_one hpending rfl
                    (make_complain s .unknown hk hread (by simp) _ fun _ => rfl)

end

/-! ### The whole text -/

@[simp] theorem pending_takeInAll (s : Lexer) (ts : Tokens) :
    (s.takeInAll ts).pending = s.pending := by
  induction ts generalizing s with
  | nil => rfl
  | cons t ts ih => exact ih (s.takeIn t)

theorem takeInAll_moveTo (s : Lexer) (k : Cursor) (ts : Tokens) :
    (s.moveTo k).takeInAll ts = (s.takeInAll ts).moveTo k := by
  induction ts generalizing s with
  | nil => rfl
  | cons t ts ih => exact ih (s.takeIn t)

theorem takeInAll_append (s : Lexer) (ts us : Tokens) :
    s.takeInAll (ts ++ us) = (s.takeInAll ts).takeInAll us :=
  List.foldl_append

/-- Every piece takes some of the text. -/
theorem length_pieces_le (c : Char) (text : List Char) :
    (Cut.ofText c text).pieces.length ≤ (Cut.ofText c text).raw.length := by
  have hne : ∀ p ∈ (Cut.ofText c text).pieces, p.raw ≠ [] := fun p hp => Cut.raw_ne_nil_of_mem hp
  unfold raw
  generalize (Cut.ofText c text).pieces = ps at hne ⊢
  induction ps with
  | nil => exact Nat.zero_le _
  | cons p ps ih =>
      have hp := List.length_pos_iff.mpr (hne p List.mem_cons_self)
      have hps := ih fun q hq => hne q (List.mem_cons_of_mem p hq)
      rw [List.flatMap_cons, List.length_append, List.length_cons]
      omega

theorem length_place (l : Location) (ps : List Piece) : (Piece.place l ps).length = ps.length := by
  induction ps generalizing l with
  | nil => rfl
  | cons p ps ih => rw [Piece.place, List.length_cons, ih, List.length_cons]

section
variable {content : List Char} {s : Lexer}

/-- A token that was kept back is handed out before anything is read. -/
theorem run_pending {ts : Tokens} {last : Lexer} (hpending : s.pending = none)
    (h : run content s = .ok (ts, last)) (queue : Option Token) :
    run content (s.keep queue) = .ok (queue.toList ++ ts, last) := by
  obtain ⟨cursor, cache, pending, problems⟩ := s
  cases hpending
  cases queue with
  | none => exact h
  | some t =>
      rw [run]
      simp [next, keep, size, h]

theorem run_of_next {s' : Lexer} {t : Token} {queue : Option Token} {ts : Tokens} {last : Lexer}
    (hnext : next content s = .ok (some t, s'.keep queue)) (hpending : s'.pending = none)
    (hsize : s'.cursor.unread.length + queue.toList.length < s.size)
    (h : run content s' = .ok (ts, last)) :
    run content s = .ok (t :: Option.toList queue ++ ts, last) := by
  have hless : (s'.keep queue).size < s.size := hsize
  rw [run, hnext]
  simp only [hless, if_true, run_pending hpending h queue]
  rfl

theorem next_of_blank (hpending : s.pending = none) (h : s.cursor.unread.dropWhile isBlank = []) :
    next content s = .ok (none, s.moveTo (s.cursor.past s.cursor.unread [])) := by
  have hgap : s.cursor.unread.takeWhile isBlank = s.cursor.unread := by
    have happend := List.takeWhile_append_dropWhile (p := isBlank) (l := s.cursor.unread)
    rwa [h, List.append_nil] at happend
  simp [next, hpending, skipWhile, Cursor.skipWhile_eq, h, hgap]

theorem next_of_cons (hpending : s.pending = none) (hk : s.cursor.In content) {c : Char}
    {text : List Char} (h : s.cursor.unread.dropWhile isBlank = c :: text) :
    let k := s.cursor.past (s.cursor.unread.takeWhile isBlank) (c :: text)
    let cut := Cut.ofText c text
    ∃ t queue, Piece.place k.location cut.pieces = t :: Option.toList queue ∧
      next content s = .ok (some t, ((s.takeInAll (t :: Option.toList queue)).moveTo
        (k.past cut.raw cut.rest)).keep queue) := by
  have hread : s.cursor.unread = s.cursor.unread.takeWhile isBlank ++ c :: text := by
    rw [← h, List.takeWhile_append_dropWhile]
  obtain ⟨t, queue, hplace, hresult⟩ := yields_readToken hpending (hk.past hread) rfl
  refine ⟨t, queue, hplace, ?_⟩
  simp only [next, hpending, skipWhile, Cursor.skipWhile_eq, h, cursor_moveTo, Cursor.unread_past]
  rw [bump_moveTo rfl, hresult]
  rfl

/-- The lexer gets to the end of the text and hands out its tokens. -/
theorem run_eq (hpending : s.pending = none) (hk : s.cursor.In content) :
    let ts := Token.scan s.cursor.location s.cursor.unread
    run content s = .ok (ts, (s.takeInAll ts).moveTo (s.cursor.past s.cursor.unread [])) := by
  induction hlength : s.cursor.unread.length using Nat.strongRecOn generalizing s with
  | ind n ih =>
      have hread : s.cursor.unread =
          s.cursor.unread.takeWhile isBlank ++ s.cursor.unread.dropWhile isBlank :=
        List.takeWhile_append_dropWhile.symm
      have hgap : Blank (s.cursor.unread.takeWhile isBlank) :=
        List.all_eq_true.mp List.all_takeWhile
      cases htail : s.cursor.unread.dropWhile isBlank with
      | nil =>
          rw [htail, List.append_nil] at hread
          have hscan := Token.scan_gap hgap s.cursor.location []
          rw [List.append_nil, ← hread, Token.scan_nil] at hscan
          rw [run, next_of_blank hpending htail, hscan]
          rfl
      | cons c text =>
          rw [htail] at hread
          have hc : isBlank c = false := by
            have hne : s.cursor.unread.dropWhile isBlank ≠ [] := by simp [htail]
            simpa [htail] using List.head_dropWhile_not isBlank hne
          obtain ⟨t, queue, hplace, hnext⟩ := next_of_cons hpending hk htail
          let k := s.cursor.past (s.cursor.unread.takeWhile isBlank) (c :: text)
          let cut := Cut.ofText c text
          let behind := (s.takeInAll (t :: queue.toList)).moveTo (k.past cut.raw cut.rest)
          have hraw : c :: text = cut.raw ++ cut.rest := (Cut.raw_append_rest c text).symm
          have hbehind : behind.pending = none := (pending_takeInAll s _).trans hpending
          have hless : cut.rest.length + queue.toList.length < s.cursor.unread.length := by
            have hpieces : cut.pieces.length ≤ cut.raw.length := length_pieces_le c text
            have hcount : cut.pieces.length = queue.toList.length + 1 := by
              rw [← length_place, hplace, List.length_cons]
            rw [hread, hraw, List.length_append, List.length_append]
            omega
          have hrest := ih cut.rest.length (by omega) hbehind ((hk.past hread).past hraw) rfl
          have hsize : behind.cursor.unread.length + queue.toList.length < s.size :=
            Nat.lt_of_lt_of_le hless (Nat.le_add_right _ _)
          have hrun := run_of_next hnext hbehind hsize hrest
          have hscan : Token.scan s.cursor.location s.cursor.unread =
              t :: queue.toList ++ Token.scan behind.cursor.location behind.cursor.unread := by
            rw [hread, Token.scan_gap hgap, Token.scan_cut hc, ← hplace]
            rfl
          have hcursor : behind.cursor.past behind.cursor.unread [] =
              s.cursor.past s.cursor.unread [] := by
            simp only [behind, k, cursor_moveTo, Cursor.unread_past, Cursor.past_past,
              List.append_assoc]
            rw [← hraw, ← hread]
          simp only [hrun, hscan, hcursor, behind, takeInAll_append, takeInAll_moveTo,
            moveTo_moveTo]

end

end Lexer

/-- Reading by offsets meets no fault, and nothing comes out differently. -/
theorem TextCache.lexByOffset_eq (cache : TextCache) (source : String) :
    cache.lexByOffset source = .ok (cache.lex source) := by
  let s := Lexer.start cache source.toList
  have hrun := Lexer.run_eq (s := s) rfl (Cursor.in_start source.toList)
  have htokens : (cache.lex source).1.tokens = Token.ofText source := by rw [lex_eq]; rfl
  have hproblems : (s.takeInAll (Token.ofText source)).problems = (cache.lex source).1.problems :=
    (s.problems_takeInAll _).trans (List.nil_append _)
  have hcache : (s.takeInAll (Token.ofText source)).cache = (cache.lex source).2 :=
    s.cache_takeInAll _
  rw [lexByOffset, hrun, Checked.ok_bind]
  show Except.ok ((⟨Token.ofText source, (s.takeInAll (Token.ofText source)).problems⟩ : LexedText),
    (s.takeInAll (Token.ofText source)).cache) = Except.ok (cache.lex source)
  rw [hproblems, hcache, ← htokens]

end LessonCheck
