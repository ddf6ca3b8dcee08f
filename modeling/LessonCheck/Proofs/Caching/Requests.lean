import LessonCheck.Proofs.Access.Lexing
import LessonCheck.Proofs.Caching.Contents

/-!
A text cache over a run of requests. Every request takes some texts to the pool and some literals to
the memory of escapes, and the one has nothing to do with the other: lexing takes the lexeme of each
token to the pool and the strings among them to the memory. So after any run the pool is what the
row of all those texts makes of it, and the memory what the row of all those literals does.
-/

namespace LessonCheck

/-- What a text cache can be asked. -/
inductive TextRequest
  | intern (text : String)
  | escapes (literal : String)
  | lex (source : String)
  deriving DecidableEq

inductive TextAnswer
  | text (copy : Interned)
  | escapes (found : List InvalidEscape)
  /-- The tokens and complaints, and the lexemes of the tokens as they come from the pool. -/
  | lexed (result : LexedText) (lexemes : List Interned)

namespace TextRequest

/-- The texts that the request takes to the pool, in order. -/
def texts : TextRequest → List String
  | .intern text => [text]
  | .escapes _ => []
  | .lex source => (Token.ofText source).map (·.lexeme)

/-- The literals that the request has looked through, in order. -/
def literals : TextRequest → List String
  | .intern _ => []
  | .escapes literal => [literal]
  | .lex source => ((Token.ofText source).filter (·.kind = .string)).map (·.lexeme)

end TextRequest

namespace TextAnswer

/-- The texts that the answer hands out. -/
def copies : TextAnswer → List Interned
  | .text copy => [copy]
  | .escapes _ => []
  | .lexed _ lexemes => lexemes

/-- The answer is the one that a request has without any cache. -/
def IsFor : TextAnswer → TextRequest → Prop
  | .text copy, .intern asked => copy.text = asked
  | .escapes found, .escapes literal => found = InvalidEscape.ofLiteral literal
  | .lexed result lexemes, .lex source =>
    result = LexedText.ofText source ∧ lexemes.map (·.text) = result.tokens.map (·.lexeme)
  | _, _ => False

end TextAnswer

namespace TextCache

/-! ### Taking tokens in -/

theorem pool_takeIn (cache : TextCache) (t : Token) :
    (cache.takeIn t).2.pool = (cache.pool.intern t.lexeme).2 := by
  by_cases hstring : t.kind = .string
  · rw [takeIn, if_pos hstring]
    rfl
  · rw [takeIn, if_neg hstring]
    rfl

theorem memo_takeIn (cache : TextCache) (t : Token) :
    (cache.takeIn t).2.memo =
      if t.kind = .string then (cache.memo.invalidEscapes t.lexeme).2 else cache.memo := by
  by_cases hstring : t.kind = .string
  · rw [takeIn, if_pos hstring, if_pos hstring]
    rfl
  · rw [takeIn, if_neg hstring, if_neg hstring]
    rfl

theorem takeInAll_cons (cache : TextCache) (t : Token) (ts : Tokens) :
    (cache.takeInAll (t :: ts)).2 = ((cache.takeIn t).2.takeInAll ts).2 := rfl

/-- The lexemes of the tokens, as the pool hands them out when the tokens are taken in. -/
def lexemes (cache : TextCache) : Tokens → List Interned
  | [] => []
  | t :: ts => (cache.intern t.lexeme).1 :: (cache.takeIn t).2.lexemes ts

theorem lexemes_eq (cache : TextCache) (ts : Tokens) :
    cache.lexemes ts = (cache.pool.internAll (ts.map (·.lexeme))).1 := by
  induction ts generalizing cache with
  | nil => rfl
  | cons t ts ih =>
      rw [lexemes, ih, pool_takeIn, List.map_cons, Pool.internAll_cons]
      rfl

theorem pool_takeInAll (cache : TextCache) (ts : Tokens) :
    (cache.takeInAll ts).2.pool = (cache.pool.internAll (ts.map (·.lexeme))).2 := by
  induction ts generalizing cache with
  | nil => rfl
  | cons t ts ih => rw [takeInAll_cons, ih, pool_takeIn, List.map_cons, Pool.internAll_cons]

theorem memo_takeInAll (cache : TextCache) (ts : Tokens) :
    (cache.takeInAll ts).2.memo =
      cache.memo.lookThrough ((ts.filter (·.kind = .string)).map (·.lexeme)) := by
  induction ts generalizing cache with
  | nil => rfl
  | cons t ts ih =>
      rw [takeInAll_cons, ih, memo_takeIn, List.filter_cons]
      by_cases hstring : t.kind = .string
      · simp only [hstring, decide_true, if_true, List.map_cons, EscapeMemo.lookThrough]
      · simp only [hstring, decide_false, if_false, Bool.false_eq_true]

/-! ### Requests -/

def answer (cache : TextCache) : TextRequest → TextAnswer × TextCache
  | .intern text => (.text (cache.intern text).1, (cache.intern text).2)
  | .escapes literal =>
    (.escapes (cache.invalidEscapes literal).1, (cache.invalidEscapes literal).2)
  | .lex source =>
    (.lexed (cache.lex source).1 (cache.lexemes (Token.ofText source)), (cache.lex source).2)

/-- The answers to requests that are made one after the other, and the cache behind them. -/
def run (cache : TextCache) : List TextRequest → List TextAnswer × TextCache
  | [] => ([], cache)
  | r :: rs =>
    let (first, cache) := cache.answer r
    let (others, cache) := cache.run rs
    (first :: others, cache)

theorem run_cons (cache : TextCache) (r : TextRequest) (rs : List TextRequest) :
    cache.run (r :: rs) =
      ((cache.answer r).1 :: ((cache.answer r).2.run rs).1, ((cache.answer r).2.run rs).2) := rfl

theorem copies_answer (cache : TextCache) (r : TextRequest) :
    (cache.answer r).1.copies = (cache.pool.internAll r.texts).1 := by
  cases r with
  | intern text => rfl
  | escapes literal => rfl
  | lex source => exact lexemes_eq cache _

theorem pool_answer (cache : TextCache) (r : TextRequest) :
    (cache.answer r).2.pool = (cache.pool.internAll r.texts).2 := by
  cases r with
  | intern text => rfl
  | escapes literal => rfl
  | lex source => exact pool_takeInAll cache _

theorem memo_answer (cache : TextCache) (r : TextRequest) :
    (cache.answer r).2.memo = cache.memo.lookThrough r.literals := by
  cases r with
  | intern text => rfl
  | escapes literal => rfl
  | lex source => exact memo_takeInAll cache _

theorem isFor_answer (cache : TextCache) (r : TextRequest) : (cache.answer r).1.IsFor r := by
  cases r with
  | intern text => exact cache.text_intern text
  | escapes literal => exact cache.fst_invalidEscapes literal
  | lex source =>
      refine ⟨lex_eq cache source, ?_⟩
      show (cache.lexemes (Token.ofText source)).map (·.text) = (cache.lex source).1.tokens.map _
      rw [lexemes_eq, Pool.map_text_internAll, lex_eq, LexedText.ofText]

theorem isFor_run (cache : TextCache) (rs : List TextRequest) :
    List.Forall₂ TextAnswer.IsFor (cache.run rs).1 rs := by
  induction rs generalizing cache with
  | nil => exact .nil
  | cons r rs ih => exact .cons (isFor_answer cache r) (ih _)

/-- In a run the pool goes through the texts of all requests in a row. -/
theorem internAll_run (cache : TextCache) (rs : List TextRequest) :
    cache.pool.internAll (rs.flatMap (·.texts)) =
      ((cache.run rs).1.flatMap (·.copies), (cache.run rs).2.pool) := by
  induction rs generalizing cache with
  | nil => rfl
  | cons r rs ih =>
      rw [List.flatMap_cons, Pool.internAll_append, ← pool_answer, ih, run_cons, List.flatMap_cons,
        copies_answer]

theorem memo_run (cache : TextCache) (rs : List TextRequest) :
    (cache.run rs).2.memo = cache.memo.lookThrough (rs.flatMap (·.literals)) := by
  induction rs generalizing cache with
  | nil => rfl
  | cons r rs ih =>
      rw [run_cons, List.flatMap_cons, EscapeMemo.lookThrough_append, ← memo_answer, ih]

theorem known_new (caching : Bool) (literal : String) :
    (new caching).memo.known[literal]? = none :=
  Std.HashMap.getElem?_empty

/-- What a new cache has come to after the requests, and what it has handed out. -/
structure IsExact (caching : Bool) (requests : List TextRequest) (answers : List TextAnswer)
    (cache : TextCache) : Prop where
  answered : List.Forall₂ TextAnswer.IsFor answers requests
  /-- The lexer by offsets, which takes each lexeme to the pool in the step that cuts it out, does
  to the cache what taking in the tokens does. -/
  byOffset (source : String) : cache.lexByOffset source = .ok (cache.lex source)
  size_caching : caching = true →
    cache.size = (requests.flatMap (·.texts)).toFinset.card
  shared : caching = true → ∀ a ∈ answers.flatMap (·.copies), ∀ b ∈ answers.flatMap (·.copies),
    a.copy = b.copy ↔ a.text = b.text
  known_caching (literal : String) : caching = true → cache.memo.known[literal]? =
    if literal ∈ requests.flatMap (·.literals) then some (InvalidEscape.ofLiteral literal) else none
  size_not_caching : caching = false → cache.size = 0
  apart : caching = false →
    (answers.flatMap (·.copies)).Pairwise fun a b => a.copy ≠ b.copy
  known_not_caching (literal : String) : caching = false → cache.memo.known[literal]? = none

/-- With caching the pool holds the texts asked for and the lexemes of all tokens, each of them once
and shared by all who asked; without, it holds nothing and nothing is shared. The answers are those
without any cache. -/
theorem isExact_run (caching : Bool) (requests : List TextRequest) :
    IsExact caching requests ((new caching).run requests).1 ((new caching).run requests).2 := by
  have hpool := internAll_run (new caching) requests
  have hmemo := memo_run (new caching) requests
  have htexts := Pool.map_text_internAll (new caching).pool (requests.flatMap (·.texts))
  have hholds : caching = true → ((new caching).run requests).2.pool.Holds
      (((new caching).run requests).1.flatMap (·.copies)) := by
    intro hcaching
    have hend := (Pool.holds_new caching).internAll hcaching (requests.flatMap (·.texts))
    rwa [show Pool.new caching = (new caching).pool from rfl, hpool, List.nil_append] at hend
  have hdiscards (hcaching : caching = false) :=
    Pool.internAll_of_not_caching (p := (new caching).pool) hcaching (requests.flatMap (·.texts))
  rw [hpool] at htexts hdiscards
  refine {
    answered := isFor_run _ _
    byOffset := lexByOffset_eq _
    size_caching := fun hcaching => ?_
    shared := fun hcaching a ha b hb => (hholds hcaching).copy_eq_iff ha hb
    known_caching := fun literal hcaching => ?_
    size_not_caching := fun hcaching => ?_
    apart := fun hcaching => ?_
    known_not_caching := fun literal hcaching => ?_ }
  · exact (hholds hcaching).size_eq.trans (by rw [htexts])
  · rw [hmemo, EscapeMemo.known_lookThrough hcaching, known_new]
  · rw [size, Pool.size, (hdiscards hcaching).2]
    rfl
  · have hnodup : ((((new caching).run requests).1.flatMap (·.copies)).map (·.copy)).Nodup := by
      rw [(hdiscards hcaching).1]
      exact List.nodup_range'
    exact List.pairwise_map.mp hnodup
  · rw [hmemo, EscapeMemo.lookThrough_of_not_caching hcaching, known_new]

end TextCache

end LessonCheck
