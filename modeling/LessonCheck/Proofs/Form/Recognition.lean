import LessonCheck.Proofs.Access.Calls
import Mathlib.Data.List.Forall2

/-!
Every print call is found once. A call is recognized from its first token on: either that is the
method, or the path `System.out.` leads to it, and tokens that run out on the way make no call. The
check of statement ends tries this at every token, while the list of calls goes on behind the name
of a call it has found. Both come to the same calls, because none begins on the path of another, and
a call among the arguments of another begins behind its parenthesis.
-/

namespace LessonCheck

namespace OutputCall

/-- How much of the path to the method has been read. -/
inductive Stage
  | start
  | system
  | systemDot
  | out
  | outDot
  deriving DecidableEq

namespace Stage

/-- The stage behind a token that goes on along the path. -/
def next? : Stage → Token → Option Stage
  | .start, t => if t.isName "System" then some .system else none
  | .system, t => if t.kind = .dot then some .systemDot else none
  | .systemDot, t => if t.isName "out" then some .out else none
  | .out, t => if t.kind = .dot then some .outDot else none
  | .outDot, _ => none

/-- The token is a method where one may stand. -/
def endsAt : Stage → Token → Bool
  | .start, t | .outDot, t => isMethod t
  | _, _ => false

/-- Reads on from token number `i` up to the method, whose number is the answer together with the
stage it was met in. -/
def method? (stage : Stage) (i : Nat) : Tokens → Option (Stage × Nat)
  | [] => none
  | t :: rest =>
    match stage.next? t with
    | some next => next.method? (i + 1) rest
    | none => if stage.endsAt t then some (stage, i) else none

end Stage

end OutputCall

namespace Tokens

open OutputCall

/-- The print call whose first token has this number, read stage by stage. -/
def recognize? (ts : Tokens) (start : Nat) : Option CallLayout :=
  if 0 < start ∧ ts.hasKindAt (start - 1) .dot then none
  else
    match Stage.start.method? start (ts.drop start) with
    | none => none
    | some (stage, method) =>
      if ts.hasKindAt (method + 1) .lparen then
        some ⟨stage = .outDot, method, method + 1, ts.closingParen? (method + 1)⟩
      else none

variable {ts : Tokens} {i j : Nat} {call other : OutputCall}

/-! ### How a call is written -/

/-- A name with this text has the number `i`. -/
def HasName (ts : Tokens) (i : Nat) (word : String) : Prop :=
  ∃ t, ts[i]? = some t ∧ t.kind = .identifier ∧ t.lexeme = word

/-- The name of a print method has the number `i`, and a parenthesis follows. -/
structure HasMethod (ts : Tokens) (i : Nat) : Prop where
  name : ts.HasName i "println" ∨ ts.HasName i "print"
  opener : ts.hasKindAt (i + 1) .lparen = true

/-- The path `System.out.` begins at number `i`. -/
structure HasPath (ts : Tokens) (i : Nat) : Prop where
  system : ts.HasName i "System"
  first : ts.hasKindAt (i + 1) .dot = true
  out : ts.HasName (i + 2) "out"
  second : ts.hasKindAt (i + 3) .dot = true

/-- The token in front of number `i` is a dot. -/
def FollowsDot (ts : Tokens) (i : Nat) : Prop :=
  ∃ j, j + 1 = i ∧ ts.hasKindAt j .dot = true

/-- A print call begins at number `i`, and has its method and its parentheses at these numbers. -/
inductive HasCall (ts : Tokens) (i : Nat) : CallLayout → Prop
  | bare : ¬ ts.FollowsDot i → ts.HasMethod i →
      HasCall ts i ⟨false, i, i + 1, ts.closingParen? (i + 1)⟩
  | qualified : ¬ ts.FollowsDot i → ts.HasPath i → ts.HasMethod (i + 4) →
      HasCall ts i ⟨true, i + 4, i + 4 + 1, ts.closingParen? (i + 4 + 1)⟩

theorem hasName_iff {word : String} :
    ts.HasName i word ↔ ts[i]?.any (·.isName word) = true := by
  simp [HasName, Token.isName, Option.any_eq_true]

theorem hasMethod_iff :
    ts.HasMethod i ↔ (ts[i]?.any isMethod && ts.hasKindAt (i + 1) .lparen) = true := by
  have hname : (ts.HasName i "println" ∨ ts.HasName i "print") ↔ ts[i]?.any isMethod = true := by
    simp only [hasName_iff]
    cases ts[i]? <;> simp [isMethod, Vocabulary.isPrintMethod, Token.isName, and_or_left]
  rw [Bool.and_eq_true, ← hname]
  exact ⟨fun h => ⟨h.name, h.opener⟩, fun h => ⟨h.1, h.2⟩⟩

theorem hasPath_iff :
    ts.HasPath i ↔ ts[i]?.any (·.isName "System") = true ∧ ts.pathAt i = true := by
  simp only [pathAt, Bool.and_eq_true, ← hasName_iff]
  exact ⟨fun h => ⟨h.system, ⟨h.first, h.out⟩, h.second⟩,
    fun h => ⟨h.1, h.2.1.1, h.2.1.2, h.2.2⟩⟩

theorem followsDot_iff : ts.FollowsDot i ↔ 0 < i ∧ ts.hasKindAt (i - 1) .dot = true := by
  constructor
  · rintro ⟨j, rfl, hdot⟩
    exact ⟨Nat.succ_pos j, hdot⟩
  · rintro ⟨hpos, hdot⟩
    exact ⟨i - 1, Nat.sub_add_cancel hpos, hdot⟩

/-! ### Reading stage by stage -/

/-- At a stage on the way, a token of one kind leads to the next stage and any other ends the
reading. -/
theorem method?_of_next {stage : Stage} (next : Stage) (leads : Token → Bool)
    (hnext : ∀ t, stage.next? t = if leads t then some next else none)
    (hends : ∀ t, stage.endsAt t = false) (ts : Tokens) (i : Nat) :
    stage.method? i (ts.drop i) =
      if ts[i]?.any leads then next.method? (i + 1) (ts.drop (i + 1)) else none := by
  rw [drop_eq ts i]
  cases ts[i]? with
  | none => rfl
  | some t =>
      simp only [Option.elim_some, Stage.method?, hnext, hends, Option.any_some]
      by_cases ht : leads t = true <;> simp [ht]

theorem method?_outDot (ts : Tokens) (i : Nat) :
    Stage.outDot.method? i (ts.drop i) =
      if ts[i]?.any isMethod then some (.outDot, i) else none := by
  rw [drop_eq ts i]
  cases ts[i]? <;> rfl

theorem method?_start (ts : Tokens) (i : Nat) :
    Stage.start.method? i (ts.drop i) =
      if ts[i]?.any (·.isName "System") then Stage.system.method? (i + 1) (ts.drop (i + 1))
      else if ts[i]?.any isMethod then some (.start, i) else none := by
  rw [drop_eq ts i]
  cases ts[i]? with
  | none => rfl
  | some t =>
      simp only [Option.elim_some, Stage.method?, Stage.next?, Option.any_some]
      by_cases ht : t.isName "System" = true
      · simp [ht]
      · simp only [ht, Bool.false_eq_true, if_false]
        rfl

/-- Behind `System` the stages lead along the path. -/
theorem method?_system (ts : Tokens) (i : Nat) :
    Stage.system.method? (i + 1) (ts.drop (i + 1)) =
      if ts.pathAt i && ts[i + 4]?.any isMethod then some (.outDot, i + 4) else none := by
  rw [method?_of_next .systemDot (fun t => decide (t.kind = .dot)) (by simp [Stage.next?])
      fun _ => rfl,
    method?_of_next .out (·.isName "out") (fun _ => rfl) fun _ => rfl,
    method?_of_next .outDot (fun t => decide (t.kind = .dot)) (by simp [Stage.next?])
      fun _ => rfl,
    method?_outDot, any_kind, any_kind, pathAt]
  cases ts.hasKindAt (i + 1) .dot
  · rfl
  · cases ts.hasKindAt (i + 3) .dot <;>
      cases ts[i + 2]?.any (·.isName "out") <;> simp

/-- The call of the method at number `method`, if there is one and its parenthesis follows. -/
def methodCall? (ts : Tokens) (qualified : Bool) (method : Nat) : Option CallLayout :=
  if ts[method]?.any isMethod && ts.hasKindAt (method + 1) .lparen then
    some ⟨qualified, method, method + 1, ts.closingParen? (method + 1)⟩
  else none

theorem methodCall?_eq_some_iff {qualified : Bool} {method : Nat} {layout : CallLayout} :
    ts.methodCall? qualified method = some layout ↔
      ts.HasMethod method ∧
        ⟨qualified, method, method + 1, ts.closingParen? (method + 1)⟩ = layout := by
  rw [methodCall?, hasMethod_iff]
  split
  · next h => simp [h]
  · next h => simp [h]

theorem methodCallAt_eq (ts : Tokens) (qualified : Bool) (method : Nat) :
    ts.methodCallAt qualified method = .ok (ts.methodCall? qualified method) := by
  rw [methodCallAt, methodCall?, closerAt_eq]
  split <;> rfl

/-- The stages come to the call that all its tokens, looked at together, make up. -/
theorem recognize?_eq_ite (ts : Tokens) (i : Nat) :
    ts.recognize? i =
      if 0 < i ∧ ts.hasKindAt (i - 1) .dot then none
      else if ts[i]?.any (·.isName "System") then
        if ts.pathAt i then ts.methodCall? true (i + 4) else none
      else ts.methodCall? false i := by
  rw [recognize?, method?_start, method?_system]
  refine if_congr Iff.rfl rfl ?_
  by_cases hsystem : ts[i]?.any (·.isName "System") = true
  · simp only [hsystem, if_true, methodCall?]
    cases ts.pathAt i
    · simp
    · cases ts[i + 4]?.any isMethod <;> simp
  · simp only [hsystem, Bool.false_eq_true, if_false, methodCall?]
    cases ts[i]?.any isMethod <;> simp

theorem exists_before (ts : Tokens) (i : Nat) :
    ∃ before, ts.before i = .ok before ∧
      (before.any (·.kind = .dot) = true ↔ 0 < i ∧ ts.hasKindAt (i - 1) .dot = true) := by
  unfold before
  by_cases hpos : 0 < i
  · have hprevious : Checked.difference i 1 = .ok (i - 1) :=
      Checked.difference_eq_ok_iff.mpr (Nat.sub_add_cancel hpos)
    refine ⟨ts[i - 1]?, by rw [if_pos hpos, hprevious]; rfl, ?_⟩
    rw [any_kind]
    exact ⟨fun hdot => ⟨hpos, hdot⟩, fun h => h.2⟩
  · exact ⟨none, if_neg hpos, by simp [hpos]⟩

theorem callAt_eq_recognize? (ts : Tokens) (i : Nat) : ts.callAt i = .ok (ts.recognize? i) := by
  obtain ⟨before, hbefore, hdot⟩ := exists_before ts i
  simp only [callAt, hbefore, Checked.ok_bind, methodCallAt_eq, Checked.pure_eq, Checked.ite_ok,
    recognize?_eq_ite, hdot]

theorem recognize?_eq (ts : Tokens) (i : Nat) :
    ts.recognize? i = (ts.outputCall? i).map (·.layout i) := by
  cases ht : ts[i]? with
  | none =>
      have hdrop : ts.drop i = [] := List.drop_eq_nil_of_le (List.getElem?_eq_none_iff.mp ht)
      simp [recognize?, outputCall?, hdrop, Stage.method?]
  | some t =>
      obtain ⟨front, rest, rfl, rfl⟩ := exists_split_of_getElem? ht
      have hcall := (callAt_eq_recognize? (front ++ t :: rest) front.length).symm.trans
        (callAt_append front t rest)
      rw [outputCall?_append]
      exact Except.ok.inj hcall

/-- A call is recognized exactly where one is written. -/
theorem recognize?_eq_some_iff {layout : CallLayout} :
    ts.recognize? i = some layout ↔ ts.HasCall i layout := by
  rw [recognize?_eq_ite]
  constructor
  · intro h
    split at h
    · cases h
    · next hfree =>
        have hdot : ¬ ts.FollowsDot i := fun hdot => hfree (followsDot_iff.mp hdot)
        split at h
        · next hsystem =>
            split at h
            · next hpath =>
                obtain ⟨hmethod, rfl⟩ := methodCall?_eq_some_iff.mp h
                exact .qualified hdot (hasPath_iff.mpr ⟨hsystem, hpath⟩) hmethod
            · cases h
        · obtain ⟨hmethod, rfl⟩ := methodCall?_eq_some_iff.mp h
          exact .bare hdot hmethod
  · intro h
    cases h with
    | bare hdot hmethod =>
        -- A method is not called `System`.
        have hsystem : ts[i]?.any (·.isName "System") = false := by
          rcases hmethod.name with ⟨t, ht, -, hword⟩ | ⟨t, ht, -, hword⟩ <;>
            simp [ht, Token.isName, hword]
        rw [if_neg fun h => hdot (followsDot_iff.mpr h), hsystem, if_neg Bool.false_ne_true]
        exact methodCall?_eq_some_iff.mpr ⟨hmethod, rfl⟩
    | qualified hdot hpath hmethod =>
        obtain ⟨hsystem, hpath⟩ := hasPath_iff.mp hpath
        rw [if_neg fun h => hdot (followsDot_iff.mpr h), if_pos hsystem, if_pos hpath]
        exact methodCall?_eq_some_iff.mpr ⟨hmethod, rfl⟩

/-! ### The head of a call -/

theorem HasName.hasKindAt {word : String} (h : ts.HasName i word) :
    ts.hasKindAt i .identifier = true := by
  obtain ⟨t, ht, hkind, -⟩ := h
  exact hasKindAt_iff.mpr ⟨t, ht, hkind⟩

theorem HasMethod.hasKindAt (h : ts.HasMethod i) : ts.hasKindAt i .identifier = true :=
  h.name.elim HasName.hasKindAt HasName.hasKindAt

theorem HasCall.begins {layout : CallLayout} (h : ts.HasCall i layout) :
    ts.hasKindAt i .identifier = true ∧ ¬ ts.FollowsDot i := by
  cases h with
  | bare hdot hmethod => exact ⟨hmethod.hasKindAt, hdot⟩
  | qualified hdot hpath _ => exact ⟨hpath.system.hasKindAt, hdot⟩

theorem hasCall_of_outputCall? (h : ts.outputCall? i = some call) :
    ts.HasCall i (call.layout i) := by
  rw [← recognize?_eq_some_iff, recognize?_eq, h]
  rfl

/-- Up to the parenthesis of a call stand names and dots, a name in front of each dot and none in
front of a name. -/
theorem head_cases (h : ts.outputCall? i = some call) (hij : i ≤ j) (hj : j < call.openIndex i) :
    (ts.hasKindAt j .identifier = true ∧ (i < j → ts.FollowsDot j) ∧
      (ts.hasKindAt (j + 1) .dot = true ∨ ts.hasKindAt (j + 1) .lparen = true)) ∨
    ts.hasKindAt j .dot = true ∧ ts.hasKindAt (j + 1) .identifier = true := by
  have hcall := hasCall_of_outputCall? h
  have hopen : (call.layout i).opener = call.openIndex i := rfl
  rw [← hopen] at hj
  generalize call.layout i = layout at hcall hj
  cases hcall with
  | bare _ hmethod =>
      obtain rfl : j = i := Nat.le_antisymm (Nat.le_of_lt_succ hj) hij
      exact Or.inl ⟨hmethod.hasKindAt, fun hlt => absurd hlt (Nat.lt_irrefl _),
        Or.inr hmethod.opener⟩
  | qualified _ hpath hmethod =>
      have hlast : j < i + 4 + 1 := hj
      obtain rfl | rfl | rfl | rfl | rfl :
          j = i ∨ j = i + 1 ∨ j = i + 2 ∨ j = i + 3 ∨ j = i + 4 := by
        omega
      · exact Or.inl ⟨hpath.system.hasKindAt, fun hlt => absurd hlt (Nat.lt_irrefl _),
          Or.inl hpath.first⟩
      · exact Or.inr ⟨hpath.first, hpath.out.hasKindAt⟩
      · exact Or.inl ⟨hpath.out.hasKindAt, fun _ => ⟨i + 1, rfl, hpath.first⟩,
          Or.inl hpath.second⟩
      · exact Or.inr ⟨hpath.second, hmethod.hasKindAt⟩
      · exact Or.inl ⟨hmethod.hasKindAt, fun _ => ⟨i + 3, rfl, hpath.second⟩,
          Or.inr hmethod.opener⟩

/-- No other call begins before the parenthesis of a call. -/
theorem outputCall?_eq_none_of_head (h : ts.outputCall? i = some call) (hij : i < j)
    (hj : j < call.openIndex i) : ts.outputCall? j = none := by
  refine Option.eq_none_iff_forall_ne_some.mpr fun other hother => ?_
  obtain ⟨hname, hfree⟩ := (hasCall_of_outputCall? hother).begins
  rcases head_cases h (Nat.le_of_lt hij) hj with ⟨-, hfollows, -⟩ | ⟨hdot, -⟩
  · exact hfree (hfollows hij)
  · cases kind_unique hname hdot

/-- A call begins behind the heads of the calls in front of it. -/
theorem openIndex_le (h : ts.outputCall? i = some call) (hother : ts.outputCall? j = some other)
    (hij : i < j) : call.openIndex i ≤ j := by
  refine Nat.le_of_not_lt fun hj => ?_
  rw [outputCall?_eq_none_of_head h hij hj] at hother
  cases hother

theorem le_methodIndex (call : OutputCall) (start : Nat) : start ≤ call.methodIndex start := by
  cases hqualified : call.qualified <;> simp [methodIndex, headLength, hqualified]

theorem methodIndex_lt (h : ts.outputCall? i = some call) (hother : ts.outputCall? j = some other)
    (hij : i < j) : call.methodIndex i < other.methodIndex j := by
  have hle := openIndex_le h hother hij
  have hmethod := call.methodIndex_succ i
  have hhead := le_methodIndex other j
  omega

theorem eq_of_methodIndex (h : ts.outputCall? i = some call)
    (hother : ts.outputCall? j = some other) (heq : call.methodIndex i = other.methodIndex j) :
    i = j := by
  rcases Nat.lt_trichotomy i j with hlt | hij | hgt
  · exact absurd heq (Nat.ne_of_lt (methodIndex_lt h hother hlt))
  · exact hij
  · exact absurd heq.symm (Nat.ne_of_lt (methodIndex_lt hother h hgt))

theorem forall₂_flatMap {α β γ : Type} {R : β → γ → Prop} {f : α → List β} {g : α → List γ}
    {items : List α} (h : ∀ a ∈ items, List.Forall₂ R (f a) (g a)) :
    List.Forall₂ R (items.flatMap f) (items.flatMap g) := by
  have hsame : List.Forall₂ (fun a b => a = b ∧ a ∈ items) items items :=
    List.forall₂_same.mpr fun a ha => ⟨rfl, ha⟩
  refine List.rel_flatMap hsame ?_
  rintro a _ ⟨rfl, ha⟩
  exact h a ha

/-! ### The calls of a token list -/

/-- The call at number `i`, with its number. -/
def numberedCall? (ts : Tokens) (i : Nat) : Option (Nat × OutputCall) :=
  (ts.outputCall? i).map (i, ·)

/-- The numbers that the search leaves out are those of the head, where no other call begins. -/
theorem outputCallsFrom_eq {front ts : Tokens} {start : Nat} {before : Option Token}
    (hstart : front.length = start) (hbefore : front.getLast? = before) :
    outputCallsFrom start before ts =
      (List.range' start ts.length).filterMap (front ++ ts).numberedCall? := by
  fun_induction outputCallsFrom start before ts generalizing front with
  | case1 => rfl
  | case2 start before t rest call hcall ih =>
      obtain ⟨path, hsplit, hlength, -⟩ := OutputCall.exists_split_of_at? hcall
      have hplace : (front ++ path ++ [call.method]).length = start + call.headLength := by
        simp only [List.length_append, List.length_singleton]
        omega
      have hbehind := ih hplace (by simp)
      have hts : front ++ path ++ [call.method] ++ rest.drop (call.headLength - 1) =
          front ++ t :: rest := by
        rw [hsplit]
        simp
      have hhere : outputCall? (front ++ t :: rest) start = some call := by
        rw [← hstart, outputCall?_append, hbefore, hcall]
      have hhead : (List.range' (start + 1) path.length).filterMap
          (front ++ t :: rest).numberedCall? = [] := by
        refine List.filterMap_eq_nil_iff.mpr fun j hj => ?_
        obtain ⟨hfirst, hlast⟩ := List.mem_range'_1.mp hj
        have hopen : call.openIndex start = start + call.headLength := rfl
        rw [numberedCall?, outputCall?_eq_none_of_head hhere (by omega) (by omega)]
        rfl
      have hcount : (t :: rest).length =
          1 + path.length + (rest.drop (call.headLength - 1)).length := by
        rw [hsplit]
        simp only [List.length_append, List.length_cons]
        omega
      have hrange : start + (1 + path.length) = start + call.headLength := by omega
      rw [hbehind, hts, hcount, ← List.range'_append_1, hrange, List.filterMap_append,
        Nat.add_comm 1, List.range'_succ, List.filterMap_cons, numberedCall?, hhere, hhead]
      rfl
  | case3 start before t rest hnone ih =>
      have hplace : (front ++ [t]).length = start + 1 := by simp [hstart]
      have hbehind := ih hplace (by simp)
      have hhere : outputCall? (front ++ t :: rest) start = none := by
        rw [← hstart, outputCall?_append, hbefore, hnone]
      rw [hbehind, List.append_assoc, List.singleton_append, List.length_cons, List.range'_succ,
        List.filterMap_cons, numberedCall?, hhere]
      rfl

theorem outputCalls_eq (ts : Tokens) :
    ts.outputCalls = (List.range ts.length).filterMap ts.numberedCall? := by
  have hplace : ([] : Tokens).length = 0 := rfl
  rw [List.range_eq_range']
  exact outputCallsFrom_eq hplace rfl

theorem mem_outputCalls_iff : (i, call) ∈ ts.outputCalls ↔ ts.outputCall? i = some call := by
  refine ⟨outputCall?_of_mem_outputCalls, fun h => ?_⟩
  obtain ⟨front, t, rest, rfl, rfl, -⟩ := exists_at?_of_outputCall? h
  rw [outputCalls_eq, List.mem_filterMap]
  exact ⟨front.length, by simp, by rw [numberedCall?, h]; rfl⟩

theorem pairwise_outputCalls (ts : Tokens) : ts.outputCalls.Pairwise fun c d => c.1 < d.1 := by
  rw [outputCalls_eq, List.pairwise_filterMap]
  refine List.pairwise_lt_range.imp fun {i j} hij c hc d hd => ?_
  obtain ⟨call, -, rfl⟩ := Option.map_eq_some_iff.mp hc
  obtain ⟨other, -, rfl⟩ := Option.map_eq_some_iff.mp hd
  exact hij

theorem map_layout_outputCalls (ts : Tokens) :
    (ts.outputCalls.map fun c => c.2.layout c.1) =
      (List.range ts.length).filterMap ts.recognize? := by
  rw [outputCalls_eq, List.map_filterMap]
  refine List.filterMap_congr fun i _ => ?_
  rw [recognize?_eq, numberedCall?, Option.map_map]
  rfl

theorem outputStartsFrom_eq {front ts : Tokens} {start : Nat} {before : Option Token}
    (hstart : front.length = start) (hbefore : front.getLast? = before) :
    outputStartsFrom start before ts =
      (List.range' start ts.length).filter fun i => ((front ++ ts).recognize? i).isSome := by
  induction ts generalizing front start before with
  | nil => rfl
  | cons t rest ih =>
      have hplace : (front ++ [t]).length = start + 1 := by simp [hstart]
      have hbehind := ih hplace List.getLast?_concat
      rw [List.append_assoc, List.singleton_append] at hbehind
      have hhere : ((front ++ t :: rest).recognize? start).isSome =
          (OutputCall.at? before t rest).isSome := by
        rw [recognize?_eq, Option.isSome_map, ← hstart, outputCall?_append, hbefore]
      rw [outputStartsFrom, hbehind, List.length_cons, List.range'_succ, List.filter_cons, hhere]

/-! ### The check of statement ends -/

end Tokens

def EndingProblem.isPrintCall : EndingProblem → Bool
  | .printCall _ => true
  | _ => false

/-- The semicolon that a closed call lacks. -/
def OutputCall.endingProblems (call : OutputCall) : List (Located EndingProblem) :=
  call.arguments.elim [] fun e =>
    if e.after[0]?.any (·.kind = .semicolon) then []
    else [⟨call.method.location, .printCall call.name⟩]

theorem OutputCall.isPrintCall_of_mem {call : OutputCall} {p : Located EndingProblem}
    (h : p ∈ call.endingProblems) : p.problem.isPrintCall = true := by
  unfold endingProblems at h
  cases hclosed : call.arguments with
  | none => simp [hclosed] at h
  | some e =>
      simp only [hclosed, Option.elim_some] at h
      split at h
      · cases h
      · rw [List.mem_singleton.mp h]
        rfl

namespace Tokens

theorem printEnding_eq_inCall : printEnding = inCall OutputCall.endingProblems := by
  funext before t rest
  rw [printEnding, inCall]
  cases OutputCall.at? before t rest with
  | none => rfl
  | some call => cases harguments : call.arguments <;> simp [OutputCall.endingProblems, harguments]

/-- The check of statement ends asks at every token whether a call begins there, and asks of the
calls that the search collects. -/
theorem filter_isPrintCall (ts : Tokens) :
    (ts.endingProblems.filter fun p => p.problem.isPrintCall) =
      ts.outputCalls.flatMap fun c => c.2.endingProblems := by
  have hcalls := flatMap_outputCallsFrom OutputCall.endingProblems 0 none ts
  rw [outputCalls, hcalls, ← printEnding_eq_inCall, endingProblems, filter_survey, survey]
  congr 1
  funext before t rest
  have hprint : ∀ p ∈ printEnding before t rest, p.problem.isPrintCall = true := by
    intro p hp
    rw [printEnding_eq_inCall, inCall] at hp
    cases hcall : OutputCall.at? before t rest with
    | none => simp [hcall] at hp
    | some call => exact OutputCall.isPrintCall_of_mem (by simpa [hcall] using hp)
  have hstatement : ∀ p ∈ statementEnding before t rest, ¬ p.problem.isPrintCall = true := by
    intro p hp
    unfold statementEnding at hp
    split at hp
    · split at hp <;> simp at hp
      simp [hp, EndingProblem.isPrintCall]
    · split at hp
      · split at hp <;> simp at hp
        simp [hp, EndingProblem.isPrintCall]
      · cases hp
  rw [List.filter_append, List.filter_eq_self.mpr hprint, List.filter_eq_nil_iff.mpr hstatement,
    List.append_nil]

/-- Print calls are found where they are written, and found once. -/
structure FindsCalls (ts : Tokens) : Prop where
  /-- Reading stage by stage ends with a call exactly where one is written. -/
  recognized (i : Nat) (layout : CallLayout) : ts.recognize? i = some layout ↔ ts.HasCall i layout
  /-- It is the call that the checks know of. -/
  checked (i : Nat) : ts.recognize? i = (ts.outputCall? i).map (·.layout i)
  /-- The search that goes on behind the name of a call misses none of the calls that are recognized
  at one number after the other. -/
  searched : ts.callsFrom 0 = .ok ((List.range ts.length).filterMap ts.recognize?)
  collected : ts.outputCalls = (List.range ts.length).filterMap ts.numberedCall?
  begun : ts.outputStarts = (List.range ts.length).filter fun i => (ts.recognize? i).isSome
  /-- The check that asks at every token whether a call begins there speaks of the same calls. -/
  ended : (ts.endingProblems.filter fun p => p.problem.isPrintCall) =
    ts.outputCalls.flatMap fun c => c.2.endingProblems
  ordered : ts.outputCalls.Pairwise fun c d =>
    c.2.methodIndex c.1 < d.2.methodIndex d.1 ∧ c.2.openIndex c.1 < d.2.openIndex d.1
  /-- No method belongs to two calls. -/
  distinct (i j : Nat) (layout layout' : CallLayout) : ts.recognize? i = some layout →
    ts.recognize? j = some layout' → layout.method = layout'.method → i = j

theorem findsCalls (ts : Tokens) : ts.FindsCalls where
  recognized i layout := recognize?_eq_some_iff
  checked := recognize?_eq ts
  searched := by rw [callsFrom_eq, map_layout_outputCalls]
  collected := outputCalls_eq ts
  begun := by
    have hplace : ([] : Tokens).length = 0 := rfl
    rw [List.range_eq_range']
    exact outputStartsFrom_eq hplace rfl
  ended := filter_isPrintCall ts
  ordered := by
    refine (pairwise_outputCalls ts).imp_of_mem fun {c d} hc hd hcd => ?_
    have hlt := methodIndex_lt (mem_outputCalls_iff.mp hc) (mem_outputCalls_iff.mp hd) hcd
    refine ⟨hlt, ?_⟩
    rw [← OutputCall.methodIndex_succ, ← OutputCall.methodIndex_succ]
    exact Nat.succ_lt_succ hlt
  distinct i j layout layout' hi hj heq := by
    rw [recognize?_eq] at hi hj
    obtain ⟨call, hcall, rfl⟩ := Option.map_eq_some_iff.mp hi
    obtain ⟨other, hother, rfl⟩ := Option.map_eq_some_iff.mp hj
    exact eq_of_methodIndex hcall hother heq

example : (Token.ofText "System.out.print(println(x));").callsFrom 0 =
    .ok [⟨true, 4, 5, some 10⟩, ⟨false, 6, 7, some 9⟩] := by
  decide +kernel

end Tokens

end LessonCheck
