import LessonCheck.Form.Concatenation
import LessonCheck.Form.Ending
import LessonCheck.Proofs.Access.Header

/-!
Print calls by number. A call is recognized token by token from a number on, and is known by the
numbers of its method and its parentheses. The checks of statement ends and of concatenation look
around from these numbers, in front of them as well.
-/

namespace LessonCheck

/-- A print call by the numbers of its tokens. -/
structure CallLayout where
  qualified : Bool
  method : Nat
  opener : Nat
  /-- Absent when the call never closes. -/
  closer : Option Nat
  deriving DecidableEq

/-- The numbers of a call that begins at number `start`. -/
def OutputCall.layout (call : OutputCall) (start : Nat) : CallLayout :=
  ⟨call.qualified, call.methodIndex start, call.openIndex start, call.closeIndex? start⟩

namespace Tokens

/-! ### Recognizing a call -/

/-- The call of the method that stands at a number, if it is one and its arguments begin. -/
def methodCallAt (ts : Tokens) (qualified : Bool) (method : Nat) :
    Checked (Option CallLayout) := do
  if ts[method]?.any OutputCall.isMethod && ts.hasKindAt (method + 1) .lparen then
    return some ⟨qualified, method, method + 1, ← ts.closerAt (method + 1)⟩
  else return none

/-- Behind `System` stand the other tokens of the path to a method. -/
def pathAt (ts : Tokens) (start : Nat) : Bool :=
  ts.hasKindAt (start + 1) .dot && ts[start + 2]?.any (·.isName "out") &&
    ts.hasKindAt (start + 3) .dot

def callAt (ts : Tokens) (start : Nat) : Checked (Option CallLayout) := do
  if (← ts.before start).any (·.kind = .dot) then return none
  else if ts[start]?.any (·.isName "System") then
    if ts.pathAt start then ts.methodCallAt true (start + 4) else return none
  else ts.methodCallAt false start

theorem methodCallAt_append (front : Tokens) (qualified : Bool) (method : Token) (rest : Tokens) :
    methodCallAt (front ++ method :: rest) qualified front.length =
      .ok ((OutputCall.ofMethod? qualified method rest).map fun call =>
        ⟨qualified, front.length, front.length + 1,
          call.arguments.map fun e => front.length + 1 + 1 + e.inside.length⟩) := by
  have hhere : (front ++ method :: rest)[front.length]? = some method := by simp
  unfold methodCallAt OutputCall.ofMethod?
  rw [hhere, closerAt_eq]
  cases rest with
  | nil => simp [hasKindAt, kind?]
  | cons opener behind =>
      have hopener : hasKindAt (front ++ method :: opener :: behind) (front.length + 1) .lparen =
          decide (opener.kind = .lparen) := by
        simp [hasKindAt, kind?]
      by_cases hkind : opener.kind = .lparen
      · have hcloser := closingParen?_append hkind (front ++ [method]) behind
        rw [List.length_append, List.length_singleton, List.append_assoc,
          List.singleton_append] at hcloser
        by_cases hmethod : OutputCall.isMethod method = true
        · simp [hopener, hkind, hmethod, hcloser]
        · simp [hmethod]
      · simp [hopener, hkind]

/-- The call that is recognized at a number is the one that begins there. -/
theorem callAt_append (front : Tokens) (t : Token) (rest : Tokens) :
    callAt (front ++ t :: rest) front.length =
      .ok ((OutputCall.at? front.getLast? t rest).map (·.layout front.length)) := by
  have hhere : (front ++ t :: rest)[front.length]? = some t := by simp
  have hlayout {qualified : Bool} {method : Token} {behind : Tokens} {n : Nat}
      (hn : n + 1 = front.length + if qualified then 5 else 1) :
      ((OutputCall.ofMethod? qualified method behind).map fun call => CallLayout.mk qualified n
          (n + 1) (call.arguments.map fun e => n + 1 + 1 + e.inside.length)) =
        (OutputCall.ofMethod? qualified method behind).map (·.layout front.length) := by
    cases hcall : OutputCall.ofMethod? qualified method behind with
    | none => rfl
    | some call =>
        obtain ⟨-, rfl, -⟩ := OutputCall.ofMethod?_eq_some hcall
        simp only [Option.map_some, OutputCall.layout, OutputCall.methodIndex,
          OutputCall.openIndex, OutputCall.closeIndex?, OutputCall.headLength, ← hn,
          Nat.add_sub_cancel]
  unfold callAt OutputCall.at?
  rw [before_append, Checked.ok_bind, hhere, Option.any_some]
  by_cases hdot : front.getLast?.any (·.kind = .dot) = true
  · simp only [hdot, if_true, Checked.pure_eq, Option.map_none]
  by_cases hsystem : t.isName "System" = true
  · simp only [hdot, hsystem, if_true, Bool.false_eq_true, if_false]
    rcases rest with _ | ⟨first, _ | ⟨out, _ | ⟨second, _ | ⟨method, behind⟩⟩⟩⟩
    · simp [pathAt, hasKindAt, kind?]
    · simp [pathAt, hasKindAt, kind?]
    · simp [pathAt, hasKindAt, kind?]
    · simp [methodCallAt]
    · have hts : front ++ [t, first, out, second] ++ method :: behind =
          front ++ t :: first :: out :: second :: method :: behind := by simp
      have hcall := methodCallAt_append (front ++ [t, first, out, second]) true method behind
      rw [hts, List.length_append, hlayout rfl] at hcall
      have hpath : pathAt (front ++ t :: first :: out :: second :: method :: behind) front.length =
          (decide (first.kind = .dot) && out.isName "out" && decide (second.kind = .dot)) := by
        simp [pathAt, hasKindAt, kind?]
      simp only [hpath]
      split
      · exact hcall
      · rfl
  · simp only [hdot, hsystem, Bool.false_eq_true, if_false]
    rw [methodCallAt_append, hlayout rfl]

/-- All calls from a number on. Behind the name of a call the search goes on at its parenthesis,
whose number must be higher. -/
def callsFrom (ts : Tokens) (i : Nat) : Checked (List CallLayout) :=
  if i < ts.length then
    match ts.callAt i with
    | .error fault => .error fault
    | .ok none => callsFrom ts (i + 1)
    | .ok (some call) =>
      if i < call.opener then (callsFrom ts call.opener).map (call :: ·)
      else .error .noProgress
  else .ok []
termination_by ts.length - i

theorem callsFrom_append {start : Nat} {before : Option Token} {front ts : Tokens}
    (hstart : front.length = start) (hbefore : front.getLast? = before) :
    callsFrom (front ++ ts) start =
      .ok ((outputCallsFrom start before ts).map fun call => call.2.layout call.1) := by
  fun_induction outputCallsFrom start before ts generalizing front with
  | case1 => simp [callsFrom, hstart]
  | case2 start before t rest call hcall ih =>
      have hlt : start < (front ++ t :: rest).length := by
        simp only [List.length_append, List.length_cons]
        omega
      have hhere := callAt_append front t rest
      rw [hstart, hbefore, hcall, Option.map_some] at hhere
      obtain ⟨path, hsplit, hlength, -⟩ := OutputCall.exists_split_of_at? hcall
      have hplace : (front ++ path ++ [call.method]).length = start + call.headLength := by
        simp only [List.length_append, List.length_singleton]
        omega
      have hbehind := ih hplace (by simp)
      have hts : front ++ path ++ [call.method] ++ rest.drop (call.headLength - 1) =
          front ++ t :: rest := by
        rw [hsplit]
        simp
      have hopener : (call.layout start).opener = start + call.headLength := rfl
      have hforward : start < start + call.headLength := by omega
      rw [callsFrom, if_pos hlt, hhere]
      simp only [hopener, if_pos hforward]
      rw [← hts, hbehind]
      rfl
  | case3 start before t rest hnone ih =>
      have hlt : start < (front ++ t :: rest).length := by
        simp only [List.length_append, List.length_cons]
        omega
      have hhere := callAt_append front t rest
      rw [hstart, hbefore, hnone, Option.map_none] at hhere
      have hplace : (front ++ [t]).length = start + 1 := by simp [hstart]
      have hbehind := ih hplace (by simp)
      rw [List.append_assoc, List.singleton_append] at hbehind
      rw [callsFrom, if_pos hlt, hhere]
      exact hbehind

/-- The calls that the search by number collects are the print calls, by their numbers. -/
theorem callsFrom_eq (ts : Tokens) :
    ts.callsFrom 0 = .ok (ts.outputCalls.map fun call => call.2.layout call.1) := by
  have hplace : ([] : Tokens).length = 0 := rfl
  exact callsFrom_append hplace rfl

/-- The parentheses of a closed call stand where its layout says. -/
theorem exists_split_of_arguments {ts : Tokens} {i : Nat} {call : OutputCall} {e : Enclosed}
    (hcall : ts.outputCall? i = some call) (he : call.arguments = some e) :
    ∃ front opener, ts = front ++ opener :: (e.inside ++ e.closer :: e.after) ∧
      (call.layout i).opener = front.length ∧
      (call.layout i).closer = some (front.length + 1 + e.inside.length) := by
  obtain ⟨front, rest, rfl, hlength, opener, behind, rfl, -, harguments⟩ :=
    exists_split_of_outputCall? hcall
  have hopener : (front ++ [call.method]).length = call.openIndex i := by
    rw [← call.methodIndex_succ, ← hlength, List.length_append, List.length_singleton]
  rw [Enclosed.eq_of_ofTokens? (harguments.symm.trans he)]
  refine ⟨front ++ [call.method], opener, by simp, hopener.symm, ?_⟩
  rw [hopener]
  simp only [OutputCall.layout, OutputCall.closeIndex?, he, Option.map_some]
  rfl

/-! ### Statement ends -/

def printEndingAt (ts : Tokens) (i : Nat) : Checked (List (Located EndingProblem)) := do
  match ← ts.callAt i with
  | none => return []
  | some call =>
    match call.closer with
    | none => return []
    | some closer =>
      if ts.hasKindAt (closer + 1) .semicolon then return []
      else do
        let method ← ts.tokenAt call.method
        let call : OutputCall := ⟨call.qualified, method, none⟩
        return [⟨method.location, .printCall call.name⟩]

def statementEndingAt (ts : Tokens) (i : Nat) (t : Token) :
    Checked (List (Located EndingProblem)) := do
  if t.isTypeKeyword then
    return if isUnended (ts.drop (i + 1)) then [⟨t.location, .declaration⟩] else []
  else do
    let declares := (← ts.before i).any Token.isTypeKeyword
    if t.kind = .identifier && ts.hasOperatorAt (i + 1) "=" && !declares then
      return if isUnended (ts.drop (i + 2)) then [⟨t.location, .assignment t.lexeme⟩] else []
    else return []

def endingProblemsAt (ts : Tokens) : Checked (List (Located EndingProblem)) :=
  ts.walk fun i t => do
    let print ← ts.printEndingAt i
    let statement ← ts.statementEndingAt i t
    return print ++ statement

theorem printEndingAt_append (front : Tokens) (t : Token) (rest : Tokens) :
    printEndingAt (front ++ t :: rest) front.length = .ok (printEnding front.getLast? t rest) := by
  unfold printEndingAt printEnding
  rw [callAt_append, Checked.ok_bind]
  cases hat : OutputCall.at? front.getLast? t rest with
  | none => rfl
  | some call =>
      have hcall : outputCall? (front ++ t :: rest) front.length = some call := by
        rw [outputCall?_append, hat]
      cases he : call.arguments with
      | none => simp [OutputCall.layout, OutputCall.closeIndex?, he]
      | some e =>
          obtain ⟨path, opener, hts, -, hcloser⟩ := exists_split_of_arguments hcall he
          have hmethod : tokenAt (front ++ t :: rest) (call.layout front.length).method =
              .ok call.method := tokenAt_eq_ok_iff.mpr (getElem?_methodIndex hcall)
          have hsemicolon : hasKindAt (front ++ t :: rest)
              (path.length + 1 + e.inside.length + 1) .semicolon =
                e.after[0]?.any (·.kind = .semicolon) := by
            have hplace : path.length + 1 + e.inside.length =
                (path ++ opener :: e.inside).length := by
              simp only [List.length_append, List.length_cons]
              omega
            rw [hts, hplace, ← hasKindAt_behind (path ++ opener :: e.inside) e.closer]
            simp
          simp only [Option.map_some, hcloser, hsemicolon, hmethod, he, Checked.ok_bind,
            Checked.pure_eq, Checked.ite_ok]
          rfl

theorem statementEndingAt_append (front : Tokens) (t : Token) (rest : Tokens) :
    statementEndingAt (front ++ t :: rest) front.length t =
      .ok (statementEnding front.getLast? t rest) := by
  have hdrop : (front ++ t :: rest).drop (front.length + 1) = rest := by simp
  have hdrop' : (front ++ t :: rest).drop (front.length + 2) = rest.drop 1 := by simp
  have hequals : hasOperatorAt (front ++ t :: rest) (front.length + 1) "=" =
      rest[0]?.any (·.isOperator "=") :=
    congrArg (Option.any fun next : Token => next.isOperator "=") (getElem?_behind front t rest 0)
  simp only [statementEndingAt, statementEnding, before_append, hdrop, hdrop', hequals,
    Checked.ok_bind, Checked.pure_eq, Checked.ite_ok]

theorem endingProblemsAt_eq (ts : Tokens) : ts.endingProblemsAt = .ok ts.endingProblems := by
  refine walk_eq_survey fun front t rest hts => ?_
  rw [hts, printEndingAt_append, statementEndingAt_append]
  rfl

/-! ### Concatenation -/

/-- The token at a number, if the number lies strictly between two others. -/
def innerAt? (ts : Tokens) (opener closer i : Nat) : Option Token :=
  if opener < i ∧ i < closer then ts[i]? else none

/-- The operator `t` at number `i` is a misused one, judged by the arguments around it. -/
def isDoubledPlusAt (ts : Tokens) (opener closer i : Nat) (t : Token) : Checked Bool := do
  if t.isOperator "++" then do
    let previous ← Checked.difference i 1
    return (ts.innerAt? opener closer previous).any Token.isTextOperand ||
      (ts.innerAt? opener closer (i + 1)).any Token.isTextOperand
  else if t.isOperator "+" then do
    let previous ← Checked.difference i 1
    return (ts.innerAt? opener closer previous).any (·.isOperator "++") &&
        (ts.innerAt? opener closer (i + 1)).any Token.isTextOperand ||
      (ts.innerAt? opener closer (i + 1)).any (·.isOperator "+") &&
        (ts.innerAt? opener closer (i + 2)).any Token.isTextOperand
  else return false

/-- The misused operators between two parentheses. -/
def doubledPlusesAt (ts : Tokens) (opener closer : Nat) :
    Checked (List (Located ConcatenationProblem)) :=
  walkFrom (fun i t => do
      return if ← ts.isDoubledPlusAt opener closer i t then [⟨t.location, .doubledPlus⟩] else [])
    (opener + 1) ((ts.take closer).drop (opener + 1))

def concatenationProblemsAt (ts : Tokens) : Checked (List (Located ConcatenationProblem)) := do
  let calls ← ts.callsFrom 0
  let problems ← calls.mapM fun call =>
    match call.closer with
    | some closer => ts.doubledPlusesAt call.opener closer
    | none => return []
  return problems.flatten

section
variable (front : Tokens) (opener closer : Token) (after : Tokens) {inside : Tokens}

/-- In front of an argument stands the argument before it, and none in front of the first. -/
theorem innerAt?_before {before rest : Tokens} (h : inside = before ++ rest)
    (hrest : rest ≠ []) :
    innerAt? (front ++ opener :: (inside ++ closer :: after)) front.length
      (front.length + 1 + inside.length) (front.length + before.length) = before.getLast? := by
  have hlength := List.length_pos_iff.mpr hrest
  rcases List.eq_nil_or_concat before with rfl | ⟨before, u, rfl⟩
  · simp [innerAt?]
  · rw [List.concat_eq_append] at h ⊢
    have hplace : front.length + (before ++ [u]).length = front.length + 1 + before.length := by
      simp only [List.length_append, List.length_singleton]
      omega
    have hbounds : front.length < front.length + 1 + before.length ∧
        front.length + 1 + before.length < front.length + 1 + inside.length := by
      simp only [h, List.length_append, List.length_singleton]
      omega
    rw [hplace, innerAt?, if_pos hbounds, getElem?_behind, h]
    simp

theorem innerAt?_behind {before : Tokens} {t : Token} {behind : Tokens}
    (h : inside = before ++ t :: behind) (n : Nat) :
    innerAt? (front ++ opener :: (inside ++ closer :: after)) front.length
      (front.length + 1 + inside.length) (front.length + 1 + before.length + (n + 1)) =
        behind[n]? := by
  have hlength : inside.length = before.length + 1 + behind.length := by
    simp only [h, List.length_append, List.length_cons]
    omega
  unfold innerAt?
  split
  · next hbounds =>
      rw [Nat.add_assoc (front.length + 1), getElem?_behind,
        List.getElem?_append_left (by omega), h, Nat.add_comm n 1, ← Nat.add_assoc,
        getElem?_behind]
  · rw [List.getElem?_eq_none (by omega)]

end

/-- An argument stands behind the opener, so there is a number in front of it. -/
theorem doubledPlusesAt_append (front : Tokens) (opener : Token) (e : Enclosed) :
    doubledPlusesAt (front ++ opener :: (e.inside ++ e.closer :: e.after)) front.length
      (front.length + 1 + e.inside.length) = .ok (doubledPluses e.inside) := by
  have harguments : ((front ++ opener :: (e.inside ++ e.closer :: e.after)).take
      (front.length + 1 + e.inside.length)).drop (front.length + 1) = e.inside := by
    have hts : front ++ opener :: (e.inside ++ e.closer :: e.after) =
        front ++ [opener] ++ e.inside ++ e.closer :: e.after := by simp
    have hlength : front.length + 1 + e.inside.length =
        (front ++ [opener] ++ e.inside).length := by
      rw [List.length_append, List.length_append, List.length_singleton]
    have hfirst : front.length + 1 = (front ++ [opener]).length := by simp
    rw [hts, hlength, hfirst, List.take_left, List.drop_left]
  rw [doubledPlusesAt, harguments]
  refine walkFrom_eq_survey fun before t behind hinside => ?_
  have hprevious : Checked.difference (front.length + 1 + before.length) 1 =
      .ok (front.length + before.length) := by
    rw [Nat.add_right_comm, Checked.difference_add]
  have hbefore := innerAt?_before front opener e.closer e.after hinside (List.cons_ne_nil t behind)
  have hbehind := innerAt?_behind front opener e.closer e.after hinside
  simp only [isDoubledPlusAt, hprevious, hbefore, hbehind 0, hbehind 1, Checked.ok_bind,
    Checked.pure_eq, Checked.ite_ok]
  rfl

theorem concatenationProblemsAt_eq (ts : Tokens) :
    ts.concatenationProblemsAt = .ok ts.concatenationProblems := by
  have hcalls : (ts.outputCalls.map fun call => call.2.layout call.1).mapM (fun call =>
      match call.closer with
      | some closer => ts.doubledPlusesAt call.opener closer
      | none => return []) = .ok (ts.outputCalls.map fun call => callConcatenation call.2) := by
    rw [List.mapM_map]
    refine Checked.mapM_eq_ok fun call hmem => ?_
    have hcall := outputCall?_of_mem_outputCalls hmem
    cases he : call.2.arguments with
    | none => simp [OutputCall.layout, OutputCall.closeIndex?, callConcatenation, he]
    | some e =>
        obtain ⟨front, opener, hts, hopener, hcloser⟩ := exists_split_of_arguments hcall he
        simp only [Function.comp_apply, hopener, hcloser, callConcatenation, he]
        rw [hts, doubledPlusesAt_append]
        rfl
  rw [concatenationProblemsAt, callsFrom_eq, Checked.ok_bind, hcalls,
    concatenationProblems_eq_survey, survey, ← flatMap_outputCallsFrom callConcatenation 0]
  rfl

end Tokens

end LessonCheck
