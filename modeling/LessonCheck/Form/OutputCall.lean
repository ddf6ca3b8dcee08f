import LessonCheck.Token.View
import LessonCheck.Vocabulary

/-!
Print calls: `println(…)` and `print(…)`, alone or behind `System.out.`. A call is recognized at its
first token, which must not be the member of something else.
-/

namespace LessonCheck

structure OutputCall where
  /-- The call is written with `System.out.` in front. -/
  qualified : Bool
  method : Token
  /-- What stands between the parentheses; absent when the call never closes. -/
  arguments : Option Enclosed
  deriving DecidableEq

namespace OutputCall

/-- How many tokens stand before the opening parenthesis. -/
def headLength (c : OutputCall) : Nat := if c.qualified then 5 else 1

/-- The name of the call in messages. -/
def name (c : OutputCall) : String :=
  if c.qualified then "System.out." ++ c.method.lexeme else c.method.lexeme

def isMethod (t : Token) : Bool :=
  t.kind = .identifier && Vocabulary.isPrintMethod t.lexeme

/-- The call of `method`, if its arguments begin right behind it. -/
def ofMethod? (qualified : Bool) (method : Token) : Tokens → Option OutputCall
  | [] => none
  | t :: rest =>
    if isMethod method && t.kind = .lparen then
      some ⟨qualified, method, Enclosed.ofTokens? rest⟩
    else none

/-- The call that begins at `t`, given the token before it and the tokens behind it. -/
def at? (before : Option Token) (t : Token) (rest : Tokens) : Option OutputCall :=
  if before.any (·.kind = .dot) then none
  else if t.isName "System" then
    match rest with
    | dot₁ :: out :: dot₂ :: method :: rest =>
      if dot₁.kind = .dot && out.isName "out" && dot₂.kind = .dot then ofMethod? true method rest
      else none
    | _ => none
  else ofMethod? false t rest

/-- The number of the method token, for a call that begins at token number `start`. -/
def methodIndex (c : OutputCall) (start : Nat) : Nat := start + c.headLength - 1

def openIndex (c : OutputCall) (start : Nat) : Nat := start + c.headLength

def closeIndex? (c : OutputCall) (start : Nat) : Option Nat :=
  c.arguments.map fun e => start + c.headLength + 1 + e.inside.length

end OutputCall

namespace Tokens

/-- The numbers of all tokens at which a print call begins, when `ts` begins at token number
`start`. -/
def outputStartsFrom (start : Nat) (before : Option Token) : Tokens → List Nat
  | [] => []
  | t :: rest =>
    if (OutputCall.at? before t rest).isSome then
      start :: outputStartsFrom (start + 1) (some t) rest
    else outputStartsFrom (start + 1) (some t) rest

def outputStarts (ts : Tokens) : List Nat := outputStartsFrom 0 none ts

/-- The print calls of `ts` with the numbers of their first tokens, when `ts` begins at token number
`start`. Behind the name of a call the search goes on at its opening parenthesis, so calls among the
arguments of another are found as well. -/
def outputCallsFrom (start : Nat) (before : Option Token) : Tokens → List (Nat × OutputCall)
  | [] => []
  | t :: rest =>
    match OutputCall.at? before t rest with
    | some call =>
      -- The name of the method becomes the token before the parenthesis.
      (start, call) ::
        outputCallsFrom (start + call.headLength) (some call.method)
          (rest.drop (call.headLength - 1))
    | none => outputCallsFrom (start + 1) (some t) rest
termination_by ts => ts.length
decreasing_by
  · simp only [List.length_drop, List.length_cons]
    omega
  · simp

def outputCalls (ts : Tokens) : List (Nat × OutputCall) := outputCallsFrom 0 none ts

end Tokens

end LessonCheck
