import LessonCheck.Form.LoopForm
import LessonCheck.Meaning.Literal
import LessonCheck.Number.Digits
import LessonCheck.Proofs.Lexing.Spelling

/-!
The programs that the checks are made for: declarations, assignments, steps, calls of a method of a
string, print calls, and loops around more of the same. A program is given by its structure;
`pieces` writes it out, `declared` lists its variables, and `WellTyped` is the rule for its values.
-/

namespace LessonCheck

open Vocabulary

/-- A text that is read as one word. -/
def isWord : List Char → Bool
  | [] => false
  | c :: text => Cut.isWordStart c && text.all Cut.isWordChar

/-- A text of decimal digits, at least one. -/
def isNumeral : List Char → Bool
  | [] => false
  | c :: text => c.isDigit && text.all Char.isDigit

/-- A character that may stand between apostrophes. -/
def isPlainChar (c : Char) : Bool := c != '\'' && c != '\\' && c != '\n'

namespace Program

/-- A word that can name a variable, since it means nothing by itself. -/
structure VariableName where
  text : String
  word : isWord text.toList = true
  notKeyword : isKeyword text = false
  notReserved : isReserved text = false
  deriving DecidableEq

abbrev Numeral := { digits : List Char // isNumeral digits = true }

abbrev PlainChar := { c : Char // isPlainChar c = true }

abbrev QuotableText := { text : List Char // isQuotable text = true }

abbrev MethodName := { name : String // isStringMethod name = true }

inductive Constant
  | whole (digits : Numeral)
  | decimal (front fraction : Numeral)
  | char (c : PlainChar)
  | text (body : QuotableText)
  | truth (value : Bool)
  | null
  deriving DecidableEq

/-- A value that a single token stands for. -/
inductive Operand
  | literal (c : Constant)
  | var (x : VariableName)
  deriving DecidableEq

inductive Relation
  | lt
  | le
  | gt
  | ge
  | eq
  | ne
  deriving DecidableEq

inductive Direction
  | up
  | down
  deriving DecidableEq

inductive Statement
  | declare (type : VariableType) (x : VariableName)
  | define (type : VariableType) (x : VariableName) (value : Operand)
  | assign (x : VariableName) (value : Operand)
  | step (x : VariableName) (direction : Direction)
  | call (receiver : VariableName) (method : MethodName)
  /-- A call of `println` or `print`, with or without `System.out.` in front. -/
  | print (qualified line : Bool) (arguments : List Operand)
  deriving DecidableEq

/-- How a loop gets its variable. -/
inductive LoopInit
  | declare (type : VariableType) (value : Constant)
  | assign (value : Constant)
  | use
  deriving DecidableEq

inductive LoopChange
  | step (direction : Direction)
  | stepBy (direction : Direction) (amount : Operand)
  deriving DecidableEq

structure LoopHead where
  counter : VariableName
  init : LoopInit
  relation : Relation
  bound : Operand
  change : LoopChange
  deriving DecidableEq

end Program

/-- Statements and loops one after the other, the loops with programs inside. -/
inductive Program
  | done
  | statement (first : Program.Statement) (next : Program)
  | loop (head : Program.LoopHead) (body next : Program)
  deriving DecidableEq

/-! ### Writing a program out -/

namespace Piece

def name (word : String) : Piece := ⟨.identifier, word.toList⟩

def keyword (word : String) : Piece := ⟨.keyword, word.toList⟩

def operator (symbol : String) : Piece := ⟨.operator, symbol.toList⟩

def semicolon : Piece := ⟨.semicolon, [';']⟩

def dot : Piece := ⟨.dot, ['.']⟩

def lparen : Piece := ⟨.lparen, ['(']⟩

def rparen : Piece := ⟨.rparen, [')']⟩

def lbrace : Piece := ⟨.lbrace, ['\x7b']⟩

def rbrace : Piece := ⟨.rbrace, ['\x7d']⟩

@[simp] theorem kind_name (word : String) : (name word).kind = .identifier := rfl

@[simp] theorem kind_keyword (word : String) : (keyword word).kind = .keyword := rfl

@[simp] theorem kind_operator (symbol : String) : (operator symbol).kind = .operator := rfl

@[simp] theorem kind_semicolon : semicolon.kind = .semicolon := rfl

@[simp] theorem kind_dot : dot.kind = .dot := rfl

@[simp] theorem kind_lparen : lparen.kind = .lparen := rfl

@[simp] theorem kind_rparen : rparen.kind = .rparen := rfl

@[simp] theorem kind_lbrace : lbrace.kind = .lbrace := rfl

@[simp] theorem kind_rbrace : rbrace.kind = .rbrace := rfl

end Piece

namespace Program

def Constant.piece : Constant → Piece
  | .whole digits => ⟨.number, digits⟩
  | .decimal front fraction => ⟨.float, front ++ '.' :: fraction⟩
  | .char c => ⟨.char, [c.val]⟩
  | .text body => ⟨.string, body⟩
  | .truth value => .name (if value then "true" else "false")
  | .null => .name "null"

def Operand.piece : Operand → Piece
  | .literal c => c.piece
  | .var x => .name x.text

def Relation.symbol : Relation → String
  | .lt => "<"
  | .le => "<="
  | .gt => ">"
  | .ge => ">="
  | .eq => "=="
  | .ne => "!="

namespace Direction

def step : Direction → String
  | .up => "++"
  | .down => "--"

def stepBy : Direction → String
  | .up => "+="
  | .down => "-="

end Direction

/-- The arguments of a print call, put together with `+`. -/
def sum : List Operand → List Piece
  | [] => []
  | [e] => [e.piece]
  | e :: es => e.piece :: .operator "+" :: sum es

theorem mem_sum {es : List Operand} {p : Piece} (h : p ∈ sum es) :
    p = .operator "+" ∨ ∃ e : Operand, p = e.piece := by
  fun_induction sum es with
  | case1 => cases h
  | case2 e => exact Or.inr ⟨e, List.mem_singleton.mp h⟩
  | case3 e es _ ih =>
      rcases List.mem_cons.mp h with rfl | h
      · exact Or.inr ⟨e, rfl⟩
      · rcases List.mem_cons.mp h with rfl | h
        · exact Or.inl rfl
        · exact ih h

def outputPath (qualified : Bool) : List Piece :=
  if qualified then [.name "System", .dot, .name "out", .dot] else []

def printMethod (line : Bool) : String := if line then "println" else "print"

def Statement.pieces : Statement → List Piece
  | .declare type x => [.keyword type.word, .name x.text, .semicolon]
  | .define type x value =>
    [.keyword type.word, .name x.text, .operator "=", value.piece, .semicolon]
  | .assign x value => [.name x.text, .operator "=", value.piece, .semicolon]
  | .step x direction => [.name x.text, .operator direction.step, .semicolon]
  | .call receiver method =>
    [.name receiver.text, .dot, .name method.val, .lparen, .rparen, .semicolon]
  | .print qualified line arguments =>
    outputPath qualified ++
      .name (printMethod line) :: .lparen :: (sum arguments ++ [.rparen, .semicolon])

namespace LoopHead

def initPieces (h : LoopHead) : List Piece :=
  match h.init with
  | .declare type value =>
    [.keyword type.word, .name h.counter.text, .operator "=", value.piece]
  | .assign value => [.name h.counter.text, .operator "=", value.piece]
  | .use => [.name h.counter.text]

def conditionPieces (h : LoopHead) : List Piece :=
  [.name h.counter.text, .operator h.relation.symbol, h.bound.piece]

def changePieces (h : LoopHead) : List Piece :=
  match h.change with
  | .step direction => [.name h.counter.text, .operator direction.step]
  | .stepBy direction amount =>
    [.name h.counter.text, .operator direction.stepBy, amount.piece]

def pieces (h : LoopHead) : List Piece :=
  .keyword "for" :: .lparen :: (h.initPieces ++ .semicolon :: (h.conditionPieces ++
    .semicolon :: (h.changePieces ++ [.rparen])))

end LoopHead

def pieces : Program → List Piece
  | .done => []
  | .statement first next => first.pieces ++ next.pieces
  | .loop head body next =>
    head.pieces ++ .lbrace :: (body.pieces ++ .rbrace :: next.pieces)

/-! ### Declarations and types -/

/-- The declared variables, in reading order. -/
abbrev Signature := List (VariableName × VariableType)

def Statement.declared : Statement → Signature
  | .declare type x | .define type x _ => [(x, type)]
  | _ => []

def LoopHead.declared (h : LoopHead) : Signature :=
  match h.init with
  | .declare type _ => [(h.counter, type)]
  | _ => []

def declared : Program → Signature
  | .done => []
  | .statement first next => first.declared ++ next.declared
  | .loop head body next => head.declared ++ body.declared ++ next.declared

/-- The constant is a literal of the type; whole numbers have to do with 64 bits. -/
def Constant.Fits (T : VariableType) : Constant → Prop
  | .whole digits =>
    T.literalKind = .number ∧ (Number.ofDigits digits : Int) ≤ Number.maxInteger
  | .decimal _ _ => T.literalKind = .float
  | .char _ => T = .char
  | .text _ => T = .string
  | .truth _ => T = .boolean
  | .null => False

namespace Operand

/-- The operand is a constant or a declared variable. -/
def Known (Γ : Signature) : Operand → Prop
  | .literal _ => True
  | .var x => ∃ S, (x, S) ∈ Γ

/-- A variable of type `T` takes the operand. -/
def GoesInto (Γ : Signature) (T : VariableType) : Operand → Prop
  | .literal c => c.Fits T
  | .var x => ∃ S, (x, S) ∈ Γ ∧ T.accepts S = true

/-- A variable of type `T` can be compared with the operand. -/
def ComparesWith (Γ : Signature) (T : VariableType) : Operand → Prop
  | .literal c => c.Fits T
  | .var x => ∃ S, (x, S) ∈ Γ ∧ T.comparesWith S = true

theorem GoesInto.known {Γ : Signature} {T : VariableType} {v : Operand}
    (h : v.GoesInto Γ T) : v.Known Γ := by
  cases v with
  | literal c => trivial
  | var x =>
      obtain ⟨S, hS, -⟩ := h
      exact ⟨S, hS⟩

theorem ComparesWith.known {Γ : Signature} {T : VariableType} {v : Operand}
    (h : v.ComparesWith Γ T) : v.Known Γ := by
  cases v with
  | literal c => trivial
  | var x =>
      obtain ⟨S, hS, -⟩ := h
      exact ⟨S, hS⟩

end Operand

def Statement.WellTyped (Γ : Signature) : Statement → Prop
  | .declare _ _ => True
  | .define T _ value => value.GoesInto Γ T
  | .assign x value => ∃ T, (x, T) ∈ Γ ∧ value.GoesInto Γ T
  | .step x _ => ∃ T, (x, T) ∈ Γ
  | .call receiver _ => (receiver, .string) ∈ Γ
  | .print _ _ arguments => ∀ e ∈ arguments, e.Known Γ

def LoopInit.WellTyped (T : VariableType) : LoopInit → Prop
  | .declare S value => S = T ∧ value.Fits T
  | .assign value => value.Fits T
  | .use => True

def LoopChange.WellTyped (Γ : Signature) : LoopChange → Prop
  | .step _ => True
  | .stepBy _ amount => amount.Known Γ

/-- The loop variable has one type, and every part of the head suits it. -/
def LoopHead.WellTyped (Γ : Signature) (h : LoopHead) : Prop :=
  ∃ T, (h.counter, T) ∈ Γ ∧ h.init.WellTyped T ∧ h.bound.ComparesWith Γ T ∧ h.change.WellTyped Γ

/-- Every value of the program suits its place. The signature is that of the whole program, so a
variable may be used before its declaration as well as behind it. -/
def WellTyped (Γ : Signature) : Program → Prop
  | .done => True
  | .statement first next => first.WellTyped Γ ∧ next.WellTyped Γ
  | .loop head body next => head.WellTyped Γ ∧ body.WellTyped Γ ∧ next.WellTyped Γ

end Program

end LessonCheck
