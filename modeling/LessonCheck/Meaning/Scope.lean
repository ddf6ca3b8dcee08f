import LessonCheck.Meaning.Literal

/-!
The variables of a program: one flat scope in which the first declaration of a name counts. It
keeps them in the order of declaration; a listing is by line and then by name.
-/

namespace LessonCheck

structure Variable where
  name : String
  type : VariableType
  /-- The initial value; absent when there is none or it does not fit the type. -/
  value : Option Literal
  line : Nat
  deriving DecidableEq

namespace Variable

/-- The order of a listing. -/
def le (a b : Variable) : Bool :=
  a.line < b.line || (a.line == b.line && !(b.name < a.name : Bool))

/-- Storing the variable `source` in the variable `name`. -/
def checkAccepted (name : String) (declared : VariableType) (source : Variable) :
    Except TypeClash Unit :=
  if declared.accepts source.type then .ok ()
  else .error (.wrongType name declared source.name source.type)

end Variable

structure Scope where
  entries : List Variable
  distinct : (entries.map (·.name)).Nodup

namespace Scope

def empty : Scope := ⟨[], List.nodup_nil⟩

def lookup? (scope : Scope) (name : String) : Option Variable :=
  scope.entries.find? (·.name == name)

def contains (scope : Scope) (name : String) : Bool := (scope.lookup? name).isSome

def size (scope : Scope) : Nat := scope.entries.length

theorem lookup?_eq_none_iff {scope : Scope} {name : String} :
    scope.lookup? name = none ↔ name ∉ scope.entries.map (·.name) := by
  simp [lookup?]

/-- Adds a variable whose name is free. -/
def add (scope : Scope) (v : Variable) (free : scope.lookup? v.name = none) :
    Scope where
  entries := scope.entries ++ [v]
  distinct := by
    have fresh := lookup?_eq_none_iff.mp free
    rw [List.map_append, List.nodup_append]
    refine ⟨scope.distinct, by simp, ?_⟩
    rintro a ha b hb rfl
    exact fresh (by simpa [List.mem_singleton.mp hb] using ha)

/-- Declares a variable; if the name is taken, the answer is the variable that has it. -/
def declare (scope : Scope) (v : Variable) : Except Variable Scope :=
  match h : scope.lookup? v.name with
  | some existing => .error existing
  | none => .ok (scope.add v h)

/-- The variables by line, then by name. -/
def listing (scope : Scope) : List Variable := scope.entries.mergeSort Variable.le

end Scope

end LessonCheck
