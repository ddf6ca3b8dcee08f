import LessonCheck.Report.Basic

/-!
The command line as a command. Options may stand before or behind the plain arguments, an option
that takes a value has it behind an equals sign or as the next argument, and everything behind `--`
is plain. No option may be given twice at one level.
-/

namespace LessonCheck

inductive Command
  | check (path : String) (formOnly : Bool) (format : ReportFormat) (settingsDir : Option String)
  | methods (name : Option String)
  | init (dir : Option String)
  | version
  deriving DecidableEq

/-- What an argument looks like. -/
inductive Argument
  | plain (text : String)
  | long (name : String) (value : Option String)
  | short (letters : String)
  /-- Everything behind it is plain. -/
  | stop
  deriving DecidableEq

namespace Argument

def ofText (text : String) : Argument :=
  match text.toList with
  | ['-', '-'] => .stop
  | '-' :: '-' :: name =>
    let value := match name.dropWhile (· ≠ '=') with
      | [] => none
      | _ :: value => some (String.ofList value)
    .long (String.ofList (name.takeWhile (· ≠ '='))) value
  | '-' :: c :: letters => .short (String.ofList (c :: letters))
  | _ => .plain text

/-- The argument asks for a log, which goes to nobody here. -/
def isVerbose (a : Argument) : Bool := a = .long "verbose" none || a = .short "v"

end Argument

/-- The arguments of a command, sorted. -/
structure GivenArguments where
  verbose : Bool
  formOnly : Bool
  format : Option ReportFormat
  settingsDir : Option String
  plain : List String

namespace GivenArguments

def none : GivenArguments := ⟨false, false, .none, .none, []⟩

/-- Puts an option with its value in; a second time is wrong. -/
def setOption? (g : GivenArguments) (name value : String) : Option GivenArguments :=
  if name = "format" then
    if g.format.isSome then .none
    else if value = "text" then some { g with format := some .text }
    else if value = "json" then some { g with format := some .json }
    else .none
  else if name = "config-dir" then
    if g.settingsDir.isSome || value.isEmpty then .none
    else some { g with settingsDir := some value }
  else .none

/-- Sorts the arguments of a command; `full` says that it takes the options of a check. -/
def read? (full : Bool) (g : GivenArguments) : List String → Option GivenArguments
  | [] => some g
  | arg :: args =>
    match Argument.ofText arg with
    | .stop => some { g with plain := g.plain ++ args }
    | .plain text => read? full { g with plain := g.plain ++ [text] } args
    | .long "syntax-only" .none =>
      if full && !g.formOnly then read? full { g with formOnly := true } args else .none
    | .long name (some value) =>
      if full then (g.setOption? name value).bind (read? full · args) else .none
    | a =>
      if a.isVerbose then
        if g.verbose then .none else read? full { g with verbose := true } args
      -- What is left is an option whose value is the next argument.
      else match a, args with
        | .long name .none, value :: args =>
          if full && Argument.ofText value = .plain value then
            (g.setOption? name value).bind (read? full · args)
          else .none
        | _, _ => .none

end GivenArguments

namespace Command

def ofCheck? (g : GivenArguments) : Option Command :=
  match g.plain with
  | [path] =>
    if path.isEmpty then none
    else some (.check path g.formOnly (g.format.getD .text) g.settingsDir)
  | _ => none

def ofMethods? (g : GivenArguments) : Option Command :=
  match g.plain with
  | [] => some (.methods none)
  | [name] => some (.methods (some name))
  | _ => none

def ofInit? (g : GivenArguments) : Option Command :=
  match g.plain with
  | [] => some (.init none)
  | [dir] => if dir.isEmpty then none else some (.init (some dir))
  | _ => none

/-- The command that a name and its arguments give. -/
def ofName? (name : String) (args : List String) : Option Command :=
  if name = "check" then (GivenArguments.none.read? true args).bind ofCheck?
  else if name = "methods" then (GivenArguments.none.read? false args).bind ofMethods?
  else if name = "init" then (GivenArguments.none.read? false args).bind ofInit?
  else none

/-- Whether the letters of a short option in front of a command ask for the version, `none` for
wrong ones. The letter that asks for it ends the reading, so those behind it do not count. -/
def asksVersion? (verbose : Bool) : List Char → Option Bool
  | [] => some false
  | 'V' :: _ => some true
  | 'v' :: letters => if verbose then none else asksVersion? true letters
  | _ => none

/-- Reads a command line from its front; `verbose` says that a log has been asked for. -/
def read? (verbose : Bool) : List String → Option Command
  | [] => none
  | arg :: args =>
    match Argument.ofText arg with
    | .plain name => ofName? name args
    | .long "version" none => some .version
    | .long "verbose" none => if verbose then none else read? true args
    | .short letters =>
      (asksVersion? verbose letters.toList).bind fun version =>
        if version then some .version else read? true args
    | _ => none

/-- The command of a whole command line; `none` for a wrong one. -/
def ofArguments? (args : List String) : Option Command := read? false args

end Command

end LessonCheck
