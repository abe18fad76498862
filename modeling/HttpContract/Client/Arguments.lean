import HttpContract.Basic
import HttpContract.Declaration.Basic

/-!
# Arguments

How the arguments of a call find their parameters: first by position, then by name, then by default.
A call binds only if every argument has a parameter, no parameter has two, and each one has a value.
-/

namespace HttpContract

/-- A parameter as callers see it. -/
structure Formal where
  name : String
  kind : ParameterKind := .positional
  default : Option Value := none
deriving Repr, Inhabited

namespace Formal

/-- Whether a position fills the parameter. -/
def takesPosition (f : Formal) : Bool := f.kind == .positional || f.kind == .positionalOnly

/-- Whether a name fills the parameter. -/
def takesName (f : Formal) : Bool := f.kind == .positional || f.kind == .keywordOnly

/-- Whether the parameter stands for one argument. -/
def isSingle (f : Formal) : Bool := f.takesPosition || f.takesName

end Formal

/-- The values of parameters by name. -/
abbrev Frame := List (String × Value)

namespace Frame

/-- The value of a parameter. -/
def value (frame : Frame) (name : String) : Except Breakdown Value :=
  Option.elim (Entries.get? frame name) (.error .unknownName) .ok

/-- Replaces the value of a parameter. -/
def set (frame : Frame) (name : String) (v : Value) : Frame := Entries.insert frame name v

end Frame

/-- The arguments of a call, as callers write them. -/
structure Arguments where
  positional : List Value := []
  named : List (String × Value) := []
deriving Repr, Inhabited

namespace Arguments

/-- The parameters that positions count. -/
def seats (formals : List Formal) : List String := (formals.filter (·.takesPosition)).map (·.name)

/-- The arguments that a position gives to a parameter. -/
def placed (formals : List Formal) (a : Arguments) : List (String × Value) :=
  (seats formals).zip a.positional

/-- Whether there are no more positions than parameters take. -/
def positionsFit (formals : List Formal) (a : Arguments) : Bool :=
  a.positional.length ≤ (seats formals).length || formals.any (·.kind == .variadic)

/-- Whether each argument given by name belongs to a parameter that no position fills. -/
def namesFit (formals : List Formal) (a : Arguments) : Bool :=
  a.named.all fun n =>
    if formals.any fun f => f.takesName && f.name == n.1 then
      !(a.placed formals).any (·.1 == n.1)
    else formals.any (·.kind == .variadicKeyword)

/-- What a parameter gets. -/
def given? (formals : List Formal) (a : Arguments) (f : Formal) : Option Value :=
  ((Entries.get? (a.placed formals) f.name).orElse fun _ =>
    if f.takesName then Entries.get? a.named f.name else none).orElse fun _ => f.default

/-- The values of the parameters, if the arguments fit them. -/
def bind? (formals : List Formal) (a : Arguments) : Option Frame :=
  if a.positionsFit formals && a.namesFit formals then
    (formals.filter (·.isSingle)).mapM fun f => (a.given? formals f).map (f.name, ·)
  else none

/-- The arguments behind an object that fills the first parameter. -/
def after (first : Value) (a : Arguments) : Arguments :=
  { a with positional := first :: a.positional }

/-- The arguments with the values that their parameters have now. -/
def updated (formals : List Formal) (frame : Frame) (a : Arguments) : Arguments where
  positional := a.positional.mapIdx fun i v =>
    (((seats formals)[i]?).bind (Entries.get? frame)).getD v
  named := a.named.map fun n => (n.1, (Entries.get? frame n.1).getD n.2)

end Arguments

end HttpContract
