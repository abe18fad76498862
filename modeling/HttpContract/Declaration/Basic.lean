import HttpContract.Declaration.Forward

/-!
# Declarations

The classes a contract is written with: records, enumerations, and the classes whose members are the
methods of a contract. A `Scope` holds them in the order they were declared.
-/

namespace HttpContract

/-- The kinds of parameters, by which arguments may fill them. -/
inductive ParameterKind
  | positional
  | positionalOnly
  | keywordOnly
  | variadic
  | variadicKeyword
deriving DecidableEq, Repr, Inhabited

/-- A parameter as it is declared. -/
structure DeclaredParameter where
  name : String
  kind : ParameterKind := .positional
  type : Option TypeExpr := none
  default : Option Value := none
deriving Repr, Inhabited

/-- A function as it is declared. -/
structure Function where
  /-- The name of the first parameter, which stands for the object itself. -/
  receiver : Option String := some "self"
  parameters : List DeclaredParameter := []
  isAsync : Bool := false
  returns : Option TypeExpr := none
  endpoint : Option Endpoint := none
deriving Repr, Inhabited

/-- What a name in a class body stands for. -/
inductive MemberBody
  | method (f : Function) (isAbstract : Bool)
  | static (f : Function) (isAbstract : Bool := false)
  | classMethod (f : Function) (isAbstract : Bool := false)
  | property (f : Function) (isAbstract : Bool := false)
  | attribute (value : Value)
deriving Repr, Inhabited

/-- What makes a class an interface, if anything. -/
inductive ContractKind
  | protocol
  | abstractBase
  | plain
deriving DecidableEq, Repr, Inhabited

/-- A class that may be a contract, as it is declared. -/
structure ContractClass where
  kind : ContractKind
  bases : List (ClassName × List TypeExpr) := []
  generic : List String := []
  service : Option ServiceMark := none
  members : List (String × MemberBody) := []
deriving Repr, Inhabited

/-- Things that can stand where a class is expected. -/
inductive ForeignKind
  | function
  | module
  | integer
  | instance_
deriving DecidableEq, Repr, Inhabited

/-- A field of a record. -/
structure Field where
  name : String
  type : TypeExpr
  default : Option Value := none
deriving Repr, Inhabited

/-- What is declared under a name. -/
inductive DeclarationBody
  | model (fields : List Field)
  | dataclass (fields : List Field)
  | enumeration (kind : EnumKind) (members : List (String × Value))
  | foreign (kind : ForeignKind)
  | contract (c : ContractClass)
deriving Repr, Inhabited

/-- One declaration of a program. -/
structure Declaration where
  name : ClassName
  body : DeclarationBody
deriving Repr, Inhabited

/-- The declarations of a program, in order. -/
abbrev Scope := List Declaration

namespace Scope

/-- The declaration of a class, the last one counting. -/
def find? (s : Scope) (name : ClassName) : Option DeclarationBody :=
  (s.reverse.find? fun d => d.name == name).map (·.body)

/-- The class of this name, if one is declared that may be a contract. -/
def contract? (s : Scope) (name : ClassName) : Option ContractClass :=
  match s.find? name with
  | some (.contract c) => some c
  | _ => none

/-- A member of a declared enumeration. -/
def enumMember? (s : Scope) (cls : ClassName) (name : String) : Option Value :=
  match s.find? cls with
  | some (.enumeration kind members) =>
    (members.find? (·.1 == name)).map fun m => .member cls kind m.1 m.2
  | _ => none

/-- An instance of a declared record; fields that are not given have their default. -/
def instance? (s : Scope) (cls : ClassName) (given : List (String × Value)) : Option Value :=
  let fill (fields : List Field) : List (String × Value) :=
    fields.filterMap fun f =>
      (((given.find? (·.1 == f.name)).map (·.2)).orElse fun _ => f.default).map (f.name, ·)
  match s.find? cls with
  | some (.model fields) => some (.record cls .model (fill fields))
  | some (.dataclass fields) => some (.record cls .dataclass (fill fields))
  | _ => none

end Scope

namespace Function

/-- The names of all parameters, the receiver included. -/
def allNames (f : Function) : List String := f.receiver.toList ++ f.parameters.map (·.name)

/-- Whether no positional parameter without a default follows one with a default. -/
def defaultsLast (ps : List DeclaredParameter) : Bool :=
  let positional := ps.filter fun p => p.kind == .positional || p.kind == .positionalOnly
  (positional.dropWhile (·.default.isNone)).all (·.default.isSome)

/-- Texts that are read when the function is declared and not when its types are asked for. -/
def eagerTexts : Option TypeExpr → List String
  | some (.annotated (.forward t) _) => [t]
  | some (.subscript (.named "List") args) => args.filterMap fun
      | .forward t => some t
      | _ => none
  | _ => []

/-- Whether the function can be declared at all. -/
def isWellFormed (f : Function) : Bool :=
  f.allNames.all Text.isIdentifier && f.allNames.length == f.allNames.eraseDups.length &&
    defaultsLast f.parameters &&
    ((f.parameters.map (·.type)) ++ [f.returns]).all fun t =>
      (eagerTexts t).all fun text => (Forward.parse? text).isSome

end Function

namespace MemberBody

/-- The function that a member wraps. -/
def function? : MemberBody → Option Function
  | .method f _ | .static f _ | .classMethod f _ | .property f _ => some f
  | .attribute _ => none

/-- The function of a plain method. -/
def method? : MemberBody → Option Function
  | .method f _ => some f
  | _ => none

end MemberBody

end HttpContract
