import HttpContract.Client.Loading

/-!
# Attributes of clients

What a name means on a client. State that a client holds comes first, then the methods of its
contract, then the functions that method bodies call, then everything else that the contract class
has. Whether a class has clients at all depends on its abstract members, and on properties in the
place of state.
-/

namespace HttpContract

namespace MemberBody

/-- Whether the member is marked as abstract. -/
def isAbstract : MemberBody → Bool
  | .method _ isAbstract | .static _ isAbstract | .classMethod _ isAbstract
  | .property _ isAbstract => isAbstract
  | .attribute _ => false

/-- Whether the member is read like a field. -/
def isProperty : MemberBody → Bool
  | .property .. => true
  | _ => false

end MemberBody

namespace Ancestor

/-- The members of a class itself. -/
def ownMembers (s : Scope) : Ancestor → List (String × MemberBody)
  | .declared n => ((s.contract? n).map fun c => Entries.merge c.members).getD []
  | _ => []

end Ancestor

namespace Lineage

/-- The member that a name stands for. -/
def member? (s : Scope) (l : Lineage) (name : String) : Option MemberBody :=
  l.order.findSome? fun a => Entries.get? (a.ownMembers s) name

/-- The names whose members are still abstract in a class, given those of the classes before it. A
class that is no interface keeps no account of them. -/
def abstractNames (s : Scope) (known : List (ClassName × List String)) (c : ContractClass)
    (name : ClassName) (l : Lineage) : List String :=
  if !l.isInterface then []
  else
    let own := (Ancestor.ownMembers s (.declared name)).map (·.1)
    let inherited := c.bases.flatMap fun b => (Entries.get? known.reverse b.1).getD []
    ((own ++ inherited).eraseDups).filter fun n => (l.member? s n).any (·.isAbstract)

end Lineage

namespace Program

/-- Adds the abstract members of a class to those of the classes before it. -/
def noteAbstract (p : Program) (known : List (ClassName × List String)) (d : Declaration) :
    List (ClassName × List String) :=
  match d.body, p.lineage? d.name with
  | .contract c, some l => known ++ [(d.name, l.abstractNames p.scope known c d.name)]
  | _, _ => known

/-- The abstract members of all declared classes. -/
def abstractTable (p : Program) : List (ClassName × List String) := p.scope.foldl p.noteAbstract []

/-- The names of the abstract members that a class is left with. -/
def abstractNames (p : Program) (name : ClassName) : List String :=
  (Entries.get? p.abstractTable.reverse name).getD []

/-- The member that a name stands for in a class, wherever it is inherited from. -/
def member? (p : Program) (name : ClassName) (member : String) : Option MemberBody :=
  (p.lineage? name).bind fun l => l.member? p.scope member

end Program

namespace Primitive

/-- The primitive of this name. -/
def ofName? (name : String) : Option Primitive := all.find? (·.name == name)

/-- The parameters of a primitive behind the client itself. -/
def formals (p : Primitive) : List Formal :=
  let required (names : List String) : List Formal := names.map fun n => { name := n }
  match p with
  | buildRequest => required ["method", "path", "variables", "params"]
  | valueText => required ["value"]
  | encodeJson | encodeRaw =>
    required ["value"] ++ [{ name := "content_type", default := some .null }]
  | invoke | invokeAsync => required ["request"]
  | readHeader =>
    required ["response", "name"] ++ [{ name := "target_type", default := some .null }]
  | decodeJson => required ["response", "target_type"]
  | decodeRaw => required ["response", "kind"]

end Primitive

namespace Function

/-- The parameters of a function, the receiver first. It goes by position only where others do. -/
def formals (f : Function) : List Formal :=
  let own : List Formal :=
    f.parameters.map fun p => { name := p.name, kind := p.kind, default := p.default }
  let kind := if own.any (·.kind == .positionalOnly) then .positionalOnly else .positional
  f.receiver.toList.map (fun r => { name := r, kind }) ++ own

end Function

namespace Operation

/-- The parameters of the method, the client itself first. -/
def methodFormals (o : Operation) : List Formal := { name := "self" } :: o.formals

end Operation

namespace ClientClass

/-- The names of the state that a client holds. -/
def stateNames : List String := ["client", "service_name", "base_route", "logger"]

/-- The method that makes an object of a class. -/
def constructorName : String := "__init__"

/-- What a name on a client leads to. -/
inductive Attribute
  | state
  | operation (o : Operation) (plan : CallPlan)
  | primitive (p : Primitive)
  | member (m : MemberBody)
deriving Repr, Inhabited

/-- The operation of a method of the class. -/
def operation? (c : ClientClass) (name : String) : Option Operation :=
  c.contract.operations.find? (·.name == name)

/-- The plan that the body of a method was generated from. -/
def plan (c : ClientClass) (o : Operation) : CallPlan :=
  (ClientSource.planFor? c.plans o.name).getD ⟨o.name, []⟩

/-- What a name stands for on a client of the class, if anything. -/
def attribute? (p : Program) (c : ClientClass) (name : String) : Option Attribute :=
  if stateNames.contains name then some .state
  else match c.operation? name, Primitive.ofName? name with
    | some o, _ => some (.operation o (c.plan o))
    | none, some f => some (.primitive f)
    | none, none => (p.member? c.subject name).map .member

/-- Whether the class itself, and not the contract, says what a name is. -/
def defines (c : ClientClass) (name : String) : Bool :=
  name == constructorName || (c.operation? name).isSome || (Primitive.ofName? name).isSome

/-- The methods that stand in front of the functions that bodies call. What such a method does with the
arguments of the call is not followed: one that takes them is taken to come back to the same place
without end. So results about clients ask that no method be called like a function that is needed,
or that it be the function without which no request is made. -/
def obstacles (c : ClientClass) : Obstacles := fun f arguments =>
  (c.operation? f.name).map fun o =>
    let a : Arguments := { positional := List.replicate (arguments + 1) .null }
    if (a.bind? o.methodFormals).isSome then .endlessRecursion else .wrongType

/-- Why the class has no clients, if it has none. -/
def obstacleToMake? (p : Program) (c : ClientClass) : Option Breakdown :=
  if (p.abstractNames c.subject).any (!c.defines ·) then some .wrongType
  else if stateNames.any fun n => !c.defines n && (p.member? c.subject n).any (·.isProperty) then
    some .missingAttribute
  else none

end ClientClass

end HttpContract
