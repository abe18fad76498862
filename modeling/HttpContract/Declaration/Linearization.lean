import HttpContract.Declaration.Basic

/-!
# Linearization

The order in which a class and its ancestors are searched. The orders of the bases are merged: the
next class is the first head that stands in no tail, and a hierarchy for which there is none is
refused.
-/

namespace HttpContract

/-- A class in the search order: a declared one, or one of the roots. -/
inductive Ancestor
  | declared (name : ClassName)
  | protocol
  | generic
  | abstractBase
  | object
deriving DecidableEq, Repr, Inhabited

namespace Ancestor

/-- The first head that is in no tail. -/
def nextHead? (orders : List (List Ancestor)) : Option Ancestor :=
  (orders.filterMap List.head?).find? fun a => orders.all fun o => !(o.drop 1).contains a

/-- Merges orders; the fuel is the number of classes in them. -/
def merge : Nat → List (List Ancestor) → Option (List Ancestor)
  | 0, orders => if orders.all List.isEmpty then some [] else none
  | fuel + 1, orders =>
    let orders := orders.filter (!·.isEmpty)
    if orders.isEmpty then some []
    else do
      let next ← nextHead? orders
      let rest ← merge fuel (orders.map fun o => if o.head? = some next then o.drop 1 else o)
      pure (next :: rest)

/-- The order of a class whose bases have the given orders. -/
def linearize? (cls : Ancestor) (bases : List Ancestor) (orders : List (List Ancestor)) :
    Option (List Ancestor) :=
  let all := orders ++ [bases]
  (merge all.flatten.length all).map (cls :: ·)

end Ancestor

/-- What is known of a declared class for the classes below it. -/
structure Lineage where
  order : List Ancestor
  /-- Whether it was declared as a protocol. -/
  isProtocol : Bool
  /-- Whether it or an ancestor of it is a protocol or an abstract base. -/
  isInterface : Bool
  /-- How many type parameters it has. -/
  arity : Nat

/-- The lineages of the classes that have been declared so far. -/
abbrev Lineages := List (ClassName × Lineage)

namespace Lineage

/-- The lineage of a class; a class that is declared again has the later one. -/
def find? (known : Lineages) (name : ClassName) : Option Lineage :=
  (known.reverse.find? fun l => l.1 == name).map (·.2)

/-- The search order of an ancestor. -/
def orderOf (known : Lineages) : Ancestor → List Ancestor
  | .declared n => ((find? known n).map (·.order)).getD [.declared n, .object]
  | .protocol => [.protocol, .generic, .object]
  | .generic => [.generic, .object]
  | .abstractBase => [.abstractBase, .object]
  | .object => [.object]

/-- The direct ancestors of a class. -/
def bases (known : Lineages) (c : ContractClass) : List Ancestor :=
  let own := c.bases.map fun b => Ancestor.declared b.1
  let hasInterface := c.bases.any fun b => ((find? known b.1).map (·.isInterface)).getD false
  let generic := if c.generic.isEmpty then [] else [Ancestor.generic]
  let all := match c.kind with
    | .protocol => own ++ [.protocol]
    | .abstractBase => own ++ generic ++ (if hasInterface then [] else [.abstractBase])
    | .plain => own ++ generic
  if all.isEmpty then [.object] else all

/-- Whether the arguments of the bases fit: as many as the base has parameters, or none. -/
def argumentsFit (known : Lineages) (c : ContractClass) : Bool :=
  c.bases.all fun b => b.2.isEmpty || ((find? known b.1).map (·.arity)).getD 0 == b.2.length

/-- A protocol has no bases other than protocols. -/
def basesFit (known : Lineages) (c : ContractClass) : Bool :=
  c.kind != .protocol || c.bases.all fun b => ((find? known b.1).map (·.isProtocol)).getD false

/-- The type variables that a class takes over from the arguments of its bases. -/
def takenOver (c : ContractClass) : List String :=
  (c.bases.flatMap fun b => TypeExpr.typeVariablesOfAll b.2).eraseDups

/-- The type parameters of a class: those that it names, if any, and in a protocol also those that it
takes over. -/
def parameters (c : ContractClass) : List String :=
  if c.kind = .protocol then (takenOver c ++ c.generic).eraseDups
  else if c.generic.isEmpty then takenOver c
  else c.generic

/-- Type parameters are named once, and a class that names some names all of them, unless it is a
protocol. -/
def parametersFit (c : ContractClass) : Bool :=
  c.generic.length == c.generic.eraseDups.length &&
    (c.kind == .protocol || c.generic.isEmpty || (takenOver c).all c.generic.contains)

/-- The lineage of a class over those declared before it; none when the class cannot exist. -/
def ofClass? (known : Lineages) (name : ClassName) (c : ContractClass) : Option Lineage :=
  let bs := bases known c
  if argumentsFit known c && basesFit known c && parametersFit c &&
      bs.length == bs.eraseDups.length then
    (Ancestor.linearize? (.declared name) bs (bs.map (orderOf known))).map fun order => {
      order
      isProtocol := c.kind == .protocol
      isInterface := c.kind != .plain ||
        c.bases.any fun b => ((find? known b.1).map (·.isInterface)).getD false
      arity := (parameters c).length }
  else none

/-- The lineage of a declaration that is no contract class. -/
def ofOther (name : ClassName) (isInterface : Bool) : Lineage :=
  { order := [.declared name, .object], isProtocol := false, isInterface, arity := 0 }

end Lineage

namespace Declaration

/-- Adds a declaration to those before it. -/
def declare (known : Lineages) (d : Declaration) : Except Failure Lineages :=
  match d.body with
  | .contract c =>
    if (c.members.filterMap fun m => m.2.function?).all Function.isWellFormed then
      match Lineage.ofClass? known d.name c with
      | some l => .ok (known ++ [(d.name, l)])
      | none => .error (.broken .wrongType)
    else .error (.broken .malformedSource)
  | .model _ => .ok (known ++ [(d.name, .ofOther d.name true)])
  | _ => .ok (known ++ [(d.name, .ofOther d.name false)])

end Declaration

namespace Scope

/-- The lineages of all classes, if each of them can be declared. -/
def declare (s : Scope) : Except Failure Lineages := s.foldlM Declaration.declare []

end Scope

end HttpContract
