import HttpContract.Candidate
import HttpContract.Declaration.Linearization
import HttpContract.Declaration.Surroundings

/-!
# Candidates from declarations

Reads a declared class as a candidate. The methods are read only if the class could be a contract,
so whether it is one never depends on them. Methods come from the class and its interface ancestors,
the furthest ancestor first; an override keeps the place of what it overrides.
-/

namespace HttpContract

/-- A scope whose classes are declared. -/
structure Program where
  scope : Scope
  lineages : Lineages
  surroundings : Surroundings := {}
  /-- The modules that have been imported since the program began. -/
  imported : List String := []

namespace Program

/-- The program that the declarations make up, unless one of its classes cannot be made. -/
def ofScope (s : Scope) : Except Failure Program := s.declare.map fun lineages => { scope := s, lineages }

/-- What the texts in the types of a method mean. -/
def evaluation (p : Program) (contract method : String) : Forward.Evaluation :=
  p.surroundings.evaluate p.imported contract method

/-- The lineage of a class. -/
def lineage? (p : Program) (name : ClassName) : Option Lineage := Lineage.find? p.lineages name

end Program

/-- Whether a part of a qualified name marks what it names as private. -/
def isPrivateSegment (s : String) : Bool :=
  s.startsWith "_" && !(s.startsWith "__" && s.endsWith "__")

namespace ClassName

/-- Whether neither the name nor a module on the way to it is private. -/
def isPublic (c : ClassName) : Bool :=
  !c.simple.startsWith "_" && !Text.occurs "<locals>".toList c.qualname.toList &&
    (Text.split '.' c.module).all (!isPrivateSegment ·)

/-- Whether the class belongs to the machinery of interfaces and to no contract. -/
def isFramework (c : ClassName) : Bool :=
  ["builtins", "typing", "typing_extensions", "abc", "collections.abc"].contains c.module

end ClassName

/-- The entries whose value passes a test, under the rule that a later entry replaces an earlier one
of the same name and keeps its place. -/
def collect {α β : Type} (pass? : α → Option β) (found : List (String × β))
    (members : List (String × α)) : List (String × β) :=
  members.foldl (fun found m =>
    match pass? m.2 with
    | some b => if m.1.startsWith "_" then found else Entries.insert found m.1 b
    | none => found) found

namespace Program

/-- The members that an ancestor contributes to a contract. -/
def contributed (p : Program) : Ancestor → List (String × MemberBody)
  | .declared name =>
    if name.isFramework || !((p.lineage? name).map (·.isInterface)).getD false then []
    else ((p.scope.contract? name).map fun c => Entries.merge c.members).getD []
  | _ => []

/-- The public methods of a contract class. -/
def methods (p : Program) (l : Lineage) : List (String × Function) :=
  l.order.reverse.foldl (fun found a => collect MemberBody.method? found (p.contributed a)) []

end Program

namespace Value

/-- The name of the type of a value. -/
def typeName : Value → String
  | .null => "NoneType"
  | .bool _ => "bool"
  | .int _ => "int"
  | .float _ => "float"
  | .text _ => "str"
  | .bytes _ => "bytes"
  | .byteArray _ => "bytearray"
  | .list _ => "list"
  | .tuple _ => "tuple"
  | .set _ => "set"
  | .dict _ => "dict"
  | .date _ => "date"
  | .time _ => "time"
  | .dateTime _ => "datetime"
  | .uuid _ => "UUID"
  | .decimal _ => "Decimal"
  | .stream _ => "BytesIO"
  | .textStream _ => "StringIO"
  | .out _ => "Out"
  | .foreign _ => "Opaque"
  | .member cls _ _ _ => cls.simple
  | .record cls _ _ => cls.simple

/-- Whether a value can be a default: its type has literals. -/
def hasLiteralType : Value → Bool
  | .null | .bool _ | .int _ | .float _ | .text _ | .bytes _ => true
  | .member _ kind _ _ => kind != .plain
  | _ => false

/-- The source of a default value. -/
def defaultSource (parameter : String) (v : Value) : Except Fault String :=
  if !v.hasLiteralType then .error (.defaultNoLiteral parameter v.typeName)
  else match v with
    | .float x =>
      if x.isFinite then .ok v.literal else .error (.defaultNotFinite parameter v.literal)
    | v => .ok v.literal

end Value

namespace Forward.Problem

/-- How a text that names no type is reported. -/
def failure (contract method : String) : Forward.Problem → Failure
  | .unresolved reason => .rejected (.unresolvedTypes method reason) contract (some method)
  | .breaks b => .broken b

end Forward.Problem

/-- The type of whatever is declared without one. -/
def anyType : TypeExpr := .named "Any"

namespace Function

/-- The function with every text in its types replaced by what it names. -/
def resolved (f : Function) (meaning : Forward.Evaluation) : Except Forward.Problem Function := do
  let parameters ← f.parameters.mapM fun p => do
    let type ← p.type.mapM (TypeExpr.resolved meaning)
    pure { p with type }
  let returns ← f.returns.mapM (TypeExpr.resolved meaning)
  pure { f with parameters, returns }

/-- The parameters that callers fill. -/
def visible (f : Function) : List DeclaredParameter :=
  match f.receiver with
  | some "self" | some "cls" => f.parameters
  | some r => { name := r } :: f.parameters
  | none =>
    match f.parameters with
    | p :: ps => if p.name = "self" ∨ p.name = "cls" then ps else p :: ps
    | [] => []

end Function

namespace DeclaredParameter

/-- The parameter as a candidate has it: its type, its marks, and its default as source. -/
def signature (p : DeclaredParameter) : Except Fault Parameter := do
  if p.kind = .variadic ∨ p.kind = .variadicKeyword then throw (.variadicParameter p.name)
  let (base, marks) := (p.type.getD anyType).normal.split
  let type ← base.reference?
  let default ← p.default.mapM (Value.defaultSource p.name)
  pure { name := p.name, type, marks, default, keywordOnly := p.kind == .keywordOnly }

end DeclaredParameter

/-- The type of an asynchronous method's result. -/
def awaitableOf (t : TypeReference) : TypeReference :=
  { module := TypeExpr.abstractModule, qualname := "Awaitable", args := [t], awaitable := true }

namespace Function

/-- The method as a candidate has it. The texts in its types are evaluated first. -/
def signature (f : Function) (meaning : Forward.Evaluation) (contract name : String) :
    Except Failure Signature := do
  let f ← (f.resolved meaning).mapError (Forward.Problem.failure contract name)
  let refuse (e : Fault) : Failure := .rejected e contract (some name)
  let parameters ← f.visible.mapM fun p => p.signature.mapError refuse
  let (base, returnMarks) := (f.returns.getD .nothing).normal.split
  let returns ← base.reference?.mapError refuse
  pure {
    name, parameters, returnMarks, endpoint := f.endpoint
    returns := if f.isAsync then awaitableOf returns else returns }

end Function

namespace Program

/-- A class that is not read any further. -/
def ineligible (name : ClassName) (isInterface : Bool) : Candidate :=
  { module := name.module, qualname := name.qualname, isInterface, isPublic := name.isPublic }

/-- What stands in place of a class, described as no interface. -/
def foreign (name : ClassName) : ForeignKind → Candidate
  | .function | .instance_ =>
    { module := name.module, qualname := name.qualname, isInterface := false, isPublic := false }
  | .module => { module := "", qualname := "module", isInterface := false, isPublic := false }
  | .integer => { module := "", qualname := "int", isInterface := false, isPublic := false }

/-- The candidate that a declared class is. -/
def candidate (p : Program) (name : ClassName) : Except Failure Candidate :=
  match p.scope.find? name with
  | some (.contract c) => do
    let l := (p.lineage? name).getD (.ofOther name false)
    let plain : Candidate := {
      ineligible name l.isInterface with genericArity := l.arity, service := c.service }
    if plain.isInterface && plain.isPublic && plain.genericArity == 0 && plain.service.isSome then
      let methods ← (p.methods l).mapM fun m =>
        m.2.signature (p.evaluation plain.fullName m.1) plain.fullName m.1
      pure { plain with methods }
    else pure plain
  | some (.foreign kind) => .ok (foreign name kind)
  | some (.model _) => .ok (ineligible name true)
  | _ => .ok (ineligible name false)

/-- Whether a name stands for a class. -/
def isClass (p : Program) (name : ClassName) : Bool :=
  match p.scope.find? name with
  | some (.foreign _) => false
  | _ => true

end Program

end HttpContract
