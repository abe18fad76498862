import HttpContract.Declaration.Extraction
import HttpContract.Diagnostic

/-!
# References

A reference `module:name` leads from a module through attributes to a subject, which is usually a
declared class. Every module of a declaration can be imported, and so can the modules around it, which
hold it as an attribute from then on. A nested class is an attribute of the class around it. Importing a
module runs its code, so a look-up may change what later ones lead to: `after` is the program that it
leaves.
-/

namespace HttpContract

namespace LookupError

/-- What the command says of the error. -/
def message : LookupError → String
  | malformed r => "Expected module:Contract, got '" ++ r ++ "'"
  | relative => "the 'package' argument is required to perform a relative import"
  | noModule m => "No module named " ++ Quoted.text m
  | moduleLacks m a => "module " ++ Quoted.text m ++ " has no attribute " ++ Quoted.text a
  | classLacks c a => "type object '" ++ c ++ "' has no attribute " ++ Quoted.text a
  | objectLacks t a => "'" ++ t ++ "' object has no attribute " ++ Quoted.text a
  | lacks a => a
  | raised message => message
  | escaped _ => ""

/-- The error that ends a look-up without being handled, if it is one. -/
def breakdown? : LookupError → Option Breakdown
  | relative => some .wrongType
  | escaped b => some b
  | _ => none

end LookupError

namespace ClassName

/-- The class of a name inside another. -/
def inside (c : ClassName) (name : String) : ClassName := ⟨c.module, c.qualname ++ "." ++ name⟩

end ClassName

/-- The text before and after the first separator; none without one. -/
def splitFirst? (separator : Char) (s : String) : Option (String × String) :=
  match s.toList.dropWhile (· != separator) with
  | _ :: rest => some (String.ofList (s.toList.takeWhile (· != separator)), String.ofList rest)
  | [] => none

/-- The text before and after the last separator; all of it is behind without one. -/
def splitLast (separator : Char) (s : String) : String × String :=
  let back := s.toList.reverse
  let after := String.ofList (back.takeWhile (· != separator)).reverse
  (String.ofList ((back.dropWhile (· != separator)).drop 1).reverse, after)

/-- A dotted name and the names of all packages around it, the outermost first. -/
def packagesOf (name : String) : List String :=
  let parts := Text.split '.' name
  (List.range parts.length).map fun i => String.intercalate "." (parts.take (i + 1))

/-- The attributes that every module and every class has, and that are text. -/
def selfDescriptions : List String := ["__name__", "__qualname__", "__module__"]

namespace Subject

/-- The subject that a text is. -/
def text : Subject := .object "" "str"

/-- What an attribute value is. -/
def ofValue : Value → Subject
  | .member cls _ _ _ | .record cls _ _ => .object cls.module cls.qualname
  | v => .object "" v.typeName

/-- The subject that a member of a class is. -/
def ofMember (owner : ClassName) (name : String) : MemberBody → Subject
  | .method .. | .static .. | .classMethod .. => .function owner.module (owner.inside name).qualname
  | .property .. => .object "" "property"
  | .attribute v => ofValue v

/-- The error for an attribute that the subject does not have. -/
def lacking (p : Program) (member : String) : Subject → LookupError
  | declared n =>
    match p.scope.find? n with
    | some (.model _) | some (.enumeration ..) => .lacks member
    | some (.foreign .function) => .objectLacks "function" member
    | some (.foreign .module) => .moduleLacks n.qualname member
    | some (.foreign .integer) => .objectLacks "int" member
    | some (.foreign .instance_) => .objectLacks n.simple member
    | _ => .classLacks n.simple member
  | module m => .moduleLacks m member
  | group _ => .objectLacks "types.SimpleNamespace" member
  | function .. => .objectLacks "function" member
  | builtinClass c => .classLacks c member
  | object _ t => .objectLacks t member

end Subject

namespace Program

/-- The names of all classes that are declared. -/
def declaredNames (p : Program) : List ClassName := p.scope.map (·.name)

/-- A declared class of a name, or the group of those inside it. -/
def named? (p : Program) (n : ClassName) : Option Subject :=
  if (p.scope.find? n).isSome then some (.declared n)
  else if p.declaredNames.any fun d =>
    d.module = n.module && d.qualname.startsWith (n.qualname ++ ".") then some (.group n)
  else none

/-- Every module that holds declarations, and the packages around them. -/
def modules (p : Program) : List String :=
  (p.declaredNames.flatMap fun n => packagesOf n.module).eraseDups

/-- Whether there is a module of this name. -/
def isModule (p : Program) (name : String) : Bool :=
  name == builtinModule || p.modules.contains name || p.surroundings.hasModule name

/-- Whether a module has been imported already. -/
def isImported (p : Program) (name : String) : Bool :=
  p.isModule name && (p.surroundings.isLoaded name || p.imported.contains name)

/-- Runs the code of a module; one whose code fails is not imported, but what it imported in turn is. -/
def execute (p : Program) (name : String) : Program × Option LookupError :=
  let (others, error?) := p.surroundings.execute p.imported name
  ({ p with imported := p.imported ++ others ++ if error?.isSome then [] else [name] }, error?)

/-- Imports a module, whose name is followed by those of the packages around it, and these before. -/
def importBelow (p : Program) : List String → Program × Option LookupError
  | [] => (p, none)
  | name :: around =>
    if p.isImported name then (p, none)
    else match p.importBelow around with
      | (p, some e) => (p, some e)
      | (p, none) =>
        if p.isImported name then (p, none)
        else if p.isModule name then p.execute name
        else (p, some (.noModule name))

/-- Imports a module by way of the packages around it. -/
def importModule (p : Program) (name : String) : Program × Option LookupError :=
  if name.startsWith "." then (p, some .relative) else p.importBelow (packagesOf name).reverse

/-- An attribute that a class has of its own. -/
def ownAttribute? (p : Program) (n : ClassName) (name : String) : Option Subject :=
  (p.named? (n.inside name)).orElse fun _ =>
    match p.scope.find? n with
    | some (.contract c) =>
      (Entries.get? (Entries.merge c.members) name).map (Subject.ofMember n name)
    | some (.enumeration _ members) =>
      if members.any (·.1 == name) then some (.object n.module n.qualname) else none
    | _ => none

/-- An attribute that comes with the declarations. -/
def declaredAttribute? (p : Program) (s : Subject) (name : String) : Option Subject :=
  match s with
  | .declared n =>
    let order := ((p.lineage? n).map (·.order)).getD [.declared n]
    let found := order.findSome? fun
      | .declared a => p.ownAttribute? a name
      | _ => none
    found.orElse fun _ => if selfDescriptions.contains name then some .text else none
  | .module m =>
    let found := (p.named? ⟨m, name⟩).orElse fun _ =>
      if p.isImported (m ++ "." ++ name) then some (.module (m ++ "." ++ name))
      else if m = builtinModule && Forward.builtinClasses.contains name then
        some (.builtinClass name)
      else none
    found.orElse fun _ => if name = "__name__" then some .text else none
  | .group path => p.named? (path.inside name)
  | .function .. | .builtinClass _ => if selfDescriptions.contains name then some .text else none
  | .object .. => none

/-- The subject that is the attribute of another one: declared, or bound by the code of a module. -/
def attribute? (p : Program) (s : Subject) (name : String) : Option Subject :=
  (p.declaredAttribute? s name).orElse fun _ => p.surroundings.attribute? p.imported s name

/-- Follows attributes from a subject. -/
def follow (p : Program) (s : Subject) : List String → Except LookupError Subject
  | [] => .ok s
  | name :: rest =>
    match p.attribute? s name with
    | some s => follow p s rest
    | none => .error ((p.surroundings.refuse? p.imported s name).getD (s.lacking p name))

/-- Looks up a reference `module:name`, or `module.name`. -/
def lookUp (p : Program) (reference : String) : Program × Except LookupError Subject :=
  let (module, qualname) := (splitFirst? ':' reference).getD (splitLast '.' reference)
  if module = "" ∨ qualname = "" then (p, .error (.malformed reference))
  else match p.importModule module with
    | (p, some e) => (p, .error e)
    | (p, none) => (p, p.follow (.module module) (Text.split '.' qualname))

/-- What a reference leads to. -/
def resolve (p : Program) (reference : String) : Except LookupError Subject := (p.lookUp reference).2

/-- The program that is left when a reference has been looked up. -/
def after (p : Program) (reference : String) : Program := (p.lookUp reference).1

/-- The candidate that a subject is. What is no class is no interface. -/
def candidateOf (p : Program) (s : Subject) : Except Failure Candidate :=
  let thing (module qualname : String) : Candidate :=
    { module, qualname, isInterface := false, isPublic := false }
  match s with
  | .declared n => p.candidate n
  | .module _ => .ok (thing "" "module")
  | .group _ => .ok (thing "" "SimpleNamespace")
  | .function m q => .ok (thing m q)
  | .builtinClass c => .ok { thing builtinModule c with isPublic := true }
  | .object m t => .ok (thing m t)

/-- Whether a subject is a class. -/
def isClassSubject (p : Program) : Subject → Bool
  | .declared n => p.isClass n
  | .builtinClass _ => true
  | _ => false

/-- How log lines name a subject: by its own name, else as it is displayed. -/
def label (p : Program) : Subject → String
  | .declared n =>
    match p.scope.find? n with
    | some (.foreign .integer) => "5"
    | some (.foreign .module) => "<module " ++ Quoted.text n.qualname ++ ">"
    | some (.foreign .instance_) => "<" ++ n.full ++ " object>"
    | _ => n.qualname
  | .module m => "<module " ++ Quoted.text m ++ ">"
  | .group path => "<" ++ path.full ++ ">"
  | .function _ q => q
  | .builtinClass c => c
  | .object _ t => "<" ++ t ++ ">"

/-- What is logged once a subject is read. -/
def recordsOf (p : Program) (s : Subject) (c : Candidate) : List LogRecord :=
  if p.isClassSubject s then
    [⟨.debug, "declient.extraction", s!"Extracted {c.fullName} with {c.methods.length} methods"⟩]
  else []

end Program

end HttpContract
