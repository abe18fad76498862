import HttpContract.Client.Execution
import HttpContract.Generation
import HttpContract.Text.Docstring
import HttpContract.Text.Printable

/-!
# Loading

A generated source becomes a client class when it is sound: its docstrings are whole literals, its
names are names, its defaults and literal arguments are literals, every module it imports is there,
and every type that a signature names is found. A signature is evaluated when the methods above it
are already bound, so the name of such a method stands in front of a type of the same name; and an
imported module stands in front of a type that needs no import.
-/

namespace HttpContract

namespace TypeReference

/-- Whether a dotted name is made of names. -/
def isNameChain (dotted : String) : Bool := (Text.split '.' dotted).all Text.isIdentifier

mutual

/-- Whether the rendered reference is an expression. -/
def isExpression : TypeReference → Bool
  | ⟨module, qualname, args, awaitable, rawForm, source?⟩ =>
    match source? with
    | some source => source == "..." || (TypeExpr.literalValue? source).isSome
    | .none =>
      let base : TypeReference := ⟨module, qualname, [], awaitable, rawForm, .none⟩
      (base.isNone || isNameChain base.fullName) && areExpressions args

def areExpressions : List TypeReference → Bool
  | [] => true
  | t :: ts => isExpression t && areExpressions ts

end

end TypeReference

namespace Operation

/-- The parameters in the form that callers see. -/
def formals (o : Operation) : List Formal :=
  let formal (kind : ParameterKind) (b : Binding) : Formal :=
    { name := b.name, kind, default := b.default.bind TypeExpr.literalValue? }
  (o.parameters.takeWhile (!·.keywordOnly)).map (formal .positional) ++
    (o.parameters.dropWhile (!·.keywordOnly)).map (formal .keywordOnly)

/-- The types of the signature, in the order of their evaluation. -/
def signatureTypes (o : Operation) : List TypeReference :=
  o.parameters.map (·.type) ++ if o.isVoid then [] else [o.returns]

/-- Whether the definition of the method can be read. -/
def isReadable (o : Operation) : Bool :=
  let names := "self" :: o.parameters.map (·.name)
  (o.name :: names).all Text.isIdentifier && names.length == names.eraseDups.length &&
    (o.parameters.filterMap (·.default)).all (fun d => (TypeExpr.literalValue? d).isSome) &&
    (o.signatureTypes ++ o.parameters.map (·.valueType)).all TypeReference.isExpression

end Operation

namespace ClientSource

/-- The texts that stand in docstrings. -/
def docTexts (options : SourceOptions) (c : Contract) : List String :=
  moduleDoc options c :: classDoc c :: c.operations.map fun o => o.verb ++ " " ++ o.path

/-- Whether the source of a client can be read. -/
def isReadable (names : CharacterNames) (options : SourceOptions) (c : Contract) (source : String) : Bool :=
  !source.toList.contains '\x00' &&
    (docTexts options c).all (fun t => (Docstring.read? names (docstring t)).isSome) &&
    (c.fullName :: imports c).all TypeReference.isNameChain && Text.isIdentifier c.className &&
    c.operations.all Operation.isReadable

/-- The modules that are always there. -/
def libraryModules : List String :=
  ["logging", "typing", supportModule] ++
    TypeExpr.referenceNames.map fun n => (TypeExpr.lookup n).ref.module

/-- Whether importing a module succeeds. -/
def canImport (p : Program) (module : String) : Bool :=
  libraryModules.contains module || p.isModule module

/-- The names around a signature: those that imports bind, and the methods above it. -/
structure NamesAround where
  imported : List String := []
  above : List String := []

namespace NamesAround

/-- The names that a client module has before its class begins. -/
def of (c : Contract) : NamesAround := { imported := (imports c).map TypeReference.leading }

/-- Whether something else stands in front of a type: a method above, or an import in the place of a
type without module. -/
def hides (names : NamesAround) (t : TypeReference) : Bool :=
  let name := TypeReference.leading t.fullName
  names.above.contains name || (t.module == builtinModule && names.imported.contains name)

/-- The names below a further method. -/
def below (names : NamesAround) (method : String) : NamesAround :=
  { names with above := names.above ++ [method] }

end NamesAround

/-- Looks a reference up without its arguments; whether it leads to something other than a type. -/
def lookUp (p : Program) (names : NamesAround) (t : TypeReference) : Except Breakdown Bool :=
  if t.isNone then .ok false
  else if names.hides t then
    if TypeReference.leading t.fullName = t.fullName then .ok true else .error .missingAttribute
  else if t.module = builtinModule then
    if Forward.builtinClasses.contains t.qualname then .ok false else .error .unknownName
  else if libraryModules.contains t.module then .ok false
  else match p.follow (.module t.module) (Text.split '.' t.qualname) with
    | .ok _ => .ok false
    | .error _ => .error .missingAttribute

mutual

/-- Evaluates a rendered reference. What is no type takes no arguments in brackets. -/
def evaluate (p : Program) (names : NamesAround) : TypeReference → Except Breakdown Unit
  | ⟨module, qualname, args, awaitable, rawForm, source?⟩ =>
    match source? with
    | some _ => .ok ()
    | none => do
      let isOther ← lookUp p names ⟨module, qualname, [], awaitable, rawForm, none⟩
      evaluateAll p names args
      if isOther && !args.isEmpty then throw .wrongType

def evaluateAll (p : Program) (names : NamesAround) : List TypeReference → Except Breakdown Unit
  | [] => .ok ()
  | t :: ts => do
    evaluate p names t
    evaluateAll p names ts

end

/-- Evaluates the signatures of operations, each one below those before it. -/
def evaluateSignatures (p : Program) : NamesAround → List Operation → Except Breakdown Unit
  | _, [] => .ok ()
  | names, o :: rest => do
    evaluateAll p names o.signatureTypes
    evaluateSignatures p (names.below o.name) rest

end ClientSource

/-- A client class that has been loaded. -/
structure ClientClass where
  /-- The declared class that it is the client of. -/
  subject : ClassName
  contract : Contract
  plans : List CallPlan
  name : String
  module : String
  doc : String
  isFinal : Bool
  /-- Its number among the classes that were made; loading a source once more makes another class. -/
  identity : Nat := 0
deriving Repr, Inhabited

namespace ClientClass

/-- Loads the source that was generated for a class. -/
def load (p : Program) (settings : GenerationSettings) (subject : ClassName) (g : GeneratedClient) :
    Except Breakdown ClientClass := do
  let options := Generation.options settings
  if !ClientSource.isReadable p.surroundings.characters options g.contract g.source then throw .malformedSource
  if !(ClientSource.imports g.contract).all (ClientSource.canImport p) then throw .missingModule
  ClientSource.evaluateSignatures p (.of g.contract) g.contract.operations
  let doc := Docstring.read? p.surroundings.characters (ClientSource.docstring (ClientSource.classDoc g.contract))
  pure {
    subject, contract := g.contract, plans := g.plans, name := g.className, module := g.moduleName
    doc := doc.getD "", isFinal := options.isSealed }

end ClientClass

end HttpContract
