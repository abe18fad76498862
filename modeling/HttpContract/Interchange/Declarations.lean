import HttpContract.Declaration.Extraction
import HttpContract.Interchange.Contracts

/-!
# Documents of declarations
-/

namespace HttpContract.Interchange

/-- The type expression of a document; the fuel is its depth. -/
def typeOf (scope : Scope) (fuel : Nat) (j : Json) : Decode TypeExpr :=
  match fuel with
  | 0 => .error "document too deep"
  | fuel + 1 =>
  match j with
  | .null => .ok .nothing
  | .string s => .ok (.named s)
  | .object _ => do
    if let some ref := present j "class" then
      return .declared (classNameOf (← asStr ref)) (← boolD j "awaitable" false)
        (← boolD j "stream" false)
    if let some base := present j "of" then
      return .subscript (← typeOf scope fuel base) (← (← listD j "args").mapM (typeOf scope fuel))
    if let some a := j.field? "optional" then return .union [← typeOf scope fuel a, .nothing]
    if let some ms := present j "union" then
      return .union (← (← asList ms).mapM (typeOf scope fuel))
    if let some ms := present j "pipe" then
      return .bars (← (← asList ms).mapM (typeOf scope fuel))
    if let some vs := present j "literal" then
      return .literal (← (← asList vs).mapM (decodeValue scope))
    if let some a := j.field? "annotated" then
      return .annotated (← typeOf scope fuel a)
        (← (← listD j "marks").mapM (decodeMark (decodeValue scope)))
    if let some c := present j "callable" then
      match ← asList c with
      | [.string "...", r] => return .callable none (← typeOf scope fuel r)
      | [.array ps, r] =>
        return .callable (some (← ps.mapM (typeOf scope fuel))) (← typeOf scope fuel r)
      | _ => throw "callable expected"
    if let some n := present j "typevar" then return .typeVar (← asStr n)
    if let some t := present j "forward" then return .forward (← asStr t)
    if let some n := present j "newtype" then return .newType (classNameOf (← asStr n))
    throw "type expected"
  | _ => .error "type expected"

/-- A type. Its own depth bounds how far it is taken apart. -/
def decodeType (scope : Scope) (j : Json) : Decode TypeExpr := typeOf scope (j.depth + 1) j

/-- A type below the marks that are given beside it, if there is one. -/
def typeOpt (scope : Scope) (j : Json) (k marks : String) : Decode (Option TypeExpr) := do
  let marks ← (← listD j marks).mapM (decodeMark (decodeValue scope))
  match j.field? k with
  | none => pure none
  | some t =>
    let type ← decodeType scope t
    pure (some (if marks.isEmpty then type else .annotated type marks))

/-- A value, if there is one. -/
def valueOpt (scope : Scope) (j : Json) (k : String) : Decode (Option Value) :=
  match j.field? k with
  | none => .ok none
  | some v => (decodeValue scope v).map some

/-- A parameter of a function. -/
def decodeDeclaredParameter (scope : Scope) (j : Json) : Decode DeclaredParameter := do
  let kind ← match ← strD j "kind" "pos" with
    | "pos" => pure ParameterKind.positional
    | "posonly" => pure .positionalOnly
    | "kw" => pure .keywordOnly
    | "var" => pure .variadic
    | "varkw" => pure .variadicKeyword
    | k => throw s!"parameter kind {k}"
  pure { name := ← str j "name", kind, type := ← typeOpt scope j "type" "marks",
         default := ← valueOpt scope j "default" }

/-- The endpoint that a decorator gives a function. -/
def decodeDeclaredEndpoint (j : Json) : Decode (Option Endpoint) :=
  match present j "http" with
  | none => .ok none
  | some h => do
    let verb ← match present h "via" with
      | some v => asStr v
      | none => str h "verb"
    pure (some (.of verb (← strD h "path" "")))

/-- A function; its receiver is `self` unless the document says otherwise. -/
def decodeFunction (scope : Scope) (j : Json) : Decode Function := do
  let receiver ← match j.field? "self" with
    | none => pure (some "self")
    | some .null => pure none
    | some s => some <$> asStr s
  pure {
    receiver, parameters := ← (← listD j "params").mapM (decodeDeclaredParameter scope),
    isAsync := ← boolD j "async" false, returns := ← typeOpt scope j "returns" "return_marks",
    endpoint := ← decodeDeclaredEndpoint j }

/-- A member of a class body, under its name. -/
def decodeMember (scope : Scope) (j : Json) : Decode (String × MemberBody) := do
  let body ← match ← strD j "kind" "method" with
    | "method" => pure (.method (← decodeFunction scope j) false)
    | "abstract" => pure (.method (← decodeFunction scope j) true)
    | "static" => pure (.static (← decodeFunction scope j))
    | "class" => pure (.classMethod (← decodeFunction scope j))
    | "property" => pure (.property (← decodeFunction scope j))
    | "attribute" => pure (.attribute (← decodeValue scope ((j.field? "value").getD .null)))
    | k => throw s!"member kind {k}"
  pure (← str j "name", body)

/-- A field of a record: its name, its type and perhaps its default. -/
def decodeField (scope : Scope) (j : Json) : Decode Field := do
  match ← asList j with
  | [n, t] => pure { name := ← asStr n, type := ← decodeType scope t }
  | [n, t, d] =>
    let default ← decodeValue scope d
    pure { name := ← asStr n, type := ← decodeType scope t, default := some default }
  | _ => throw "field expected"

/-- A declaration, whose types and values may refer to those above it. -/
def decodeDeclaration (scope : Scope) (j : Json) : Decode Declaration := do
  let name := classNameOf (← str j "ref")
  let fields : Decode (List Field) := do (← listD j "fields").mapM (decodeField scope)
  let enumeration (kind : EnumKind) : Decode DeclarationBody := do
    let members ← (← listD j "members").mapM fun m => do
      match ← asList m with
      | [n, v] => pure (← asStr n, ← decodeValue scope v)
      | _ => throw "member expected"
    pure (.enumeration kind members)
  let contract (kind : ContractKind) : Decode DeclarationBody := do
    let bases ← (← listD j "bases").mapM fun b => do
      pure (classNameOf (← str b "ref"), ← (← listD b "args").mapM (decodeType scope))
    pure (.contract {
      kind, bases, generic := ← strList j "generic", service := ← decodeService j,
      members := ← (← listD j "members").mapM (decodeMember scope) })
  let body ← match ← str j "kind" with
    | "model" => do pure (.model (← fields))
    | "dataclass" => do pure (.dataclass (← fields))
    | "enum" => enumeration .plain
    | "strenum" => enumeration .text
    | "intenum" => enumeration .integer
    | "object" =>
      match ← str j "value" with
      | "function" => pure (.foreign .function)
      | "module" => pure (.foreign .module)
      | "int" => pure (.foreign .integer)
      | _ => pure (.foreign .instance_)
    | "protocol" => contract .protocol
    | "abc" => contract .abstractBase
    | "plain" => contract .plain
    | k => throw s!"class kind {k}"
  pure ⟨name, body⟩

/-- The declarations of a program, one after the other. -/
def decodeScope (j : Json) : Decode Scope := do
  (← listD j "classes").foldlM (fun scope c => do pure (scope ++ [← decodeDeclaration scope c])) []

end HttpContract.Interchange
