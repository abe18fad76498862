import HttpContract.Contract.Roles
import HttpContract.Interchange.Types

/-!
# Documents of candidates and contracts
-/

namespace HttpContract.Interchange

/-- A parameter of a candidate; without marks it has none. -/
def decodeParameter (value : Json → Decode Value) (j : Json) : Decode Parameter := do
  pure {
    name := ← str j "name", type := ← decodeTypeReference (← field j "type"),
    marks := ← (← listD j "marks").mapM (decodeMark value), default := ← strOpt j "default",
    keywordOnly := ← boolD j "keyword_only" false }

/-- The endpoint of a method; the path may be left out. -/
def decodeEndpoint (j : Json) : Decode (Option Endpoint) :=
  match present j "http" with
  | none => .ok none
  | some h => do pure (some (.of (← str h "verb") (← strD h "path" "")))

/-- A method of a candidate. -/
def decodeSignature (value : Json → Decode Value) (j : Json) : Decode Signature := do
  pure {
    name := ← str j "name", returns := ← referenceField j "returns",
    parameters := ← (← listD j "params").mapM (decodeParameter value),
    endpoint := ← decodeEndpoint j,
    returnMarks := ← (← listD j "return_marks").mapM (decodeMark value) }

/-- The service declaration of a candidate, if there is one. -/
def decodeService (j : Json) : Decode (Option ServiceMark) :=
  match present j "client" with
  | none => .ok none
  | some c => do pure (some ⟨← str c "name", ← strD c "route" ""⟩)

/-- A candidate; what is left out is as it is for a plain interface. -/
def decodeCandidate (value : Json → Decode Value) (j : Json) : Decode Candidate := do
  let arity ← match present j "generic_arity" with
    | some a => asInt a
    | none => pure 0
  pure {
    module := ← str j "module", qualname := ← str j "qualname",
    isInterface := ← boolD j "is_interface" true, isPublic := ← boolD j "is_public" true,
    genericArity := arity, service := ← decodeService j,
    methods := ← (← listD j "methods").mapM (decodeSignature value) }

def encodeParameter (p : Parameter) : Json :=
  obj [("name", .string p.name), ("type", encodeTypeReference p.type),
    ("marks", jlist encodeMark p.marks), ("default", jstr p.default),
    ("has_default", .bool p.default.isSome),
    ("keyword_only", .bool p.keywordOnly)]

def encodeSignature (m : Signature) : Json :=
  obj [("name", .string m.name), ("returns", encodeTypeReference m.returns),
    ("http", jopt (fun e => obj [("verb", .string e.verb), ("path", .string e.path)]) m.endpoint),
    ("return_marks", jlist encodeMark m.returnMarks),
    ("params", jlist encodeParameter m.parameters)]

def encodeService (s : ServiceMark) : Json :=
  obj [("name", .string s.name), ("route", .string s.route)]

def encodeCandidate (c : Candidate) : Json :=
  obj [("module", .string c.module), ("qualname", .string c.qualname),
    ("full_name", .string c.fullName), ("is_interface", .bool c.isInterface),
    ("is_public", .bool c.isPublic), ("generic_arity", .int c.genericArity),
    ("client", jopt encodeService c.service), ("methods", jlist encodeSignature c.methods)]

/-- A parameter with its role. -/
def encodeBinding (b : Binding) : Json :=
  obj [("name", .string b.name), ("type", encodeTypeReference b.type),
    ("role", .string b.role.name), ("key", .string b.key),
    ("value_type", encodeTypeReference b.valueType),
    ("body_format", encodeFormat b.bodyEncoding), ("content_type", jstr b.contentType),
    ("default", jstr b.default), ("keyword_only", .bool b.keywordOnly)]

/-- Pairs of texts, in order. -/
def encodePairs (ps : List (String × String)) : Json :=
  jlist (fun p => .array [.string p.1, .string p.2]) ps

/-- Where the result comes from. -/
def encodeSlot : ResultPlace → Json
  | .body f c => obj [("role", .string "body"), ("header", .null), ("body_format", encodeFormat f),
      ("content_type", jstr c)]
  | .header h => obj [("role", .string "response-header"), ("header", jstr h),
      ("body_format", .null), ("content_type", .null)]

/-- What the roles of a method and its operation have in common. -/
def encodeRolesFields (ps : List Binding) (rh ch : List (String × String)) (body : Option String)
    (slot : Option ResultPlace) : List (String × Json) :=
  [("params", jlist encodeBinding ps), ("request_headers", encodePairs rh),
    ("content_headers", encodePairs ch), ("body", jstr body), ("return_slot", jopt encodeSlot slot)]

def encodeRoles (r : Roles) : Json :=
  obj (encodeRolesFields r.bindings r.requestHeaders r.contentHeaders r.body (some r.resultPlace))

def encodeOperation (o : Operation) : Json :=
  obj (encodeRolesFields o.parameters o.requestHeaders o.contentHeaders o.body o.resultPlace ++
    [("name", .string o.name), ("verb", .string o.verb), ("path", .string o.path),
     ("completion", .string o.completion.name), ("is_async", .bool o.isAsync),
     ("returns", encodeTypeReference o.returns), ("is_void", .bool o.isVoid)])

/-- The role that a name stands for. -/
def decodeRole : String → Decode Role
  | "path-variable" => .ok .pathVariable
  | "query-parameter" => .ok .queryParameter
  | "request-header" => .ok .requestHeader
  | "content-header" => .ok .contentHeader
  | "response-header" => .ok .responseHeader
  | "body" => .ok .body
  | r => .error s!"role {r}"

/-- The completion that a name stands for. -/
def decodeCompletion : String → Decode Completion
  | "sync" => .ok .sync
  | "async" => .ok .async
  | c => .error s!"completion {c}"

/-- A parameter with its role; its value has the type of the parameter unless another one is given.
-/
def decodeBinding (j : Json) : Decode Binding := do
  let type ← decodeTypeReference (← field j "type")
  let valueType ← match j.field? "value_type" with
    | some v => decodeTypeReference v
    | none => pure type
  let name ← str j "name"
  pure {
    name, type, role := ← decodeRole (← str j "role"), key := ← strD j "key" name, valueType,
    bodyEncoding := ← formatOpt j "body_format", contentType := ← strOpt j "content_type",
    default := ← strOpt j "default", keywordOnly := ← boolD j "keyword_only" false }

/-- Where the result comes from: a header, or else the body. -/
def decodeSlot (j : Json) : Decode ResultPlace := do
  match ← str j "role" with
  | "response-header" => pure (.header (← strOpt j "header"))
  | _ => pure (.body (← formatOpt j "body_format") (← strOpt j "content_type"))

/-- An operation. -/
def decodeOperation (j : Json) : Decode Operation := do
  let slot ← match present j "return_slot" with
    | some s => some <$> decodeSlot s
    | none => pure none
  pure {
    name := ← str j "name", verb := ← str j "verb", path := ← str j "path",
    completion := ← decodeCompletion (← strD j "completion" "sync"),
    returns := ← referenceField j "returns",
    isVoid := ← boolD j "is_void" false,
    parameters := ← (← listD j "params").mapM decodeBinding,
    requestHeaders := ← pairs j "request_headers", contentHeaders := ← pairs j "content_headers",
    body := ← strOpt j "body", resultPlace := slot }

/-- A contract. -/
def decodeContract (j : Json) : Decode Contract := do
  pure {
    module := ← str j "module", qualname := ← str j "qualname",
    serviceName := ← str j "service_name", baseRoute := ← strD j "base_route" "",
    operations := ← (← listD j "methods").mapM decodeOperation }

def encodeShape (s : Shape) : Json :=
  obj [("completion", .string s.completion.name), ("returns", encodeTypeReference s.returns),
    ("is_void", .bool s.isVoid)]

end HttpContract.Interchange
