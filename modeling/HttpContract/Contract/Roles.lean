import HttpContract.Contract.Basic
import HttpContract.Diagnostic
import HttpContract.PathTemplate

/-!
# Roles

How the parameters and the return of a method are put to use. Parameters are bound from left to
right, each one checked against those before it; then the names that generated code looks up must be
free, every token of the path must be bound, and the return slot is read.
-/

namespace HttpContract

/-- The method that is being looked at. -/
structure Site where
  contract : String
  member : String

namespace Site

/-- The failure for a fault of this method. -/
def failure (s : Site) (f : Fault) : Failure := .rejected f s.contract (some s.member)

/-- Refuses the method for a fault. -/
def refuse {α : Type} (s : Site) (f : Fault) : Except Failure α := .error (s.failure f)

/-- Refuses unless a condition holds. -/
def require (s : Site) (ok : Bool) (f : Fault) : Except Failure Unit :=
  if ok then .ok () else s.refuse f

end Site

namespace Shape

/-- The shape of a declared return type: an awaitable yields its last argument, or nothing. -/
def ofReturn (t : TypeReference) : Shape :=
  if t.awaitable then
    let inner := t.args.getLast?.getD .none
    ⟨.async, inner, inner.isNone⟩
  else ⟨.sync, t, t.isNone⟩

end Shape

namespace Signature

/-- The endpoint and the shape of a method; every method declares its verb. -/
def analyze (m : Signature) (contract : String) : Except Failure (Endpoint × Shape) :=
  match m.endpoint with
  | some e => .ok (e, .ofReturn m.returns)
  | none => Site.refuse ⟨contract, m.name⟩ (.noVerb m.name)

end Signature

namespace BodyEncoding

/-- The format that a type is sent in; only text, bytes and streams are sent raw. -/
def resolve (f : BodyEncoding) (t : TypeReference) : Except Fault BodyEncoding :=
  match f with
  | .auto => .ok (if t.rawForm.isSome then .raw else .json)
  | .raw => if t.rawForm.isSome then .ok .raw else .error (.notRaw t)
  | .json => .ok .json

end BodyEncoding

/-- An absent and an empty key both stand for the name of the parameter. -/
def keyOr (key : Option String) (name : String) : String :=
  match key with
  | some k => if k = "" then name else k
  | none => name

namespace Parameter

/-- The role marks of a parameter in order; other metadata does not count. -/
def roleMarks (p : Parameter) : List RoleMark := p.marks.filterMap Mark.roleMark?

/-- A parameter on its own: one role at most, and a type that suits it. -/
def bind (p : Parameter) : Except Fault Binding :=
  let keyed (role : Role) (key : Option String) (valueType : TypeReference) : Binding := {
    name := p.name, type := p.type, role, key := keyOr key p.name, valueType,
    default := p.default, keywordOnly := p.keywordOnly }
  match p.roleMarks with
  | [] => .ok (keyed .queryParameter none p.type)
  | [.body format contentType] =>
    (format.resolve p.type).map fun f => {
      name := p.name, type := p.type, role := .body, key := p.name, valueType := p.type,
      bodyEncoding := some f, contentType, default := p.default, keywordOnly := p.keywordOnly }
  | [.keyed role key] =>
    if role = .responseHeader then
      if p.type.isOut then .ok (keyed role key (p.type.args.head?.getD (.builtin "str")))
      else .error (.notHolder p.name)
    else .ok (keyed role key p.type)
  | marks => .error (.conflictingRoles p.name (marks.map RoleMark.role))

end Parameter

namespace Binding

/-- The key as it is compared: header names do not tell cases apart. -/
def foldedKey (b : Binding) : String :=
  match b.role with
  | .requestHeader | .contentHeader => Text.lower b.key
  | _ => b.key

/-- Whether two parameters claim the same place in the request. -/
def collides (a b : Binding) : Bool :=
  a.role == b.role && match a.role with
    | .body => true
    | .responseHeader => false
    | _ => a.foldedKey == b.foldedKey

/-- The report on a parameter that claims the place of an earlier one. -/
def collision (first b : Binding) : Fault :=
  match b.role with
  | .body => .secondBody first.name b.name
  | .pathVariable => .boundTwice .pathVariable b.key first.name b.name
  | .queryParameter => .boundTwice .queryParameter b.key first.name b.name
  | _ => .boundTwice .header b.key first.name b.name

end Binding

/-- A method with its path; a method without verb has none. -/
structure PathSite extends Site where
  path : Option String

namespace PathSite

/-- The placeholders of the path of the method. -/
def tokens (s : PathSite) : List String := (s.path.map PathTemplate.tokens).getD []

/-- Checks a binding against the path and the bindings before it. -/
def checkFree (s : PathSite) (before : List Binding) (b : Binding) : Except Failure Unit := do
  if b.role = .pathVariable ∧ !s.tokens.contains b.key then
    match s.path with
    | some path => s.refuse (.unknownToken b.key path)
    | none => throw (.broken .missingAttribute)
  match before.find? (·.collides b) with
  | some first => s.refuse (first.collision b)
  | none => pure ()

/-- Binds one more parameter. -/
def bindNext (s : PathSite) (before : List Binding) (p : Parameter) :
    Except Failure (List Binding) := do
  s.require (!p.name.startsWith reservedStart) (.reservedName p.name)
  let b ← p.bind.mapError s.failure
  s.checkFree before b
  pure (before ++ [b])

/-- Binds the parameters from left to right. -/
def bindAll (s : PathSite) (ps : List Parameter) : Except Failure (List Binding) :=
  ps.foldlM s.bindNext []

end PathSite

/-- The names that the generated body of a method looks up as types. -/
def typeNames (shape : Shape) (bindings : List Binding) : List String :=
  (if shape.isVoid then [] else shape.returns.names) ++
    (bindings.filter (·.role == .responseHeader)).flatMap (·.valueType.names)

namespace Signature

/-- The body marks of the return. -/
def returnBodies (m : Signature) : List (BodyEncoding × Option String) :=
  m.returnMarks.filterMap fun
    | .body format contentType => some (format, contentType)
    | _ => none

/-- The header names that the return is marked with. -/
def returnHeaders (m : Signature) : List (Option String) :=
  m.returnMarks.filterMap fun
    | .keyed .responseHeader key => some key
    | _ => none

/-- Where the result comes from: the body, unless the return is marked as a header. -/
def resultPlace (m : Signature) (shape : Shape) : Except Fault ResultPlace := do
  match m.returnBodies, m.returnHeaders with
  | _ :: _, _ :: _ => throw .returnInBothPlaces
  | _ :: _ :: _, [] => throw .returnMarkedTwice
  | [], _ :: _ :: _ => throw .returnMarkedTwice
  | [], [key] =>
    if (key.getD "") = "" then throw .returnHeaderUnnamed else pure (.header key)
  | bodies, [] =>
    let (format, contentType) := bodies.head?.getD (.auto, none)
    if shape.isVoid then pure (.body (some format) contentType)
    else
      let f ← format.resolve shape.returns
      pure (.body (some f) contentType)

end Signature

/-- The parameters and the return of a method, each with its use. -/
structure Roles where
  bindings : List Binding
  requestHeaders : List (String × String)
  contentHeaders : List (String × String)
  body : Option String
  resultPlace : ResultPlace
deriving Repr, Inhabited

namespace Roles

/-- Header names with the parameters of one role, in order. -/
def headers (role : Role) (bindings : List Binding) : List (String × String) :=
  (bindings.filter (·.role == role)).map fun b => (b.key, b.name)

/-- The roles of the parameters of a method: bound one by one, then checked together. -/
def ofSignature (m : Signature) (shape : Shape) (contract : String) : Except Failure Roles := do
  let s : PathSite := ⟨⟨contract, m.name⟩, m.endpoint.map (·.path)⟩
  let bindings ← s.bindAll m.parameters
  match bindings.find? fun b => (typeNames shape bindings).contains b.name with
  | some b => s.refuse (.shadowedName b.name)
  | none => pure ()
  let bound := (bindings.filter (·.role == .pathVariable)).map (·.key)
  let unbound := s.tokens.filter (!bound.contains ·)
  s.require unbound.isEmpty (.unboundTokens unbound)
  let resultPlace ← (m.resultPlace shape).mapError s.failure
  pure {
    bindings, resultPlace
    requestHeaders := headers .requestHeader bindings
    contentHeaders := headers .contentHeader bindings
    body := (bindings.find? (·.role == .body)).map (·.name) }

end Roles

namespace Operation

/-- The operation that a method declares. -/
def ofSignature (m : Signature) (contract : String) : Except Failure Operation := do
  let (endpoint, shape) ← m.analyze contract
  let roles ← Roles.ofSignature m shape contract
  pure {
    name := m.name, verb := endpoint.verb, path := endpoint.path, completion := shape.completion,
    returns := shape.returns, isVoid := shape.isVoid, parameters := roles.bindings,
    requestHeaders := roles.requestHeaders, contentHeaders := roles.contentHeaders,
    body := roles.body, resultPlace := some roles.resultPlace }

end Operation

end HttpContract
