import HttpContract.Http.Response
import HttpContract.Http.RemoteError
import HttpContract.Json.Reader
import HttpContract.Schema.OfType
import HttpContract.Schema.Read

/-!
# Reading responses

How the headers and the body of a response become values of declared types.
-/

namespace HttpContract

/-- Why a call did not return. -/
inductive CallError
  | service (e : RemoteError)
  /-- The body does not match its declared type. -/
  | mismatch (message : String) (issues : List Issue)
  /-- Settings or arguments that are refused. -/
  | invalid (issues : List Issue)
  | refused (failure : Failure)
  | broken (b : Breakdown)
deriving Repr, Inhabited

/-- A JSON document that was received. -/
def receivedJson? (body : Bytes) : Option Json := (Utf8.decode? body).bind (Json.read? .received)

namespace Response

/-- A header as a value of a type; nothing when the header is absent. -/
def headerAs (scope : Scope) (r : Response) (name : String) (target : TypeExpr) :
    Except CallError Value := do
  match ← (r.lookup name).mapError CallError.broken with
  | none => pure .null
  | some raw =>
    if target.takesText then pure (.text raw)
    else match target.schema? scope with
      | none => throw (.broken .noSchema)
      | some s =>
        match s.read (.string raw) with
        | .ok a => pure a.value
        | .error _ => throw (.service (.header name (target.targetText scope) raw))

/-- The body as a value of a type; an empty body is nothing. -/
def bodyAs (scope : Scope) (r : Response) (target : TypeExpr) : Except CallError Value :=
  if r.body.isEmpty then .ok .null
  else match target.schema? scope with
    | none => .error (.broken .noSchema)
    | some s =>
      let reading := match receivedJson? r.body with
        | none => Schema.issue .jsonInvalid
        | some j => s.read j
      match reading with
      | .ok a => .ok a.value
      | .error issues =>
        .error (.mismatch ("Response body does not match " ++ target.targetText scope) issues)

/-- The body as it came. -/
def rawBody (r : Response) : RawForm → Value
  | .text => .text r.text
  | .bytes => .bytes r.body
  | .stream => .stream r.body

end Response

end HttpContract
