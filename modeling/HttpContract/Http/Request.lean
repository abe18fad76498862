import HttpContract.Diagnostic
import HttpContract.PathTemplate
import HttpContract.Text.Percent
import HttpContract.Value.Encoding

/-!
# Requests

A request names its service and has no address yet. Path values are encoded as one segment each, the
route of the contract goes in front, and arguments that are none leave the query.
-/

namespace HttpContract

/-- An encoded body and the headers that describe it. -/
structure Content where
  body : Bytes
  headers : List (String × String)
deriving Repr, Inhabited, BEq

/-- A query argument; a list is sent as one pair per item. -/
inductive QueryValue
  | one (v : Value)
  | many (vs : List Value)
deriving Repr, Inhabited, BEq

/-- A request before it is sent. -/
structure Request where
  method : String
  service : String
  path : String
  params : List (String × QueryValue) := []
  headers : List (String × String) := []
  content : Option Content := none
deriving Repr, Inhabited

/-- The service that a client is bound to, and the route without slashes around it. -/
structure Binder where
  service : String
  route : String
deriving Repr, Inhabited, DecidableEq

/-- The text of a plain value in a query: nothing is empty, and truth values are in lower case. -/
def Value.queryText : Value → String
  | .null => ""
  | .bool b => if b then "true" else "false"
  | v => v.display

namespace Value.EncodeError

/-- The error of a conversion to plain text. -/
def textBreakdown : Value.EncodeError → Breakdown
  | .malformedBytes => .unreadableText
  | .foreignObject => .notSerializable

end Value.EncodeError

/-- The text of a value in a path, a query or a header. -/
def valueText (v : Value) : Except Breakdown String :=
  v.wireText.mapError Value.EncodeError.textBreakdown

/-- A query argument in text form. -/
def formatQuery : Value → Except Breakdown QueryValue
  | .list vs | .tuple vs => do
    let ts ← vs.mapM valueText
    pure (.many (ts.map Value.text))
  | v => (valueText v).map fun t => .one (.text t)

namespace Binder

/-- What a client of this service and route puts around its requests. -/
def of (service route : String) : Binder := ⟨service, Text.trimSlashes route⟩

/-- The path of a request: the route and the expanded template, joined by a slash. -/
def join (b : Binder) (expanded : String) : String :=
  "/" ++ String.intercalate "/" ([b.route, Text.trimSlashes expanded].filter (· != ""))

/-- The values of the tokens that a template has, encoded; the tokens come in order. -/
def segments (path : String) (filled : List (String × Value)) :
    Except Breakdown (List (String × String)) :=
  let values := (PathTemplate.tokens path).filterMap fun t =>
    (filled.find? (·.1 == t)).map fun v => (t, v.2)
  values.mapM fun v => do
    let t ← valueText v.2
    pure (v.1, Percent.segment t)

/-- The query arguments in text form, without those that are none. -/
def query (params : List (String × Value)) : Except Breakdown (List (String × QueryValue)) :=
  (params.filter (!·.2.isNull)).mapM fun p => do
    let q ← formatQuery p.2
    pure (p.1, q)

/-- Makes a request: the values fill the path, which goes below the route. -/
def request (b : Binder) (method path : String) (filled params : List (String × Value)) :
    Except Breakdown Request := do
  let values ← segments path filled
  let expanded := PathTemplate.expand path fun t => (values.find? (·.1 == t)).map (·.2)
  let params ← query params
  pure { method, service := b.service, path := b.join expanded, params }

end Binder

/-- The header that says what a body is. -/
def contentTypeHeader : String := "Content-Type"

namespace Content

/-- A body with the content type given, or the default one. -/
def typed (body : Bytes) (contentType : Option String) (default : String) : Content :=
  ⟨body, [(contentTypeHeader, (Location.given contentType).getD default)]⟩

/-- A value as a JSON body. -/
def json (v : Value) (contentType : Option String) : Except Breakdown Content :=
  match v.jsonBytes with
  | .ok body => .ok (typed body contentType "application/json")
  | .error _ => .error .notSerializable

def textType : String := "text/plain; charset=utf-8"
def binaryType : String := "application/octet-stream"

/-- Text, bytes or what is left of a stream as a body. -/
def raw (v : Value) (contentType : Option String) : Except Breakdown Content :=
  match v with
  | .text s => .ok (typed (Utf8.encode s) contentType textType)
  | .member _ .text _ (.text s) => .ok (typed (Utf8.encode s) contentType textType)
  | .bytes bs | .byteArray bs | .stream bs => .ok (typed bs contentType binaryType)
  | .textStream s => .ok (typed (Utf8.encode s) contentType binaryType)
  | .null => .ok (typed [] contentType binaryType)
  | _ => .error .missingAttribute

end Content

end HttpContract
