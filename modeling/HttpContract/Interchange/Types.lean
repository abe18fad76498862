import HttpContract.Interchange.Values
import HttpContract.TypeReference

/-!
# Documents of types and marks

Nothing is null, a type without import is its name, and any other reference an object.
-/

namespace HttpContract.Interchange

/-- The type reference of a document; the fuel is its depth. -/
def referenceOf (fuel : Nat) (j : Json) : Decode TypeReference :=
  match fuel with
  | 0 => .error "document too deep"
  | fuel + 1 =>
  match j with
  | .null => .ok .none
  | .string s => .ok (if s = "None" then .none else .builtin s)
  | .object [("literal", .string s)] => .ok (.ofLiteral s)
  | .object _ => do
    let rawForm ← match ← strOpt j "raw_kind" with
      | none => pure none
      | some "text" => pure (some RawForm.text)
      | some "bytes" => pure (some .bytes)
      | some "stream" => pure (some .stream)
      | some k => throw s!"raw kind {k}"
    pure {
      module := ← strD j "module" "", qualname := ← strD j "qualname" "",
      args := ← (← listD j "args").mapM (referenceOf fuel),
      awaitable := ← boolD j "awaitable" false, rawForm, literal := ← strOpt j "literal" }
  | _ => .error "type expected"

/-- A type that may be left out, which then is nothing. -/
def decodeTypeReference (j : Json) : Decode TypeReference := referenceOf (j.depth + 1) j

/-- A reference to a type; without one it is to nothing. -/
def referenceField (j : Json) (k : String) : Decode TypeReference :=
  decodeTypeReference ((j.field? k).getD .null)

mutual

/-- A reference to a type. -/
def encodeTypeReference : TypeReference → Json
  | ⟨module, qualname, args, awaitable, rawForm, literal⟩ =>
    obj [("module", .string module), ("qualname", .string qualname),
      ("args", .array (encodeTypeRefs args)), ("awaitable", .bool awaitable),
      ("raw_kind", jopt (fun k => .string k.name) rawForm), ("literal", jstr literal)]

def encodeTypeRefs : List TypeReference → List Json
  | [] => []
  | t :: ts => encodeTypeReference t :: encodeTypeRefs ts

end

/-- The encoding that a name stands for. -/
def decodeFormat : String → Decode BodyEncoding
  | "auto" => .ok .auto
  | "json" => .ok .json
  | "raw" => .ok .raw
  | f => .error s!"format {f}"

def formatOpt (j : Json) (k : String) : Decode (Option BodyEncoding) := do
  match ← strOpt j k with
  | some f => some <$> decodeFormat f
  | none => pure none

def encodeFormat (f : Option BodyEncoding) : Json := jopt (fun f => .string f.name) f

/-- A mark, or other metadata. -/
def decodeMark (value : Json → Decode Value) (j : Json) : Decode Mark := do
  let keyed (k : KeyedMark) : Decode Mark := do pure (.keyed k (← strOpt j "key"))
  match ← str j "mark" with
  | "PathValue" => keyed .path
  | "Query" => keyed .query
  | "RequestHeader" => keyed .requestHeader
  | "ContentHeader" => keyed .contentHeader
  | "ResponseHeader" => keyed .responseHeader
  | "ParameterMark" => keyed .bare
  | "Body" => pure (.body (← decodeFormat (← strD j "format" "auto")) (← strOpt j "content_type"))
  | "other" => pure (.other (← value (← field j "value")))
  | m => throw s!"mark {m}"

/-- A mark as it is given. -/
def encodeMark : Mark → Json
  | .keyed kind key => obj [("mark", .string kind.name), ("key", jstr key)]
  | .body f c =>
    obj [("mark", .string "Body"), ("format", .string f.name), ("content_type", jstr c)]
  | .other v => obj [("mark", .string "other"), ("value", encodeValue v)]

end HttpContract.Interchange
