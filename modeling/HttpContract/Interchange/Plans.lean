import HttpContract.ClientSource
import HttpContract.Interchange.Contracts

/-!
# Documents of plans
-/

namespace HttpContract.Interchange

/-- A step with the fields of its kind. -/
def encodeStep (s : Step) : Json :=
  let fields : List (String × Json) := match s with
    | .bindPath bs | .bindQuery bs => [("bindings", encodePairs bs)]
    | .construct verb path => [("verb", .string verb), ("path", .string path)]
    | .attachHeader h p | .attachContentHeader h p =>
      [("header", .string h), ("parameter", .string p)]
    | .attachBody p f c =>
      [("parameter", .string p), ("format", encodeFormat f), ("content_type", jstr c)]
    | .invoke mode => [("mode", .string mode.name)]
    | .extractHeader h p t =>
      [("header", .string h), ("parameter", .string p), ("value_type", encodeTypeReference t)]
    | .returnBody t f => [("source", .string "body"), ("return_type", encodeTypeReference t),
        ("header", .null), ("body_format", encodeFormat f)]
    | .returnHeader t h => [("source", .string "response-header"),
        ("return_type", encodeTypeReference t), ("header", jstr h), ("body_format", .null)]
  obj (("kind", .string s.kind) :: fields)

def encodePlan (p : CallPlan) : Json :=
  obj [("method", .string p.method), ("steps", jlist encodeStep p.steps),
    ("kinds", jstrs (p.steps.map Step.kind))]

/-- A step, which is told by the name of its kind. -/
def decodeStep (j : Json) : Decode Step := do
  match ← str j "kind" with
  | "bind-path-variables" => pure (.bindPath (← pairs j "bindings"))
  | "bind-query-params" => pure (.bindQuery (← pairs j "bindings"))
  | "construct-request" => pure (.construct (← str j "verb") (← str j "path"))
  | "attach-request-header" => pure (.attachHeader (← str j "header") (← str j "parameter"))
  | "attach-body" =>
    pure (.attachBody (← str j "parameter") (← formatOpt j "format") (← strOpt j "content_type"))
  | "attach-content-header" => pure (.attachContentHeader (← str j "header") (← str j "parameter"))
  | "invoke" => pure (.invoke (← decodeCompletion (← str j "mode")))
  | "extract-response-header" =>
    pure (.extractHeader (← str j "header") (← str j "parameter")
      (← decodeTypeReference (← field j "value_type")))
  | "materialize-return" =>
    let type ← referenceField j "return_type"
    if (← str j "source") = "response-header" then pure (.returnHeader type (← strOpt j "header"))
    else pure (.returnBody type (← formatOpt j "body_format"))
  | k => throw s!"step {k}"

def decodePlan (j : Json) : Decode CallPlan := do
  pure ⟨← str j "method", ← (← listD j "steps").mapM decodeStep⟩

/-- The options of a source. -/
def decodeOptions (j : Json) : Decode SourceOptions := do
  match present j "options" with
  | none => pure {}
  | some o => pure {
      indent := ← strD o "indent" "    ",
      rootNamespace := ← strD o "root_namespace" "declient.generated",
      isSealed := ← boolD o "sealed" false }

end HttpContract.Interchange
