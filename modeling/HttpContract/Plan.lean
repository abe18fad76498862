import HttpContract.Contract.Basic
import HttpContract.Diagnostic

/-!
# Request plans

What a call does, step by step: bind the path and the query, build the request, attach headers and
body, send it, read headers into holders and give the result back. Steps that would bind nothing are
left out, content headers need a body, and a method without result ends with the holders.
-/

namespace HttpContract

/-- A step of a method body. -/
inductive Step
  | bindPath (bindings : List (String × String))
  | bindQuery (bindings : List (String × String))
  | construct (verb path : String)
  | attachHeader (header parameter : String)
  | attachBody (parameter : String) (format : Option BodyEncoding) (contentType : Option String)
  | attachContentHeader (header parameter : String)
  | invoke (mode : Completion)
  | extractHeader (header parameter : String) (valueType : TypeReference)
  | returnBody (type : TypeReference) (format : Option BodyEncoding)
  | returnHeader (type : TypeReference) (header : Option String)
deriving Repr, Inhabited

namespace Step

/-- The name of the kind of step in outputs. -/
def kind : Step → String
  | bindPath _ => "bind-path-variables"
  | bindQuery _ => "bind-query-params"
  | construct .. => "construct-request"
  | attachHeader .. => "attach-request-header"
  | attachBody .. => "attach-body"
  | attachContentHeader .. => "attach-content-header"
  | invoke _ => "invoke"
  | extractHeader .. => "extract-response-header"
  | returnBody .. | returnHeader .. => "materialize-return"

end Step

/-- The steps of one method, in order. -/
structure CallPlan where
  method : String
  steps : List Step
deriving Repr, Inhabited

namespace Operation

/-- One step that binds all parameters of a role, or none. -/
def bindingSteps (o : Operation) (role : Role) (step : List (String × String) → Step) : List Step :=
  match o.withRole role with
  | [] => []
  | bs => [step (bs.map fun b => (b.key, b.name))]

/-- The body and the headers that describe it. -/
def bodySteps (o : Operation) : Except Failure (List Step) :=
  match o.body with
  | none => .ok []
  | some name =>
    match o.parameter? name with
    | none => .error (.broken .missingKey)
    | some b =>
      .ok (.attachBody b.name b.bodyEncoding b.contentType ::
        o.contentHeaders.map fun h => .attachContentHeader h.1 h.2)

/-- The step that yields the result, if the method has one. -/
def returnSteps (o : Operation) : Except Failure (List Step) :=
  if o.isVoid then .ok []
  else match o.resultPlace with
    | none => .error (.broken .missingAttribute)
    | some (.header name) => .ok [.returnHeader o.returns name]
    | some (.body format _) => .ok [.returnBody o.returns format]

/-- The plan of an operation: the mappings, the request, its body and headers, the sending, the
result. -/
def plan (o : Operation) : Except Failure CallPlan := do
  let body ← o.bodySteps
  let returns ← o.returnSteps
  pure ⟨o.name,
    o.bindingSteps .pathVariable .bindPath ++
    o.bindingSteps .queryParameter .bindQuery ++
    [.construct o.verb o.path] ++
    (o.requestHeaders.map fun h => .attachHeader h.1 h.2) ++
    body ++
    [.invoke o.completion] ++
    ((o.withRole .responseHeader).map fun b => .extractHeader b.key b.name b.valueType) ++
    returns⟩

end Operation

namespace Contract

/-- The plans of the operations of a contract, in order. -/
def plans (c : Contract) : Except Failure (List CallPlan) := c.operations.mapM Operation.plan

end Contract

end HttpContract
