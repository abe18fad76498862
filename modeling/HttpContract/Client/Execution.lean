import HttpContract.Client.Arguments
import HttpContract.Http.Sender
import HttpContract.Plan

/-!
# Execution

What a plan does with the values of its parameters. The steps up to the sending build one request,
the request goes out once, and the steps behind it fill holders in order and give the result back. A
step that fails ends the call; holders keep what they have by then.
-/

namespace HttpContract

/-- The functions of a client that the bodies of its methods call. -/
inductive Primitive
  | buildRequest
  | valueText
  | encodeJson
  | encodeRaw
  | invoke
  | invokeAsync
  | readHeader
  | decodeJson
  | decodeRaw
deriving DecidableEq, Repr, Inhabited

namespace Primitive

/-- The name of the primitive in sources. -/
def name : Primitive → String
  | buildRequest => "create_request"
  | valueText => "format_value"
  | encodeJson => "json_content"
  | encodeRaw => "raw_content"
  | invoke => "invoke"
  | invokeAsync => "invoke_async"
  | readHeader => "get_header_value"
  | decodeJson => "read_json"
  | decodeRaw => "read_raw"

/-- All primitives that bodies call. -/
def all : List Primitive :=
  [buildRequest, valueText, encodeJson, encodeRaw, invoke, invokeAsync, readHeader,
   decodeJson, decodeRaw]

/-- The function that sends in a mode. -/
def sending : Completion → Primitive
  | .sync => invoke
  | .async => invokeAsync

end Primitive

/-- What keeps a body from a function that it calls with a number of arguments. -/
abbrev Obstacles := Primitive → Nat → Option Breakdown

namespace Obstacles

/-- Nothing stands in the way. -/
def none : Obstacles := fun _ _ => Option.none

/-- Goes on if nothing stands in the way of a primitive with so many arguments. -/
def pass (o : Obstacles) (p : Primitive) (arguments : Nat) : Except Breakdown Unit :=
  Option.elim (o p arguments) (.ok ()) .error

end Obstacles

/-- What a body finds around it. -/
structure CallContext where
  scope : Scope
  binder : Binder
  obstacles : Obstacles := .none

/-- What has been built of a request. -/
structure Draft where
  /-- The values of path tokens. -/
  tokens : List (String × Value) := []
  params : List (String × Value) := []
  request : Option Request := none
deriving Repr, Inhabited

namespace Draft

/-- Changes the request, if it has been made. -/
def mapRequest (d : Draft) (f : Request → Request) : Draft := { d with request := d.request.map f }

/-- Sets a header of the request. -/
def withHeader (d : Draft) (name text : String) : Draft :=
  d.mapRequest fun r => { r with headers := Entries.insert r.headers name text }

/-- Attaches a body. -/
def withContent (d : Draft) (c : Content) : Draft :=
  d.mapRequest fun r => { r with content := some c }

/-- Sets a header of the body, if there is one. -/
def withContentHeader (d : Draft) (name text : String) : Draft :=
  d.mapRequest fun r => { r with
    content := r.content.map fun c => { c with headers := Entries.insert c.headers name text } }

end Draft

namespace Frame

/-- The values of parameters under the keys they are bound to. -/
def values (frame : Frame) (bindings : List (String × String)) :
    Except Breakdown (List (String × Value)) :=
  bindings.mapM fun b => (frame.value b.2).map (b.1, ·)

end Frame

namespace Value

/-- A holder with a value in it. Of other things, some take what they do not show. -/
def hold (holder v : Value) : Except Breakdown Value :=
  match holder with
  | .out _ => .ok (.out v)
  | .foreign _ | .stream _ | .textStream _ => .ok holder
  | .record _ .dataclass _ => .ok holder
  | .record cls .model fields =>
    if fields.any (·.1 == "value") then .ok (.record cls .model (Entries.insert fields "value" v))
    else .error .badValue
  | .uuid _ => .error .wrongType
  | _ => .error .missingAttribute

end Value

namespace TypeReference

/-- The type that a reference evaluates to. -/
def target (t : TypeReference) : TypeExpr := (TypeExpr.ofRef t).normal

end TypeReference

namespace Step

/-- The text of an argument; nothing for an argument that is none. -/
def headerText (x : CallContext) (frame : Frame) (parameter : String) :
    Except Breakdown (Option String) := do
  match ← frame.value parameter with
  | .null => pure none
  | v =>
    x.obstacles.pass .valueText 1
    some <$> valueText v

/-- The body that an argument is sent as. -/
def encodeBody (x : CallContext) (format : Option BodyEncoding) (contentType : Option String)
    (v : Value) : Except Breakdown Content := do
  let contentType := Location.given contentType
  let arguments := 1 + contentType.toList.length
  if format = some .raw then
    x.obstacles.pass .encodeRaw arguments
    Content.raw v contentType
  else
    x.obstacles.pass .encodeJson arguments
    Content.json v contentType

/-- What a step adds to the request. -/
def build (x : CallContext) (frame : Frame) (d : Draft) : Step → Except Breakdown Draft
  | .bindPath bs => do pure { d with tokens := ← frame.values bs }
  | .bindQuery bs => do pure { d with params := ← frame.values bs }
  | .construct verb path => do
    x.obstacles.pass .buildRequest 4
    let r ← x.binder.request verb path d.tokens d.params
    pure { d with request := some r }
  | .attachHeader header p => do
    let text ← headerText x frame p
    pure (Option.elim text d (d.withHeader header))
  | .attachBody p format contentType => do
    let c ← encodeBody x format contentType (← frame.value p)
    pure (d.withContent c)
  | .attachContentHeader header p => do
    let text ← headerText x frame p
    pure (Option.elim text d (d.withContentHeader header))
  | _ => .ok d

/-- What a step takes from the response: the frame with a holder filled, or the result. -/
def receive (x : CallContext) (response : Response) (frame : Frame) :
    Step → Except CallError (Frame × Option Value)
  | .extractHeader header p type => do
    match ← (frame.value p).mapError CallError.broken with
    | .null => pure (frame, none)
    | holder =>
      (x.obstacles.pass .readHeader 3).mapError CallError.broken
      let v ← response.headerAs x.scope header type.target
      let filled ← (holder.hold v).mapError CallError.broken
      pure (frame.set p filled, none)
  | .returnHeader type header => do
    (x.obstacles.pass .readHeader 3).mapError CallError.broken
    let v ← response.headerAs x.scope (header.getD "") type.target
    pure (frame, some v)
  | .returnBody type format => do
    if format = some .raw then
      (x.obstacles.pass .decodeRaw 2).mapError CallError.broken
      pure (frame, some (response.rawBody (type.rawForm.getD .bytes)))
    else
      (x.obstacles.pass .decodeJson 2).mapError CallError.broken
      let v ← response.bodyAs x.scope type.target
      pure (frame, some v)
  | _ => .ok (frame, none)

end Step

/-- What the steps behind the sending make of a response, and the frame they leave. -/
def receiveAll (x : CallContext) (response : Response) :
    List Step → Frame → Except CallError Value × Frame
  | [], frame => (.ok .null, frame)
  | step :: rest, frame =>
    match step.receive x response frame with
    | .error e => (.error e, frame)
    | .ok (frame, some v) => (.ok v, frame)
    | .ok (frame, none) => receiveAll x response rest frame

/-- Runs steps with a way to send. -/
def runSteps {σ : Type} (x : CallContext)
    (send : Completion → Request → σ → Except CallError Response × σ) :
    List Step → Draft → Frame → σ → Except CallError Value × Frame × σ
  | [], _, frame, s => (.ok .null, frame, s)
  | .invoke mode :: rest, draft, frame, s =>
    match draft.request, x.obstacles.pass (.sending mode) 1 with
    | none, _ => (.error (.broken .unknownName), frame, s)
    | some _, .error b => (.error (.broken b), frame, s)
    | some r, .ok () =>
      match send mode r s with
      | (.error e, s) => (.error e, frame, s)
      | (.ok response, s) =>
        let (result, frame) := receiveAll x response rest frame
        (result, frame, s)
  | step :: rest, draft, frame, s =>
    match step.build x frame draft with
    | .error b => (.error (.broken b), frame, s)
    | .ok draft => runSteps x send rest draft frame s

namespace CallPlan

/-- Runs a plan on the values of its parameters. -/
def run {σ : Type} (p : CallPlan) (x : CallContext)
    (send : Completion → Request → σ → Except CallError Response × σ) (frame : Frame) (s : σ) :
    Except CallError Value × Frame × σ :=
  runSteps x send p.steps {} frame s

end CallPlan

end HttpContract
