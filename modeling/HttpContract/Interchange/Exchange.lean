import HttpContract.Diagnostic
import HttpContract.Http.Sender
import HttpContract.Interchange.Contracts

/-!
# Documents of requests and responses
-/

namespace HttpContract.Interchange

def encodeQuery : QueryValue → Json
  | .one v => encodeValue v
  | .many vs => jlist encodeValue vs

def encodeHeaders (hs : List (String × String)) : Json := obj (hs.map fun h => (h.1, .string h.2))

/-- A body, byte by byte, with its headers. -/
def encodeContent (c : Content) : Json :=
  obj [("body", .string (Hex.ofBytes c.body)), ("headers", encodeHeaders c.headers)]

/-- A request before it is sent. -/
def encodeRequest (r : Request) : Json :=
  obj [("method", .string r.method), ("service", .string r.service), ("path", .string r.path),
    ("params", jlist (fun p => .array [.string p.1, encodeQuery p.2]) r.params),
    ("headers", encodeHeaders r.headers), ("content", jopt encodeContent r.content)]

/-- Bytes that are given by their digits. -/
def hexField (j : Json) (k : String) : Decode Bytes := do
  match present j k with
  | none => pure []
  | some h =>
    match Hex.toBytes? (← asStr h) with
    | some bs => pure bs
    | none => throw "hex expected"

/-- Texts by name. -/
def textEntries (j : Json) (k : String) : Decode (List (String × String)) :=
  match present j k with
  | none => .ok []
  | some o => do (← asEntries o).mapM fun e => do pure (e.1, ← asStr e.2)

/-- A response; what is left out is as it is for an empty success. -/
def decodeResponse (j : Json) : Decode Response := do
  let status ← match present j "status" with
    | some s => asInt s
    | none => pure 200
  let body ← match present j "hex", present j "text" with
    | none, some t => pure (Utf8.encode (← asStr t))
    | _, _ => hexField j "hex"
  pure { status := status.toNat, headers := ← pairs j "headers", body }

/-- A list is sent as several values. -/
def queryOf : Value → QueryValue
  | .list vs | .tuple vs => .many vs
  | v => .one v

/-- A request that is to be sent. -/
def decodeRequest (scope : Scope) (j : Json) : Decode Request := do
  let params := (← valueEntries scope j "params").map fun p => (p.1, queryOf p.2)
  let content ← match present j "content" with
    | none => pure none
    | some c => do pure (some ⟨← hexField c "body", ← textEntries c "headers"⟩)
  pure {
    method := ← str j "method", service := ← str j "service", path := ← str j "path", params
    headers := ← textEntries j "headers", content }

/-- What becomes of an attempt. -/
def decodeOutcome (j : Json) : Decode Outcome := do
  match ← strOpt j "raise" with
  | none => .response <$> decodeResponse j
  | some "ConnectError" => pure .connectFailed
  | some "ReadError" => pure (.failed .readFailed)
  | some "RemoteProtocolError" => pure (.failed .protocolViolated)
  | some _ => pure .timeout

/-- What becomes of the attempts, in order. -/
def decodeScript (j : Json) : Decode (List Outcome) := do (← listD j "script").mapM decodeOutcome

/-- Headers that say nothing about the request itself. -/
def carriedHeaders : List String :=
  ["host", "accept", "accept-encoding", "connection", "content-length", "transfer-encoding"]

/-- A request as the transport got it, without the headers that only describe the connection. -/
def encodeSent (r : SentRequest) : Json :=
  let shown := (r.headers.filter fun h => !carriedHeaders.contains h.1).mergeSort fun a b =>
    a.1 < b.1 || (a.1 = b.1 && a.2 ≤ b.2)
  obj [("method", .string r.method), ("url", .string r.url.text),
    ("headers", jlist (fun h => jstrs [h.1, h.2]) shown), ("body", .string (Hex.ofBytes r.body))]

def encodePart : PathPart → Json
  | .key k => .string k
  | .index n => jnat n

/-- Problems with the places where they are. -/
def encodeIssues (is : List Issue) : Json :=
  jlist (fun i => .array [.string i.kind.name, jlist encodePart i.path]) is

/-- A record of a log. -/
def encodeRecord (r : LogRecord) : Json :=
  .array [.string r.level.name, .string r.logger, .string r.message]

end HttpContract.Interchange
