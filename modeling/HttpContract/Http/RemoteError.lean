import HttpContract.Value.Display

/-!
# Service errors

What a caller sees of a remote call that went wrong: a message, the id of the request, and details
in order. `text` is the line that shows all three.
-/

namespace HttpContract

/-- Which statuses an error stands for. -/
inductive StatusKind
  | any
  | client
  | server
deriving DecidableEq, Repr, Inhabited

/-- The errors of a service, as callers see them. -/
inductive RemoteError
  | general (message : String) (requestId : Option String) (details : List (String × Value))
  | connection (message : String) (requestId : Option String) (details : List (String × Value))
  | status (kind : StatusKind) (message : String) (code : Option Int) (requestId : Option String)
      (details : List (String × Value))
  | timeout (message : String) (seconds : Option Value) (requestId : Option String)
  | header (name target value : String)
deriving Repr, Inhabited

namespace RemoteError

/-- What an error says of attempts that all took too long. -/
def timeoutMessage : String := "Request timed out"

/-- What the error says, without the id. -/
def message : RemoteError → String
  | general m _ _ | connection m _ _ | status _ m _ _ _ | timeout m _ _ => m
  | header name target _ => "Cannot convert header '" ++ name ++ "' to " ++ target

/-- The id that the error carries, if it can carry one. -/
def requestId : RemoteError → Option String
  | general _ r _ | connection _ r _ | status _ _ _ r _ | timeout _ _ r => r
  | header .. => none

/-- The details with the status or the duration among them. -/
def context : RemoteError → List (String × Value)
  | general _ _ d | connection _ _ d => d
  | status _ _ code _ d =>
    match code with
    | some c => if c = 0 then d else Entries.insert d "status_code" (.int c)
    | none => d
  | timeout _ seconds _ => (seconds.map fun s => ("timeout_seconds", s)).toList
  | header _ _ value => [("value", .text value)]

/-- The text of the error: its message, and the id if there is one. -/
def text (e : RemoteError) : String :=
  let id := match e.requestId with
    | some r => if r = "" then "" else " | request_id=" ++ r
    | none => ""
  let details := e.context.map fun d => d.1 ++ "=" ++ d.2.display
  e.message ++ id ++
    (if details.isEmpty then "" else " | context=(" ++ String.intercalate ", " details ++ ")")

end RemoteError

end HttpContract
