import HttpContract.Contract.Basic
import HttpContract.Diagnostic
import HttpContract.Http.Reading
import HttpContract.Http.Request
import HttpContract.Http.Url
import HttpContract.Settings.Transport

/-!
# Senders

A sender hands requests to the addresses of their services. A timeout or a failed connection is
tried again as often as the settings allow, with a pause after each attempt; every other outcome
ends the call. The transport is a script of outcomes, and `Traffic` holds what has passed over it, in
order.
-/

namespace HttpContract

/-- What comes of a request that is handed to the transport. -/
inductive Outcome
  | response (r : Response)
  | timeout
  | connectFailed
  /-- Any other failure. -/
  | failed (b : Breakdown)
deriving Repr, Inhabited

/-- A request as it goes over the wire, header names in lower case. -/
structure SentRequest where
  method : String
  url : Url
  headers : List (String × String)
  body : Bytes
deriving Repr, Inhabited

/-- What passes over a transport. -/
inductive Event
  | sent (r : SentRequest)
  /-- A pause between attempts, in seconds. -/
  | paused (delay : Binary64)
deriving Repr, Inhabited

namespace Event

/-- The request that was sent. -/
def sent? : Event → Option SentRequest
  | sent r => some r
  | paused _ => none

/-- How long the pause was. -/
def paused? : Event → Option Binary64
  | sent _ => none
  | paused delay => some delay

end Event

/-- What passes over the transport of a sender, and what is noted of it. -/
structure Traffic where
  /-- The outcomes of the requests to come; the last one repeats. -/
  script : List Outcome := []
  /-- What has passed so far, in order. -/
  events : List Event := []
  log : List LogRecord := []
  /-- How many request ids were made. -/
  idsMade : Nat := 0
  /-- How many client classes were made. -/
  classesMade : Nat := 0
deriving Repr, Inhabited

namespace Traffic

/-- The requests that were sent, in order. -/
def sent (t : Traffic) : List SentRequest := t.events.filterMap Event.sent?

/-- The pauses that were made, in order. -/
def pauses (t : Traffic) : List Binary64 := t.events.filterMap Event.paused?

/-- The outcome of the next request, and the script after it; an empty script answers without
content. -/
def nextOutcome : List Outcome → Outcome × List Outcome
  | [] => (.response { status := 204 }, [])
  | [o] => (o, [o])
  | o :: rest => (o, rest)

/-- Hands a request to the transport. -/
def transmit (t : Traffic) (r : SentRequest) : Outcome × Traffic :=
  let (o, script) := nextOutcome t.script
  (o, { t with script, events := t.events ++ [.sent r] })

/-- Makes a request id. -/
def makeId (t : Traffic) : String × Traffic :=
  ((Uuid.ofNat (t.idsMade + 1)).write, { t with idsMade := t.idsMade + 1 })

/-- Writes a record to the log. -/
def record (t : Traffic) (r : LogRecord) : Traffic := { t with log := t.log ++ [r] }

/-- Waits for a number of seconds. -/
def pause (t : Traffic) (delay : Binary64) : Traffic :=
  { t with events := t.events ++ [.paused delay] }

end Traffic

/-- A sender: its settings, and whether its two channels are open. The asynchronous channel is made
when it is first needed. -/
structure HttpSender where
  settings : TransportSettings
  isClosed : Bool := false
  asyncClosed : Option Bool := none
deriving Repr, Inhabited

namespace HttpSender

/-- The logger that sending reports to. -/
def logger : String := "declient_sdk.client"

/-- The header that carries the id of a call. -/
def requestIdHeader : String := "X-Request-ID"
def userAgentHeader : String := "user-agent"

/-- A sender with the given settings; its user agent must be a header value. -/
def make (settings : TransportSettings) : Except Breakdown HttpSender :=
  if isAscii settings.userAgent then .ok { settings } else .error .unwritableText

/-- The text of the address of a request: the address of its service, then its path. -/
def addressOf (c : HttpSender) (r : Request) : String := c.settings.baseAddress r.service ++ r.path

/-- The id that a request brings along. -/
def ownId? (r : Request) : Option String := Location.given (Entries.get? r.headers requestIdHeader)

/-- The headers of a request with its id; those of the content replace others of the same
spelling. -/
def headersOf (r : Request) (id : String) : List (String × String) :=
  let own := Entries.insert r.headers requestIdHeader id
  ((r.content.map (·.headers)).getD []).foldl (fun hs h => Entries.insert hs h.1 h.2) own

/-- The headers as they are sent: the own agent goes unless the request names one. -/
def sentHeaders (c : HttpSender) (headers : List (String × String)) :
    Except Breakdown (List (String × String)) :=
  if headers.all fun h => isAscii h.1 && isAscii h.2 then
    let named := headers.map fun h => (String.ofList (h.1.toList.map Char.toLower), h.2)
    .ok (if named.any fun h => h.1 = userAgentHeader then named
      else (userAgentHeader, c.settings.userAgent) :: named)
  else .error .unwritableText

/-- The query pairs of a request; a list gives a pair for each item. -/
def queryPairs (params : List (String × QueryValue)) : List (String × String) :=
  params.flatMap fun p =>
    match p.2 with
    | .one v => [(p.1, v.queryText)]
    | .many vs => vs.map fun v => (p.1, v.queryText)

/-- A request as it is sent. -/
def outgoing (c : HttpSender) (r : Request) (id : String) : Except Breakdown SentRequest := do
  let address ← Option.elim ((Url.parse? (c.addressOf r)).bind Url.rooted?) (.error .invalidUrl) .ok
  let headers ← c.sentHeaders (headersOf r id)
  let query := if r.params.isEmpty then none else some (Percent.form (queryPairs r.params))
  let url ← Option.elim (address.withQuery? query) (.error .invalidUrl) .ok
  pure { method := Text.upper r.method, url, headers, body := (r.content.map (·.body)).getD [] }

/-- Why the place that a response redirects to is no address. One without a host is below the host of
the request, so its path must begin with a slash. -/
def redirectFault? (r : Response) : Option Breakdown :=
  if [301, 302, 303, 307, 308].contains r.status then
    (r.header? "location").bind fun place =>
      match Url.parse? place with
      | none => some .protocolViolated
      | some u =>
        if u.scheme != "" && u.host = "" && !Url.pathFits u.path true true then some .invalidUrl
        else none
  else none

/-- Why a response to an address is refused, whatever its status says: an address needs a scheme, and
a redirect a place to go to. -/
def refusal? (url : Url) (r : Response) : Option Breakdown :=
  if url.scheme = "" then some .badValue else redirectFault? r

/-- A response with a status of success as it is; the error that any other status stands for. -/
def checked (r : Response) (id : String) : Except RemoteError Response :=
  let text := r.text
  let message := if text = "" then s!"HTTP {r.status}" else text
  if 200 ≤ r.status ∧ r.status < 300 then .ok r
  else if 400 ≤ r.status ∧ r.status < 500 then
    .error (.status .client message (some r.status) (some id) [])
  else if 500 ≤ r.status ∧ r.status < 600 then
    .error (.status .server message (some r.status) (some id) [])
  else
    .error <|
      .status .client s!"Unexpected status {r.status}: {message}" (some r.status) (some id) []

/-- What comes of one attempt. -/
inductive Attempt
  | done (result : Except CallError Response)
  /-- The attempt may be made again; the error counts if it is the last one. -/
  | again (error : RemoteError)
deriving Repr

/-- What the last attempt comes to. -/
def Attempt.result : Attempt → Except CallError Response
  | .done result => result
  | .again e => .error (.service e)

/-- The result of an attempt that is done; otherwise what comes of the next ones. -/
def Attempt.orNext (next : Traffic → Except CallError Response × Traffic) :
    Attempt × Traffic → Except CallError Response × Traffic
  | (.done result, t) => (result, t)
  | (.again _, t) => next t

/-- What an outcome makes of an attempt. -/
def Attempt.ofOutcome (c : HttpSender) (r : Request) (id : String) (url : Url) : Outcome → Attempt
  | .response response =>
    match refusal? url response with
    | some b => .done (.error (.broken b))
    | none => .done ((checked response id).mapError .service)
  | .timeout =>
    .again (.timeout RemoteError.timeoutMessage (some (.float c.settings.timeout)) (some id))
  | .connectFailed => .again (.connection s!"Failed to connect to {c.addressOf r}" (some id) [])
  | .failed b => .done (.error (.broken b))

/-- Whether the channel of a mode is closed. -/
def isClosedFor (c : HttpSender) : Completion → Bool
  | .sync => c.isClosed
  | .async => c.asyncClosed.getD false

/-- Makes one attempt. -/
def attempt (c : HttpSender) (mode : Completion) (r : Request) (id : String) (t : Traffic) :
    Attempt × Traffic :=
  let line := s!"{r.method} {c.addressOf r} (request_id={id})"
  let t := t.record ⟨.debug, logger, line⟩
  match c.outgoing r id with
  | .error b => (.done (.error (.broken b)), t)
  | .ok out =>
    if c.isClosedFor mode then (.done (.error (.broken .closedClient)), t)
    else
      let (o, t) := t.transmit out
      (Attempt.ofOutcome c r id out.url o, t)

/-- Makes attempts until one is done or none is left, pausing after each; `number` counts them from
nought. -/
def attempts (c : HttpSender) (mode : Completion) (r : Request) (id : String) :
    (left number : Nat) → Traffic → Except CallError Response × Traffic
  | 0, _, t =>
    let (last, t) := c.attempt mode r id t
    (last.result, t)
  | left + 1, number, t =>
    Attempt.orNext (fun t =>
      attempts c mode r id left (number + 1) (t.pause (c.settings.backoff number)))
      (c.attempt mode r id t)

/-- The sender with the channel of a mode made. -/
def opened (c : HttpSender) : Completion → HttpSender
  | .sync => c
  | .async => { c with asyncClosed := some (c.asyncClosed.getD false) }

/-- Sends a request. -/
def send (c : HttpSender) (mode : Completion) (r : Request) (t : Traffic) :
    Except CallError Response × HttpSender × Traffic :=
  let c := c.opened mode
  let (id, t) := match ownId? r with
    | some id => (id, t)
    | none => t.makeId
  let (result, t) := c.attempts mode r id c.settings.maxRetries 0 t
  (result, c, t)

/-- The warning of a sender that is closed on one side only. -/
def openAsyncWarning : String := "HttpClient closed while its async client is open; use aclose()"

/-- Closes the synchronous channel; an asynchronous one that is open is only warned of. -/
def close (c : HttpSender) (t : Traffic) : HttpSender × Traffic :=
  ({ c with isClosed := true },
   if c.asyncClosed = some false then t.record ⟨.warning, logger, openAsyncWarning⟩ else t)

/-- Closes both channels. -/
def closeAll (c : HttpSender) (t : Traffic) : HttpSender × Traffic :=
  close { c with asyncClosed := c.asyncClosed.map fun _ => true } t

end HttpSender

end HttpContract
