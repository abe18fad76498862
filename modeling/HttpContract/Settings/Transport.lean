import HttpContract.Files.FileTree
import HttpContract.Settings.DotEnv
import HttpContract.Settings.Layer

/-!
# Transport settings

How clients reach services: where each is, how long to wait, how often to try again. Settings come
from explicit arguments, the environment and a file of variables, in this order; the tables of
services of all three are joined.
-/

namespace HttpContract

/-- The settings of the clients, with their defaults. -/
structure TransportSettings where
  /-- Base addresses of services by name. -/
  services : List (String × String) := []
  /-- The scheme of services without an address. -/
  defaultScheme : String := "http"
  /-- Seconds until a request is given up. -/
  timeout : Binary64 := .ofNat 30
  connectTimeout : Binary64 := .ofNat 5
  /-- How often a request is sent again after a timeout or a failed connection. -/
  maxRetries : Nat := 0
  backoffFactor : Binary64 := .ofRatio false 1 2
  backoffMax : Binary64 := .ofNat 10
  verifyCertificates : Bool := true
  userAgent : String := "declient-sdk-python/0.1.0"
deriving DecidableEq, Repr, Inhabited

namespace TransportSettings

/-- What the names of the variables begin with. -/
def variableStart : String := "DECLIENT_HTTP_"

/-- The file of variables below the environment. -/
def variableFile : PathName := ⟨"", [".env"]⟩

/-- The name of the setting that holds the addresses. -/
def servicesName : String := "services"

/-- The bounds of the settings. -/
def leastWait : Binary64 := .ofRatio false 1 10

/-- The most retries that may be asked for. -/
def mostRetries : Nat := 10

/-- Reads all settings, each from its value or as its default. -/
def read (value : String → Option Value) : Setting.Result TransportSettings := do
  let default : TransportSettings := {}
  let given {α : Type} (other : α) (name : String) (f : String → Value → Setting.Result α) :=
    ((value name).map (f name)).getD (.ok other)
  let ((services, scheme, timeout, connect), (retries, factor, most), (verify, agent)) ←
    Setting.both
      (Setting.both (given default.services servicesName Setting.textTable) <|
        Setting.both (given default.defaultScheme "default_scheme" Setting.text) <|
        Setting.both (given default.timeout "timeout" (Setting.number leastWait))
          (given default.connectTimeout "connect_timeout" (Setting.number leastWait))) <|
    Setting.both
      (Setting.both (given default.maxRetries "max_retries" (Setting.count mostRetries)) <|
        Setting.both
          (given default.backoffFactor "retry_backoff_factor" (Setting.number (.zero false)))
          (given default.backoffMax "retry_backoff_max" (Setting.number (.zero false))))
      (Setting.both (given default.verifyCertificates "verify_ssl" Setting.flag)
        (given default.userAgent "user_agent" Setting.text))
  pure ⟨services, scheme, timeout, connect, retries, factor, most, verify, agent⟩

/-- The value of a setting among variables; that of the services is JSON. -/
def fromVariable (vs : Variables) (name : String) : Except SettingsError (Option Value) :=
  match vs.find? variableStart name with
  | none => .ok none
  | some s =>
    if name = servicesName then
      match Json.read? .configured s with
      | none => .error .malformedVariable
      | some .null => .ok none
      | some j => .ok (some (.ofJson j))
    else .ok (some (.text s))

/-- Joins two values of a setting: two tables become one, of other values the upper one counts. -/
def join : (lower upper : Option Value) → Option Value
  | some (.dict below), some (.dict above) =>
    some (.dict (above.foldl (fun done e => Value.insertKey done e.1 e.2) below))
  | lower, upper => upper.or lower

/-- The settings of an environment and arguments, with the variables of the file beside them. -/
def load (tree : FileTree) (environment : List (String × String)) (arguments : Layer) :
    Except SettingsError TransportSettings := do
  let outer := Variables.ofEnvironment environment
  let inner : Variables ← match tree.read variableFile with
    | .ok content =>
      ((Utf8.decode? content).map (DotEnv.read environment)).elim (.error .malformedVariable) .ok
    | .error _ => .ok []
  let fromOuter ← fromVariable outer servicesName
  let fromInner ← fromVariable inner servicesName
  let value (name : String) : Option Value :=
    if name = servicesName then
      join (join fromInner fromOuter) (arguments.find? name)
    else
      (arguments.find? name).or
        (((outer.find? variableStart name).or (inner.find? variableStart name)).map Value.text)
  (read value).mapError .invalid

/-- The base address of a service: the one that is set, without slashes at its end, else the scheme
and the name. -/
def baseAddress (s : TransportSettings) (service : String) : String :=
  match Entries.get? s.services service with
  | some address =>
    if address = "" then s.defaultScheme ++ "://" ++ service
    else String.ofList (Text.trimEnd (· == '/') address.toList)
  | none => s.defaultScheme ++ "://" ++ service

/-- How long to wait after an attempt, counted from nought: twice as long each time, up to the
most. -/
def backoff (s : TransportSettings) (attempt : Int) : Binary64 :=
  let delay := s.backoffFactor.mul (.twoPow attempt)
  if s.backoffMax.lt delay then s.backoffMax else delay

end TransportSettings

end HttpContract
