import HttpContract.Mark
import HttpContract.TypeReference

/-!
# Diagnostics

Why a contract is refused. A `Fault` is the cause together with what its message names; a
`Diagnostic` is the finished report, and `Diagnostic.format` the line shown to the user. Log records tell
what the library does.
-/

namespace HttpContract

/-- The part of a report that says where. -/
structure Location where
  contract : Option String
  member : Option String

namespace Location

/-- An absent and an empty text count alike. -/
def given (s : Option String) : Option String := s.filter (· != "")

/-- The place as a report shows it; an empty name counts as none. -/
def describe (l : Location) : String :=
  match given l.contract, given l.member with
  | some c, some m => c ++ "." ++ m
  | some c, none => c
  | none, _ => "unknown location"

end Location

/-- The kinds of error that a report can be of. -/
inductive DiagnosticKind
  | general
  | ineligible
  | rejected
deriving DecidableEq, Repr, Inhabited

namespace DiagnosticKind

/-- The code that a kind has of its own. -/
def code : DiagnosticKind → Option String
  | general => none
  | ineligible => some "DCL001"
  | rejected => some "DCL002"

end DiagnosticKind

/-- A report on a contract: what is wrong, where, and what to do about it. -/
structure Diagnostic where
  kind : DiagnosticKind
  message : String
  contract : Option String := none
  member : Option String := none
  code : Option String := kind.code
  hint : Option String := none
  constraint : Option String := none
deriving Repr, Inhabited

namespace Diagnostic

/-- Where the report says that the problem is. -/
def location (d : Diagnostic) : Location := ⟨d.contract, d.member⟩

/-- The message, then place and code in parentheses, then the hint. -/
def format (d : Diagnostic) : String :=
  let place := (Location.given d.contract).map fun _ => d.location.describe
  let details := [place, Location.given d.code].filterMap id
  let text :=
    if details.isEmpty then d.message
    else d.message ++ " (" ++ String.intercalate "; " details ++ ")"
  match Location.given d.hint with
  | some hint => text ++ " Hint: " ++ hint
  | none => text

end Diagnostic

/-- What a type must be to be a contract. -/
inductive Constraint
  | interface
  | isPublic
  | nonGeneric
  | client
deriving DecidableEq, Repr, Inhabited

namespace Constraint

/-- The name of the constraint in outputs. -/
def name : Constraint → String
  | interface => "interface"
  | isPublic => "public"
  | nonGeneric => "non-generic"
  | client => "client-annotation"

/-- What a report says of a class that violates the constraint. -/
def message (contract : String) : Constraint → String
  | interface | isPublic => contract ++ " must be a public interface"
  | nonGeneric => "Generic interfaces are not supported: " ++ contract
  | client => contract ++ " is missing its service declaration"

/-- What can be done about a violation, where that is known. -/
def hint : Constraint → Option String
  | interface => some "Derive the contract from typing.Protocol or abc.ABC"
  | isPublic => some "Define the contract at module level under a name without a leading underscore"
  | nonGeneric => none
  | client => some "Decorate the contract with @faux_client(\"service-name\")"

end Constraint

/-- The bindings whose keys must differ. -/
inductive BindingKind
  | pathVariable
  | queryParameter
  | header
deriving DecidableEq, Repr, Inhabited

namespace BindingKind

/-- What messages call a binding of this kind. -/
def name : BindingKind → String
  | pathVariable => "Path variable"
  | queryParameter => "Query parameter"
  | header => "Header"

end BindingKind

/-- Why a method or a type is rejected. -/
inductive Fault
  | noVerb (method : String)
  | reservedName (parameter : String)
  | conflictingRoles (parameter : String) (roles : List Role)
  | unknownToken (key path : String)
  | boundTwice (kind : BindingKind) (key first second : String)
  | secondBody (first second : String)
  | shadowedName (parameter : String)
  | unboundTokens (tokens : List String)
  | notRaw (type : TypeReference)
  | notHolder (parameter : String)
  | returnInBothPlaces
  | returnMarkedTwice
  | returnHeaderUnnamed
  | noPlan (methods : List String)
  | unresolvedTypes (method reason : String)
  | variadicParameter (parameter : String)
  | defaultNoLiteral (parameter typeName : String)
  | defaultNotFinite (parameter shown : String)
  | typeVariable (shown : String)
  | unsupportedType (shown : String)
deriving Repr, Inhabited

/-- The start of the names that generated bodies use for themselves. -/
def reservedStart : String := "_dc_"

namespace Fault

/-- What a report says of the fault. -/
def message : Fault → String
  | noVerb m => s!"Method {m} has no HTTP method"
  | reservedName p => "Parameter name '" ++ p ++ "' uses the reserved prefix " ++ reservedStart
  | conflictingRoles p roles =>
    "Parameter '" ++ p ++ "' has conflicting roles [" ++
      String.intercalate ", " (roles.map Role.markName) ++ "]"
  | unknownToken key path => "Path variable '" ++ key ++ "' does not appear in '" ++ path ++ "'"
  | boundTwice kind key first second =>
    kind.name ++ " '" ++ key ++ "' is bound by both '" ++ first ++ "' and '" ++ second ++ "'"
  | secondBody first second =>
    "Only one body parameter is allowed, found '" ++ first ++ "' and '" ++ second ++ "'"
  | shadowedName p =>
    "Parameter '" ++ p ++ "' shadows the name '" ++ p ++ "' used by the generated client"
  | unboundTokens tokens =>
    "Path tokens without a PathValue parameter: " ++ String.intercalate ", " tokens
  | notRaw type => "Raw body must be str, bytes or a binary stream, not " ++ type.render
  | notHolder p => "Response header parameter '" ++ p ++ "' must be declared as Out[T]"
  | returnInBothPlaces =>
    "Cannot have different types of response attributes.  You had [Body, ResponseHeader]"
  | returnMarkedTwice => "The return slot can carry only one response attribute"
  | returnHeaderUnnamed => "ResponseHeader on the return slot needs a header name"
  | noPlan methods => "No request plan for " ++ String.intercalate ", " methods
  | unresolvedTypes m reason => s!"Cannot resolve annotations of {m}: {reason}"
  | variadicParameter p => "Variadic parameter '" ++ p ++ "' cannot be bound to a request"
  | defaultNoLiteral p typeName => "Default of '" ++ p ++ "' must be a literal, got " ++ typeName
  | defaultNotFinite p shown => "Default of '" ++ p ++ "' must be a finite number, got " ++ shown
  | typeVariable shown => s!"Type variable {shown} is not supported"
  | unsupportedType shown => s!"Unsupported annotation {shown}"

/-- What can be done about the fault, where that is known. -/
def hint : Fault → Option String
  | noVerb _ => some "Decorate it with @get, @post, @put, @patch, @delete or @http_method"
  | _ => none

end Fault

/-- An error that is no report of this library: a promise of the caller that was not kept, input
that a reader refuses, or a transport that fails. -/
inductive Breakdown
  | malformedSource
  | missingAttribute
  | missingKey
  | wrongType
  | unknownName
  | missingModule
  | badValue
  | endlessRecursion
  | unreadableText
  | unwritableText
  | notSerializable
  | malformedJson
  | malformedToml
  | badSettings
  | isDirectory
  | invalidUrl
  | closedClient
  | readFailed
  | protocolViolated
  | noSchema
deriving DecidableEq, Repr, Inhabited

/-- How the way from a subject to its client can fail: by a report, or by an error that is none. -/
inductive Failure
  | ineligible (constraint : Constraint) (contract : String)
  | rejected (fault : Fault) (contract : String) (member : Option String)
  | broken (breakdown : Breakdown)
deriving Repr, Inhabited

namespace Failure

/-- The report of a failure, if it is one about the contract. -/
def diagnostic? : Failure → Option Diagnostic
  | ineligible c contract => some {
      kind := .ineligible, message := c.message contract, contract := some contract,
      hint := c.hint, constraint := some c.name }
  | rejected f contract member => some {
      kind := .rejected, message := f.message, contract := some contract, member,
      hint := f.hint }
  | broken _ => none

end Failure

/-! ## Log records -/

/-- The levels that records are logged at. -/
inductive LogLevel
  | debug
  | info
  | warning
deriving DecidableEq, Repr, Inhabited

namespace LogLevel

/-- The name of the level in outputs. -/
def name : LogLevel → String
  | debug => "DEBUG"
  | info => "INFO"
  | warning => "WARNING"

end LogLevel

/-- One record of a log. -/
structure LogRecord where
  level : LogLevel
  logger : String
  message : String
deriving DecidableEq, Repr, Inhabited

namespace LogRecord

/-- The line that shows a record. -/
def line (r : LogRecord) : String := s!"{r.level.name} {r.logger}: {r.message}"

end LogRecord

end HttpContract
