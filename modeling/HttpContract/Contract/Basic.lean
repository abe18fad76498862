import HttpContract.Candidate

/-!
# Contracts

A contract whose methods are understood: every parameter is a `Binding` with one role, and every
method an `Operation` with its verb, path and return slot.
-/

namespace HttpContract

/-- Whether callers get the result itself or something to await. -/
inductive Completion
  | sync
  | async
deriving DecidableEq, Repr, Inhabited

namespace Completion

/-- The name of the completion in outputs. -/
def name : Completion → String
  | sync => "sync"
  | async => "async"

end Completion

/-- How a method completes and what it then yields. -/
structure Shape where
  completion : Completion
  returns : TypeReference
  isVoid : Bool
deriving Repr, Inhabited

/-- A parameter with its role. The key is a path token, a query name or a header name; the value
type is what a response header is converted to, and the declared type for every other role. -/
structure Binding where
  name : String
  type : TypeReference
  role : Role
  key : String
  valueType : TypeReference
  bodyEncoding : Option BodyEncoding := none
  contentType : Option String := none
  default : Option String := none
  keywordOnly : Bool := false
deriving Repr, Inhabited, BEq

/-- Where the result of a method comes from. -/
inductive ResultPlace
  | body (format : Option BodyEncoding) (contentType : Option String)
  | header (name : Option String)
deriving Repr, Inhabited, DecidableEq

/-- A method whose parameters all have their roles. -/
structure Operation where
  name : String
  verb : String
  path : String
  completion : Completion
  returns : TypeReference
  isVoid : Bool
  parameters : List Binding := []
  /-- Header names with the parameters that fill them. -/
  requestHeaders : List (String × String) := []
  contentHeaders : List (String × String) := []
  /-- The name of the parameter that is sent as the body. -/
  body : Option String := none
  resultPlace : Option ResultPlace := none
deriving Repr, Inhabited

namespace Operation

/-- Whether callers await the result. -/
def isAsync (o : Operation) : Bool := o.completion == .async

/-- The parameters of one role, in order. -/
def withRole (o : Operation) (r : Role) : List Binding := o.parameters.filter (·.role == r)

/-- The parameter of this name. -/
def parameter? (o : Operation) (name : String) : Option Binding :=
  o.parameters.find? (·.name == name)

end Operation

/-- A class that passed all checks: what its client is generated from. -/
structure Contract where
  module : String
  qualname : String
  serviceName : String
  baseRoute : String
  operations : List Operation := []
deriving Repr, Inhabited

namespace Contract

/-- The dotted name of the class. -/
def fullName (c : Contract) : String := c.module ++ "." ++ c.qualname

end Contract

end HttpContract
