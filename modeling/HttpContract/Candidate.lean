import HttpContract.Mark
import HttpContract.TypeReference

/-!
# Candidates

A type put forward as a contract, as it was declared: its shape, its service and the signatures of
its methods. Nothing is checked yet.
-/

namespace HttpContract

/-- A parameter of a method, with the marks of its annotation in order. -/
structure Parameter where
  name : String
  type : TypeReference
  marks : List Mark := []
  /-- The source of the default value. -/
  default : Option String := none
  keywordOnly : Bool := false
deriving Inhabited, Repr, BEq

/-- A method as it is read, before any rule is applied to it. -/
structure Signature where
  name : String
  returns : TypeReference
  parameters : List Parameter := []
  endpoint : Option Endpoint := none
  returnMarks : List Mark := []
deriving Inhabited, Repr, BEq

/-- A class that may be a contract: what the checks look at, and its methods. -/
structure Candidate where
  module : String
  qualname : String
  isInterface : Bool
  isPublic : Bool
  genericArity : Int := 0
  service : Option ServiceMark := none
  methods : List Signature := []
deriving Inhabited, Repr, BEq

namespace Candidate

/-- The dotted name by which reports refer to the class. -/
def fullName (c : Candidate) : String := c.module ++ "." ++ c.qualname

end Candidate

end HttpContract
