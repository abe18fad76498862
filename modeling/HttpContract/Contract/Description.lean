import HttpContract.Contract.Roles

/-!
# From candidates to contracts

Which candidates may be contracts: public interfaces without type parameters that name their service. The
first condition that does not hold, in that order, is the one reported. An eligible candidate becomes a
contract when each of its methods becomes an operation; otherwise the first method that does not is
reported.
-/

namespace HttpContract

namespace Candidate

/-- The first constraint that a candidate violates. -/
def violation? (c : Candidate) : Option Constraint :=
  if !c.isInterface then some .interface
  else if !c.isPublic then some .isPublic
  else if c.genericArity ≠ 0 then some .nonGeneric
  else if c.service.isNone then some .client
  else none

/-- The service of an eligible candidate. -/
def eligible (c : Candidate) : Except Failure ServiceMark :=
  match c.violation?, c.service with
  | some v, _ => .error (.ineligible v c.fullName)
  | none, some s => .ok s
  | none, none => .error (.ineligible .client c.fullName)

end Candidate

/-- The contract of a candidate: first the class is checked, then one method after the other. -/
def Contract.ofCandidate (c : Candidate) : Except Failure Contract := do
  let service ← c.eligible
  let operations ← c.methods.mapM fun m => Operation.ofSignature m c.fullName
  pure {
    module := c.module, qualname := c.qualname, serviceName := service.name,
    baseRoute := service.route, operations }

end HttpContract
