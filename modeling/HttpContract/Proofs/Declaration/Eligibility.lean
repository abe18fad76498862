import HttpContract.Contract.Description
import HttpContract.Declaration.Reference
import HttpContract.Proofs.Declaration.Methods
import HttpContract.Proofs.Roles.Acceptance

/-!
# Eligible subjects

Whether a subject may be a contract is a matter of the class alone: `Program.Violates` says of each
constraint when it is violated, and reads no member of any class. A subject that violates one is
refused for the first, before a method is looked at; any other is refused for no constraint, and its
contract has the methods that the class and its ancestors have (`eligibility_precedes_methods`). The
reading of classes and the check of candidates each have the condition in a form of their own, and
`candidateOf_cases` says that they agree.
-/

namespace HttpContract

namespace Constraint

/-- The constraints in the order in which they are checked. -/
def inOrder : List Constraint := [.interface, .isPublic, .nonGeneric, .client]

/-- A constraint is violated and none of those before it is. -/
def IsFirst (violated : Constraint → Prop) (v : Constraint) : Prop :=
  violated v ∧ ∃ before after, inOrder = before ++ v :: after ∧ ∀ u ∈ before, ¬ violated u

theorem isFirst_congr {violated violated' : Constraint → Prop} (h : ∀ v, violated v ↔ violated' v)
    (v : Constraint) : IsFirst violated v ↔ IsFirst violated' v := by
  obtain rfl : violated = violated' := funext fun v => propext (h v)
  rfl

theorem IsFirst.unique {violated : Constraint → Prop} {u v : Constraint} (hu : IsFirst violated u)
    (hv : IsFirst violated v) : u = v := by
  obtain ⟨hu, before, after, hsplit, hbefore⟩ := hu
  obtain ⟨hv, before', after', hsplit', hbefore'⟩ := hv
  rw [hsplit] at hsplit'
  rcases List.append_eq_append_iff.mp hsplit' with ⟨l, rfl, hl⟩ | ⟨l, rfl, hl⟩
  · cases l with
    | nil => exact (List.cons.inj hl).1
    | cons w l =>
      obtain ⟨rfl, -⟩ := List.cons.inj hl
      exact absurd hu (hbefore' u (by simp))
  · cases l with
    | nil => exact (List.cons.inj hl).1.symm
    | cons w l =>
      obtain ⟨rfl, -⟩ := List.cons.inj hl
      exact absurd hv (hbefore v (by simp))

end Constraint

namespace Candidate
variable {c : Candidate} {v : Constraint}

/-- That a candidate violates a constraint. -/
def Violates (c : Candidate) : Constraint → Prop
  | .interface => c.isInterface = false
  | .isPublic => c.isPublic = false
  | .nonGeneric => c.genericArity ≠ 0
  | .client => c.service = none

theorem violation?_eq_none_iff : c.violation? = none ↔ ∀ v, ¬ c.Violates v := by
  unfold violation?
  constructor
  · intro h v
    split_ifs at h with hi hp hg hs
    cases v with
    | interface => simpa [Violates] using hi
    | isPublic => simpa [Violates] using hp
    | nonGeneric => simpa [Violates] using hg
    | client => simpa [Violates] using hs
  · intro h
    have hi := h .interface
    have hp := h .isPublic
    have hg := h .nonGeneric
    have hs := h .client
    simp only [Violates, Bool.not_eq_false, not_not] at hi hp hg hs
    simp [hi, hp, hg, hs]

theorem isFirst_of_violation? (h : c.violation? = some v) : Constraint.IsFirst c.Violates v := by
  unfold violation? at h
  split_ifs at h with hi hp hg hs
  · cases h
    exact ⟨by simpa [Violates] using hi, [], _, rfl, List.forall_mem_nil _⟩
  · cases h
    refine ⟨by simpa [Violates] using hp, [.interface], _, rfl, ?_⟩
    simpa [Violates] using hi
  · cases h
    refine ⟨hg, [.interface, .isPublic], _, rfl, ?_⟩
    simpa [Violates] using And.intro hi hp
  · cases h
    refine ⟨by simpa [Violates] using hs, [.interface, .isPublic, .nonGeneric], _, rfl, ?_⟩
    simpa [Violates] using And.intro hi (And.intro hp hg)

theorem exists_eligible (h : c.violation? = none) : ∃ service, c.eligible = .ok service := by
  cases hs : c.service with
  | none => exact absurd hs (violation?_eq_none_iff.mp h .client)
  | some service => exact ⟨service, by rw [eligible, h, hs]⟩

end Candidate

/-! ### Subjects -/

namespace Program
variable {p : Program} {s : Subject} {n : ClassName}

/-- What declaring a class has found out about it. -/
def lineageOf (p : Program) (n : ClassName) : Lineage := (p.lineage? n).getD (.ofOther n false)

/-- Whether a subject is a class that is an interface. -/
def IsInterface (p : Program) : Subject → Prop
  | .declared n =>
    match p.scope.find? n with
    | some (.contract _) => (p.lineageOf n).isInterface = true
    | some (.model _) => True
    | _ => False
  | _ => False

/-- Whether a subject is a class that is public. -/
def IsPublic (p : Program) : Subject → Prop
  | .declared n => p.isClass n = true ∧ n.isPublic = true
  | .builtinClass _ => True
  | _ => False

/-- The number of type parameters of a subject. -/
def arity (p : Program) : Subject → Nat
  | .declared n => if (p.scope.contract? n).isSome then (p.lineageOf n).arity else 0
  | _ => 0

/-- The service that a class itself is marked with. -/
def ownService? (p : Program) : Subject → Option ServiceMark
  | .declared n => (p.scope.contract? n).bind (·.service)
  | _ => none

/-- That a subject of a program violates a constraint. -/
def Violates (p : Program) (s : Subject) : Constraint → Prop
  | .interface => ¬ p.IsInterface s
  | .isPublic => ¬ p.IsPublic s
  | .nonGeneric => 0 < p.arity s
  | .client => p.ownService? s = none

/-- The contract that a subject is read as. -/
def describe (p : Program) (s : Subject) : Except Failure Contract :=
  p.candidateOf s >>= Contract.ofCandidate

/-- A subject is refused as a contract for a constraint. -/
def RefusedFor (p : Program) (s : Subject) (v : Constraint) : Prop :=
  ∃ contract, p.describe s = .error (.ineligible v contract)

/-- A candidate that stands for a subject violates what the subject violates. -/
def StandsFor (p : Program) (s : Subject) (c : Candidate) : Prop := ∀ v, c.Violates v ↔ p.Violates s v

/-- The candidate of a declared class, its methods apart. -/
def outline (p : Program) (n : ClassName) (c : ContractClass) : Candidate :=
  { ineligible n (p.lineageOf n).isInterface with
    genericArity := (p.lineageOf n).arity, service := c.service }

theorem standsFor_outline {c : ContractClass} (hc : p.scope.find? n = some (.contract c)) :
    p.StandsFor (.declared n) (p.outline n c) := by
  have hcontract : p.scope.contract? n = some c := by rw [Scope.contract?, hc]
  intro v
  cases v with
  | interface => simp [Violates, IsInterface, Candidate.Violates, outline, ineligible, hc]
  | isPublic => simp [Violates, IsPublic, Candidate.Violates, outline, ineligible, isClass, hc]
  | nonGeneric =>
    simp [Violates, arity, Candidate.Violates, outline, hcontract, Nat.pos_iff_ne_zero]
  | client => simp [Violates, ownService?, Candidate.Violates, outline, hcontract]

/-- The candidate of a class that is read no further, or of what is no class. -/
theorem standsFor_of_no_contract {c : Candidate} (hc : p.scope.contract? n = none)
    (hi : c.isInterface = true ↔ p.IsInterface (.declared n))
    (hp : c.isPublic = true ↔ p.IsPublic (.declared n)) (hg : c.genericArity = 0)
    (hs : c.service = none) : p.StandsFor (.declared n) c := by
  intro v
  cases v with
  | interface => simp [Violates, Candidate.Violates, ← hi]
  | isPublic => simp [Violates, Candidate.Violates, ← hp]
  | nonGeneric => simp [Violates, arity, Candidate.Violates, hc, hg]
  | client => simp [Violates, ownService?, Candidate.Violates, hc, hs]

theorem candidate_of_no_contract (hc : p.scope.contract? n = none) :
    ∃ c, p.candidate n = .ok c ∧ p.StandsFor (.declared n) c := by
  unfold candidate
  cases hfind : p.scope.find? n with
  | none =>
    refine ⟨_, rfl, standsFor_of_no_contract hc ?_ ?_ rfl rfl⟩
    · simp [ineligible, IsInterface, hfind]
    · simp [ineligible, IsPublic, isClass, hfind]
  | some body =>
    cases body with
    | contract c => simp [Scope.contract?, hfind] at hc
    | foreign kind =>
      refine ⟨_, rfl, standsFor_of_no_contract hc ?_ ?_ ?_ ?_⟩
      · cases kind <;> simp [foreign, IsInterface, hfind]
      · cases kind <;> simp [foreign, IsPublic, isClass, hfind]
      · cases kind <;> rfl
      · cases kind <;> rfl
    | _ =>
      refine ⟨_, rfl, standsFor_of_no_contract hc ?_ ?_ rfl rfl⟩
      · simp [ineligible, IsInterface, hfind]
      · simp [ineligible, IsPublic, isClass, hfind]

theorem find?_of_contract? {c : ContractClass} (hc : p.scope.contract? n = some c) :
    p.scope.find? n = some (.contract c) := by
  unfold Scope.contract? at hc
  split at hc
  · next c' hfind => rw [hfind, Option.some.inj hc]
  · cases hc

/-- The signatures of the methods of a class. -/
def signatures (p : Program) (n : ClassName) : Except Failure (List Signature) :=
  (p.methods (p.lineageOf n)).mapM fun m => m.2.signature (p.evaluation n.full m.1) n.full m.1

/-- The methods of a declared class are read exactly if the check finds nothing wrong with the rest
of it. -/
theorem candidate_of_contract {c : ContractClass} (hc : p.scope.contract? n = some c) :
    p.candidate n = if (p.outline n c).violation? = none then
      (p.signatures n).map fun methods => { p.outline n c with methods }
    else .ok (p.outline n c) := by
  have hread : (p.outline n c).violation? = none ↔ ((p.outline n c).isInterface &&
      (p.outline n c).isPublic && (p.outline n c).genericArity == 0 &&
        (p.outline n c).service.isSome) = true := by
    rw [Candidate.violation?_eq_none_iff]
    constructor
    · intro h
      have hi := h .interface
      have hp := h .isPublic
      have hg := h .nonGeneric
      have hs := h .client
      simp only [Candidate.Violates, Bool.not_eq_false, not_not] at hi hp hg hs
      simp [hi, hp, hg, Option.isSome_iff_ne_none.mpr hs]
    · intro h v
      simp only [Bool.and_eq_true, beq_iff_eq] at h
      obtain ⟨⟨⟨hi, hp⟩, hg⟩, hs⟩ := h
      cases v with
      | interface => simp [Candidate.Violates, hi]
      | isPublic => simp [Candidate.Violates, hp]
      | nonGeneric => simp [Candidate.Violates, hg]
      | client => simpa [Candidate.Violates, Option.isSome_iff_ne_none] using hs
  simp only [hread, candidate, find?_of_contract? hc]
  rfl

/-- Reading a subject goes by the same conditions as the check of its candidate: either the candidate
is refused for what it is, or the methods are all that is left to look at. -/
theorem candidateOf_cases (p : Program) (s : Subject) :
    (∃ c v, p.candidateOf s = .ok c ∧ c.violation? = some v ∧ p.StandsFor s c) ∨
    ∃ n c, s = .declared n ∧ p.scope.contract? n = some c ∧ (p.outline n c).violation? = none ∧
      p.StandsFor s (p.outline n c) ∧
      p.candidateOf s = (p.signatures n).map fun methods => { p.outline n c with methods } := by
  have hother : ∀ c : Candidate, p.candidateOf s = .ok c → p.StandsFor s c → c.service = none →
      ∃ c v, p.candidateOf s = .ok c ∧ c.violation? = some v ∧ p.StandsFor s c := by
    intro c hc hstands hservice
    cases hv : c.violation? with
    | some v => exact ⟨c, v, hc, hv, hstands⟩
    | none => exact absurd hservice (Candidate.violation?_eq_none_iff.mp hv .client)
  cases s with
  | declared n =>
    cases hc : p.scope.contract? n with
    | none =>
      obtain ⟨c, hcandidate, hstands⟩ := candidate_of_no_contract hc
      have hservice : p.Violates (.declared n) .client := by simp [Violates, ownService?, hc]
      exact .inl (hother c hcandidate hstands ((hstands .client).mpr hservice))
    | some c =>
      have hstands := standsFor_outline (find?_of_contract? hc)
      have hcandidate := candidate_of_contract hc
      cases hv : (p.outline n c).violation? with
      | some v =>
        rw [hv, if_neg (Option.some_ne_none v)] at hcandidate
        exact .inl ⟨_, v, hcandidate, hv, hstands⟩
      | none =>
        rw [hv, if_pos rfl] at hcandidate
        exact .inr ⟨n, c, rfl, hc, hv, hstands, hcandidate⟩
  | _ =>
    refine .inl (hother _ rfl (fun v => ?_) rfl)
    cases v <;> simp [Violates, IsInterface, IsPublic, arity, ownService?, Candidate.Violates]

/-! ### Refusals -/

theorem refusedFor_of_violation? {c : Candidate} {v : Constraint} (hc : p.candidateOf s = .ok c)
    (hv : c.violation? = some v) : p.RefusedFor s v := by
  refine ⟨c.fullName, ?_⟩
  rw [describe, hc]
  show Contract.ofCandidate c = _
  rw [Contract.ofCandidate, Candidate.eligible, hv]
  rfl

end Program

/-- A failure that is a matter of the class and not of its methods. -/
def Failure.IsIneligible (e : Failure) : Prop := ∃ v contract, e = .ineligible v contract

theorem Function.not_isIneligible_signature {f : Function} {meaning : Forward.Evaluation}
    {contract name : String} {e : Failure} (h : f.signature meaning contract name = .error e) : ¬ e.IsIneligible := by
  rintro ⟨v, k, rfl⟩
  unfold signature at h
  rcases bind_eq_error.mp h with h | ⟨f', -, h⟩
  · obtain ⟨problem, -, hproblem⟩ := mapError_eq_error.mp h
    cases problem <;> cases hproblem
  · rcases bind_eq_error.mp h with h | ⟨parameters, -, h⟩
    · obtain ⟨-, q, -, -, -, h⟩ := mapM_eq_error_iff.mp h
      obtain ⟨fault, -, hfault⟩ := mapError_eq_error.mp h
      cases hfault
    · rcases bind_eq_error.mp h with h | ⟨returns, -, h⟩
      · obtain ⟨fault, -, hfault⟩ := mapError_eq_error.mp h
        cases hfault
      · cases h

theorem Signature.exists_rejected {m : Signature} {contract : String} {e : Failure}
    (h : Operation.ofSignature m contract = .error e) : ∃ f, e = .rejected f contract (some m.name) := by
  cases he : m.endpoint with
  | none =>
    rw [Operation.ofSignature, analyze, he] at h
    cases h
    exact ⟨_, rfl⟩
  | some endpoint =>
    have hd := decides_ofSignature he contract
    have hn : ¬ m.Acceptable endpoint.path := fun ha => by
      rw [hd.eq_ok_iff.mpr ⟨ha, rfl⟩] at h
      cases h
    obtain ⟨e', ⟨f, rfl⟩, h'⟩ := hd.exists_error_of_not hn
    rw [h'] at h
    cases h
    exact ⟨f, rfl⟩

namespace Program
variable {p : Program} {s : Subject} {n : ClassName} {c : ContractClass} {v : Constraint}

theorem describe_eq (hc : p.candidateOf s =
    (p.signatures n).map fun methods => { p.outline n c with methods }) :
    p.describe s =
      p.signatures n >>= fun methods => Contract.ofCandidate { p.outline n c with methods } := by
  rw [Program.describe, hc]
  cases p.signatures n <;> rfl

/-- What is left to look at of a class that violates no constraint: its methods, one after the
other. -/
theorem describe_of_eligible (hv : (p.outline n c).violation? = none)
    (hc : p.candidateOf s = (p.signatures n).map fun methods => { p.outline n c with methods }) :
    (∀ e, p.describe s = .error e → ¬ e.IsIneligible) ∧
      ∀ k, p.describe s = .ok k → List.Forall₂
        (fun m o => m.2.operation (p.evaluation n.full m.1) n.full m.1 = .ok o)
        (p.methods (p.lineageOf n)) k.operations := by
  rw [describe_eq hc]
  constructor
  · rintro e he ⟨v, contract, rfl⟩
    -- reading a method fails, or the class has no service, or one of the operations is refused
    rcases bind_eq_error.mp he with hs | ⟨methods, -, he⟩
    · obtain ⟨-, m, -, -, -, hm⟩ := mapM_eq_error_iff.mp hs
      exact Function.not_isIneligible_signature hm ⟨v, contract, rfl⟩
    · have hkept : ({ p.outline n c with methods } : Candidate).violation? = none := hv
      obtain ⟨service, hservice⟩ := Candidate.exists_eligible hkept
      rw [Contract.ofCandidate, hservice, ok_bind] at he
      rcases bind_eq_error.mp he with he | ⟨operations, -, he⟩
      · obtain ⟨-, m, -, -, -, hm⟩ := mapM_eq_error_iff.mp he
        obtain ⟨f, hf⟩ := Signature.exists_rejected hm
        cases hf
      · cases he
  · intro k hk
    obtain ⟨methods, hs, hk⟩ := bind_eq_ok.mp hk
    obtain ⟨service, -, hk⟩ := bind_eq_ok.mp hk
    obtain ⟨operations, hoperations, hk⟩ := bind_eq_ok.mp hk
    cases hk
    refine forall₂_comp ?_ (mapM_eq_ok_iff.mp hs) (mapM_eq_ok_iff.mp hoperations)
    intro m signature o hsignature ho
    show m.2.signature (p.evaluation n.full m.1) n.full m.1 >>= _ = _
    rw [hsignature]
    exact ho

theorem operations_of_describe {k : Contract} (h : p.describe s = .ok k) : ∃ n, s = .declared n ∧
    List.Forall₂ (fun m o => m.2.operation (p.evaluation n.full m.1) n.full m.1 = .ok o)
      (p.methods (p.lineageOf n)) k.operations := by
  rcases p.candidateOf_cases s with ⟨c, v, hc, hv, -⟩ | ⟨n, c, rfl, -, hv, -, hmethods⟩
  · obtain ⟨contract, hrefused⟩ := refusedFor_of_violation? hc hv
    rw [hrefused] at h
    cases h
  · exact ⟨n, rfl, (describe_of_eligible hv hmethods).2 k h⟩

/-- A subject is refused for the first constraint that it violates, and for no other. -/
theorem refusedFor_iff : p.RefusedFor s v ↔ Constraint.IsFirst (p.Violates s) v := by
  rcases p.candidateOf_cases s with ⟨c, u, hc, hu, hstands⟩ | ⟨n, c, rfl, -, hnone, hstands, hc⟩
  · have hfirst : Constraint.IsFirst (p.Violates s) u :=
      (Constraint.isFirst_congr hstands u).mp (Candidate.isFirst_of_violation? hu)
    have hrefused := refusedFor_of_violation? hc hu
    constructor
    · rintro ⟨contract, hv⟩
      obtain ⟨contract', hu'⟩ := hrefused
      rw [hu'] at hv
      cases hv
      exact hfirst
    · intro hv
      rw [hv.unique hfirst]
      exact hrefused
  · constructor
    · rintro ⟨contract, hv⟩
      exact absurd ⟨v, contract, rfl⟩ ((describe_of_eligible hnone hc).1 _ hv)
    · intro hv
      exact absurd ((hstands v).mpr hv.1) (Candidate.violation?_eq_none_iff.mp hnone v)

end Program

/-! ### Other members in the same classes -/

/-- The declaration with other members, if it is of a class that has methods. -/
def DeclarationBody.withMembers (members : List (String × MemberBody)) :
    DeclarationBody → DeclarationBody
  | .contract c => .contract { c with members }
  | body => body

namespace Program
variable {p : Program} {s : Subject} {n : ClassName}
  {members : ClassName → List (String × MemberBody)}

/-- The program whose contract classes have the given members in place of theirs. -/
def withMembers (p : Program) (members : ClassName → List (String × MemberBody)) : Program where
  scope := p.scope.map fun d => { d with body := d.body.withMembers (members d.name) }
  lineages := p.lineages

theorem find?_withMembers : (p.withMembers members).scope.find? n =
    (p.scope.find? n).map (·.withMembers (members n)) := by
  unfold Scope.find? withMembers
  rw [← List.map_reverse, List.find?_map]
  cases hd : p.scope.reverse.find? (fun d => d.name == n) with
  | none =>
    have hnone : p.scope.reverse.find? ((fun d => d.name == n) ∘ fun d : Declaration =>
        { d with body := d.body.withMembers (members d.name) }) = none := hd
    rw [hnone]
    rfl
  | some d =>
    have hsome : p.scope.reverse.find? ((fun d => d.name == n) ∘ fun d : Declaration =>
        { d with body := d.body.withMembers (members d.name) }) = some d := hd
    have hname : d.name = n := by simpa using List.find?_some hd
    rw [hsome]
    show some (d.body.withMembers (members d.name)) = _
    rw [hname]
    rfl

theorem contract?_withMembers : (p.withMembers members).scope.contract? n =
    (p.scope.contract? n).map fun c => { c with members := members n } := by
  unfold Scope.contract?
  rw [find?_withMembers]
  cases p.scope.find? n with
  | none => rfl
  | some body => cases body <;> rfl

theorem violates_withMembers (v : Constraint) :
    (p.withMembers members).Violates s v ↔ p.Violates s v := by
  cases s with
  | declared n =>
    have hlineage : (p.withMembers members).lineageOf n = p.lineageOf n := rfl
    cases v with
    | interface =>
      simp only [Violates, IsInterface, find?_withMembers, hlineage]
      cases p.scope.find? n with
      | none => rfl
      | some body => cases body <;> rfl
    | isPublic =>
      simp only [Violates, IsPublic, isClass, find?_withMembers]
      cases p.scope.find? n with
      | none => rfl
      | some body => cases body <;> rfl
    | nonGeneric =>
      simp only [Violates, arity, contract?_withMembers, hlineage, Option.isSome_map]
    | client =>
      simp only [Violates, ownService?, contract?_withMembers]
      cases p.scope.contract? n <;> rfl
  | _ => cases v <;> rfl

/-- A subject is refused for the first constraint that it violates, whatever the methods of any class
are. One that violates none is refused for none, and the operations of its contract are those of its
methods in their order. -/
theorem eligibility_precedes_methods (p : Program) (s : Subject) :
    (∀ v, Constraint.IsFirst (p.Violates s) v → p.RefusedFor s v) ∧
      ((∀ v, ¬ p.Violates s v) → (∀ v, ¬ p.RefusedFor s v) ∧
        ∃ n c, s = .declared n ∧ p.scope.contract? n = some c ∧
          ∀ k, p.describe s = .ok k → List.Forall₂
            (fun m o => m.2.operation (p.evaluation n.full m.1) n.full m.1 = .ok o)
            (p.methods (p.lineageOf n)) k.operations) ∧
      ∀ members v, (p.withMembers members).RefusedFor s v ↔ p.RefusedFor s v := by
  refine ⟨fun v => refusedFor_iff.mpr, fun hnone => ⟨fun v hv => ?_, ?_⟩, fun members v => ?_⟩
  · exact hnone v (refusedFor_iff.mp hv).1
  · rcases p.candidateOf_cases s with ⟨c, u, -, hu, hstands⟩ | ⟨n, c, rfl, hc, hv, -, hcandidate⟩
    · exact absurd ((hstands u).mp (Candidate.isFirst_of_violation? hu).1) (hnone u)
    · exact ⟨n, c, rfl, hc, (describe_of_eligible hv hcandidate).2⟩
  · rw [refusedFor_iff, refusedFor_iff]
    exact Constraint.isFirst_congr violates_withMembers v

/-- A contract whose only method returns what no type is called. -/
def draftProgram (service : Option ServiceMark) : Program where
  scope := [{
    name := ⟨"app", "Drafts"⟩
    body := .contract {
      kind := .protocol, service
      members := [("run", .method { returns := some (.forward "Missing") } false)] } }]
  lineages := [(⟨"app", "Drafts"⟩, {
    order := [.declared ⟨"app", "Drafts"⟩, .protocol, .generic, .object], isProtocol := true
    isInterface := true, arity := 0 })]

/-- Without its service the contract is refused for that; with one it is refused for its method. -/
theorem drafts_refused_without_service :
    (draftProgram none).RefusedFor (.declared ⟨"app", "Drafts"⟩) .client ∧
      (∃ e, (draftProgram (some ⟨"drafts", ""⟩)).describe (.declared ⟨"app", "Drafts"⟩) = .error e) ∧
      ∀ v, ¬ (draftProgram (some ⟨"drafts", ""⟩)).RefusedFor (.declared ⟨"app", "Drafts"⟩) v := by
  have hothers : ∀ service, ∀ v ∈ [Constraint.interface, .isPublic, .nonGeneric],
      ¬ (draftProgram service).Violates (.declared ⟨"app", "Drafts"⟩) v := by
    intro service v hv
    have hpublic : (⟨"app", "Drafts"⟩ : ClassName).isPublic = true := by decide +kernel
    simp only [List.mem_cons, List.not_mem_nil, or_false] at hv
    rcases hv with rfl | rfl | rfl
    · exact not_not_intro rfl
    · exact not_not_intro ⟨rfl, hpublic⟩
    · exact Nat.not_lt_zero 0
  have herror : ((draftProgram (some ⟨"drafts", ""⟩)).describe
      (.declared ⟨"app", "Drafts"⟩)).toOption.isNone = true := by decide +kernel
  obtain ⟨hfirst, -⟩ := eligibility_precedes_methods (draftProgram none) (.declared ⟨"app", "Drafts"⟩)
  obtain ⟨-, heligible, -⟩ :=
    eligibility_precedes_methods (draftProgram (some ⟨"drafts", ""⟩)) (.declared ⟨"app", "Drafts"⟩)
  refine ⟨hfirst .client ⟨rfl, [.interface, .isPublic, .nonGeneric], [], rfl, hothers none⟩, ?_,
    (heligible fun v => ?_).1⟩
  · cases hd : (draftProgram (some ⟨"drafts", ""⟩)).describe (.declared ⟨"app", "Drafts"⟩) with
    | error e => exact ⟨e, rfl⟩
    | ok k =>
      rw [hd] at herror
      cases herror
  · cases v with
    | client => exact Option.some_ne_none _
    | interface => exact hothers _ .interface (by simp)
    | isPublic => exact hothers _ .isPublic (by simp)
    | nonGeneric => exact hothers _ .nonGeneric (by simp)

end Program

end HttpContract
