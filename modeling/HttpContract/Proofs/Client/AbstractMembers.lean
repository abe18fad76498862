import HttpContract.Proofs.Client.Attributes
import HttpContract.Proofs.Declaration.Eligibility
import HttpContract.Proofs.Declaration.Linearization

/-! # Abstract members of clients

A class has clients if it defines every member that its contract leaves abstract. What is left abstract
comes from an interface among the ancestors, which has it itself (`AbstractIn`): a class that is no
interface keeps no account, and an override that is not abstract ends it. Defined are the methods of the
contract, and what all clients have; so an abstract member is left exactly if no interface gives a method
of its name to the contract, as for a name with an underscore in front, or for a property. -/

namespace HttpContract

namespace Lineage
variable {s : Scope} {known : List (ClassName × List String)} {c : ContractClass} {name : ClassName}
  {l : Lineage} {x : String}

theorem mem_abstractNames (h : x ∈ l.abstractNames s known c name) :
    l.isInterface = true ∧ (∃ m, l.member? s x = some m ∧ m.isAbstract = true) ∧
      (x ∈ (Ancestor.ownMembers s (.declared name)).map (·.1) ∨
        ∃ b ∈ c.bases, ∃ xs, (b.1, xs) ∈ known ∧ x ∈ xs) := by
  unfold abstractNames at h
  by_cases hi : l.isInterface = true
  · simp only [hi, Bool.not_true, Bool.false_eq_true, if_false, List.mem_filter, List.mem_eraseDups,
      List.mem_append, List.mem_flatMap, Option.any_eq_true] at h
    obtain ⟨hx | ⟨b, hb, hx⟩, hm⟩ := h
    · exact ⟨hi, hm, .inl hx⟩
    · cases hk : Entries.get? known.reverse b.1 with
      | none => simp [hk] at hx
      | some xs =>
        rw [hk] at hx
        exact ⟨hi, hm, .inr ⟨b, hb, xs, by simpa using Entries.mem_of_get? hk, hx⟩⟩
  · simp [hi] at h

end Lineage

namespace Program
variable {p : Program} {s before after : Scope} {l l' : Lineage} {x : String} {n : ClassName}
  {m : MemberBody}

/-- An interface in the order of a class has a member as an abstract one of its own. -/
structure AbstractIn (p : Program) (l : Lineage) (x : String) (n : ClassName) (m : MemberBody) : Prop where
  ancestor : .declared n ∈ l.order
  isInterface : (p.lineageOf n).isInterface = true
  own : Entries.get? (Ancestor.ownMembers p.scope (.declared n)) x = some m
  isAbstract : m.isAbstract = true

theorem AbstractIn.mono (h : p.AbstractIn l x n m) (hl : l.order ⊆ l'.order) : p.AbstractIn l' x n m :=
  { h with ancestor := hl h.ancestor }

theorem lineageOf_eq (h : p.lineage? n = some l) : p.lineageOf n = l := by
  rw [lineageOf, h, Option.getD_some]

theorem abstractIn_of_own (hl : p.lineage? n = some l) (hi : l.isInterface = true)
    (hhead : l.order.head? = some (.declared n)) (hm : l.member? p.scope x = some m)
    (ha : m.isAbstract = true) (hx : x ∈ (Ancestor.ownMembers p.scope (.declared n)).map (·.1)) :
    p.AbstractIn l x n m := by
  obtain ⟨rest, hrest⟩ := List.head?_eq_some_iff.mp hhead
  obtain ⟨m', hm'⟩ := Entries.exists_get?_of_mem hx
  rw [Lineage.member?, hrest, List.findSome?_cons, hm'] at hm
  obtain rfl : m' = m := Option.some.inj hm
  exact ⟨by simp [hrest], by rw [lineageOf_eq hl, hi], hm', ha⟩

theorem mem_noteAbstract {known : List (ClassName × List String)} {d : Declaration}
    {e : ClassName × List String} (h : e ∈ p.noteAbstract known d) :
    e ∈ known ∨ ∃ c l, d.body = .contract c ∧ p.lineage? d.name = some l ∧
      e = (d.name, l.abstractNames p.scope known c d.name) := by
  unfold noteAbstract at h
  split at h
  · next c l hc hl =>
    rcases List.mem_append.mp h with h | h
    · exact .inl h
    · exact .inr ⟨c, l, hc, hl, by simpa using h⟩
  · exact .inl h

/-- Every class has noted as abstract only what an interface in its order has. -/
theorem exists_abstractIn_of_noted (hp : ofScope s = .ok p) (hn : (s.map (·.name)).Nodup)
    (hs : s = before ++ after) :
    ∀ e ∈ before.foldl p.noteAbstract [], e.1 ∈ before.map (·.name) ∧
      ∀ x ∈ e.2, ∃ l n m, p.lineage? e.1 = some l ∧ p.AbstractIn l x n m := by
  -- What a class inherits was noted for a base declared before it, and it keeps the order of that base.
  induction before using List.reverseRecOn generalizing after with
  | nil => simp
  | append_singleton before d ih =>
    rw [List.append_assoc, List.singleton_append] at hs
    have hknown := ih hs
    intro e he
    rw [List.foldl_append, List.foldl_cons, List.foldl_nil] at he
    rw [List.map_append, List.mem_append, List.map_singleton, List.mem_singleton]
    rcases mem_noteAbstract he with he | ⟨c, l, hc, hl, rfl⟩
    · exact ⟨.inl (hknown e he).1, (hknown e he).2⟩
    refine ⟨.inr rfl, fun x hx => ?_⟩
    obtain ⟨l', hl', hhead, hbases⟩ := lineage?_of_split hp hn hs hc
    obtain rfl : l' = l := Option.some.inj (hl'.symm.trans hl)
    obtain ⟨hi, ⟨m, hm, ha⟩, hx | ⟨b, hb, xs, hxs, hx⟩⟩ := Lineage.mem_abstractNames hx
    · exact ⟨l', d.name, m, hl, abstractIn_of_own hl hi hhead hm ha hx⟩
    · obtain ⟨hbefore, hnoted⟩ := hknown _ hxs
      obtain ⟨lb, hlb, horder⟩ := hbases b hb hbefore
      obtain ⟨lb', n, m, hlb', hown⟩ := hnoted x hx
      obtain rfl : lb' = lb := Option.some.inj (hlb'.symm.trans hlb)
      exact ⟨l', n, m, hl, hown.mono horder⟩

theorem exists_abstractIn (hp : ofScope s = .ok p) (hn : (s.map (·.name)).Nodup)
    (hx : x ∈ p.abstractNames n) : ∃ o m, p.AbstractIn (p.lineageOf n) x o m := by
  unfold abstractNames abstractTable at hx
  rw [scope_ofScope hp] at hx
  cases hnoted : Entries.get? (s.foldl p.noteAbstract []).reverse n with
  | none => simp [hnoted] at hx
  | some xs =>
    rw [hnoted, Option.getD_some] at hx
    have hmem : (n, xs) ∈ s.foldl p.noteAbstract [] := by simpa using Entries.mem_of_get? hnoted
    obtain ⟨-, hall⟩ := exists_abstractIn_of_noted hp hn (List.append_nil s).symm _ hmem
    obtain ⟨l, o, m, hl, hown⟩ := hall x hx
    exact ⟨o, m, by rwa [lineageOf_eq hl]⟩

/-- The contract of a class gets a method of this name: it is public, and an interface in the order of the
class has a plain method with it. -/
def GivesMethod (p : Program) (l : Lineage) (x : String) : Prop :=
  x.startsWith "_" = false ∧ ∃ a ∈ l.order, ∃ m f, (x, m) ∈ p.contributed a ∧ m.method? = some f

theorem AbstractIn.givesMethod (h : p.AbstractIn l x n m) (hx : x.startsWith "_" = false)
    (hn : n.isFramework = false) (hm : m.method?.isSome = true) : p.GivesMethod l x := by
  obtain ⟨f, hf⟩ := Option.isSome_iff_exists.mp hm
  have hi : ((p.lineage? n).map (·.isInterface)).getD false = true := by
    rw [← h.isInterface, lineageOf]
    cases p.lineage? n <;> rfl
  refine ⟨hx, .declared n, h.ancestor, m, f, ?_, hf⟩
  rw [contributed, hn, hi]
  exact Entries.mem_of_get? h.own

end Program

/-! ### Classes of clients -/

namespace ClientClass
variable {p : Program} {c : ClientClass} {candidate : Candidate} {x : String}

theorem IsClientOf.names_methods (h : c.IsClientOf p candidate) :
    candidate.methods.map (·.name) = (p.methods (p.lineageOf c.subject)).map (·.1) := by
  rcases p.candidateOf_cases (.declared c.subject) with ⟨c', v, hc', hv, -⟩ | ⟨n, k, hn, -, -, -, hc'⟩
  · obtain rfl : c' = candidate := Except.ok.inj (hc'.symm.trans h.declared)
    have hcontract := h.contract
    rw [Contract.ofCandidate, Candidate.eligible, hv] at hcontract
    cases hcontract
  · cases hn
    have hmade : (p.signatures c.subject).map (fun methods => { p.outline c.subject k with methods }) =
      .ok candidate := hc'.symm.trans h.declared
    cases hs : p.signatures c.subject with
    | error e => rw [hs] at hmade; cases hmade
    | ok methods =>
      rw [hs] at hmade
      rw [← Except.ok.inj hmade]
      exact map_of_mapM (fun _ _ => Function.name_signature) hs

theorem IsClientOf.isSome_operation?_iff (h : c.IsClientOf p candidate) :
    (c.operation? x).isSome = true ↔ p.GivesMethod (p.lineageOf c.subject) x := by
  rw [Program.GivesMethod, ← Program.mem_keys_methods_iff, ← h.names_methods,
    ← Contract.names_operations h.contract, ← not_iff_not, Bool.not_eq_true, Option.isSome_eq_false_iff,
    Option.isNone_iff_eq_none]
  exact find?_name_eq_none

theorem isSome_ofName?_iff : (Primitive.ofName? x).isSome = true ↔ ∃ q : Primitive, q.name = x := by
  constructor
  · intro h
    obtain ⟨q, hq⟩ := Option.isSome_iff_exists.mp h
    exact ⟨q, by simpa using List.find?_some hq⟩
  · rintro ⟨q, rfl⟩
    rw [q.ofName?_name]
    rfl

/-- What the class of a client defines itself. -/
theorem IsClientOf.defines_iff (h : c.IsClientOf p candidate) : c.defines x = true ↔
    x = constructorName ∨ p.GivesMethod (p.lineageOf c.subject) x ∨ ∃ q : Primitive, q.name = x := by
  rw [defines, Bool.or_eq_true, Bool.or_eq_true, beq_iff_eq, h.isSome_operation?_iff, isSome_ofName?_iff,
    or_assoc]

theorem obstacleToMake?_eq_wrongType_iff : c.obstacleToMake? p = some .wrongType ↔
    ∃ x ∈ p.abstractNames c.subject, c.defines x = false := by
  unfold obstacleToMake?
  simp only [List.any_eq_true, Bool.not_eq_true']
  split_ifs with habstract hstate
  · exact ⟨fun _ => habstract, fun _ => rfl⟩
  · exact ⟨fun h => (nomatch h), fun h => absurd h habstract⟩
  · exact ⟨fun h => (nomatch h), fun h => absurd h habstract⟩

end ClientClass

namespace ClientRegistry
variable {f f' : ClientRegistry} {name : ClassName} {t t' : Traffic} {c : ClientClass}

theorem program_classOf (h : f.classOf name t = (.ok c, f', t')) : f'.program = f.program := by
  unfold classOf at h
  split at h
  · obtain ⟨-, rfl, -⟩ := h
    rfl
  · split at h
    · cases h
    · obtain ⟨-, rfl, -⟩ := h
      rfl

theorem create_of_classOf (h : f.classOf name t = (.ok c, f', t')) (logger : String) :
    (f.create name logger t).1 = (c.obstacleToMake? f.program).elim (.ok { cls := c, logger })
      fun b => .error (.broken b) := by
  rw [create, h, ← program_classOf h]
  simp only
  cases c.obstacleToMake? f'.program <;> rfl

theorem create_eq_wrongType_iff (h : f.classOf name t = (.ok c, f', t')) (logger : String) :
    (f.create name logger t).1 = .error (.broken .wrongType) ↔
      c.obstacleToMake? f.program = some .wrongType := by
  rw [create_of_classOf h]
  cases c.obstacleToMake? f.program with
  | none => simp
  | some b => simp

end ClientRegistry

/-- Each abstract member that a contract is left with is one that an interface in its order has itself.
The class of the client defines it exactly if it is called like the constructor or a function that all
clients have, or the contract gets a method of its name; so it does if the name is public and the
interface has a plain method there. A client cannot be made, for being abstract, exactly if such a member
is not defined. -/
theorem abstract_members_are_defined_iff {s : Scope} {p : Program} (hp : Program.ofScope s = .ok p)
    (hn : (s.map (·.name)).Nodup) {c : ClientClass} {candidate : Candidate}
    (hc : c.IsClientOf p candidate) :
    (∀ x ∈ p.abstractNames c.subject,
      (∃ n m, p.AbstractIn (p.lineageOf c.subject) x n m) ∧
      (c.defines x = true ↔ x = ClientClass.constructorName ∨
        p.GivesMethod (p.lineageOf c.subject) x ∨ ∃ q : Primitive, q.name = x)) ∧
    (∀ x n m, p.AbstractIn (p.lineageOf c.subject) x n m → x.startsWith "_" = false →
      n.isFramework = false → m.method?.isSome = true → c.defines x = true) ∧
    ∀ (f f' : ClientRegistry) (name : ClassName) (logger : String) (t t' : Traffic), f.program = p →
      f.classOf name t = (.ok c, f', t') →
      ((f.create name logger t).1 = .error (.broken .wrongType) ↔
        ∃ x ∈ p.abstractNames c.subject, c.defines x = false) := by
  refine ⟨fun x hx => ⟨Program.exists_abstractIn hp hn hx, hc.defines_iff⟩, ?_, ?_⟩
  · intro x n m hown hx hfree hm
    exact hc.defines_iff.mpr (.inr (.inl (hown.givesMethod hx hfree hm)))
  · rintro f f' name logger t t' rfl hclass
    rw [ClientRegistry.create_eq_wrongType_iff hclass, ClientClass.obstacleToMake?_eq_wrongType_iff]

/-! ### Jobs -/

/-- A contract that inherits the members of an abstract class. -/
def jobsScope (inherited : List (String × MemberBody)) : Scope :=
  [{ name := ⟨"app", "Base"⟩, body := .contract { kind := .abstractBase, members := inherited } },
    { name := ⟨"app", "Jobs"⟩
      body := .contract {
        kind := .plain, bases := [(⟨"app", "Base"⟩, [])], service := some ⟨"jobs", ""⟩
        members := [("ping", .method
          { endpoint := some ⟨"GET", "/ping"⟩, returns := some .nothing } false)] } }]

/-- A program with one contract, which inherits some members. -/
def jobsProgram (inherited : List (String × MemberBody)) : Program :=
  { scope := jobsScope inherited, lineages := ((jobsScope inherited).declare.toOption).getD [] }

def jobsCandidate (inherited : List (String × MemberBody)) : Candidate :=
  (((jobsProgram inherited).candidate ⟨"app", "Jobs"⟩).toOption).getD default

def jobsContract (inherited : List (String × MemberBody)) : Contract :=
  ((Contract.ofCandidate (jobsCandidate inherited)).toOption).getD default

/-- Its client class. -/
def jobsClass (inherited : List (String × MemberBody)) : ClientClass where
  subject := ⟨"app", "Jobs"⟩
  contract := jobsContract inherited
  plans := ((jobsContract inherited).plans.toOption).getD []
  name := "appJobs"
  module := "declient.generated"
  doc := ""
  isFinal := false

theorem isClientOf_jobsClass {inherited : List (String × MemberBody)}
    (hcandidate : ((jobsProgram inherited).candidate ⟨"app", "Jobs"⟩).toOption.isSome)
    (hcontract : (Contract.ofCandidate (jobsCandidate inherited)).toOption.isSome)
    (hplans : (jobsContract inherited).plans.toOption.isSome) :
    (jobsClass inherited).IsClientOf (jobsProgram inherited) (jobsCandidate inherited) where
  declared := eq_ok_getD hcandidate _
  contract := eq_ok_getD hcontract _
  plans := eq_ok_getD hplans _

theorem ofScope_jobsScope (inherited : List (String × MemberBody))
    (h : (jobsScope inherited).declare.toOption.isSome) :
    Program.ofScope (jobsScope inherited) = .ok (jobsProgram inherited) := by
  rw [Program.ofScope, eq_ok_getD h []]
  rfl

/-- An abstract method with an endpoint. -/
def startMember : String × MemberBody :=
  ("start", .method { endpoint := some ⟨"POST", "/start"⟩, returns := some .nothing } true)

/-- A public abstract method that is inherited is defined by the class of the client. -/
theorem abstract_members_are_defined_start :
    (jobsClass [startMember]).IsClientOf (jobsProgram [startMember]) (jobsCandidate [startMember]) ∧
      (jobsProgram [startMember]).abstractNames ⟨"app", "Jobs"⟩ = ["start"] ∧
      (jobsClass [startMember]).defines "start" = true := by
  have hc : (jobsClass [startMember]).IsClientOf (jobsProgram [startMember]) _ :=
    isClientOf_jobsClass (by decide +kernel) (by decide +kernel) (by decide +kernel)
  have hnames : (jobsProgram [startMember]).abstractNames ⟨"app", "Jobs"⟩ = ["start"] := by
    decide +kernel
  obtain ⟨hall, hmethods, -⟩ := abstract_members_are_defined_iff
    (ofScope_jobsScope [startMember] (by decide +kernel)) (by decide) hc
  have hown : (jobsProgram [startMember]).AbstractIn
      ((jobsProgram [startMember]).lineageOf ⟨"app", "Jobs"⟩) "start" ⟨"app", "Base"⟩ startMember.2 :=
    ⟨by decide +kernel, by decide +kernel, rfl, rfl⟩
  exact ⟨hc, hnames, hmethods _ _ _ hown (by decide +kernel) (by decide) rfl⟩

/-- An abstract method with an underscore in front, and an abstract property, leave the class abstract. -/
example : (jobsClass [("_check", .method {} true)]).obstacleToMake?
      (jobsProgram [("_check", .method {} true)]) = some .wrongType ∧
    (jobsClass [("size", .property {} true)]).obstacleToMake?
      (jobsProgram [("size", .property {} true)]) = some .wrongType := by decide +kernel

end HttpContract
