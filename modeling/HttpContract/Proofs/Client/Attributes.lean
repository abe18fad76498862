import HttpContract.Proofs.Client.Loading
import HttpContract.Proofs.Client.Requests
import HttpContract.Proofs.Http.Attempts

/-!
# Names on clients

A client class has the methods of its contract beside the state of the client and the functions that
method bodies call. `Step.primitives` are the functions that a step calls; where none of them has the
name of a method, nothing stands in the way of a plan (`runSteps_of_unhindered`). So a method performs
its own plan unless its name is one of the state's, or a method is called like one of the functions
that its plan needs (`methods_perform_own_plans`).
-/

namespace HttpContract

namespace Step

/-- The functions of the client that a step calls. -/
def primitives : Step → List Primitive
  | bindPath _ | bindQuery _ => []
  | construct .. => [.buildRequest]
  | attachHeader .. | attachContentHeader .. => [.valueText]
  | attachBody _ format _ => [if format = some .raw then .encodeRaw else .encodeJson]
  | invoke mode => [.sending mode]
  | extractHeader .. | returnHeader .. => [.readHeader]
  | returnBody _ format => [if format = some .raw then .decodeRaw else .decodeJson]

end Step

/-- The primitives that the body of a method calls. -/
def CallPlan.primitives (p : CallPlan) : List Primitive := p.steps.flatMap Step.primitives

/-! ### Plans that nothing stands in the way of -/

/-- Nothing stands in front of the functions. -/
def Obstacles.Spare (o : Obstacles) (ps : List Primitive) : Prop :=
  ∀ p ∈ ps, ∀ arguments, o p arguments = .none

/-- The context without obstacles. -/
def CallContext.unhindered (x : CallContext) : CallContext := { x with obstacles := .none }

section
variable {x : CallContext} {frame : Frame} {response : Response} {step : Step}

theorem Obstacles.pass_of_eq_none {o : Obstacles} {p : Primitive} {arguments : Nat}
    (h : o p arguments = .none) : o.pass p arguments = .ok () := by
  rw [pass, h]
  rfl

theorem Obstacles.Spare.pass {o : Obstacles} {p : Primitive} (h : o.Spare [p]) (arguments : Nat) :
    o.pass p arguments = Obstacles.none.pass p arguments :=
  pass_of_eq_none (h p (List.mem_singleton_self p) arguments)

theorem Step.headerText_unhindered (h : x.obstacles.Spare [.valueText]) (parameter : String) :
    headerText x frame parameter = headerText x.unhindered frame parameter := by
  unfold headerText
  rw [h.pass]
  rfl

theorem Step.encodeBody_unhindered {format : Option BodyEncoding}
    (h : x.obstacles.Spare [if format = some .raw then .encodeRaw else .encodeJson])
    (contentType : Option String) (v : Value) :
    encodeBody x format contentType v = encodeBody x.unhindered format contentType v := by
  unfold encodeBody
  split_ifs at h ⊢ with hraw
  · simp only [h.pass]
    rfl
  · simp only [h.pass]
    rfl

theorem Step.build_unhindered (h : x.obstacles.Spare step.primitives) (d : Draft) :
    step.build x frame d = step.build x.unhindered frame d := by
  cases step with
  | construct verb path =>
    rw [build, build, Obstacles.Spare.pass h]
    rfl
  | attachHeader header p => rw [build, build, headerText_unhindered h]
  | attachContentHeader header p => rw [build, build, headerText_unhindered h]
  | attachBody p format contentType =>
    rw [build, build]
    simp only [encodeBody_unhindered h]
  | _ => rfl

theorem Step.receive_unhindered (h : x.obstacles.Spare step.primitives) :
    step.receive x response frame = step.receive x.unhindered response frame := by
  cases step with
  | extractHeader header p type =>
    rw [receive, receive, Obstacles.Spare.pass h]
    rfl
  | returnHeader type header =>
    rw [receive, receive, Obstacles.Spare.pass h]
    rfl
  | returnBody type format =>
    rw [receive, receive]
    rw [primitives] at h
    split_ifs at h ⊢ with hraw
    · rw [h.pass]
      rfl
    · rw [h.pass]
      rfl
  | _ => rfl

theorem receiveAll_unhindered {steps : List Step}
    (h : x.obstacles.Spare (steps.flatMap Step.primitives)) (frame : Frame) :
    receiveAll x response steps frame = receiveAll x.unhindered response steps frame := by
  induction steps generalizing frame with
  | nil => rfl
  | cons step rest ih =>
    have hstep : x.obstacles.Spare step.primitives :=
      fun p hp => h p (List.mem_append_left _ hp)
    have hrest : x.obstacles.Spare (rest.flatMap Step.primitives) :=
      fun p hp => h p (List.mem_append_right _ hp)
    rw [receiveAll, receiveAll, Step.receive_unhindered hstep]
    cases step.receive x.unhindered response frame with
    | error e => rfl
    | ok received =>
      obtain ⟨frame, v⟩ := received
      cases v with
      | some v => rfl
      | none => exact ih hrest frame

theorem runSteps_unhindered {σ : Type} {steps : List Step}
    (h : x.obstacles.Spare (steps.flatMap Step.primitives))
    (send : Completion → Request → σ → Except CallError Response × σ) (d : Draft) (s : σ) :
    runSteps x send steps d frame s = runSteps x.unhindered send steps d frame s := by
  induction steps generalizing d with
  | nil => rfl
  | cons step rest ih =>
    have hstep : x.obstacles.Spare step.primitives :=
      fun p hp => h p (List.mem_append_left _ hp)
    have hrest : x.obstacles.Spare (rest.flatMap Step.primitives) :=
      fun p hp => h p (List.mem_append_right _ hp)
    by_cases hinvoke : ∃ mode, step = .invoke mode
    · obtain ⟨mode, rfl⟩ := hinvoke
      rw [runSteps, runSteps, Obstacles.Spare.pass hstep]
      simp only [receiveAll_unhindered hrest]
      rfl
    · have hno : ∀ mode, step ≠ .invoke mode := fun mode he => hinvoke ⟨mode, he⟩
      rw [runSteps_cons hno, runSteps_cons hno, Step.build_unhindered hstep]
      cases step.build x.unhindered frame d with
      | error b => rfl
      | ok d => exact ih hrest d

end

/-! ### What the names lead to -/

theorem Primitive.ofName?_name (q : Primitive) : ofName? q.name = some q := by
  cases q <;> rfl

theorem Primitive.name_notMem_stateNames (q : Primitive) :
    ClientClass.stateNames.contains q.name = false := by
  cases q <;> decide

namespace ClientClass
variable {c : ClientClass} {p : Program} {candidate : Candidate} {o : Operation}

/-- The names of the methods of the contract. -/
def methodNames (c : ClientClass) : List String := c.contract.operations.map (·.name)

theorem operation?_eq_none {name : String} : c.operation? name = none ↔ name ∉ c.methodNames :=
  find?_name_eq_none

theorem attribute?_primitive (q : Primitive) :
    c.attribute? p q.name = some (.primitive q) ↔ q.name ∉ c.methodNames := by
  rw [← operation?_eq_none, attribute?, q.name_notMem_stateNames, q.ofName?_name]
  cases c.operation? q.name with
  | none => exact ⟨fun _ => rfl, fun _ => rfl⟩
  | some o => exact ⟨fun h => (nomatch h), fun h => (nomatch h)⟩

theorem attribute?_operation (h : c.IsClientOf p candidate) (ho : o ∈ c.contract.operations) :
    c.attribute? p o.name = some (.operation o (c.plan o)) ↔ o.name ∉ stateNames := by
  rw [attribute?, h.operation?_name ho]
  split_ifs with hstate
  · exact ⟨fun h => (nomatch h), fun h => absurd (List.contains_iff_mem.mp hstate) h⟩
  · exact ⟨fun _ h => hstate (List.contains_iff_mem.mpr h), fun _ => rfl⟩

theorem spare_obstacles {ps : List Primitive} (h : ∀ q ∈ ps, q.name ∉ c.methodNames) :
    c.obstacles.Spare ps := by
  intro q hq arguments
  rw [obstacles, operation?_eq_none.mpr (h q hq)]
  rfl

theorem exists_obstacle {q : Primitive} (h : q.name ∈ c.methodNames) (arguments : Nat) :
    ∃ b, c.obstacles.pass q arguments = .error b := by
  cases ho : c.operation? q.name with
  | none => exact absurd h (operation?_eq_none.mp ho)
  | some o =>
    rw [Obstacles.pass, obstacles, ho]
    exact ⟨_, rfl⟩

end ClientClass

/-! ### Calls of methods -/

namespace ClientRegistry
variable {f : ClientRegistry} {b : BoundClient} {o : Operation} {plan : CallPlan} {a : Arguments}
  {frame : Frame} {t : Traffic}

/-- What comes of a method that performs a plan and meets nothing on its way. -/
def performed (f : ClientRegistry) (b : BoundClient) (o : Operation) (plan : CallPlan)
    (a : Arguments) (frame : Frame) (t : Traffic) : CallReport × ClientRegistry × Traffic :=
  let (result, frame, client, t) :=
    plan.run (b.cls.contract.context f.program.scope) (send b) frame (f.client, t)
  ({ result, isAsync := o.isAsync, arguments := a.updated o.formals frame }, { f with client }, t)

theorem call_operation (h : b.cls.attribute? f.program o.name = some (.operation o plan)) :
    f.call b o.name a t = f.callOperation b o plan a t := by
  rw [call, h]

theorem callOperation_eq_performed (ha : a.bind? o.formals = some frame)
    (h : ∀ q ∈ plan.primitives, q.name ∉ b.cls.methodNames) :
    f.callOperation b o plan a t = f.performed b o plan a frame t := by
  rw [callOperation, ha]
  simp only [CallPlan.run]
  rw [runSteps_unhindered (ClientClass.spare_obstacles h)]
  rfl

/-- A method that is found performs its own plan where no method is called like a function that the plan
needs. -/
theorem call_eq_performed {candidate : Candidate} (hclient : b.cls.IsClientOf f.program candidate)
    (ho : o ∈ b.cls.contract.operations) (hstate : o.name ∉ ClientClass.stateNames)
    (hfree : ∀ q ∈ (b.cls.plan o).primitives, q.name ∉ b.cls.methodNames)
    (ha : a.bind? o.formals = some frame) :
    f.call b o.name a t = f.performed b o (b.cls.plan o) a frame t :=
  (call_operation ((ClientClass.attribute?_operation hclient ho).mpr hstate)).trans
    (callOperation_eq_performed ha hfree)

end ClientRegistry

theorem Operation.exists_of_mem_bindingSteps {o : Operation} {role : Role}
    {step : List (String × String) → Step} {s : Step} (h : s ∈ o.bindingSteps role step) :
    ∃ bs, s = step bs := by
  unfold bindingSteps at h
  split at h
  · cases h
  · exact ⟨_, List.mem_singleton.mp h⟩

theorem Operation.steps_plan {o : Operation} {plan : CallPlan} (h : o.plan = .ok plan) :
    ∃ before rest, plan.steps = before ++ .construct o.verb o.path :: rest ∧
      ∀ step ∈ before, ∀ mode, step ≠ .invoke mode := by
  unfold Operation.plan at h
  obtain ⟨body, -, h⟩ := bind_eq_ok.mp h
  obtain ⟨returns, -, h⟩ := bind_eq_ok.mp h
  have hsteps : ∃ rest, plan.steps = o.bindingSteps .pathVariable .bindPath ++
      (o.bindingSteps .queryParameter .bindQuery ++ .construct o.verb o.path :: rest) := by
    rw [← Except.ok.inj h]
    simp only [List.append_assoc, List.singleton_append]
    exact ⟨_, rfl⟩
  obtain ⟨rest, hrest⟩ := hsteps
  refine ⟨_, rest, hrest.trans (List.append_assoc ..).symm, ?_⟩
  rintro step hstep mode rfl
  rcases List.mem_append.mp hstep with hstep | hstep
  · obtain ⟨bs, hbs⟩ := exists_of_mem_bindingSteps hstep
    cases hbs
  · obtain ⟨bs, hbs⟩ := exists_of_mem_bindingSteps hstep
    cases hbs

theorem CallPlan.run_of_obstacle {σ : Type} {o : Operation} {plan : CallPlan} {x : CallContext}
    (hplan : o.plan = .ok plan) (hx : ∃ b, x.obstacles.pass .buildRequest 4 = .error b)
    (send : Completion → Request → σ → Except CallError Response × σ) (frame : Frame) (s : σ) :
    ∃ b, plan.run x send frame s = (.error (.broken b), frame, s) := by
  obtain ⟨before, rest, hsteps, hbefore⟩ := Operation.steps_plan hplan
  obtain ⟨b, hb⟩ := hx
  rw [run, hsteps, runSteps_append hbefore]
  cases Step.buildAll x frame before {} with
  | error b' => exact ⟨b', rfl⟩
  | ok d =>
    have hmake : ∀ mode, Step.construct o.verb o.path ≠ .invoke mode := by simp
    simp only
    rw [runSteps_cons hmake, Step.build, hb]
    exact ⟨b, rfl⟩

theorem ClientRegistry.events_callOperation_of_obstacle {f : ClientRegistry} {b : BoundClient}
    {o : Operation} {plan : CallPlan} {a : Arguments} {frame : Frame} {t : Traffic}
    (hplan : o.plan = .ok plan) (ha : a.bind? o.formals = some frame)
    (h : Primitive.buildRequest.name ∈ b.cls.methodNames) :
    (f.callOperation b o plan a t).2.2.events = t.events := by
  rw [callOperation, ha]
  obtain ⟨e, he⟩ := CallPlan.run_of_obstacle (x := {
    scope := f.program.scope, binder := b.binder, obstacles := b.cls.obstacles }) hplan
    (ClientClass.exists_obstacle h 4) (send b) frame (f.client, t)
  simp only [he]

/-- A class that was loaded is made from a contract of its program. On its clients, the functions that
bodies call are those of the client, except the ones that a method of the contract is called like; and
a method is found unless the state of the client has its name. A method that is found performs its own
plan, if no method is called like a function that the plan needs. If one is called like the function
that makes requests, no method hands anything to the transport. -/
theorem methods_perform_own_plans (f : ClientRegistry) (b : BoundClient) :
    (∀ (name : ClassName) (t : Traffic), (f.loadClass name t).1 = .ok b.cls →
      b.cls.subject = name ∧ ∃ candidate, b.cls.IsClientOf f.program candidate) ∧
    ∀ candidate : Candidate, b.cls.IsClientOf f.program candidate →
      (∀ q : Primitive, b.cls.attribute? f.program q.name = some (.primitive q) ↔
        q.name ∉ b.cls.methodNames) ∧
      ∀ o ∈ b.cls.contract.operations, ∃ plan, o.plan = .ok plan ∧
        (b.cls.attribute? f.program o.name = some (.operation o plan) ↔
          o.name ∉ ClientClass.stateNames) ∧
        ∀ (a : Arguments) (frame : Frame) (t : Traffic),
          a.bind? o.formals = some frame → o.name ∉ ClientClass.stateNames →
          ((∀ q ∈ plan.primitives, q.name ∉ b.cls.methodNames) →
            f.call b o.name a t = f.performed b o plan a frame t) ∧
          (Primitive.buildRequest.name ∈ b.cls.methodNames →
            (f.call b o.name a t).2.2.events = t.events) := by
  refine ⟨fun name t => ClientRegistry.exists_isClientOf, fun candidate hclient =>
    ⟨ClientClass.attribute?_primitive, fun o ho => ⟨b.cls.plan o, hclient.exists_plan ho,
      ClientClass.attribute?_operation hclient ho, fun a frame t ha hstate => ?_⟩⟩⟩
  refine ⟨fun hfree => ClientRegistry.call_eq_performed hclient ho hstate hfree ha, fun hcaptured => ?_⟩
  rw [ClientRegistry.call_operation ((ClientClass.attribute?_operation hclient ho).mpr hstate)]
  exact ClientRegistry.events_callOperation_of_obstacle (hclient.exists_plan ho) ha hcaptured

/-- A contract whose methods have the names and get what is under their name. -/
def usersScope (names : List String) : Scope :=
  [{ name := ⟨"app", "Users"⟩
     body := .contract {
       kind := .protocol, service := some ⟨"users", ""⟩
       members := names.map fun n =>
         (n, .method { endpoint := some ⟨"GET", "/" ++ n⟩, returns := some .nothing } false) } }]

/-- A registry for a program with one contract, whose methods have certain names. -/
def usersRegistry (names : List String) : ClientRegistry where
  program := { scope := usersScope names, lineages := ((usersScope names).declare.toOption).getD [] }
  settings := {}
  client := HttpSender.usersSender
  tree := ⟨[], []⟩

def usersCandidate (names : List String) : Candidate :=
  (((usersRegistry names).program.candidate ⟨"app", "Users"⟩).toOption).getD default

def usersContract (names : List String) : Contract :=
  ((Contract.ofCandidate (usersCandidate names)).toOption).getD default

/-- The class of its clients. -/
def usersClass (names : List String) : ClientClass where
  subject := ⟨"app", "Users"⟩
  contract := usersContract names
  plans := ((usersContract names).plans.toOption).getD []
  name := "appUsers"
  module := "declient.generated"
  doc := ""
  isFinal := false

theorem isClientOf_usersClass {names : List String}
    (hcandidate : ((usersRegistry names).program.candidate ⟨"app", "Users"⟩).toOption.isSome)
    (hcontract : (Contract.ofCandidate (usersCandidate names)).toOption.isSome)
    (hplans : (usersContract names).plans.toOption.isSome) :
    (usersClass names).IsClientOf (usersRegistry names).program (usersCandidate names) where
  declared := eq_ok_getD hcandidate _
  contract := eq_ok_getD hcontract _
  plans := eq_ok_getD hplans _

def usersClient (names : List String) : BoundClient := ⟨usersClass names, "app"⟩

theorem exists_operation_of_names {names : List String} {name : String} (h : name ∈ names)
    (hnames : (usersClass names).methodNames = names) :
    ∃ o ∈ (usersContract names).operations, o.name = name := by
  rw [← hnames] at h
  exact List.mem_map.mp h

/-- Nothing stands in the way of a method with a name that is not taken. -/
theorem methods_perform_own_plans_ping :
    (usersClass ["ping"]).IsClientOf (usersRegistry ["ping"]).program (usersCandidate ["ping"]) ∧
      ∃ o ∈ (usersContract ["ping"]).operations, o.name = "ping" ∧
        ∃ plan frame, o.plan = .ok plan ∧ Arguments.bind? o.formals {} = some frame ∧
          (usersRegistry ["ping"]).call (usersClient ["ping"]) o.name {} {} =
            (usersRegistry ["ping"]).performed (usersClient ["ping"]) o plan {} frame {} := by
  have hclient : (usersClass ["ping"]).IsClientOf _ (usersCandidate ["ping"]) :=
    isClientOf_usersClass (by decide +kernel) (by decide +kernel) (by decide +kernel)
  have hnames : (usersClass ["ping"]).methodNames = ["ping"] := by decide +kernel
  have hbind : ∀ o ∈ (usersContract ["ping"]).operations,
      (Arguments.bind? o.formals {}).isSome = true :=
    List.all_eq_true.mp (by decide +kernel)
  obtain ⟨o, ho, hname⟩ := exists_operation_of_names (List.mem_singleton_self "ping") hnames
  obtain ⟨frame, hframe⟩ := Option.isSome_iff_exists.mp (hbind o ho)
  obtain ⟨-, hmethods⟩ := methods_perform_own_plans (usersRegistry ["ping"]) (usersClient ["ping"])
  obtain ⟨-, hown⟩ := hmethods _ hclient
  obtain ⟨plan, hplan, -, hcall⟩ := hown o ho
  have hfree : ∀ q : Primitive, q.name ∉ (usersClass ["ping"]).methodNames := by
    rw [hnames]
    intro q
    cases q <;> decide
  exact ⟨hclient, o, ho, hname, plan, frame, hplan, hframe,
    (hcall {} frame {} hframe (by rw [hname]; decide)).1 fun q _ => hfree q⟩

/-- A method that is called like the function that makes requests keeps another one from its plan. -/
example : ((usersRegistry ["ping", "create_request"]).call
    (usersClient ["ping", "create_request"]) "ping" {} {}).1.result = .error (.broken .wrongType) := by
  with_unfolding_all rfl

end HttpContract
