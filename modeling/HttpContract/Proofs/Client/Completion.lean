import HttpContract.Proofs.Client.Attributes
import HttpContract.Proofs.Declaration.AsyncForms
import HttpContract.Proofs.Declaration.Eligibility

/-!
# Calls that are awaited

The two ways to send differ in the channel they use (`HttpSender.send_async`), so a run of a plan and
of the plan with the other way to send go through the same states (`runSteps_deferred`). A method and
its asynchronous form on another client are the same call: they send the same requests with the same
pauses between, and leave the same result and the same holders (`async_form_is_same_call`).
-/

namespace HttpContract

/-! ### Sending -/

namespace HttpSender
variable {c : HttpSender}

theorem send_async (h : c.isClosedFor .async = c.isClosedFor .sync) (r : Request) (t : Traffic) :
    c.send .async r t =
      ((c.send .sync r t).1, (c.send .sync r t).2.1.opened .async, (c.send .sync r t).2.2) := by
  rw [send_eq, send_eq, attempts_congr rfl h]
  rfl

end HttpSender

/-! ### Runs -/

section
variable {σ : Type} {x : CallContext} {frame : Frame} {s : σ} {response : Response}
  {send send' : Completion → Request → σ → Except CallError Response × σ}

theorem Step.receive_deferred (step : Step) :
    step.deferred.receive x response frame = step.receive x response frame := by
  cases step <;> rfl

theorem receiveAll_deferred (steps : List Step) (frame : Frame) :
    receiveAll x response (steps.map Step.deferred) frame = receiveAll x response steps frame := by
  induction steps generalizing frame with
  | nil => rfl
  | cons step rest ih =>
    rw [List.map_cons, receiveAll, receiveAll, Step.receive_deferred]
    cases step.receive x response frame with
    | error e => rfl
    | ok received =>
      obtain ⟨frame, v⟩ := received
      cases v with
      | some v => rfl
      | none => exact ih frame

/-- Where two ways to send get the same answer, a run and its twin have the same result and leave the
same frame; the states they leave differ as sending makes them differ, if anything is sent. -/
theorem runSteps_deferred {g : σ → σ} {steps : List Step}
    (hx : x.obstacles.pass .invokeAsync 1 = x.obstacles.pass .invoke 1)
    (hsync : ∀ mode, .invoke mode ∈ steps → mode = .sync)
    (hsend : ∀ r, send' .async r s = ((send .sync r s).1, g (send .sync r s).2)) (d : Draft) :
    ∃ s', (s' = (runSteps x send steps d frame s).2.2 ∨
        s' = g (runSteps x send steps d frame s).2.2) ∧
      runSteps x send' (steps.map Step.deferred) d frame s =
        ((runSteps x send steps d frame s).1, (runSteps x send steps d frame s).2.1, s') := by
  induction steps generalizing d with
  | nil => exact ⟨s, .inl rfl, rfl⟩
  | cons step rest ih =>
    have hrest : ∀ mode, .invoke mode ∈ rest → mode = .sync :=
      fun mode hm => hsync mode (List.mem_cons_of_mem _ hm)
    by_cases hinvoke : ∃ mode, step = .invoke mode
    · obtain ⟨mode, rfl⟩ := hinvoke
      obtain rfl := hsync mode List.mem_cons_self
      rw [List.map_cons, Step.deferred, runSteps, runSteps, Primitive.sending, Primitive.sending, hx]
      cases d.request with
      | none => exact ⟨s, .inl rfl, rfl⟩
      | some r =>
        cases x.obstacles.pass .invoke 1 with
        | error b => exact ⟨s, .inl rfl, rfl⟩
        | ok u =>
          simp only [hsend r, receiveAll_deferred]
          cases hsent : send .sync r s with
          | mk result s' =>
            cases result with
            | error e => exact ⟨g s', .inr rfl, rfl⟩
            | ok response => exact ⟨g s', .inr rfl, rfl⟩
    · have hno : ∀ mode, step ≠ .invoke mode := fun mode he => hinvoke ⟨mode, he⟩
      have hsame : step.deferred = step := by
        cases step with
        | invoke mode => exact absurd rfl (hno mode)
        | _ => rfl
      rw [List.map_cons, hsame, runSteps_cons hno, runSteps_cons hno]
      cases step.build x frame d with
      | error b => exact ⟨s, .inl rfl, rfl⟩
      | ok d => exact ih hrest d

end

/-! ### Calls -/

theorem ClientClass.IsClientOf.operations_methods {c : ClientClass} {p : Program}
    {candidate : Candidate} (h : c.IsClientOf p candidate) :
    List.Forall₂
      (fun m o => m.2.operation (p.evaluation c.subject.full m.1) c.subject.full m.1 = .ok o)
      (p.methods (p.lineageOf c.subject)) c.contract.operations := by
  have hdescribe : p.describe (.declared c.subject) = .ok c.contract :=
    bind_eq_ok.mpr ⟨candidate, h.declared, h.contract⟩
  obtain ⟨n, hn, hmethods⟩ := Program.operations_of_describe hdescribe
  cases hn
  exact hmethods

/-- A function that is another one, or an asynchronous form of it. -/
def Function.IsTwinOf (fn' fn : Function) (meaning : Forward.Evaluation) : Prop :=
  fn' = fn ∨ fn.ReturnsPlainly meaning ∧
    ∃ form : AsyncForm, form.Describable meaning ∧ fn' = fn.inForm form

/-- Two clients of a registry for the same service. The methods of the second one are those of the
first, some of them in an asynchronous form, the texts in their types mean the same, and none of them
stands in front of a function that bodies call. -/
structure ClientRegistry.AreTwins (f : ClientRegistry) (b b' : BoundClient) : Prop where
  loaded : ∃ candidate, b.cls.IsClientOf f.program candidate
  loaded' : ∃ candidate, b'.cls.IsClientOf f.program candidate
  binder : b'.binder = b.binder
  logger : b'.logger = b.logger
  meaning : ∀ name, f.program.evaluation b'.cls.subject.full name =
    f.program.evaluation b.cls.subject.full name
  methods : List.Forall₂ (fun m m' => m'.1 = m.1 ∧
      m'.2.IsTwinOf m.2 (f.program.evaluation b.cls.subject.full m.1))
    (f.program.methods (f.program.lineageOf b.cls.subject))
    (f.program.methods (f.program.lineageOf b'.cls.subject))
  free : ∀ q : Primitive, q.name ∉ b.cls.methodNames

/-- An operation that is another one, or that one with a result that is awaited. -/
def Operation.IsTwinOf (o' o : Operation) : Prop := o' = o ∨ o.completion = .sync ∧ o' = o.deferred

namespace Operation.IsTwinOf
variable {o o' : Operation}

theorem name (h : o'.IsTwinOf o) : o'.name = o.name := by
  rcases h with rfl | ⟨-, rfl⟩
  · rfl
  · rfl

theorem methodFormals (h : o'.IsTwinOf o) : o'.methodFormals = o.methodFormals := by
  rcases h with rfl | ⟨-, rfl⟩
  · rfl
  · rfl

end Operation.IsTwinOf

theorem Function.IsTwinOf.operation {fn fn' : Function} {meaning : Forward.Evaluation}
    (h : fn'.IsTwinOf fn meaning) {contract contract' name : String} {o o' : Operation}
    (ho : fn.operation meaning contract name = .ok o)
    (ho' : fn'.operation meaning contract' name = .ok o') : o'.IsTwinOf o := by
  have hshared := Function.operation_of_eq_ok ho contract'
  rcases h with rfl | ⟨hplain, form, hform, rfl⟩
  · rw [hshared] at ho'
    exact .inl (Except.ok.inj ho').symm
  · rw [Function.operation_inForm hplain hform, hshared] at ho'
    exact .inr ⟨Function.completion_operation hplain ho, (Except.ok.inj ho').symm⟩

namespace ClientRegistry.AreTwins
variable {f : ClientRegistry} {b b' : BoundClient}

theorem operations (h : f.AreTwins b b') : List.Forall₂ (fun o o' => o'.IsTwinOf o)
    b.cls.contract.operations b'.cls.contract.operations := by
  obtain ⟨candidate, hclient⟩ := h.loaded
  obtain ⟨candidate', hclient'⟩ := h.loaded'
  have hback : List.Forall₂ (fun o m => m.2.operation
      (f.program.evaluation b.cls.subject.full m.1) b.cls.subject.full m.1 = .ok o)
      b.cls.contract.operations (f.program.methods (f.program.lineageOf b.cls.subject)) :=
    hclient.operations_methods.flip
  have hacross := forall₂_comp (T := fun o m' => ∃ m : String × Function, m'.1 = m.1 ∧
    m'.2.IsTwinOf m.2 (f.program.evaluation b.cls.subject.full m.1) ∧
      m.2.operation (f.program.evaluation b.cls.subject.full m.1) b.cls.subject.full m.1 = .ok o)
    (fun o m m' ho hm => ⟨m, hm.1, hm.2, ho⟩) hback h.methods
  refine forall₂_comp ?_ hacross hclient'.operations_methods
  rintro o m' o' ⟨m, hname, htwin, ho⟩ ho'
  rw [hname, h.meaning] at ho'
  exact htwin.operation ho ho'

theorem operation?_cases (h : f.AreTwins b b') (name : String) :
    (b.cls.operation? name = none ∧ b'.cls.operation? name = none) ∨
      ∃ o o', b.cls.operation? name = some o ∧ b'.cls.operation? name = some o' ∧ o'.IsTwinOf o := by
  unfold ClientClass.operation?
  have htwins := h.operations
  generalize b.cls.contract.operations = os, b'.cls.contract.operations = os' at htwins ⊢
  induction htwins with
  | nil => exact .inl ⟨rfl, rfl⟩
  | cons htwin _ ih =>
    rw [List.find?_cons, List.find?_cons, htwin.name]
    split
    · exact .inr ⟨_, _, rfl, rfl, htwin⟩
    · exact ih

theorem obstacles (h : f.AreTwins b b') : b'.cls.obstacles = b.cls.obstacles := by
  funext q arguments
  unfold ClientClass.obstacles
  rcases h.operation?_cases q.name with ⟨hnone, hnone'⟩ | ⟨o, o', ho, ho', htwin⟩
  · rw [hnone, hnone']
  · rw [ho, ho', Option.map_some, Option.map_some, htwin.methodFormals]

theorem pass_sending (h : f.AreTwins b b') :
    b.cls.obstacles.pass .invokeAsync 1 = b.cls.obstacles.pass .invoke 1 := by
  have hspare (q : Primitive) : b.cls.obstacles.Spare [q] :=
    ClientClass.spare_obstacles fun q _ => h.free q
  rw [(hspare .invokeAsync).pass, (hspare .invoke).pass]
  rfl

end ClientRegistry.AreTwins

/-- Two calls with one result and the same arguments left, of which the second one may have opened the
asynchronous channel. -/
structure SameCall (r r' : CallReport × ClientRegistry × Traffic) : Prop where
  result : r'.1.result = r.1.result
  arguments : r'.1.arguments = r.1.arguments
  traffic : r'.2.2 = r.2.2
  registry : ∃ client, (client = r.2.1.client ∨ client = r.2.1.client.opened .async) ∧
    r'.2.1 = { r.2.1 with client }

theorem SameCall.refl (r : CallReport × ClientRegistry × Traffic) : SameCall r r :=
  ⟨rfl, rfl, rfl, r.2.1.client, .inl rfl, rfl⟩

namespace ClientRegistry
variable {f : ClientRegistry} {b b' : BoundClient} {o : Operation} {plan : CallPlan}

theorem send_of_binder (hbinder : b'.binder = b.binder) (hlogger : b'.logger = b.logger) :
    send b' = send b := by
  funext mode r s
  rw [send, send, BoundClient.invokingRecord, BoundClient.invokingRecord, hbinder, hlogger]

theorem callOperation_deferred (h : f.AreTwins b b')
    (hopen : f.client.isClosedFor .async = f.client.isClosedFor .sync) (hplan : o.plan = .ok plan)
    (hsync : o.completion = .sync) (a : Arguments) (t : Traffic) :
    SameCall (f.callOperation b o plan a t) (f.callOperation b' o.deferred plan.deferred a t) := by
  have hformals : o.deferred.formals = o.formals := rfl
  unfold callOperation
  rw [hformals, h.binder, h.obstacles, send_of_binder h.binder h.logger]
  cases a.bind? o.formals with
  | none => exact ⟨rfl, rfl, rfl, f.client, .inl rfl, rfl⟩
  | some frame =>
    let x : CallContext :=
      { scope := f.program.scope, binder := b.binder, obstacles := b.cls.obstacles }
    let g : HttpSender × Traffic → HttpSender × Traffic := fun s => (s.1.opened .async, s.2)
    have hmodes : ∀ mode, .invoke mode ∈ plan.steps → mode = .sync := fun mode hmem =>
      (Operation.eq_completion_of_invoke_mem hplan hmem).trans hsync
    have hsend : ∀ r, send b .async r (f.client, t) =
        ((send b .sync r (f.client, t)).1, g (send b .sync r (f.client, t)).2) := fun r =>
      HttpSender.send_async hopen r _
    obtain ⟨s', hs', hrun⟩ := runSteps_deferred (x := x) h.pass_sending hmodes hsend {}
    simp only [CallPlan.run, CallPlan.deferred]
    rw [hrun]
    refine ⟨rfl, rfl, ?_, s'.1, ?_, rfl⟩
    · rcases hs' with rfl | rfl
      · rfl
      · rfl
    · rcases hs' with rfl | rfl
      · exact .inl rfl
      · exact .inr rfl

/-- A method of the second of two twins is the same call as that of the first one. -/
theorem call_twin (h : f.AreTwins b b')
    (hopen : f.client.isClosedFor .async = f.client.isClosedFor .sync) {name : String}
    (hname : name ∈ b.cls.methodNames) (a : Arguments) (t : Traffic) :
    SameCall (f.call b name a t) (f.call b' name a t) := by
  obtain ⟨candidate, hclient⟩ := h.loaded
  obtain ⟨candidate', hclient'⟩ := h.loaded'
  rcases h.operation?_cases name with ⟨hnone, -⟩ | ⟨o, o', ho, ho', htwin⟩
  · exact absurd hname (ClientClass.operation?_eq_none.mp hnone)
  · have hplan := hclient.exists_plan (List.mem_of_find?_eq_some ho)
    have hplan' := hclient'.exists_plan (List.mem_of_find?_eq_some ho')
    by_cases hstate : ClientClass.stateNames.contains name = true
    · have hcall : ∀ c : BoundClient, f.call c name a t =
          ({ result := .error (.broken .wrongType), arguments := a }, f, t) := by
        intro c
        rw [call, ClientClass.attribute?, if_pos hstate]
      rw [hcall b, hcall b']
      exact .refl _
    · have hcall : f.call b name a t = f.callOperation b o (b.cls.plan o) a t := by
        rw [call, ClientClass.attribute?, if_neg hstate, ho]
      have hcall' : f.call b' name a t = f.callOperation b' o' (b'.cls.plan o') a t := by
        rw [call, ClientClass.attribute?, if_neg hstate, ho']
      rw [hcall, hcall']
      rcases htwin with rfl | ⟨hsync, rfl⟩
      · -- the same method on both clients
        have hsame : b'.cls.plan o' = b.cls.plan o' := Except.ok.inj (hplan'.symm.trans hplan)
        have hequal : f.callOperation b' o' (b.cls.plan o') a t =
            f.callOperation b o' (b.cls.plan o') a t := by
          unfold callOperation
          rw [h.binder, h.obstacles, send_of_binder h.binder h.logger]
        rw [hsame, hequal]
        exact .refl _
      · rw [Operation.plan_deferred, hplan] at hplan'
        rw [← Except.ok.inj hplan']
        exact callOperation_deferred h hopen hplan hsync a t

end ClientRegistry

/-- All asynchronous forms of a method are accepted if the method is, and are one operation, which
differs from that of the method in its completion, as its plan does in the step that sends. Called with
the same arguments, a method and its form answer the same and leave the same holders, and the same
requests go out with the same pauses between them. -/
theorem async_forms_are_same_call :
    (∀ (fn : Function) (form : AsyncForm) (meaning : Forward.Evaluation),
      fn.ReturnsPlainly meaning → form.Describable meaning →
      ∀ contract name, (fn.inForm form).operation meaning contract name =
        (fn.operation meaning contract name).map Operation.deferred) ∧
      (∀ o : Operation, o.deferred.plan = o.plan.map CallPlan.deferred) ∧
      ∀ (f : ClientRegistry) (b b' : BoundClient), f.AreTwins b b' →
        f.client.isClosedFor .async = f.client.isClosedFor .sync →
        ∀ name ∈ b.cls.methodNames, ∀ a t, SameCall (f.call b name a t) (f.call b' name a t) := by
  refine ⟨fun fn form meaning hfn hform => Function.operation_inForm hfn hform, Operation.plan_deferred,
    fun f b b' htwins hopen name hname => ClientRegistry.call_twin htwins hopen hname⟩

/-- A method without parameters that returns a number. -/
def pingFunction : Function where
  returns := some (.named "int")
  endpoint := some ⟨"GET", "/ping"⟩

theorem returnsPlainly_pingFunction : pingFunction.ReturnsPlainly Forward.resolve where
  notAsync := rfl
  unmarked := by
    intro c hc
    cases hc
    rfl
  notAwaitable := by
    intro c t hc ht
    cases hc
    cases ht
    rfl

/-- Two contracts of one service, the second one with the method of the first one as an asynchronous
function. -/
def pingScope : Scope :=
  [("Users", pingFunction), ("Waiting", pingFunction.inForm .function)].map fun c =>
    { name := ⟨"app", c.1⟩
      body := .contract {
        kind := .protocol, service := some ⟨"users", ""⟩, members := [("ping", .method c.2 false)] } }

/-- A registry for a program with one method in two forms. -/
def pingRegistry : ClientRegistry where
  program := { scope := pingScope, lineages := (pingScope.declare.toOption).getD [] }
  settings := {}
  client := HttpSender.usersSender
  tree := ⟨[], []⟩

def pingCandidate (name : String) : Candidate :=
  ((pingRegistry.program.candidate ⟨"app", name⟩).toOption).getD default

def pingContract (name : String) : Contract :=
  ((Contract.ofCandidate (pingCandidate name)).toOption).getD default

def pingClient (name : String) : BoundClient where
  cls := {
    subject := ⟨"app", name⟩
    contract := pingContract name
    plans := ((pingContract name).plans.toOption).getD []
    name := "app" ++ name
    module := "declient.generated"
    doc := ""
    isFinal := false }
  logger := "app"

theorem isClientOf_pingClient {name : String} (h : name = "Users" ∨ name = "Waiting") :
    (pingClient name).cls.IsClientOf pingRegistry.program (pingCandidate name) ∧
      (pingClient name).binder = .of "users" "" ∧
      (pingClient name).cls.methodNames = ["ping"] := by
  have hmade : ((pingRegistry.program.candidate ⟨"app", name⟩).toOption.isSome = true ∧
      (Contract.ofCandidate (pingCandidate name)).toOption.isSome = true ∧
        (pingContract name).plans.toOption.isSome = true) ∧
      (pingClient name).binder = .of "users" "" ∧
      (pingClient name).cls.methodNames = ["ping"] := by
    rcases h with rfl | rfl
    · decide +kernel
    · decide +kernel
  obtain ⟨⟨hcandidate, hcontract, hplans⟩, hnames⟩ := hmade
  exact ⟨⟨eq_ok_getD hcandidate _, eq_ok_getD hcontract _, eq_ok_getD hplans _⟩, hnames⟩

theorem methods_pingRegistry {name : String} {fn : Function}
    (hlineage : (pingRegistry.program.lineage? ⟨"app", name⟩).map (fun l => (l.order, l.isInterface)) =
      some ([.declared ⟨"app", name⟩, .protocol, .generic, .object], true))
    (hclass : (pingScope.contract? ⟨"app", name⟩).map (·.members) = some [("ping", .method fn false)]) :
    pingRegistry.program.methods (pingRegistry.program.lineageOf ⟨"app", name⟩) = [("ping", fn)] := by
  obtain ⟨l, hl, hfacts⟩ := Option.map_eq_some_iff.mp hlineage
  obtain ⟨horder, hinterface⟩ := Prod.mk.inj hfacts
  have hcontributed : pingRegistry.program.contributed (.declared ⟨"app", name⟩) =
      [("ping", .method fn false)] := by
    obtain ⟨c, hc, hmembers⟩ := Option.map_eq_some_iff.mp hclass
    have hframework : (⟨"app", name⟩ : ClassName).isFramework = false := rfl
    have hscope : pingRegistry.program.scope = pingScope := rfl
    rw [Program.contributed, hframework, hl, hscope, hc]
    simp only [Option.map_some, Option.getD_some, hinterface, hmembers, Bool.not_true, Bool.or_false,
      Bool.false_eq_true, if_false]
    rfl
  have hpublic : "ping".startsWith "_" = false := by with_unfolding_all rfl
  rw [Program.methods, Program.lineageOf, hl, Option.getD_some, horder]
  show collect _ [] (pingRegistry.program.contributed (.declared ⟨"app", name⟩)) = _
  rw [hcontributed]
  simp only [collect, List.foldl_cons, List.foldl_nil, MemberBody.method?, hpublic,
    Bool.false_eq_true, if_false]
  rfl

theorem areTwins_pingClient : pingRegistry.AreTwins (pingClient "Users") (pingClient "Waiting") where
  loaded := ⟨_, (isClientOf_pingClient (.inl rfl)).1⟩
  loaded' := ⟨_, (isClientOf_pingClient (.inr rfl)).1⟩
  binder := by
    rw [(isClientOf_pingClient (.inl rfl)).2.1, (isClientOf_pingClient (.inr rfl)).2.1]
  logger := rfl
  meaning := fun _ => rfl
  methods := by
    show List.Forall₂ _ (pingRegistry.program.methods
      (pingRegistry.program.lineageOf ⟨"app", "Users"⟩)) (pingRegistry.program.methods
        (pingRegistry.program.lineageOf ⟨"app", "Waiting"⟩))
    rw [methods_pingRegistry (by with_unfolding_all rfl) rfl,
      methods_pingRegistry (by with_unfolding_all rfl) rfl]
    exact .cons ⟨rfl, .inr ⟨returnsPlainly_pingFunction, .function, trivial, rfl⟩⟩ .nil
  free := by
    rw [(isClientOf_pingClient (.inl rfl)).2.2]
    intro q
    cases q <;> decide

/-- What comes over the transport when the number is given. -/
def pingTraffic : Traffic where
  script := [.timeout, .response { status := 200, body := Utf8.encode "7" }]

/-- Both clients get the number after one more attempt. -/
theorem async_forms_are_same_call_ping :
    pingRegistry.AreTwins (pingClient "Users") (pingClient "Waiting") ∧
      SameCall (pingRegistry.call (pingClient "Users") "ping" {} pingTraffic)
        (pingRegistry.call (pingClient "Waiting") "ping" {} pingTraffic) ∧
      ∀ contract name, (pingFunction.inForm (.returning .task)).operation Forward.resolve contract name =
        (pingFunction.operation Forward.resolve contract name).map Operation.deferred := by
  obtain ⟨hforms, -, hcalls⟩ := async_forms_are_same_call
  refine ⟨areTwins_pingClient, hcalls pingRegistry _ _ areTwins_pingClient rfl "ping" ?_ {} _,
    hforms pingFunction (.returning .task) _ returnsPlainly_pingFunction (fun _ h => nomatch h)⟩
  rw [(isClientOf_pingClient (.inl rfl)).2.2]
  exact List.mem_singleton_self "ping"

/-- An awaitable type with an argument that cannot be referred to is refused, whatever it yields. -/
theorem coroutine_of_variable_is_refused :
    ¬ ∀ (fn : Function) (form : AsyncForm) (meaning : Forward.Evaluation),
      fn.ReturnsPlainly meaning → ∀ contract name,
        (∃ o, (fn.inForm form).operation meaning contract name = .ok o) ↔
          ∃ o, fn.operation meaning contract name = .ok o := by
  intro h
  have haccepted : (pingFunction.operation Forward.resolve "app.Users" "ping").toOption.isSome = true := by
    with_unfolding_all rfl
  have hrefused : ((pingFunction.inForm (.returning (.coroutine (.typeVar "T") .nothing))).operation
      Forward.resolve "app.Users" "ping").toOption = none := by
    with_unfolding_all rfl
  obtain ⟨o, ho⟩ := (h pingFunction (.returning (.coroutine (.typeVar "T") .nothing)) _
    returnsPlainly_pingFunction "app.Users" "ping").mpr ⟨_, eq_ok_getD haccepted default⟩
  rw [ho] at hrefused
  cases hrefused

end HttpContract
