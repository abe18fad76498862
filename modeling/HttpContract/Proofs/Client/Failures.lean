import HttpContract.Proofs.Client.Attributes
import HttpContract.Proofs.Declaration.AsyncForms

/-!
# Failures of the transport

Which failures of the transport a caller gets to see as they are. Timeouts, failed connections and
statuses become errors of the service; any other failure breaks the call off at the attempt that meets
it. Nothing else in a method fails like that: the steps of a plan have errors of their own
(`runSteps_cases`), so a method breaks off with an error of the HTTP library exactly if the sending of
its request does (`transport_failures_reach_callers_iff`).
-/

namespace HttpContract

namespace Breakdown

/-- Whether an error is one of the HTTP library. -/
def isTransport : Breakdown → Bool
  | invalidUrl | readFailed | protocolViolated => true
  | _ => false

/-- An error that is raised on this side of the HTTP library. -/
def IsLocal (b : Breakdown) : Prop := b.isTransport = false

end Breakdown

/-- What a call breaks off with after an outcome, if it does. -/
def Outcome.breakdown? (url : Url) : Outcome → Option Breakdown
  | .response p => HttpSender.refusal? url p
  | .timeout | .connectFailed => none
  | .failed b => some b

/-- The outcome of the last attempt of a call. -/
def Traffic.lastOutcome (t : Traffic) (retries : Nat) : Outcome :=
  outcomeAt t.script (attemptCount t.script retries - 1)

/-! ### Sending -/

namespace HttpSender
variable {c : HttpSender} {mode : Completion} {r : Request} {id : String} {out : SentRequest}
  {url : Url} {o : Outcome} {result : Except CallError Response}

/-- How sending is meant to end: with a response of success, or with an error of the service that
carries the id of the request. -/
inductive Surfaces (id : String) : Except CallError Response → Prop
  | success {p : Response} (status : 200 ≤ p.status ∧ p.status < 300) : Surfaces id (.ok p)
  | service {e : RemoteError} (requestId : e.requestId = some id) :
      Surfaces id (.error (.service e))

theorem not_surfaces_broken {b : Breakdown} : ¬ Surfaces id (.error (.broken b)) := nofun

theorem Concludes.surfaces (h : Concludes c r id url o result) (ho : o.breakdown? url = none) :
    Surfaces id result := by
  cases h with
  | success _ status => exact .success status
  | serverError => exact .service rfl
  | clientError => exact .service rfl
  | timeout => exact .service rfl
  | connection => exact .service rfl
  | refused refused =>
    rw [Outcome.breakdown?, refused] at ho
    cases ho
  | failed b => cases ho

theorem Concludes.eq_broken {b : Breakdown} (h : Concludes c r id url o result)
    (ho : o.breakdown? url = some b) : result = .error (.broken b) := by
  cases h with
  | success accepted =>
    rw [Outcome.breakdown?, accepted] at ho
    cases ho
  | serverError accepted =>
    rw [Outcome.breakdown?, accepted] at ho
    cases ho
  | clientError accepted =>
    rw [Outcome.breakdown?, accepted] at ho
    cases ho
  | timeout => cases ho
  | connection => cases ho
  | refused refused =>
    rw [Outcome.breakdown?, refused] at ho
    cases ho
    rfl
  | failed b =>
    cases ho
    rfl

theorem concludes_send (hopen : c.isClosedFor mode = false) {t : Traffic}
    (hout : c.outgoing r (identify r t).1 = .ok out) :
    Concludes c r (identify r t).1 out.url (t.lastOutcome c.settings.maxRetries)
      (c.send mode r t).1 := by
  rw [send_of_open hopen hout]
  exact concludes_ofOutcome ..

theorem identify_record (r : Request) (t : Traffic) (record : LogRecord) :
    (identify r (t.record record)).1 = (identify r t).1 := by
  unfold identify
  cases ownId? r <;> rfl

/-- Sending ends as it is meant to exactly if nothing breaks it off at the last attempt. -/
theorem surfaces_send_iff (hopen : c.isClosedFor mode = false) {t : Traffic}
    (hout : c.outgoing r (identify r t).1 = .ok out) :
    (Surfaces (identify r t).1 (c.send mode r t).1 ↔
      (t.lastOutcome c.settings.maxRetries).breakdown? out.url = none) ∧
    ∀ b, (c.send mode r t).1 = .error (.broken b) ↔
      (t.lastOutcome c.settings.maxRetries).breakdown? out.url = some b := by
  have hsend := concludes_send hopen hout
  cases ho : (t.lastOutcome c.settings.maxRetries).breakdown? out.url with
  | none =>
    have hends := hsend.surfaces ho
    refine ⟨iff_of_true hends rfl, fun b => iff_of_false (fun h => ?_) nofun⟩
    rw [h] at hends
    exact not_surfaces_broken hends
  | some b =>
    have hends := hsend.eq_broken ho
    rw [hends]
    refine ⟨iff_of_false not_surfaces_broken nofun, fun b' => ?_⟩
    rw [Except.error.injEq, CallError.broken.injEq, Option.some.injEq]

end HttpSender

/-! ### Building requests -/

section
variable {frame : Frame}

theorem Frame.value_isLocal (frame : Frame) (name : String) :
    FailsOnly Breakdown.IsLocal (frame.value name) := by
  unfold value
  cases Entries.get? frame name with
  | none => exact .error rfl
  | some v => exact .ok v

theorem Frame.values_isLocal (frame : Frame) (bindings : List (String × String)) :
    FailsOnly Breakdown.IsLocal (frame.values bindings) :=
  .mapM fun b _ => (frame.value_isLocal b.2).map

theorem valueText_isLocal (v : Value) : FailsOnly Breakdown.IsLocal (valueText v) := by
  have hany : FailsOnly (fun _ => True) v.wireText := fun _ _ => trivial
  refine hany.mapError fun e _ => ?_
  cases e <;> rfl

theorem formatQuery_isLocal (v : Value) : FailsOnly Breakdown.IsLocal (formatQuery v) := by
  unfold formatQuery
  split
  · exact .bind (.mapM fun v _ => valueText_isLocal v) fun _ => .ok _
  · exact .bind (.mapM fun v _ => valueText_isLocal v) fun _ => .ok _
  · exact (valueText_isLocal v).map

theorem Binder.request_isLocal (b : Binder) (method path : String)
    (filled params : List (String × Value)) :
    FailsOnly Breakdown.IsLocal (b.request method path filled params) := by
  have hsegments : FailsOnly Breakdown.IsLocal (segments path filled) :=
    .mapM fun v _ => .bind (valueText_isLocal v.2) fun _ => .ok _
  have hquery : FailsOnly Breakdown.IsLocal (query params) :=
    .mapM fun p _ => .bind (formatQuery_isLocal p.2) fun _ => .ok _
  exact hsegments.bind fun _ => hquery.bind fun _ => .ok _

theorem Content.raw_isLocal (v : Value) (contentType : Option String) :
    FailsOnly Breakdown.IsLocal (raw v contentType) := by
  unfold raw
  split
  all_goals first | exact .ok _ | exact .error rfl

theorem Content.json_isLocal (v : Value) (contentType : Option String) :
    FailsOnly Breakdown.IsLocal (json v contentType) := by
  unfold json
  split
  · exact .ok _
  · exact .error rfl

/-! ### Steps -/

variable {x : CallContext} (hx : x.obstacles = .none)
include hx

theorem CallContext.pass_isLocal (q : Primitive) (arguments : Nat) :
    FailsOnly Breakdown.IsLocal (x.obstacles.pass q arguments) :=
  hx ▸ .ok ()

theorem Step.headerText_isLocal (parameter : String) :
    FailsOnly Breakdown.IsLocal (headerText x frame parameter) := by
  refine .bind (frame.value_isLocal parameter) fun v => ?_
  split
  · exact .ok _
  · exact .bind (x.pass_isLocal hx _ _) fun _ => (valueText_isLocal _).map

theorem Step.encodeBody_isLocal (format : Option BodyEncoding) (contentType : Option String)
    (v : Value) :
    FailsOnly Breakdown.IsLocal (encodeBody x format contentType v) := by
  unfold encodeBody
  split_ifs
  · exact .bind (x.pass_isLocal hx _ _) fun _ => Content.raw_isLocal v _
  · exact .bind (x.pass_isLocal hx _ _) fun _ => Content.json_isLocal v _

theorem Step.build_isLocal (step : Step) (d : Draft) :
    FailsOnly Breakdown.IsLocal (step.build x frame d) := by
  cases step with
  | bindPath bs => exact .bind (frame.values_isLocal bs) fun _ => .ok _
  | bindQuery bs => exact .bind (frame.values_isLocal bs) fun _ => .ok _
  | construct verb path =>
    exact .bind (x.pass_isLocal hx _ _) fun _ =>
      .bind (x.binder.request_isLocal verb path _ _) fun _ => .ok _
  | attachHeader header p => exact .bind (headerText_isLocal hx p) fun _ => .ok _
  | attachBody p format contentType =>
    exact .bind (frame.value_isLocal p) fun v =>
      .bind (encodeBody_isLocal hx format contentType v) fun _ => .ok _
  | attachContentHeader header p => exact .bind (headerText_isLocal hx p) fun _ => .ok _
  | _ => exact .ok _

omit hx

/-- An error of a call that is none of the HTTP library. -/
def CallError.IsLocal : CallError → Prop
  | .broken b => b.IsLocal
  | .service _ | .mismatch .. | .invalid _ | .refused _ => True

variable {response : Response}

theorem Response.headerAs_isLocal (scope : Scope) (name : String) (target : TypeExpr) :
    FailsOnly CallError.IsLocal (response.headerAs scope name target) := by
  have hlookup : FailsOnly Breakdown.IsLocal (response.lookup name) := by
    unfold lookup
    split_ifs
    · exact .ok _
    · exact .error rfl
  refine .bind (hlookup.mapError fun _ h => h) fun found => ?_
  split
  · exact .ok _
  · split_ifs
    · exact .ok _
    · split
      · exact .error rfl
      · split
        · exact .ok _
        · exact .error trivial

theorem Response.bodyAs_isLocal (scope : Scope) (target : TypeExpr) :
    FailsOnly CallError.IsLocal (response.bodyAs scope target) := by
  unfold bodyAs
  split_ifs
  · exact .ok _
  · split
    · exact .error rfl
    · simp only
      split
      · exact .ok _
      · exact .error trivial

theorem Value.hold_isLocal (holder v : Value) : FailsOnly Breakdown.IsLocal (holder.hold v) := by
  unfold hold
  split
  all_goals first
    | exact .ok _
    | exact .error rfl
    | skip
  split_ifs
  · exact .ok _
  · exact .error rfl

include hx

theorem Step.receive_isLocal (step : Step) :
    FailsOnly CallError.IsLocal (step.receive x response frame) := by
  have hpass : ∀ q arguments, FailsOnly CallError.IsLocal
      ((x.obstacles.pass q arguments).mapError CallError.broken) :=
    fun q arguments => (x.pass_isLocal hx q arguments).mapError fun _ h => h
  have hhold : ∀ holder v, FailsOnly CallError.IsLocal
      ((Value.hold holder v).mapError CallError.broken) :=
    fun holder v => (holder.hold_isLocal v).mapError fun _ h => h
  cases step with
  | extractHeader header p type =>
    refine .bind ((frame.value_isLocal p).mapError fun _ h => h) fun v => ?_
    split
    · exact .ok _
    · exact .bind (hpass _ _) fun _ => .bind (response.headerAs_isLocal _ _ _) fun v =>
        .bind (hhold _ v) fun _ => .ok _
  | returnHeader type header =>
    exact .bind (hpass _ _) fun _ => .bind (response.headerAs_isLocal _ _ _) fun _ => .ok _
  | returnBody type format =>
    rw [receive]
    split_ifs
    · exact .bind (hpass _ _) fun _ => .ok _
    · exact .bind (hpass _ _) fun _ => .bind (response.bodyAs_isLocal _ _) fun _ => .ok _
  | _ => exact .ok _

theorem receiveAll_isLocal (steps : List Step) (frame : Frame) :
    FailsOnly CallError.IsLocal (receiveAll x response steps frame).1 := by
  induction steps generalizing frame with
  | nil => exact .ok _
  | cons step rest ih =>
    rw [receiveAll]
    split
    · next e h => exact .error (Step.receive_isLocal hx step e h)
    · exact .ok _
    · exact ih _

/-! ### Runs -/

/-- A run that hands nothing over fails by itself, if it fails; one that hands a request over fails as
the sending does, and by itself behind it. -/
theorem runSteps_cases (frame : Frame) (steps : List Step) (d : Draft) :
    (∃ result, FailsOnly CallError.IsLocal result ∧
      ∀ {σ : Type} (send : Completion → Request → σ → Except CallError Response × σ) (s : σ),
        runSteps x send steps d frame s = (result, frame, s)) ∨
    ∃ mode r, .invoke mode ∈ steps ∧ ∃ rest : List Step,
      ∀ {σ : Type} (send : Completion → Request → σ → Except CallError Response × σ) (s : σ),
        runSteps x send steps d frame s = match send mode r s with
          | (.error e, s) => (.error e, frame, s)
          | (.ok response, s) =>
            ((receiveAll x response rest frame).1, (receiveAll x response rest frame).2, s) := by
  induction steps generalizing d with
  | nil => exact .inl ⟨.ok .null, .ok _, fun _ _ => rfl⟩
  | cons step rest ih =>
    by_cases hinvoke : ∃ mode, step = .invoke mode
    · obtain ⟨mode, rfl⟩ := hinvoke
      cases hr : d.request with
      | none =>
        refine .inl ⟨.error (.broken .unknownName), .error rfl, fun send s => ?_⟩
        rw [runSteps, hr]
      | some r =>
        cases hpass : x.obstacles.pass (.sending mode) 1 with
        | error b =>
          refine .inl ⟨.error (.broken b), .error (x.pass_isLocal hx _ _ b hpass), fun send s => ?_⟩
          rw [runSteps, hr, hpass]
        | ok u =>
          refine .inr ⟨mode, r, List.mem_cons_self, rest, fun send s => ?_⟩
          rcases hsent : send mode r s with ⟨e | response, s'⟩ <;>
            simp only [runSteps, hr, hpass, hsent]
    · have hno : ∀ mode, step ≠ .invoke mode := fun mode h => hinvoke ⟨mode, h⟩
      cases hbuild : step.build x frame d with
      | error b =>
        refine .inl ⟨.error (.broken b), .error (Step.build_isLocal hx step d b hbuild), fun send s => ?_⟩
        rw [runSteps_cons hno, hbuild]
      | ok d' =>
        rcases ih d' with ⟨result, hresult, hrun⟩ | ⟨mode, r, hmode, rest', hrun⟩
        · refine .inl ⟨result, hresult, fun send s => ?_⟩
          rw [runSteps_cons hno, hbuild]
          exact hrun send s
        · refine .inr ⟨mode, r, List.mem_cons_of_mem _ hmode, rest', fun send s => ?_⟩
          rw [runSteps_cons hno, hbuild]
          exact hrun send s

end

/-! ### Calls -/

/-- A run of a plan hands over no request and fails by itself, if at all; or it hands over one, and ends
as the sending does or as the reading of the response. -/
theorem CallPlan.requests_cases {o : Operation} {plan : CallPlan} (hplan : o.plan = .ok plan)
    {x : CallContext} (hx : x.obstacles = .none) (frame : Frame) :
    (plan.requests x frame = [] ∧
      ∀ {σ : Type} (send : Completion → Request → σ → Except CallError Response × σ) (s : σ),
        FailsOnly CallError.IsLocal (plan.run x send frame s).1) ∨
    ∃ r, plan.requests x frame = [r] ∧
      ∀ {σ : Type} (send : Completion → Request → σ → Except CallError Response × σ) (s : σ),
        (∀ e, (send o.completion r s).1 = .error e → (plan.run x send frame s).1 = .error e) ∧
        ∀ response, (send o.completion r s).1 = .ok response →
          FailsOnly CallError.IsLocal (plan.run x send frame s).1 := by
  rcases runSteps_cases hx frame plan.steps {} with ⟨result, hresult, hrun⟩ |
    ⟨mode, r, hmode, rest, hrun⟩
  · refine .inl ⟨?_, fun send s => ?_⟩
    · rw [requests, run, hrun]
    · rw [run, hrun]
      exact hresult
  · obtain rfl := Operation.eq_completion_of_invoke_mem hplan hmode
    refine .inr ⟨r, ?_, fun send s => ?_⟩
    · rw [requests, run, hrun]
      rfl
    · rw [run, hrun]
      obtain ⟨result, s'⟩ := send o.completion r s
      constructor
      · rintro e rfl
        rfl
      · rintro response rfl
        exact receiveAll_isLocal hx rest frame

open HttpSender in
/-- Over an open channel, a request that can be made ends with a response of success or an error of the
service under its id, unless the last outcome breaks it off: then the caller gets what broke it off as it
is. Of the methods that are not called like a function that their plan needs, one that hands over no request
has no error of the HTTP library; one that does ends with the error that its sending ends with, so it has
one exactly if the last outcome breaks the sending off. -/
theorem transport_failures_reach_callers_iff (c : HttpSender) :
    (∀ (mode : Completion) (r : Request) (t : Traffic) (out : SentRequest),
      c.isClosedFor mode = false → c.outgoing r (identify r t).1 = .ok out →
      (Surfaces (identify r t).1 (c.send mode r t).1 ↔
        (t.lastOutcome c.settings.maxRetries).breakdown? out.url = none) ∧
      ∀ b, (c.send mode r t).1 = .error (.broken b) ↔
        (t.lastOutcome c.settings.maxRetries).breakdown? out.url = some b) ∧
    ∀ (f : ClientRegistry) (client : BoundClient) (candidate : Candidate),
      f.client = c → client.cls.IsClientOf f.program candidate →
      ∀ o ∈ client.cls.contract.operations, o.name ∉ ClientClass.stateNames →
      ∃ plan, o.plan = .ok plan ∧ ((∀ q ∈ plan.primitives, q.name ∉ client.cls.methodNames) →
        ∀ (a : Arguments) (frame : Frame) (t : Traffic), a.bind? o.formals = some frame →
        let result := (f.call client o.name a t).1.result
        let requests := plan.requests (client.cls.contract.context f.program.scope) frame
        (requests = [] → FailsOnly CallError.IsLocal result) ∧
        ∀ r ∈ requests,
          (∀ e, (ClientRegistry.send client o.completion r (c, t)).1 = .error e →
            result = .error e) ∧
          ∀ out, c.isClosedFor o.completion = false →
            c.outgoing r (identify r t).1 = .ok out →
            ((t.lastOutcome c.settings.maxRetries).breakdown? out.url = none →
              FailsOnly CallError.IsLocal result) ∧
            ∀ b, (t.lastOutcome c.settings.maxRetries).breakdown? out.url = some b →
              result = .error (.broken b)) := by
  refine ⟨fun mode r t out hopen hout => surfaces_send_iff hopen hout, ?_⟩
  rintro f client candidate rfl hclient o ho hstate
  refine ⟨client.cls.plan o, hclient.exists_plan ho, fun hfree a frame t ha => ?_⟩
  simp only [ClientRegistry.call_eq_performed hclient ho hstate hfree ha, ClientRegistry.performed]
  rcases CallPlan.requests_cases (hclient.exists_plan ho)
      (x := client.cls.contract.context f.program.scope) rfl frame with
    ⟨hnone, hrun⟩ | ⟨r, hone, hrun⟩
  · refine ⟨fun _ => hrun _ _, fun r hr => ?_⟩
    rw [hnone] at hr
    cases hr
  · refine ⟨fun hnone => absurd (hone.symm.trans hnone) (List.cons_ne_nil _ _), fun r' hr' => ?_⟩
    rw [hone, List.mem_singleton] at hr'
    subst hr'
    obtain ⟨herror, hok⟩ := hrun (ClientRegistry.send client) (f.client, t)
    refine ⟨herror, fun out hopen hout => ?_⟩
    -- the record of the call comes before its sending and takes no id
    have hid := identify_record r' t (client.invokingRecord r')
    have hsend := concludes_send hopen (t := t.record (client.invokingRecord r')) (by rw [hid, hout])
    rw [hid] at hsend
    constructor
    · intro hlast
      have hends := hsend.surfaces hlast
      cases hsent : (ClientRegistry.send client o.completion r' (f.client, t)).1 with
      | ok response => exact hok response hsent
      | error e =>
        rw [herror e hsent]
        refine .error ?_
        have hends : Surfaces _ (.error e) := hsent ▸ hends
        cases hends with
        | service => exact trivial
    · intro b hlast
      exact herror _ (hsend.eq_broken hlast)

/-- A plan without parameters and without a result. -/
def pingPlan : CallPlan := ⟨"ping", [.construct "GET" "/ping", .invoke .sync]⟩

def pingRequest : Request := { method := "GET", service := "users", path := "/ping" }

/-- A connection that fails while the answer is read: sending a request breaks off with that, and so
does a method of the users. -/
theorem read_failures_reach_callers :
    (HttpSender.usersSender.send .sync HttpSender.userRequest
        { script := [.timeout, .failed .readFailed] }).1 = .error (.broken .readFailed) ∧
      (usersClass ["ping"]).IsClientOf (usersRegistry ["ping"]).program (usersCandidate ["ping"]) ∧
      ∃ o ∈ (usersContract ["ping"]).operations, o.name = "ping" ∧
        ((usersRegistry ["ping"]).call (usersClient ["ping"]) o.name {}
          { script := [.failed .readFailed] }).1.result = .error (.broken .readFailed) := by
  obtain ⟨hsend, hcalls⟩ := transport_failures_reach_callers_iff HttpSender.usersSender
  have hclient : (usersClass ["ping"]).IsClientOf _ (usersCandidate ["ping"]) :=
    isClientOf_usersClass (by decide +kernel) (by decide +kernel) (by decide +kernel)
  have hnames : (usersClass ["ping"]).methodNames = ["ping"] := by decide +kernel
  obtain ⟨o, ho, hname⟩ := exists_operation_of_names (List.mem_singleton_self "ping") hnames
  have hops : (usersContract ["ping"]).operations.map (fun o =>
      (o.plan.toOption, Arguments.bind? o.formals {}, o.completion)) =
        [(some pingPlan, some [], .sync)] := by
    with_unfolding_all rfl
  have hrequests : pingPlan.requests
      ((usersContract ["ping"]).context (usersScope ["ping"])) [] = [pingRequest] := by
    with_unfolding_all rfl
  have hout : (HttpSender.usersSender.outgoing pingRequest (HttpSender.identify pingRequest
      { script := [.failed .readFailed] }).1).toOption.isSome = true := by
    decide +kernel
  refine ⟨?_, hclient, o, ho, hname, ?_⟩
  · obtain ⟨-, hbroken⟩ := hsend .sync HttpSender.userRequest
      { script := [.timeout, .failed .readFailed] } HttpSender.sentUserRequest rfl
      HttpSender.outgoing_userRequest
    exact (hbroken .readFailed).mpr (by with_unfolding_all rfl)
  · have hmem := List.mem_map_of_mem (f := fun o : Operation =>
      (o.plan.toOption, Arguments.bind? o.formals {}, o.completion)) ho
    rw [hops, List.mem_singleton] at hmem
    simp only [Prod.mk.injEq] at hmem
    obtain ⟨hplan, hframe, hmode⟩ := hmem
    obtain ⟨plan, hplan', hcall⟩ := hcalls (usersRegistry ["ping"])
      (usersClient ["ping"]) _ rfl hclient o ho (by rw [hname]; decide)
    rw [hplan'] at hplan
    cases hplan
    have hfree : ∀ q ∈ pingPlan.primitives, q.name ∉ (usersClass ["ping"]).methodNames := by
      rw [hnames]
      decide
    obtain ⟨-, hsent⟩ := hcall hfree {} [] { script := [.failed .readFailed] } hframe
    obtain ⟨-, hends⟩ := hsent pingRequest (hrequests ▸ List.mem_singleton_self _)
    exact (hends _ (by rw [hmode]; rfl) (eq_ok_getD hout default)).2 .readFailed
      (by with_unfolding_all rfl)

end HttpContract
