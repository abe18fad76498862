import HttpContract.Contract.Description
import HttpContract.Proofs.Client.Drafts

/-!
# Calls of planned operations

A run of a plan makes its draft, sends it once and reads the response (`runSteps_append`). For the
methods of a contract the draft is the request that their roles ask for (`run_sends_requestOf`), and
arguments that cannot be sent end the call before anything is.
-/

namespace HttpContract

/-! ### Runs -/

section
variable {σ : Type} {x : CallContext} {frame : Frame} {s : σ}
  {send : Completion → Request → σ → Except CallError Response × σ}

theorem runSteps_cons {step : Step} (h : ∀ mode, step ≠ .invoke mode) (rest : List Step)
    (d : Draft) : runSteps x send (step :: rest) d frame s =
      match step.build x frame d with
      | .error b => (.error (.broken b), frame, s)
      | .ok d => runSteps x send rest d frame s := by
  cases step with
  | invoke mode => exact absurd rfl (h mode)
  | _ => rfl

/-- Steps that do not send leave the state as it is. -/
theorem runSteps_append {pre : List Step} (h : ∀ step ∈ pre, ∀ mode, step ≠ .invoke mode)
    (rest : List Step) (d : Draft) : runSteps x send (pre ++ rest) d frame s =
      match Step.buildAll x frame pre d with
      | .error b => (.error (.broken b), frame, s)
      | .ok d => runSteps x send rest d frame s := by
  induction pre generalizing d with
  | nil => rfl
  | cons step pre ih =>
    rw [List.forall_mem_cons] at h
    rw [List.cons_append, runSteps_cons h.1, Step.buildAll, List.foldlM_cons]
    cases step.build x frame d with
    | error b => rfl
    | ok d => exact ih h.2 d

theorem runSteps_invoke (hx : x.obstacles = .none) {d : Draft} {r : Request}
    (hr : d.request = some r) (mode : Completion) (rest : List Step) :
    runSteps x send (.invoke mode :: rest) d frame s =
      match send mode r s with
      | (.error e, s) => (.error e, frame, s)
      | (.ok response, s) =>
        ((receiveAll x response rest frame).1, (receiveAll x response rest frame).2, s) := by
  rw [runSteps, hr, hx]
  rfl

end

/-! ### Methods of a contract -/

theorem Contract.ofCandidate_of_methods {c : Candidate} {service : ServiceMark}
    {operations : List Operation} (hs : c.eligible = .ok service)
    (hm : (c.methods.mapM fun m => Operation.ofSignature m c.fullName) = .ok operations) :
    Contract.ofCandidate c = .ok {
      module := c.module, qualname := c.qualname, serviceName := service.name,
      baseRoute := service.route, operations } := by
  rw [ofCandidate, hs, hm]
  rfl

theorem Contract.exists_of_mem_operations {c : Candidate} {k : Contract}
    (hk : Contract.ofCandidate c = .ok k) {o : Operation} (ho : o ∈ k.operations) :
    ∃ m ∈ c.methods, Operation.ofSignature m c.fullName = .ok o := by
  unfold ofCandidate at hk
  cases he : c.eligible with
  | error e => rw [he] at hk; cases hk
  | ok service =>
    cases hm : c.methods.mapM fun m => Operation.ofSignature m c.fullName with
    | error e => rw [he, hm] at hk; cases hk
    | ok operations =>
      rw [he, hm] at hk
      cases hk
      exact exists_of_mem_mapM hm o ho

theorem Signature.ne_invoke_of_mem_requestSteps {m : Signature} {e : Endpoint} :
    ∀ step ∈ m.requestSteps e, ∀ mode, step ≠ .invoke mode := by
  rintro step hs mode rfl
  cases requestStep_of_mem hs

/-- A call of a method of a contract sends the request that the roles of the parameters ask for, once,
and passes the response to the steps behind the sending. If an argument has no form to be sent in, the
call fails and sends nothing. -/
theorem run_sends_requestOf {c : Candidate} {k : Contract} (hk : Contract.ofCandidate c = .ok k)
    (hn : ∀ m ∈ c.methods, (m.parameters.map (·.name)).Nodup) {o : Operation}
    (ho : o ∈ k.operations) {frame : Frame} {argument : String → Value}
    (hf : ∀ b ∈ o.parameters, frame.value b.name = .ok (argument b.name)) (scope : Scope) :
    let x : CallContext := { scope, binder := .of k.serviceName k.baseRoute }
    ∃ plan before rest, o.plan = .ok plan ∧ plan.steps = before ++ .invoke o.completion :: rest ∧
      ∀ {σ : Type} (send : Completion → Request → σ → Except CallError Response × σ) (s : σ),
        (o.Encodable argument → plan.run x send frame s =
          match send o.completion (o.requestOf x.binder argument) s with
          | (.error e, s) => (.error e, frame, s)
          | (.ok response, s) =>
            ((receiveAll x response rest frame).1, (receiveAll x response rest frame).2, s)) ∧
        (¬ o.Encodable argument → ∃ b, plan.run x send frame s = (.error (.broken b), frame, s)) := by
  intro x
  obtain ⟨m, hm, ho'⟩ := Contract.exists_of_mem_operations hk ho
  obtain ⟨e, -, ha, rfl⟩ := Signature.ofSignature_eq_ok ho'
  have hf' : ∀ p ∈ m.parameters, frame.value p.name = .ok (argument p.name) :=
    fun p hp => hf p.binding (List.mem_map_of_mem hp)
  refine ⟨_, _, _, Signature.plan_operation (hn m hm) e, rfl, fun send s => ?_⟩
  have hd := Signature.decides_requestSteps (x := x) rfl hf' ha
  rw [CallPlan.run, Signature.steps, runSteps_append Signature.ne_invoke_of_mem_requestSteps]
  constructor
  · intro henc
    rw [hd.eq_ok_iff.mpr ⟨henc, rfl⟩]
    exact runSteps_invoke rfl rfl _ _
  · intro henc
    obtain ⟨b, -, hb⟩ := hd.exists_error_of_not henc
    rw [hb]
    exact ⟨b, rfl⟩

/-- A contract with the one method. -/
def documents : Candidate where
  module := "app"
  qualname := "Docs"
  isInterface := true
  isPublic := true
  service := some ⟨"docs", "/v1/"⟩
  methods := [storeDocument]

/-- A contract with one method, which stores a document. -/
def documentContract : Contract where
  module := "app"
  qualname := "Docs"
  serviceName := "docs"
  baseRoute := "/v1/"
  operations := [storeDocument.operation ⟨"PUT", "/docs/{id}"⟩]

theorem ofCandidate_documents : Contract.ofCandidate documents = .ok documentContract :=
  Contract.ofCandidate_of_methods (c := documents) rfl
    (mapM_singleton_of_eq_ok (f := fun m => Operation.ofSignature m documents.fullName)
      ofSignature_storeDocument)

/-- Arguments of which the query argument is left out. -/
def documentArgument : String → Value
  | "id" => .text "a/b"
  | "trace" => .text "t1"
  | "text" => .text "hi"
  | "language" => .text "en"
  | _ => .null

theorem encodable_documentArgument :
    (storeDocument.operation ⟨"PUT", "/docs/{id}"⟩).Encodable documentArgument where
  path := List.forall_mem_singleton.mpr ⟨"a/b", rfl⟩
  query := fun _ h => nomatch h
  headers := List.forall_mem_singleton.mpr ⟨"t1", rfl⟩
  body := List.forall_mem_singleton.mpr ⟨_, rfl⟩
  contentHeaders := fun _ => List.forall_mem_singleton.mpr ⟨"en", rfl⟩

theorem requestOf_documentArgument : (storeDocument.operation ⟨"PUT", "/docs/{id}"⟩).requestOf
    (.of documentContract.serviceName documentContract.baseRoute) documentArgument =
      { method := "PUT", service := "docs", path := "/v1/docs/a%2Fb"
        headers := [("X-Trace", "t1")]
        content := some {
          body := Utf8.encode "hi"
          headers := [("Content-Type", "text/plain; charset=utf-8"),
            ("Content-Language", "en")] } } := by
  have hpath : (Binder.of "docs" "/v1/").join (Binder.filledPath "/docs/{id}"
      [("id", .text "a/b")]) = "/v1/docs/a%2Fb" := by decide +kernel
  rw [← hpath]
  rfl

/-- Sent to a log, the call leaves one entry. -/
theorem run_sends_document : ∃ o ∈ documentContract.operations, ∃ plan, o.plan = .ok plan ∧
    (plan.run ⟨[], .of documentContract.serviceName documentContract.baseRoute, .none⟩
      (fun _ r log => (.error (.broken .badValue), log ++ [r]))
      (storeDocument.parameters.map fun p => (p.name, documentArgument p.name)) []).2.2 =
    [{ method := "PUT", service := "docs", path := "/v1/docs/a%2Fb"
       headers := [("X-Trace", "t1")]
       content := some {
         body := Utf8.encode "hi"
         headers := [("Content-Type", "text/plain; charset=utf-8"),
           ("Content-Language", "en")] } }] := by
  have hf : ∀ b ∈ (storeDocument.operation ⟨"PUT", "/docs/{id}"⟩).parameters,
      Frame.value (storeDocument.parameters.map fun p => (p.name, documentArgument p.name)) b.name =
        .ok (documentArgument b.name) := by
    simp only [Signature.operation, Signature.bindings, storeDocument, List.map_cons, List.map_nil,
      List.forall_mem_cons]
    exact ⟨rfl, rfl, rfl, rfl, rfl, rfl, List.forall_mem_nil _⟩
  obtain ⟨plan, before, rest, hp, -, hrun⟩ := run_sends_requestOf ofCandidate_documents
    (List.forall_mem_singleton.mpr (by decide)) (List.mem_singleton_self _) hf []
  refine ⟨_, List.mem_singleton_self _, plan, hp, ?_⟩
  rw [(hrun _ _).1 encodable_documentArgument, requestOf_documentArgument]
  rfl

end HttpContract
