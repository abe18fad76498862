import HttpContract.Proofs.Client.Call

/-!
# Requests of calls

The requests that a call of a contract's method hands to its sender: the one that the roles of the
parameters ask for, if the arguments have a form to be sent in, and otherwise none (`mem_requests`).
-/

namespace HttpContract

/-- The requests that a run hands over when all of them fail. -/
def CallPlan.requests (p : CallPlan) (x : CallContext) (frame : Frame) : List Request :=
  (p.run x (fun _ r sent => (.error (.broken .badValue), sent ++ [r])) frame []).2.2

/-- The context of a call of a contract's methods that nothing stands in the way of. -/
def Contract.context (k : Contract) (scope : Scope) : CallContext where
  scope
  binder := .of k.serviceName k.baseRoute

/-- The frame that gives each parameter its argument. -/
def Signature.frame (m : Signature) (argument : String → Value) : Frame :=
  m.parameters.map fun p => (p.name, argument p.name)

theorem Signature.value_frame (m : Signature) (e : Endpoint) (argument : String → Value) :
    ∀ b ∈ (m.operation e).parameters, (m.frame argument).value b.name = .ok (argument b.name) := by
  have hvalue : ∀ ps : List Parameter, ∀ p ∈ ps,
      Frame.value (ps.map fun p => (p.name, argument p.name)) p.name = .ok (argument p.name) := by
    intro ps p hp
    induction ps with
    | nil => cases hp
    | cons q ps ih =>
      by_cases he : q.name = p.name
      · rw [List.map_cons, he, Frame.value, Entries.get?_cons_self]
        rfl
      · have hne : p ≠ q := fun h => he (h ▸ rfl)
        rw [List.map_cons, Frame.value, Entries.get?_cons_of_ne he]
        exact ih ((List.mem_cons.mp hp).resolve_left hne)
  exact List.forall_mem_map.mpr fun p hp => hvalue m.parameters p hp

theorem Contract.mem_requests {c : Candidate} {k : Contract} (hk : Contract.ofCandidate c = .ok k)
    (hn : ∀ m ∈ c.methods, (m.parameters.map (·.name)).Nodup) {o : Operation}
    (ho : o ∈ k.operations) {frame : Frame} {argument : String → Value}
    (hf : ∀ b ∈ o.parameters, frame.value b.name = .ok (argument b.name)) (scope : Scope) :
    ∃ plan, o.plan = .ok plan ∧ ∀ r, r ∈ plan.requests (k.context scope) frame ↔
      o.Encodable argument ∧ r = o.requestOf (k.context scope).binder argument := by
  obtain ⟨m, hm, ho'⟩ := Contract.exists_of_mem_operations hk ho
  obtain ⟨e, -, ha, rfl⟩ := Signature.ofSignature_eq_ok ho'
  have hf' : ∀ p ∈ m.parameters, frame.value p.name = .ok (argument p.name) :=
    fun p hp => hf p.binding (List.mem_map_of_mem hp)
  refine ⟨_, Signature.plan_operation (hn m hm) e, fun r => ?_⟩
  have hd := Signature.decides_requestSteps (x := k.context scope) rfl hf' ha
  rw [CallPlan.requests, CallPlan.run, Signature.steps,
    runSteps_append Signature.ne_invoke_of_mem_requestSteps]
  rcases hd with ⟨henc, heq⟩ | ⟨henc, b, -, heq⟩
  · rw [heq]
    simp only
    rw [runSteps_invoke rfl rfl]
    simp only [List.nil_append, List.mem_singleton]
    exact (and_iff_right henc).symm
  · rw [heq]
    exact iff_of_false List.not_mem_nil fun h => henc h.1

end HttpContract
