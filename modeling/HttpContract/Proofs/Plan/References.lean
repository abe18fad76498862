import HttpContract.Proofs.Plan.Declared

/-!
# Parameters in plans

Which step of a plan uses which parameter. A `Reference` is a parameter with the role and the key
that a step uses it in; `references_steps` lists those of a whole plan, role by role and in the order
of declaration. With it, the plan of an accepted method uses every parameter once, and just as it is
declared (`plan_references_parameters`).
-/

namespace HttpContract

/-- A parameter as a step uses it. -/
structure Reference where
  role : Role
  key : String
  parameter : String
deriving DecidableEq, Repr

namespace Step

/-- The parameters that a step uses, in order. -/
def references : Step → List Reference
  | bindPath bs => bs.map fun b => ⟨.pathVariable, b.1, b.2⟩
  | bindQuery bs => bs.map fun b => ⟨.queryParameter, b.1, b.2⟩
  | attachHeader header p => [⟨.requestHeader, header, p⟩]
  | attachBody p _ _ => [⟨.body, p, p⟩]
  | attachContentHeader header p => [⟨.contentHeader, header, p⟩]
  | extractHeader header p _ => [⟨.responseHeader, header, p⟩]
  | construct .. | invoke _ | returnBody .. | returnHeader .. => []

end Step

namespace CallPlan

/-- The parameters that a plan refers to, and what for. -/
def references (p : CallPlan) : List Reference := p.steps.flatMap Step.references

end CallPlan

/-- The use that a parameter declares. -/
def Parameter.reference (p : Parameter) : Reference := ⟨p.declaredRole, p.declaredKey, p.name⟩

namespace Signature

/-- The parameters of a role that the plan uses: headers of a body need a body. -/
def used (m : Signature) (r : Role) : List Parameter :=
  if r = .contentHeader ∧ m.withRole .body = [] then [] else m.withRole r

/-- The kinds of the steps of the plan, in order. -/
def stepKinds (m : Signature) : List String :=
  (if (m.withRole .pathVariable).isEmpty then [] else ["bind-path-variables"]) ++
  (if (m.withRole .queryParameter).isEmpty then [] else ["bind-query-params"]) ++
  ["construct-request"] ++
  List.replicate (m.withRole .requestHeader).length "attach-request-header" ++
  (if (m.withRole .body).isEmpty then []
    else "attach-body" ::
      List.replicate (m.withRole .contentHeader).length "attach-content-header") ++
  ["invoke"] ++
  List.replicate (m.withRole .responseHeader).length "extract-response-header" ++
  (if m.shape.isVoid then [] else ["materialize-return"])

variable {m : Signature} {e : Endpoint}

/-! ### The order of the steps -/

theorem map_kind_bindingSteps {r : Role} {step : List (String × String) → Step} (kind : String)
    (h : ∀ bs, (step bs).kind = kind) :
    (m.bindingSteps r step).map Step.kind = if (m.withRole r).isEmpty then [] else [kind] := by
  unfold bindingSteps
  cases (m.withRole r).isEmpty with
  | true => rfl
  | false => exact congrArg (fun k => [k]) (h _)

theorem map_kind_map {α : Type} {f : α → Step} (kind : String) (h : ∀ a, (f a).kind = kind)
    (l : List α) : (l.map f).map Step.kind = List.replicate l.length kind := by
  rw [List.map_map, ← List.map_const']
  exact List.map_congr_left fun a _ => h a

theorem map_kind_bodySteps (m : Signature) : m.bodySteps.map Step.kind =
    if (m.withRole .body).isEmpty then []
    else "attach-body" ::
      List.replicate (m.withRole .contentHeader).length "attach-content-header" := by
  unfold bodySteps
  cases m.withRole .body with
  | nil => rfl
  | cons p ps =>
    show _ :: ((m.pairs .contentHeader).map _).map Step.kind = _
    rw [map_kind_map "attach-content-header" fun _ => rfl, pairs, List.length_map]
    rfl

theorem map_kind_returnSteps (m : Signature) :
    m.returnSteps.map Step.kind = if m.shape.isVoid then [] else ["materialize-return"] := by
  unfold returnSteps
  cases m.shape.isVoid with
  | true => rfl
  | false => cases m.declaredResult <;> rfl

theorem map_kind_steps (m : Signature) (e : Endpoint) :
    (m.steps e).map Step.kind = m.stepKinds := by
  unfold steps requestSteps responseSteps stepKinds
  simp only [List.map_append, List.map_cons, map_kind_returnSteps, map_kind_bodySteps]
  rw [map_kind_bindingSteps "bind-path-variables" fun _ => rfl,
    map_kind_bindingSteps "bind-query-params" fun _ => rfl,
    map_kind_map "attach-request-header" fun _ => rfl,
    map_kind_map "extract-response-header" fun _ => rfl, pairs, List.length_map]
  simp only [List.append_assoc, List.cons_append, List.nil_append, List.map_nil]
  rfl

/-! ### The parameters that the steps use -/

theorem map_reference_withRole (m : Signature) (r : Role) :
    (m.withRole r).map Parameter.reference = (m.pairs r).map fun b => ⟨r, b.1, b.2⟩ := by
  rw [pairs, List.map_map]
  refine List.map_congr_left fun p hp => ?_
  rw [Parameter.reference, declaredRole_of_mem_withRole hp]
  rfl

theorem references_bindingSteps {r : Role} {step : List (String × String) → Step}
    (h : ∀ bs, (step bs).references = bs.map fun b => ⟨r, b.1, b.2⟩) :
    (m.bindingSteps r step).flatMap Step.references = (m.withRole r).map Parameter.reference := by
  unfold bindingSteps
  split_ifs with he
  · rw [List.isEmpty_iff.mp he]
    rfl
  · rw [List.flatMap_singleton, h, map_reference_withRole]

theorem references_map_pairs {r : Role} {f : String × String → Step}
    (h : ∀ b, (f b).references = [⟨r, b.1, b.2⟩]) :
    ((m.pairs r).map f).flatMap Step.references = (m.withRole r).map Parameter.reference := by
  rw [List.flatMap_map, map_reference_withRole, ← List.flatMap_pure_eq_map]
  exact List.flatMap_congr fun b _ => h b

theorem references_bodySteps (h : (m.withRole .body).length ≤ 1) :
    m.bodySteps.flatMap Step.references =
      (m.used .body).map Parameter.reference ++ (m.used .contentHeader).map Parameter.reference := by
  unfold bodySteps used
  rcases withRole_body h with hb | ⟨p, hb⟩
  · rw [hb]
    rfl
  · have hp : p ∈ m.withRole .body := by rw [hb]; exact List.mem_singleton_self p
    have hr : p.reference = ⟨.body, p.name, p.name⟩ := by
      rw [Parameter.reference, declaredRole_of_mem_withRole hp,
        Parameter.declaredKey_of_body (declaredRole_of_mem_withRole hp)]
    rw [hb, List.head?_cons]
    show _ :: ((m.pairs .contentHeader).map _).flatMap Step.references = _
    rw [references_map_pairs fun _ => rfl]
    simp [hr]

theorem references_returnSteps (m : Signature) : m.returnSteps.flatMap Step.references = [] := by
  unfold returnSteps
  cases m.shape.isVoid with
  | true => rfl
  | false => cases m.declaredResult <;> rfl

theorem references_extracted (m : Signature) :
    ((m.withRole .responseHeader).map fun p =>
      Step.extractHeader p.declaredKey p.name p.targetType).flatMap Step.references =
        (m.withRole .responseHeader).map Parameter.reference := by
  rw [List.flatMap_map, ← List.flatMap_pure_eq_map]
  refine List.flatMap_congr fun p hp => ?_
  show _ = [p.reference]
  rw [Parameter.reference, declaredRole_of_mem_withRole hp]
  rfl

/-- The roles in the order in which a plan comes to them. -/
def roleOrder : List Role :=
  [.pathVariable, .queryParameter, .requestHeader, .body, .contentHeader, .responseHeader]

theorem references_steps (h : (m.withRole .body).length ≤ 1) (e : Endpoint) :
    (m.steps e).flatMap Step.references =
      roleOrder.flatMap fun r => (m.used r).map Parameter.reference := by
  have used_eq : ∀ r, r ≠ .contentHeader → m.used r = m.withRole r :=
    fun r hr => if_neg fun h => hr h.1
  simp only [steps, requestSteps, responseSteps, roleOrder, List.flatMap_append, List.flatMap_cons,
    List.flatMap_nil, references_bodySteps h, references_returnSteps, references_extracted]
  rw [references_bindingSteps fun _ => rfl, references_bindingSteps fun _ => rfl,
    references_map_pairs fun _ => rfl, used_eq .pathVariable (by decide),
    used_eq .queryParameter (by decide), used_eq .requestHeader (by decide),
    used_eq .responseHeader (by decide)]
  simp [Step.references]

theorem flatMap_roleOrder {α : Type} (r : Role) (l : List α) :
    (roleOrder.flatMap fun s => if s = r then l else []) = l := by
  cases r <;> simp [roleOrder]

theorem mem_withRole_of_mem_used {p : Parameter} {r : Role} (h : p ∈ m.used r) :
    p ∈ m.withRole r := by
  unfold used at h
  split_ifs at h with hr
  · cases h
  · exact h

theorem filter_role_references (h : (m.withRole .body).length ≤ 1) (e : Endpoint) (r : Role) :
    ((m.steps e).flatMap Step.references).filter (·.role == r) =
      (m.used r).map Parameter.reference := by
  rw [references_steps h, List.filter_flatMap, ← flatMap_roleOrder r ((m.used r).map _)]
  refine List.flatMap_congr fun s _ => ?_
  split_ifs with hs
  · subst hs
    refine List.filter_eq_self.mpr (List.forall_mem_map.mpr fun p hp => ?_)
    exact beq_iff_eq.mpr (declaredRole_of_mem_withRole (mem_withRole_of_mem_used hp))
  · refine List.filter_eq_nil_iff.mpr (List.forall_mem_map.mpr fun p hp hr => hs ?_)
    rw [← declaredRole_of_mem_withRole (mem_withRole_of_mem_used hp)]
    exact beq_iff_eq.mp hr

theorem filter_name_withRole (hn : (m.parameters.map (·.name)).Nodup) {p : Parameter}
    (hp : p ∈ m.parameters) (r : Role) :
    (m.withRole r).filter (·.name == p.name) = if r = p.declaredRole then [p] else [] := by
  rw [withRole, List.filter_comm, filter_name hn hp, List.filter_singleton, Bool.cond_eq_ite]
  simp only [beq_iff_eq, eq_comm (a := r)]

theorem filter_name_used (hn : (m.parameters.map (·.name)).Nodup) {p : Parameter}
    (hp : p ∈ m.parameters) (r : Role) : (m.used r).filter (·.name == p.name) =
      if r = p.declaredRole then
        if p.declaredRole = .contentHeader ∧ m.withRole .body = [] then [] else [p]
      else [] := by
  unfold used
  split_ifs with h hr hp' hr hp'
  · rfl
  · exact absurd (hr ▸ h) hp'
  · rfl
  · exact absurd (hr ▸ hp') h
  · rw [filter_name_withRole hn hp, if_pos hr]
  · rw [filter_name_withRole hn hp, if_neg hr]

theorem filter_parameter_references (hn : (m.parameters.map (·.name)).Nodup)
    (h : (m.withRole .body).length ≤ 1) (e : Endpoint) {p : Parameter} (hp : p ∈ m.parameters) :
    ((m.steps e).flatMap Step.references).filter (·.parameter == p.name) =
      if p.declaredRole = .contentHeader ∧ m.withRole .body = [] then [] else [p.reference] := by
  rw [references_steps h, List.filter_flatMap, ← flatMap_roleOrder p.declaredRole (ite _ _ _)]
  refine List.flatMap_congr fun r _ => ?_
  rw [List.filter_map]
  show ((m.used r).filter (·.name == p.name)).map _ = _
  rw [filter_name_used hn hp]
  split_ifs <;> rfl

end Signature

/-! ### The formats that the steps carry -/

namespace BodyEncoding

/-- A format that is settled for a type: raw only if the type has a raw form. -/
def Settled (format : Option BodyEncoding) (t : TypeReference) : Prop :=
  format = some .json ∨ format = some .raw ∧ t.rawForm.isSome = true

theorem settled_resolved {f : BodyEncoding} {t : TypeReference}
    (hf : f = .raw → t.rawForm.isSome = true) : Settled (some (f.resolved t)) t := by
  cases h : f.resolved t with
  | auto => exact absurd h (resolved_ne_auto f t)
  | json => exact .inl rfl
  | raw => exact .inr ⟨rfl, rawForm_of_resolved hf h⟩

end BodyEncoding

theorem Parameter.settled_binding {p : Parameter} (h : p.Bindable) (hr : p.declaredRole = .body) :
    BodyEncoding.Settled p.binding.bodyEncoding p.type := by
  obtain ⟨format, contentType, marks, hm⟩ := exists_body_of_declaredRole hr
  have he : p.binding.bodyEncoding = some (format.resolved p.type) := by
    rw [binding, declaredEncoding?_cons hm]
    rfl
  rw [he]
  refine BodyEncoding.settled_resolved ?_
  rintro rfl
  exact h.rawBody contentType (hm ▸ List.mem_cons_self ..)

namespace Signature
variable {m : Signature} {e : Endpoint}

theorem settled_declaredResult (h : m.ReturnAcceptable) (hv : m.shape.isVoid = false)
    {format : Option BodyEncoding} {contentType : Option String}
    (hd : m.declaredResult = .body format contentType) :
    BodyEncoding.Settled format m.shape.returns := by
  unfold declaredResult at hd
  cases hh : m.returnHeaders with
  | cons key keys => rw [hh] at hd; cases hd
  | nil =>
    rw [hh, hv] at hd
    cases hd
    refine BodyEncoding.settled_resolved fun hf => ?_
    cases hb : m.returnBodies with
    | nil => rw [hb] at hf; cases hf
    | cons b bs =>
      rw [hb] at hf
      exact h.rawBody b.2 (by rw [hb, ← hf]; exact List.mem_cons_self ..) hv

end Signature

/-- The plan of an accepted method: its steps come in one order, every parameter is used in one step,
as its role and under its key, and no format is left open. Headers of a body that there is not are
the only parameters without use. -/
theorem plan_references_parameters {m : Signature} {contract : String} {o : Operation}
    (ho : Operation.ofSignature m contract = .ok o) (hn : (m.parameters.map (·.name)).Nodup) :
    ∃ plan, o.plan = .ok plan ∧
      plan.steps.map Step.kind = m.stepKinds ∧
      (∀ p ∈ m.parameters, plan.references.filter (·.parameter == p.name) =
        if p.declaredRole = .contentHeader ∧ m.withRole .body = [] then [] else [p.reference]) ∧
      (∀ r ∈ plan.references, ∃ p ∈ m.parameters, p.reference = r) ∧
      (∀ role, plan.references.filter (·.role == role) =
        (m.used role).map Parameter.reference) ∧
      (∀ name format contentType, .attachBody name format contentType ∈ plan.steps →
        ∃ p ∈ m.withRole .body, p.name = name ∧ BodyEncoding.Settled format p.type) ∧
      (∀ t format, .returnBody t format ∈ plan.steps → BodyEncoding.Settled format t) := by
  obtain ⟨e, -, ha, rfl⟩ := Signature.ofSignature_eq_ok ho
  refine ⟨_, Signature.plan_operation hn e, m.map_kind_steps e, fun p hp => ?_, fun r hr => ?_,
    fun r => ?_, fun name format contentType h => ?_, fun t format h => ?_⟩
  · exact Signature.filter_parameter_references hn ha.oneBody e hp
  · have hr' : r ∈ ((m.steps e).flatMap Step.references).filter (·.role == r.role) :=
      List.mem_filter.mpr ⟨hr, beq_self_eq_true _⟩
    rw [Signature.filter_role_references ha.oneBody] at hr'
    obtain ⟨p, hp, rfl⟩ := List.mem_map.mp hr'
    exact ⟨p, Signature.mem_of_mem_withRole (Signature.mem_withRole_of_mem_used hp), rfl⟩
  · exact Signature.filter_role_references ha.oneBody e r
  · rcases Signature.mem_steps h with h | h | h
    · cases h with
      | attachBody hp =>
        exact ⟨_, hp, rfl, Parameter.settled_binding
          (ha.bindable _ (Signature.mem_of_mem_withRole hp))
          (Signature.declaredRole_of_mem_withRole hp)⟩
    · cases h
    · cases h
  · rcases Signature.mem_steps h with h | h | h
    · cases h
    · cases h
    · cases h with
      | returnBody hv hr => exact Signature.settled_declaredResult ha.returned hv hr

theorem plan_references_storeDocument : ∃ o plan,
    Operation.ofSignature storeDocument "app.Docs" = .ok o ∧ o.plan = .ok plan ∧
      plan.steps.map Step.kind = ["bind-path-variables", "bind-query-params", "construct-request",
        "attach-request-header", "attach-body", "attach-content-header", "invoke",
        "extract-response-header", "materialize-return"] ∧
      plan.references.filter (·.role == .contentHeader) =
        [⟨.contentHeader, "Content-Language", "language"⟩] := by
  obtain ⟨plan, hp, hk, -, -, hr, -⟩ := plan_references_parameters ofSignature_storeDocument
    (by decide)
  exact ⟨_, plan, ofSignature_storeDocument, hp, hk, hr .contentHeader⟩

end HttpContract
