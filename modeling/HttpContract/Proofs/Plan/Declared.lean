import HttpContract.Plan
import HttpContract.Proofs.Entries
import HttpContract.Proofs.Roles.Acceptance

/-!
# Plans of declared operations

The plan of an operation, read off the parameters of the method (`plan_operation`). The only step
that looks a parameter up by its name is the one that attaches the body; names that are pairwise
distinct make it find the body parameter itself. `mem_steps` says what a step of the plan may be.
-/

namespace HttpContract.Signature

/-- One step that binds all parameters of a role, or none. -/
def bindingSteps (m : Signature) (r : Role) (step : List (String × String) → Step) : List Step :=
  if (m.withRole r).isEmpty then [] else [step (m.pairs r)]

/-- The body and the headers that describe it, or none of them. -/
def bodySteps (m : Signature) : List Step :=
  match (m.withRole .body).head? with
  | none => []
  | some p => .attachBody p.name p.binding.bodyEncoding p.binding.contentType ::
      (m.pairs .contentHeader).map fun h => .attachContentHeader h.1 h.2

/-- The steps up to the sending. -/
def requestSteps (m : Signature) (e : Endpoint) : List Step :=
  m.bindingSteps .pathVariable .bindPath ++ m.bindingSteps .queryParameter .bindQuery ++
    [.construct e.verb e.path] ++ (m.pairs .requestHeader).map (fun h => .attachHeader h.1 h.2) ++
    m.bodySteps

/-- The step that gives the result back, if there is one. -/
def returnSteps (m : Signature) : List Step :=
  if m.shape.isVoid then []
  else match m.declaredResult with
    | .header name => [.returnHeader m.shape.returns name]
    | .body format _ => [.returnBody m.shape.returns format]

/-- The steps behind the sending. -/
def responseSteps (m : Signature) : List Step :=
  (m.withRole .responseHeader).map (fun p => .extractHeader p.declaredKey p.name p.targetType) ++
    m.returnSteps

/-- All steps of the plan. -/
def steps (m : Signature) (e : Endpoint) : List Step :=
  m.requestSteps e ++ .invoke m.shape.completion :: m.responseSteps

variable {m : Signature} {e : Endpoint}

theorem withRole_operation (m : Signature) (e : Endpoint) (r : Role) :
    (m.operation e).withRole r = (m.withRole r).map Parameter.binding := by
  rw [Operation.withRole, withRole, operation, bindings, List.filter_map]
  rfl

theorem bindingSteps_operation (m : Signature) (e : Endpoint) (r : Role)
    (step : List (String × String) → Step) :
    (m.operation e).bindingSteps r step = m.bindingSteps r step := by
  rw [Operation.bindingSteps, withRole_operation, bindingSteps, pairs]
  cases m.withRole r with
  | nil => rfl
  | cons p ps =>
    show [step ((Parameter.binding p :: ps.map Parameter.binding).map fun b => (b.key, b.name))] = _
    rw [← List.map_cons, List.map_map]
    rfl

theorem parameter?_operation (hn : (m.parameters.map (·.name)).Nodup) {p : Parameter}
    (hp : p ∈ m.parameters) : (m.operation e).parameter? p.name = some p.binding := by
  rw [Operation.parameter?, operation, bindings, List.find?_map]
  exact congrArg _ (find?_name hn hp)

theorem bodySteps_operation (hn : (m.parameters.map (·.name)).Nodup) (e : Endpoint) :
    (m.operation e).bodySteps = .ok m.bodySteps := by
  unfold Operation.bodySteps bodySteps
  cases hb : (m.withRole .body).head? with
  | none => rw [operation, hb]; rfl
  | some p =>
    have hp : p ∈ m.parameters := mem_of_mem_withRole (List.mem_of_head? hb)
    have hbody : (m.operation e).body = some p.name := by rw [operation, hb]; rfl
    rw [hbody]
    simp only [parameter?_operation hn hp]
    rfl

theorem returnSteps_operation (m : Signature) (e : Endpoint) :
    (m.operation e).returnSteps = .ok m.returnSteps := by
  unfold Operation.returnSteps returnSteps operation
  cases m.shape.isVoid with
  | true => rfl
  | false => cases m.declaredResult <;> rfl

theorem plan_operation (hn : (m.parameters.map (·.name)).Nodup) (e : Endpoint) :
    (m.operation e).plan = .ok ⟨m.name, m.steps e⟩ := by
  unfold Operation.plan
  rw [bodySteps_operation hn, returnSteps_operation, bindingSteps_operation, bindingSteps_operation,
    withRole_operation]
  simp only [steps, requestSteps, responseSteps, List.map_map, List.append_assoc]
  rfl

/-! ### What the steps may be -/

/-- A step up to the sending. -/
inductive RequestStep (m : Signature) (e : Endpoint) : Step → Prop
  | bindPath : RequestStep m e (.bindPath (m.pairs .pathVariable))
  | bindQuery : RequestStep m e (.bindQuery (m.pairs .queryParameter))
  | construct : RequestStep m e (.construct e.verb e.path)
  | attachHeader {h : String × String} (hh : h ∈ m.pairs .requestHeader) :
      RequestStep m e (.attachHeader h.1 h.2)
  | attachBody {p : Parameter} (hp : p ∈ m.withRole .body) :
      RequestStep m e (.attachBody p.name p.binding.bodyEncoding p.binding.contentType)
  | attachContentHeader {h : String × String} (hh : h ∈ m.pairs .contentHeader) :
      RequestStep m e (.attachContentHeader h.1 h.2)

/-- A step behind the sending. -/
inductive ResponseStep (m : Signature) : Step → Prop
  | extractHeader {p : Parameter} (hp : p ∈ m.withRole .responseHeader) :
      ResponseStep m (.extractHeader p.declaredKey p.name p.targetType)
  | returnHeader {name : Option String} (hv : m.shape.isVoid = false)
      (hr : m.declaredResult = .header name) : ResponseStep m (.returnHeader m.shape.returns name)
  | returnBody {format : Option BodyEncoding} {contentType : Option String}
      (hv : m.shape.isVoid = false) (hr : m.declaredResult = .body format contentType) :
      ResponseStep m (.returnBody m.shape.returns format)

theorem mem_bindingSteps {r : Role} {step : List (String × String) → Step} {s : Step}
    (h : s ∈ m.bindingSteps r step) : s = step (m.pairs r) := by
  unfold bindingSteps at h
  split_ifs at h
  · cases h
  · exact List.mem_singleton.mp h

theorem requestStep_of_mem_bodySteps {s : Step} (h : s ∈ m.bodySteps) : RequestStep m e s := by
  unfold bodySteps at h
  cases hb : (m.withRole .body).head? with
  | none => rw [hb] at h; cases h
  | some p =>
    rw [hb] at h
    rcases List.mem_cons.mp h with rfl | h
    · exact .attachBody (List.mem_of_head? hb)
    · obtain ⟨b, hb, rfl⟩ := List.mem_map.mp h
      exact .attachContentHeader hb

theorem requestStep_of_mem {s : Step} (h : s ∈ m.requestSteps e) : RequestStep m e s := by
  rcases List.mem_append.mp h with h | h
  · rcases List.mem_append.mp h with h | h
    · rcases List.mem_append.mp h with h | h
      · rcases List.mem_append.mp h with h | h
        · exact mem_bindingSteps h ▸ .bindPath
        · exact mem_bindingSteps h ▸ .bindQuery
      · exact List.mem_singleton.mp h ▸ .construct
    · obtain ⟨b, hb, rfl⟩ := List.mem_map.mp h
      exact .attachHeader hb
  · exact requestStep_of_mem_bodySteps h

theorem responseStep_of_mem {s : Step} (h : s ∈ m.responseSteps) : ResponseStep m s := by
  rcases List.mem_append.mp h with h | h
  · obtain ⟨p, hp, rfl⟩ := List.mem_map.mp h
    exact .extractHeader hp
  · unfold returnSteps at h
    cases hv : m.shape.isVoid with
    | true => rw [hv] at h; cases h
    | false =>
      cases hr : m.declaredResult with
      | header name =>
        rw [hv, hr] at h
        exact List.mem_singleton.mp h ▸ .returnHeader hv hr
      | body format contentType =>
        rw [hv, hr] at h
        exact List.mem_singleton.mp h ▸ .returnBody hv hr

theorem mem_steps {s : Step} (h : s ∈ m.steps e) :
    RequestStep m e s ∨ s = .invoke m.shape.completion ∨ ResponseStep m s := by
  rcases List.mem_append.mp h with h | h
  · exact .inl (requestStep_of_mem h)
  · exact .inr ((List.mem_cons.mp h).imp_right responseStep_of_mem)

end HttpContract.Signature
