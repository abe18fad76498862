import HttpContract.Proofs.Declaration.Methods
import HttpContract.Plan
import HttpContract.Proofs.Roles.Acceptance

/-!
# Asynchronous forms of methods

A method that is not awaited can be written so that it is: as an asynchronous function, or with an
awaitable type around what it returns, below the same marks. All of these are read as one operation,
which is that of the method itself with another completion (`Function.operation_inForm`), and the plan
of it differs in the step that sends (`Operation.plan_deferred`).
-/

namespace HttpContract

/-! ### Types below their marks -/

namespace TypeExpr

theorem resolvedAll_eq (meaning : Forward.Evaluation) (as : List TypeExpr) :
    resolvedAll meaning as = as.mapM (resolved meaning) := by
  induction as with
  | nil => rfl
  | cons a as ih =>
    rw [resolvedAll, List.mapM_cons, ih]

theorem normalAll_eq (as : List TypeExpr) : normalAll as = as.map normal := by
  induction as with
  | nil => rfl
  | cons a as ih => rw [normalAll, List.map_cons, ih]

theorem references?_eq (as : List TypeExpr) : references? as = as.mapM reference? := by
  induction as with
  | nil => rfl
  | cons a as ih => rw [references?, List.mapM_cons, ih]

/-- What is below the marks on the outside of a type. -/
def core : TypeExpr → TypeExpr
  | annotated b _ => core b
  | a => a

/-- The marks on the outside of a type, the innermost first. -/
def outerMarks : TypeExpr → List Mark
  | annotated b marks => outerMarks b ++ marks
  | _ => []

/-- The type with something else below its marks. -/
def mapCore (g : TypeExpr → TypeExpr) : TypeExpr → TypeExpr
  | annotated b marks => annotated (mapCore g b) marks
  | a => g a

/-- A type that has no marks on its outside. -/
def Unmarked (a : TypeExpr) : Prop := a.split = (a, [])

variable {g : TypeExpr → TypeExpr} {a c : TypeExpr} {marks : List Mark}
  {meaning : Forward.Evaluation}

theorem split_normal_annotated (h : a.normal.split = (c, marks)) (hc : c.Unmarked)
    (others : List Mark) : (annotated a others).normal.split = (c, marks ++ others) := by
  rw [normal]
  cases ha : a.normal with
  | annotated b inner =>
    rw [ha] at h
    cases h
    rfl
  | _ =>
    rw [ha] at h
    cases h
    cases others with
    | nil => exact hc
    | cons m ms => rfl

theorem mapCore_of_bare (h : ∀ b marks, a = annotated b marks → False) : a.mapCore g = g a := by
  cases a with
  | annotated b marks => exact absurd rfl (h b marks)
  | _ => rfl

theorem outerMarks_of_bare (h : ∀ b marks, a = annotated b marks → False) : a.outerMarks = [] := by
  cases a with
  | annotated b marks => exact absurd rfl (h b marks)
  | _ => rfl

theorem mapCore_id (a : TypeExpr) : a.mapCore id = a := by
  fun_induction core a with
  | case1 b marks ih => rw [mapCore, ih]
  | case2 a hbare => exact mapCore_of_bare hbare

/-- The marks on the outside are read off in the same way, whatever is below them. -/
theorem resolved_mapCore {w : TypeExpr} (hw : (g a.core).resolved meaning = .ok w)
    (hn : w.normal.Unmarked) :
    ∃ a', (a.mapCore g).resolved meaning = .ok a' ∧ a'.normal.split = (w.normal, a.outerMarks) := by
  fun_induction core a with
  | case1 b marks ih =>
    obtain ⟨b', hb, hsplit⟩ := ih hw
    refine ⟨annotated b' marks, ?_, split_normal_annotated hsplit hn marks⟩
    rw [mapCore, resolved, hb]
    rfl
  | case2 a hbare =>
    rw [mapCore_of_bare hbare, outerMarks_of_bare hbare]
    exact ⟨w, hw, hn⟩

theorem resolved_mapCore_error {e : Forward.Problem} (he : (g a.core).resolved meaning = .error e) :
    (a.mapCore g).resolved meaning = .error e := by
  fun_induction core a with
  | case1 b marks ih =>
    rw [mapCore, resolved, ih he]
    rfl
  | case2 a hbare =>
    rw [mapCore_of_bare hbare]
    exact he

theorem resolved_cases (ha : ∀ c, a.core.resolved meaning = .ok c → c.normal.Unmarked) :
    (∃ e, a.resolved meaning = .error e ∧ a.core.resolved meaning = .error e) ∨
      ∃ c b, a.core.resolved meaning = .ok c ∧ a.resolved meaning = .ok b ∧
        b.normal.split = (c.normal, a.outerMarks) := by
  cases hc : a.core.resolved meaning with
  | error e =>
    have he := resolved_mapCore_error (g := id) hc
    rw [mapCore_id] at he
    exact .inl ⟨e, he, rfl⟩
  | ok c =>
    obtain ⟨b, hb, hsplit⟩ := resolved_mapCore (g := id) hc (ha c hc)
    rw [mapCore_id] at hb
    exact .inr ⟨c, b, rfl, hb, hsplit⟩

end TypeExpr

/-! ### Awaitable types -/

/-- The awaitable types of the standard library, each with the arguments that it has besides what it
yields in the end. -/
inductive AwaitableType
  | awaitable
  | abstractAwaitable
  | coroutine (yields sends : TypeExpr)
  | abstractCoroutine (yields sends : TypeExpr)
  | future
  | task

namespace AwaitableType

/-- The name that the type goes by in annotations. -/
def name : AwaitableType → String
  | awaitable => "Awaitable"
  | abstractAwaitable => "collections.abc.Awaitable"
  | coroutine .. => "Coroutine"
  | abstractCoroutine .. => "collections.abc.Coroutine"
  | future => "asyncio.Future"
  | task => "asyncio.Task"

/-- The arguments in front of what is yielded. -/
def others : AwaitableType → List TypeExpr
  | coroutine yields sends | abstractCoroutine yields sends => [yields, sends]
  | _ => []

/-- The awaitable type that yields values of a type. -/
def of (k : AwaitableType) (a : TypeExpr) : TypeExpr := .subscript (.named k.name) (k.others ++ [a])

/-- The other arguments are types that can be referred to. -/
def Describable (k : AwaitableType) (meaning : Forward.Evaluation) : Prop :=
  ∀ a ∈ k.others, ∃ b t, a.resolved meaning = .ok b ∧ b.normal.reference? = .ok t

variable {k : AwaitableType} {a c : TypeExpr} {meaning : Forward.Evaluation}

/-- The reference to the type without its arguments. -/
def bare (k : AwaitableType) : TypeReference := (TypeExpr.lookup k.name).ref

theorem awaitable_bare (k : AwaitableType) : k.bare.awaitable = true := by
  cases k <;> rfl

theorem reference?_name (k : AwaitableType) :
    (TypeExpr.named k.name).normal.reference? = .ok k.bare := by
  cases k <;> rfl

theorem Describable.exists_references (hk : k.Describable meaning) : ∃ others ts,
    k.others.mapM (TypeExpr.resolved meaning) = .ok others ∧
      (others.map TypeExpr.normal).mapM TypeExpr.reference? = .ok ts := by
  unfold Describable at hk
  generalize k.others = as at hk
  induction as with
  | nil => exact ⟨[], [], rfl, rfl⟩
  | cons a as ih =>
    rw [List.forall_mem_cons] at hk
    obtain ⟨⟨b, t, hb, ht⟩, has⟩ := hk
    obtain ⟨bs, ts, hbs, hts⟩ := ih has
    refine ⟨b :: bs, t :: ts, ?_, ?_⟩
    · rw [List.mapM_cons, hb, hbs]
      rfl
    · rw [List.map_cons, List.mapM_cons, ht, hts]
      rfl

theorem resolved_of {others : List TypeExpr}
    (hothers : k.others.mapM (TypeExpr.resolved meaning) = .ok others)
    (ha : a.resolved meaning = .ok c) :
    (k.of a).resolved meaning = .ok (.subscript (.named k.name) (others ++ [c])) := by
  have hall : (k.others ++ [a]).mapM (TypeExpr.resolved meaning) = .ok (others ++ [c]) := by
    rw [List.mapM_append, hothers, mapM_singleton_of_eq_ok ha]
    rfl
  rw [of, TypeExpr.resolved, TypeExpr.resolvedAll_eq, hall]
  rfl

theorem reference?_of {others : List TypeExpr} {ts : List TypeReference}
    (hts : (others.map TypeExpr.normal).mapM TypeExpr.reference? = .ok ts) :
    (TypeExpr.subscript (.named k.name) (others ++ [c])).normal.reference? =
      c.normal.reference?.map fun t => { k.bare with args := ts ++ [t] } := by
  rw [TypeExpr.normal, TypeExpr.normalAll_eq, TypeExpr.reference?, k.reference?_name,
    TypeExpr.references?_eq, List.map_append, List.map_singleton, List.mapM_append, hts]
  cases hc : c.normal.reference? with
  | error e =>
    rw [List.mapM_cons, hc]
    rfl
  | ok t =>
    rw [mapM_singleton_of_eq_ok hc]
    rfl

theorem resolved_of_error {e : Forward.Problem} (hk : k.Describable meaning)
    (ha : a.resolved meaning = .error e) :
    (k.of a).resolved meaning = .error e := by
  have hothers : ∀ b ∈ k.others, ∃ c, b.resolved meaning = .ok c := fun b hb =>
    have ⟨c, _, hc, _⟩ := hk b hb
    ⟨c, hc⟩
  have hall : (k.others ++ [a]).mapM (TypeExpr.resolved meaning) = .error e :=
    mapM_eq_error_iff.mpr ⟨k.others, a, [], rfl, hothers, ha⟩
  rw [of, TypeExpr.resolved, TypeExpr.resolvedAll_eq, hall]
  rfl

end AwaitableType

/-- A type and the awaitable type around it, below the same marks: both or none of them can be read,
and the one is referred to by a reference to the other. -/
theorem TypeExpr.mapCore_of_cases {a : TypeExpr} {k : AwaitableType}
    {meaning : Forward.Evaluation} (hk : k.Describable meaning)
    (ha : ∀ c, a.core.resolved meaning = .ok c → c.normal.Unmarked) :
    (∃ e, a.resolved meaning = .error e ∧ (a.mapCore k.of).resolved meaning = .error e) ∨
      ∃ c b b' ts, a.core.resolved meaning = .ok c ∧
        a.resolved meaning = .ok b ∧ b.normal.split = (c.normal, a.outerMarks) ∧
        (a.mapCore k.of).resolved meaning = .ok b' ∧ b'.normal.split.2 = a.outerMarks ∧
        b'.normal.split.1.reference? = c.normal.reference?.map fun t =>
          { k.bare with args := ts ++ [t] } := by
  rcases resolved_cases ha with ⟨e, he, hc⟩ | ⟨c, b, hc, hb, hsplit⟩
  · exact .inl ⟨e, he, resolved_mapCore_error (AwaitableType.resolved_of_error hk hc)⟩
  · obtain ⟨others, ts, hothers, hts⟩ := hk.exists_references
    obtain ⟨b', hb', hsplit'⟩ := resolved_mapCore (AwaitableType.resolved_of hothers hc) rfl
    refine .inr ⟨c, b, b', ts, hc, hb, hsplit, hb', by rw [hsplit'], ?_⟩
    rw [hsplit']
    exact AwaitableType.reference?_of hts

/-! ### Functions -/

/-- The ways to write a method so that it is awaited. -/
inductive AsyncForm
  | function
  | returning (k : AwaitableType)

/-- Whether the other arguments of the form can be read. -/
def AsyncForm.Describable (meaning : Forward.Evaluation) : AsyncForm → Prop
  | function => True
  | returning k => k.Describable meaning

namespace Function
variable {f : Function} {form : AsyncForm} {meaning : Forward.Evaluation} {contract name : String}

/-- The declared type of what the function returns. -/
def declaredReturn (f : Function) : TypeExpr := f.returns.getD .nothing

/-- The function in an asynchronous form, with the same marks. -/
def inForm (f : Function) : AsyncForm → Function
  | .function => { f with isAsync := true }
  | .returning k => { f with returns := some (f.declaredReturn.mapCore k.of) }

/-- A function that is not awaited, and whose marks are all on the outside of its type. -/
structure ReturnsPlainly (f : Function) (meaning : Forward.Evaluation) : Prop where
  notAsync : f.isAsync = false
  unmarked : ∀ c, f.declaredReturn.core.resolved meaning = .ok c → c.normal.Unmarked
  notAwaitable : ∀ c t, f.declaredReturn.core.resolved meaning = .ok c → c.normal.reference? = .ok t →
    t.awaitable = false

/-- The types of the parameters with what their texts name. -/
def resolvedParameters (f : Function) (meaning : Forward.Evaluation) : Except Forward.Problem (List DeclaredParameter) :=
  f.parameters.mapM fun p => do
    let type ← p.type.mapM (TypeExpr.resolved meaning)
    pure { p with type }

/-- What is reported of a method. -/
def refusal (contract name : String) (e : Fault) : Failure := .rejected e contract (some name)

/-- The parameters that callers fill. -/
def readParameters (f : Function) (contract name : String) (ps : List DeclaredParameter) :
    Except Failure (List Parameter) :=
  { f with parameters := ps }.visible.mapM fun (p : DeclaredParameter) =>
    p.signature.mapError (refusal contract name)

/-- What is read of a function whose types are known. -/
def finish (f : Function) (contract name : String) (ps : List DeclaredParameter) (r : TypeExpr) :
    Except Failure Signature := do
  let parameters ← f.readParameters contract name ps
  let t ← r.normal.split.1.reference?.mapError (refusal contract name)
  pure {
    name, parameters, returnMarks := r.normal.split.2, endpoint := f.endpoint
    returns := if f.isAsync then awaitableOf t else t }

/-- Reading a function looks at the types of its parameters, then at the type it returns, then at the
parameters again. -/
theorem signature_eq (f : Function) (meaning : Forward.Evaluation) (contract name : String) :
    f.signature meaning contract name = (do
    let ps ← (f.resolvedParameters meaning).mapError (Forward.Problem.failure contract name)
    let r ← (f.declaredReturn.resolved meaning).mapError (Forward.Problem.failure contract name)
    f.finish contract name ps r) := by
  unfold signature resolved declaredReturn resolvedParameters
  cases f.parameters.mapM fun p : DeclaredParameter => do
      let type ← p.type.mapM (TypeExpr.resolved meaning)
      pure { p with type } with
  | error e => rfl
  | ok ps =>
    cases hr : f.returns with
    | none => rfl
    | some r =>
      rw [Option.getD_some]
      have hmap : (some r).mapM (TypeExpr.resolved meaning) = some <$> r.resolved meaning := rfl
      rw [hmap]
      cases r.resolved meaning with
      | error e => rfl
      | ok r' => rfl

/-- Two functions that differ in the type they return, the one being referred to if the other is. -/
theorem finish_cases {f' : Function} {r r' : TypeExpr} {g : TypeReference → TypeReference}
    (hread : f'.readParameters contract name = f.readParameters contract name)
    (hendpoint : f'.endpoint = f.endpoint) (hmarks : r'.normal.split.2 = r.normal.split.2)
    (href : r'.normal.split.1.reference? = r.normal.split.1.reference?.map g)
    (ps : List DeclaredParameter) :
    (∃ e, f.finish contract name ps r = .error e ∧ f'.finish contract name ps r' = .error e) ∨
      ∃ (m : Signature) (t : TypeReference), r.normal.split.1.reference? = .ok t ∧
        f.finish contract name ps r =
          .ok { m with returns := if f.isAsync then awaitableOf t else t } ∧
        f'.finish contract name ps r' =
          .ok { m with returns := if f'.isAsync then awaitableOf (g t) else g t } := by
  unfold finish
  rw [hread, hendpoint, hmarks, href]
  cases f.readParameters contract name ps with
  | error e => exact .inl ⟨e, rfl, rfl⟩
  | ok parameters =>
    cases r.normal.split.1.reference? with
    | error e => exact .inl ⟨_, rfl, rfl⟩
    | ok t =>
      let m : Signature := {
        name, parameters, returns := t, returnMarks := r.normal.split.2, endpoint := f.endpoint }
      exact .inr ⟨m, t, rfl, rfl, rfl⟩

/-- An asynchronous form of a function is refused for what the function itself is refused for. Else it
differs in the type it returns, which is awaitable and yields that of the function. -/
theorem signature_inForm (h : f.ReturnsPlainly meaning) (hform : form.Describable meaning) (contract name : String) :
    (∃ e, f.signature meaning contract name = .error e ∧
        (f.inForm form).signature meaning contract name = .error e) ∨
      ∃ m t, f.signature meaning contract name = .ok m ∧
        (f.inForm form).signature meaning contract name = .ok { m with returns := t } ∧
        m.returns.awaitable = false ∧ t.awaitable = true ∧ t.args.getLast? = some m.returns := by
  have hparameters : (f.inForm form).resolvedParameters meaning = f.resolvedParameters meaning := by
    cases form <;> rfl
  have hread : (f.inForm form).readParameters contract name = f.readParameters contract name := by
    cases form <;> rfl
  have hendpoint : (f.inForm form).endpoint = f.endpoint := by
    cases form <;> rfl
  -- both fail at the same parameter, or only the types that are returned are left to compare
  rw [signature_eq, signature_eq, hparameters]
  cases f.resolvedParameters meaning with
  | error e => exact .inl ⟨_, rfl, rfl⟩
  | ok ps =>
    cases form with
    | function =>
      have hreturn : (f.inForm .function).declaredReturn = f.declaredReturn := rfl
      rw [hreturn]
      rcases TypeExpr.resolved_cases h.unmarked with ⟨e, he, -⟩ | ⟨c, b, hc, hb, hsplit⟩
      · rw [he]
        exact .inl ⟨_, rfl, rfl⟩
      · rw [hb]
        have hid : b.normal.split.1.reference? = b.normal.split.1.reference?.map id := by
          cases b.normal.split.1.reference? <;> rfl
        rcases finish_cases hread hendpoint rfl hid ps with ⟨e, he, he'⟩ | ⟨m, t, ht, hm, hm'⟩
        · exact .inl ⟨e, he, he'⟩
        · rw [h.notAsync] at hm
          rw [hsplit] at ht
          exact .inr ⟨_, awaitableOf t, hm, hm', h.notAwaitable c t hc ht, rfl, rfl⟩
    | returning k =>
      have hreturn : (f.inForm (.returning k)).declaredReturn = f.declaredReturn.mapCore k.of := rfl
      have hsync : (f.inForm (.returning k)).isAsync = false := h.notAsync
      rw [hreturn]
      rcases TypeExpr.mapCore_of_cases hform h.unmarked with ⟨e, he, he'⟩ |
        ⟨c, b, b', ts, hc, hb, hsplit, hb', hmarks, href⟩
      · rw [he, he']
        exact .inl ⟨_, rfl, rfl⟩
      · rw [hb, hb']
        have hmarks' : b'.normal.split.2 = b.normal.split.2 := by rw [hmarks, hsplit]
        have href' : b'.normal.split.1.reference? = b.normal.split.1.reference?.map fun t =>
            { k.bare with args := ts ++ [t] } := by rw [href, hsplit]
        rcases finish_cases hread hendpoint hmarks' href' ps with ⟨e, he, he'⟩ | ⟨m, t, ht, hm, hm'⟩
        · exact .inl ⟨e, he, he'⟩
        · rw [h.notAsync] at hm
          rw [hsync] at hm'
          rw [hsplit] at ht
          exact .inr ⟨_, _, hm, hm', h.notAwaitable c t hc ht, k.awaitable_bare,
            List.getLast?_concat⟩

/-- What a function is read as does not depend on the contract that it is reported for. -/
theorem signature_of_eq_ok {m : Signature} (h : f.signature meaning contract name = .ok m)
    (contract' : String) :
    f.signature meaning contract' name = .ok m := by
  have hread : ∀ {ps parameters}, f.readParameters contract name ps = .ok parameters →
      f.readParameters contract' name ps = .ok parameters := by
    intro ps parameters hps
    refine mapM_eq_ok_iff.mpr ((mapM_eq_ok_iff.mp hps).imp fun p q hq => ?_)
    exact mapError_eq_ok.mpr (mapError_eq_ok.mp hq)
  rw [signature_eq] at h ⊢
  obtain ⟨ps, hps, h⟩ := bind_eq_ok.mp h
  obtain ⟨r, hr, h⟩ := bind_eq_ok.mp h
  obtain ⟨parameters, hparameters, h⟩ := bind_eq_ok.mp h
  obtain ⟨t, ht, h⟩ := bind_eq_ok.mp h
  rw [mapError_eq_ok.mpr (mapError_eq_ok.mp hps), ok_bind,
    mapError_eq_ok.mpr (mapError_eq_ok.mp hr), ok_bind, finish, hread hparameters, ok_bind,
    mapError_eq_ok.mpr (mapError_eq_ok.mp ht), ok_bind]
  exact h

end Function

/-! ### Operations and plans -/

/-- The step of a method that is awaited. -/
def Step.deferred : Step → Step
  | invoke _ => invoke .async
  | step => step

/-- The plan whose sending is awaited. -/
def CallPlan.deferred (p : CallPlan) : CallPlan := { p with steps := p.steps.map Step.deferred }

namespace Operation
variable {o : Operation} {m : Signature} {t : TypeReference}

/-- The operation of a method that is awaited. -/
def deferred (o : Operation) : Operation := { o with completion := .async }

/-- The operation of a method whose roles are known. -/
def ofRoles (m : Signature) (e : Endpoint) (shape : Shape) (roles : Roles) : Operation where
  name := m.name
  verb := e.verb
  path := e.path
  completion := shape.completion
  returns := shape.returns
  isVoid := shape.isVoid
  parameters := roles.bindings
  requestHeaders := roles.requestHeaders
  contentHeaders := roles.contentHeaders
  body := roles.body
  resultPlace := some roles.resultPlace

theorem ofSignature_of_endpoint {e : Endpoint} (he : m.endpoint = some e) (contract : String) :
    ofSignature m contract = (Roles.ofSignature m (.ofReturn m.returns) contract).map
      (ofRoles m e (.ofReturn m.returns)) := by
  have hanalyze : m.analyze contract = .ok (e, .ofReturn m.returns) := by
    rw [Signature.analyze, he]
  rw [ofSignature, hanalyze, ok_bind]
  show (Roles.ofSignature m (.ofReturn m.returns) contract >>= _) = _
  cases Roles.ofSignature m (.ofReturn m.returns) contract with
  | error f => rfl
  | ok roles => rfl

theorem ofSignature_of_awaitable (hm : m.returns.awaitable = false) (ht : t.awaitable = true)
    (hlast : t.args.getLast? = some m.returns) (contract : String) :
    ofSignature { m with returns := t } contract = (ofSignature m contract).map deferred := by
  have hshape : Shape.ofReturn m.returns = ⟨.sync, m.returns, m.returns.isNone⟩ := by
    rw [Shape.ofReturn, hm]
    rfl
  have hshape' : Shape.ofReturn t = ⟨.async, m.returns, m.returns.isNone⟩ := by
    rw [Shape.ofReturn, ht, hlast]
    rfl
  rcases Option.eq_none_or_eq_some m.endpoint with he | ⟨e, he⟩
  · have hrefused : ∀ m' : Signature, m'.endpoint = none → ofSignature m' contract =
        Site.refuse ⟨contract, m'.name⟩ (.noVerb m'.name) := by
      intro m' he'
      rw [ofSignature, Signature.analyze, he']
      rfl
    rw [hrefused m he, hrefused { m with returns := t } he]
    rfl
  · have he' : ({ m with returns := t } : Signature).endpoint = some e := he
    -- the roles do not depend on the completion
    have hroles : Roles.ofSignature { m with returns := t } (.ofReturn t) contract =
        Roles.ofSignature m (.ofReturn m.returns) contract := by
      rw [hshape, hshape']
      rfl
    rw [ofSignature_of_endpoint he, ofSignature_of_endpoint he', hroles, hshape, hshape']
    cases Roles.ofSignature m ⟨.sync, m.returns, m.returns.isNone⟩ contract with
    | error f => rfl
    | ok roles => rfl

theorem map_deferred {steps : List Step} (h : ∀ step ∈ steps, ∀ mode, step ≠ .invoke mode) :
    steps.map Step.deferred = steps := by
  have hstep : ∀ step ∈ steps, step.deferred = step := by
    intro step hstep
    cases step with
    | invoke mode => exact absurd rfl (h _ hstep mode)
    | _ => rfl
  rw [List.map_congr_left hstep, List.map_id']

theorem bodySteps_ne_invoke {steps : List Step} (h : o.bodySteps = .ok steps) :
    ∀ step ∈ steps, ∀ mode, step ≠ .invoke mode := by
  rintro step hstep mode rfl
  unfold bodySteps at h
  split at h
  · cases h
    cases hstep
  · split at h
    · cases h
    · cases h
      rcases List.mem_cons.mp hstep with hstep | hstep
      · cases hstep
      · obtain ⟨b, -, hb⟩ := List.mem_map.mp hstep
        cases hb

theorem returnSteps_ne_invoke {steps : List Step} (h : o.returnSteps = .ok steps) :
    ∀ step ∈ steps, ∀ mode, step ≠ .invoke mode := by
  rintro step hstep mode rfl
  unfold returnSteps at h
  split_ifs at h
  · cases h
    cases hstep
  · split at h
    · cases h
    · cases h
      cases List.mem_singleton.mp hstep
    · cases h
      cases List.mem_singleton.mp hstep

theorem bindingSteps_ne_invoke (o : Operation) (role : Role) {make : List (String × String) → Step}
    (hmake : ∀ bs mode, make bs ≠ .invoke mode) :
    ∀ step ∈ o.bindingSteps role make, ∀ mode, step ≠ .invoke mode := by
  rintro step hstep mode rfl
  unfold bindingSteps at hstep
  split at hstep
  · cases hstep
  · exact hmake _ mode (List.mem_singleton.mp hstep).symm

theorem eq_completion_of_invoke_mem {plan : CallPlan} {mode : Completion} (h : o.plan = .ok plan)
    (hmem : .invoke mode ∈ plan.steps) : mode = o.completion := by
  unfold Operation.plan at h
  obtain ⟨body, hbody, h⟩ := bind_eq_ok.mp h
  obtain ⟨returns, hreturns, h⟩ := bind_eq_ok.mp h
  cases h
  simp only [List.append_assoc, List.mem_append, List.mem_singleton, List.mem_map] at hmem
  rcases hmem with hmem | hmem | hmem | hmem | hmem | hmem | hmem | hmem
  · exact absurd rfl (o.bindingSteps_ne_invoke .pathVariable (by simp) _ hmem mode)
  · exact absurd rfl (o.bindingSteps_ne_invoke .queryParameter (by simp) _ hmem mode)
  · cases hmem
  · obtain ⟨header, -, hheader⟩ := hmem
    cases hheader
  · exact absurd rfl (bodySteps_ne_invoke hbody _ hmem mode)
  · exact Step.invoke.inj hmem
  · obtain ⟨holder, -, hholder⟩ := hmem
    cases hholder
  · exact absurd rfl (returnSteps_ne_invoke hreturns _ hmem mode)

theorem plan_deferred (o : Operation) : o.deferred.plan = o.plan.map CallPlan.deferred := by
  have hbody : o.deferred.bodySteps = o.bodySteps := rfl
  have hreturn : o.deferred.returnSteps = o.returnSteps := rfl
  unfold plan
  rw [hbody, hreturn]
  cases hb : o.bodySteps with
  | error e => rfl
  | ok body =>
    cases hr : o.returnSteps with
    | error e => rfl
    | ok returns =>
      have hbindsPath : ∀ bs mode, Step.bindPath bs ≠ .invoke mode := by simp
      have hbindsQuery : ∀ bs mode, Step.bindQuery bs ≠ .invoke mode := by simp
      have hpath := map_deferred (o.bindingSteps_ne_invoke .pathVariable hbindsPath)
      have hquery := map_deferred (o.bindingSteps_ne_invoke .queryParameter hbindsQuery)
      have hheaders : ∀ hs : List (String × String),
          (hs.map fun h => Step.attachHeader h.1 h.2).map Step.deferred =
            hs.map fun h => Step.attachHeader h.1 h.2 := by
        intro hs
        rw [List.map_map]
        rfl
      have hholders : ∀ bs : List Binding,
          (bs.map fun b => Step.extractHeader b.key b.name b.valueType).map Step.deferred =
            bs.map fun b => Step.extractHeader b.key b.name b.valueType := by
        intro bs
        rw [List.map_map]
        rfl
      rw [ok_bind, ok_bind, ok_bind, ok_bind]
      refine congrArg Except.ok (congrArg (CallPlan.mk o.name) (Eq.symm ?_))
      simp only [List.map_append, hpath, hquery, hheaders, map_deferred (bodySteps_ne_invoke hb),
        hholders, map_deferred (returnSteps_ne_invoke hr)]
      rfl

end Operation

theorem Operation.ofSignature_of_eq_ok {m : Signature} {contract : String} {o : Operation}
    (h : Operation.ofSignature m contract = .ok o) (contract' : String) :
    Operation.ofSignature m contract' = .ok o := by
  obtain ⟨e, he, ha, ho⟩ := Signature.ofSignature_eq_ok h
  exact (Signature.decides_ofSignature he contract').eq_ok_iff.mpr ⟨ha, ho⟩

namespace Function
variable {f : Function} {form : AsyncForm} {meaning : Forward.Evaluation} {contract name : String}

theorem operation_of_eq_ok {o : Operation} (h : f.operation meaning contract name = .ok o)
    (contract' : String) : f.operation meaning contract' name = .ok o := by
  obtain ⟨m, hm, ho⟩ := bind_eq_ok.mp h
  exact bind_eq_ok.mpr ⟨m, signature_of_eq_ok hm contract', Operation.ofSignature_of_eq_ok ho contract'⟩

theorem operation_inForm (h : f.ReturnsPlainly meaning) (hform : form.Describable meaning) (contract name : String) :
    (f.inForm form).operation meaning contract name =
      (f.operation meaning contract name).map Operation.deferred := by
  unfold operation
  rcases signature_inForm h hform contract name with ⟨e, he, he'⟩ |
    ⟨m, t, hm, hm', hsync, hasync, hlast⟩
  · rw [he, he']
    rfl
  · rw [hm, hm', ok_bind, ok_bind]
    exact Operation.ofSignature_of_awaitable hsync hasync hlast contract

theorem completion_operation {o : Operation} (h : f.ReturnsPlainly meaning)
    (ho : f.operation meaning contract name = .ok o) : o.completion = .sync := by
  obtain ⟨m, hm, ho⟩ := bind_eq_ok.mp ho
  have hfunction : AsyncForm.Describable meaning .function := trivial
  rcases signature_inForm h hfunction contract name with ⟨e, he, -⟩ |
    ⟨m', t, hm', -, hsync, -, -⟩
  · rw [hm] at he
    cases he
  · rw [hm] at hm'
    cases hm'
    obtain ⟨e, -, -, rfl⟩ := Signature.ofSignature_eq_ok ho
    show (Shape.ofReturn m.returns).completion = .sync
    rw [Shape.ofReturn, hsync]
    rfl

end Function

end HttpContract
