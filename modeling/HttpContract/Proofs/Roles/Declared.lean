import HttpContract.Contract.Roles
import HttpContract.Proofs.Decision

/-!
# Declared roles

What a parameter declares by its marks, read without any check: its role, its key, and the binding
they make up. `decides_bind`: binding a parameter yields just that, if the parameter carries one role
at most and its type suits the role.
-/

namespace HttpContract

namespace RoleMark

/-- The key of the mark. -/
def key? : RoleMark → Option String
  | keyed _ key => key
  | body .. => none

/-- What the mark says about the encoding of a body. -/
def encoding? : RoleMark → Option (BodyEncoding × Option String)
  | keyed .. => none
  | body format contentType => some (format, contentType)

end RoleMark

namespace BodyEncoding

/-- The format that a type is sent in, if it can be. -/
def resolved (f : BodyEncoding) (t : TypeReference) : BodyEncoding :=
  match f with
  | .auto => if t.rawForm.isSome then .raw else .json
  | .json => .json
  | .raw => .raw

theorem decides_resolve (f : BodyEncoding) (t : TypeReference) :
    Decides (fun _ => True) (f.resolve t) (f = .raw → t.rawForm.isSome = true) (f.resolved t) := by
  cases f with
  | auto => exact .accepts (fun h => nomatch h) rfl
  | json => exact .accepts (fun h => nomatch h) rfl
  | raw =>
    refine .ite (fun h => .accepts (fun _ => h) rfl) fun h => ?_
    exact .rejects (fun hr => h (hr rfl)) _ trivial rfl

theorem resolved_ne_auto (f : BodyEncoding) (t : TypeReference) : f.resolved t ≠ .auto := by
  cases f with
  | auto =>
    unfold resolved
    split_ifs <;> exact fun h => nomatch h
  | json => exact fun h => nomatch h
  | raw => exact fun h => nomatch h

theorem rawForm_of_resolved {f : BodyEncoding} {t : TypeReference}
    (hf : f = .raw → t.rawForm.isSome = true) (h : f.resolved t = .raw) :
    t.rawForm.isSome = true := by
  cases f with
  | auto =>
    unfold resolved at h
    split_ifs at h with ht
    exact ht
  | json => cases h
  | raw => exact hf rfl

end BodyEncoding

namespace Parameter

/-- The role of the first role mark; a parameter without one is a query parameter. -/
def declaredRole (p : Parameter) : Role := (p.roleMarks.head?.map RoleMark.role).getD .queryParameter

/-- The key of the first role mark, or else the name of the parameter. -/
def declaredKey (p : Parameter) : String := keyOr (p.roleMarks.head?.bind RoleMark.key?) p.name

/-- The format and the content type that a body parameter is marked with. -/
def declaredEncoding? (p : Parameter) : Option (BodyEncoding × Option String) :=
  p.roleMarks.head?.bind RoleMark.encoding?

/-- The type that a response header is converted to; the declared type for other roles. -/
def targetType (p : Parameter) : TypeReference :=
  if p.declaredRole = .responseHeader then p.type.args.head?.getD (.builtin "str") else p.type

/-- The binding that a parameter declares. -/
def binding (p : Parameter) : Binding where
  name := p.name
  type := p.type
  role := p.declaredRole
  key := p.declaredKey
  valueType := p.targetType
  bodyEncoding := p.declaredEncoding?.map fun e => e.1.resolved p.type
  contentType := p.declaredEncoding?.bind (·.2)
  default := p.default
  keywordOnly := p.keywordOnly

/-- What the marks of a parameter must satisfy by themselves. -/
structure Bindable (p : Parameter) : Prop where
  oneRole : p.roleMarks.length ≤ 1
  rawBody : ∀ contentType, .body .raw contentType ∈ p.roleMarks → p.type.rawForm.isSome = true
  holder : p.declaredRole = .responseHeader → p.type.isOut = true

section
variable {p : Parameter} {mark : RoleMark} {marks : List RoleMark}

theorem declaredRole_nil (h : p.roleMarks = []) : p.declaredRole = .queryParameter := by
  rw [declaredRole, h]; rfl

theorem declaredRole_cons (h : p.roleMarks = mark :: marks) : p.declaredRole = mark.role := by
  rw [declaredRole, h]; rfl

theorem declaredKey_nil (h : p.roleMarks = []) : p.declaredKey = keyOr none p.name := by
  rw [declaredKey, h]; rfl

theorem declaredKey_cons (h : p.roleMarks = mark :: marks) :
    p.declaredKey = keyOr mark.key? p.name := by
  rw [declaredKey, h]; rfl

theorem declaredEncoding?_nil (h : p.roleMarks = []) : p.declaredEncoding? = none := by
  rw [declaredEncoding?, h]; rfl

theorem declaredEncoding?_cons (h : p.roleMarks = mark :: marks) :
    p.declaredEncoding? = mark.encoding? := by
  rw [declaredEncoding?, h]; rfl

theorem ne_body_of_mem_roleMarks {role : Role} {key : Option String}
    (h : .keyed role key ∈ p.roleMarks) : role ≠ .body := by
  obtain ⟨mark, -, hm⟩ := List.mem_filterMap.mp h
  cases mark with
  | keyed kind key' => cases kind <;> cases hm <;> exact fun h => nomatch h
  | body format contentType => cases hm
  | other v => cases hm

theorem exists_body_of_declaredRole (h : p.declaredRole = .body) :
    ∃ format contentType marks, p.roleMarks = .body format contentType :: marks := by
  cases hm : p.roleMarks with
  | nil => rw [declaredRole_nil hm] at h; cases h
  | cons mark marks =>
    rw [declaredRole_cons hm] at h
    cases mark with
    | keyed role key => exact absurd h (ne_body_of_mem_roleMarks (hm ▸ List.mem_cons_self ..))
    | body format contentType => exact ⟨format, contentType, marks, rfl⟩

theorem declaredKey_of_body (h : p.declaredRole = .body) : p.declaredKey = p.name := by
  obtain ⟨format, contentType, marks, hm⟩ := exists_body_of_declaredRole h
  rw [declaredKey_cons hm]
  rfl

end

/-! ### Binding a parameter -/

theorem bind_nil {p : Parameter} (h : p.roleMarks = []) : p.bind = .ok p.binding := by
  simp only [bind, binding, h, declaredRole_nil h, declaredKey_nil h, declaredEncoding?_nil h,
    targetType, reduceCtorEq, ↓reduceIte, Option.map_none, Option.bind_none]

theorem bind_body {p : Parameter} {format : BodyEncoding} {contentType : Option String}
    (h : p.roleMarks = [.body format contentType]) :
    p.bind = (format.resolve p.type).map fun f => { p.binding with bodyEncoding := some f } := by
  simp only [bind, binding, h, declaredRole_cons h, declaredKey_cons h, declaredEncoding?_cons h,
    RoleMark.role, RoleMark.key?, RoleMark.encoding?, keyOr, targetType, reduceCtorEq, ↓reduceIte,
    Option.bind_some]

theorem bind_keyed {p : Parameter} {role : Role} {key : Option String}
    (h : p.roleMarks = [.keyed role key]) :
    p.bind = if role = .responseHeader ∧ p.type.isOut = false then .error (.notHolder p.name)
      else .ok p.binding := by
  simp only [bind, binding, h, declaredRole_cons h, declaredKey_cons h, declaredEncoding?_cons h,
    RoleMark.role, RoleMark.key?, RoleMark.encoding?, targetType, Option.map_none, Option.bind_none]
  by_cases hr : role = .responseHeader
  · cases ht : p.type.isOut <;> simp [hr]
  · simp [hr]

theorem bind_conflict {p : Parameter} {mark mark' : RoleMark} {marks : List RoleMark}
    (h : p.roleMarks = mark :: mark' :: marks) :
    p.bind = .error (.conflictingRoles p.name (p.roleMarks.map RoleMark.role)) := by
  rw [bind, h]
  cases mark <;> rfl

theorem decides_bind (p : Parameter) : Decides (fun _ => True) p.bind p.Bindable p.binding := by
  cases hm : p.roleMarks with
  | nil =>
    refine .accepts ⟨by rw [hm]; exact Nat.zero_le _, fun c hc => ?_, fun hr => ?_⟩ (bind_nil hm)
    · rw [hm] at hc; cases hc
    · rw [declaredRole_nil hm] at hr; cases hr
  | cons mark marks =>
    cases marks with
    | cons mark' marks =>
      refine .rejects (fun h => ?_) _ trivial (bind_conflict hm)
      have := h.oneRole
      rw [hm, List.length_cons, List.length_cons] at this
      omega
    | nil =>
      have one : p.roleMarks.length ≤ 1 := by rw [hm]; exact Nat.le_refl 1
      cases mark with
      | body format contentType =>
        rw [bind_body hm]
        have hb : p.binding = { p.binding with bodyEncoding := some (format.resolved p.type) } := by
          simp only [binding, declaredEncoding?_cons hm, RoleMark.encoding?, Option.map_some]
        rw [hb]
        refine ((format.decides_resolve p.type).map _).congr ⟨fun h => ⟨one, ?_, ?_⟩, ?_⟩
        · intro c hc
          rw [hm] at hc
          cases List.mem_singleton.mp hc
          exact h rfl
        · intro hr; rw [declaredRole_cons hm] at hr; cases hr
        · rintro h rfl
          exact h.rawBody contentType (hm ▸ List.mem_singleton_self _)
      | keyed role key =>
        rw [bind_keyed hm]
        refine .ite (fun h => ?_) fun h => ?_
        · refine (Decides.error trivial).congr ⟨False.elim, fun hp => ?_⟩
          have := hp.holder (by rw [declaredRole_cons hm]; exact h.1)
          rw [h.2] at this
          cases this
        · refine Decides.pure.congr ⟨fun _ => ⟨one, ?_, ?_⟩, fun _ => trivial⟩
          · intro c hc
            rw [hm] at hc
            cases List.mem_singleton.mp hc
          · intro hr
            rw [declaredRole_cons hm] at hr
            exact eq_true_of_ne_false fun ho => h ⟨hr, ho⟩

end Parameter

end HttpContract
