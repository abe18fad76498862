import HttpContract.Proofs.Roles.Declared
import Mathlib.Data.List.Nodup
import Mathlib.Data.List.Pairwise

/-!
# Acceptable methods

`Signature.Acceptable` says which methods have an operation, as conditions on what their marks
declare; `Signature.operation` is that operation. `decides_ofSignature`: translating a method yields
the declared operation under those conditions, and is refused at the method otherwise. What carries
the proof is the run over the parameters (`decides_foldlM_bindNext`): bindings that have been made
are those declared, and no two of them collide.
-/

namespace HttpContract

/-- The failures that report a fault of a member. -/
def Site.Refusal (s : Site) (e : Failure) : Prop := ∃ f, e = s.failure f

theorem Site.decides_require (s : Site) (ok : Bool) (f : Fault) :
    Decides s.Refusal (s.require ok f) (ok = true) () := by
  refine .ite (fun h => ?_) fun h => ?_
  · exact .accepts h rfl
  · exact .rejects h _ ⟨f, rfl⟩ rfl

namespace Signature

/-- The parameters that declare a role, in order. -/
def withRole (m : Signature) (r : Role) : List Parameter := m.parameters.filter (·.declaredRole == r)

/-- The keys of the parameters of a role, in order. -/
def keys (m : Signature) (r : Role) : List String := (m.withRole r).map (·.declaredKey)

/-- The keys of the parameters of a role with the names of the parameters, in order. -/
def pairs (m : Signature) (r : Role) : List (String × String) :=
  (m.withRole r).map fun p => (p.declaredKey, p.name)

/-- What the return type says about the way a method ends. -/
def shape (m : Signature) : Shape := .ofReturn m.returns

/-- The names that the generated body looks up as types. -/
def evaluatedNames (m : Signature) : List String :=
  (if m.shape.isVoid then [] else m.shape.returns.names) ++
    (m.withRole .responseHeader).flatMap (·.targetType.names)

/-- What the marks of a return must satisfy. -/
structure ReturnAcceptable (m : Signature) : Prop where
  markedOnce : m.returnBodies.length + m.returnHeaders.length ≤ 1
  headerNamed : ∀ key ∈ m.returnHeaders, key.getD "" ≠ ""
  rawBody : ∀ contentType, (.raw, contentType) ∈ m.returnBodies → m.shape.isVoid = false →
    m.shape.returns.rawForm.isSome = true

/-- The rules for a method on a path: each one alone, in no order. -/
structure Acceptable (m : Signature) (path : String) : Prop where
  unreserved : ∀ p ∈ m.parameters, p.name.startsWith reservedStart = false
  bindable : ∀ p ∈ m.parameters, p.Bindable
  pathKeys : (m.keys .pathVariable).Nodup
  tokens : ∀ t, t ∈ m.keys .pathVariable ↔ t ∈ PathTemplate.tokens path
  queryKeys : (m.keys .queryParameter).Nodup
  requestHeaders : ((m.keys .requestHeader).map Text.lower).Nodup
  contentHeaders : ((m.keys .contentHeader).map Text.lower).Nodup
  oneBody : (m.withRole .body).length ≤ 1
  unshadowed : ∀ p ∈ m.parameters, p.name ∉ m.evaluatedNames
  returned : m.ReturnAcceptable

/-- The declared bindings of the parameters. -/
def bindings (m : Signature) : List Binding := m.parameters.map Parameter.binding

/-- The place that a method declares for its result. -/
def declaredResult (m : Signature) : ResultPlace :=
  match m.returnHeaders with
  | key :: _ => .header key
  | [] =>
    let (format, contentType) := m.returnBodies.head?.getD (.auto, none)
    .body (some (if m.shape.isVoid then format else format.resolved m.shape.returns)) contentType

/-- The operation that a method declares at an endpoint. -/
def operation (m : Signature) (e : Endpoint) : Operation where
  name := m.name
  verb := e.verb
  path := e.path
  completion := m.shape.completion
  returns := m.shape.returns
  isVoid := m.shape.isVoid
  parameters := m.bindings
  requestHeaders := m.pairs .requestHeader
  contentHeaders := m.pairs .contentHeader
  body := (m.withRole .body).head?.map (·.name)
  resultPlace := some m.declaredResult

end Signature

/-! ### Places in a request -/

namespace Parameter

/-- What no other parameter of the same role may have too. -/
def place (p : Parameter) : String :=
  match p.declaredRole with
  | .requestHeader | .contentHeader => Text.lower p.declaredKey
  | .body => ""
  | _ => p.declaredKey

theorem collides_binding (p q : Parameter) : p.binding.collides q.binding = true ↔
    p.declaredRole = q.declaredRole ∧ p.declaredRole ≠ .responseHeader ∧ p.place = q.place := by
  unfold Binding.collides Binding.foldedKey place
  simp only [binding, Bool.and_eq_true, beq_iff_eq]
  refine and_congr_right fun h => ?_
  rw [← h]
  cases p.declaredRole <;> simp

theorem collides_binding_eq_false (p q : Parameter) : p.binding.collides q.binding = false ↔
    ∀ r ≠ .responseHeader, p.declaredRole = r → q.declaredRole = r → p.place ≠ q.place := by
  rw [← Bool.not_eq_true, collides_binding]
  constructor
  · rintro h r hr rfl hq he
    exact h ⟨hq.symm, hr, he⟩
  · rintro h ⟨hq, hr, he⟩
    exact h _ hr rfl hq.symm he

end Parameter

namespace Signature
variable {m : Signature}

/-- Bindings that do not collide have places of their own, role by role. -/
theorem pairwise_bindings_iff : m.bindings.Pairwise (fun a b => a.collides b = false) ↔
    ∀ r ≠ .responseHeader, ((m.withRole r).map Parameter.place).Nodup := by
  simp only [bindings, List.pairwise_map, Parameter.collides_binding_eq_false, List.Nodup, withRole,
    List.pairwise_filter, beq_iff_eq]
  constructor
  · exact fun h r hr => h.imp fun hpq => hpq r hr
  · intro h
    rw [List.pairwise_iff_forall_sublist]
    exact fun {p q} hs r hr => List.pairwise_iff_forall_sublist.mp (h r hr) hs

theorem declaredRole_of_mem_withRole {p : Parameter} {r : Role} (h : p ∈ m.withRole r) :
    p.declaredRole = r := by
  simpa using (List.mem_filter.mp h).2

theorem mem_of_mem_withRole {p : Parameter} {r : Role} (h : p ∈ m.withRole r) : p ∈ m.parameters :=
  (List.mem_filter.mp h).1

theorem mem_withRole {p : Parameter} (h : p ∈ m.parameters) : p ∈ m.withRole p.declaredRole :=
  List.mem_filter.mpr ⟨h, beq_self_eq_true _⟩

theorem withRole_body (h : (m.withRole .body).length ≤ 1) :
    m.withRole .body = [] ∨ ∃ p, m.withRole .body = [p] := by
  match hb : m.withRole .body with
  | [] => exact .inl rfl
  | [p] => exact .inr ⟨p, rfl⟩
  | _ :: _ :: _ =>
    rw [hb, List.length_cons, List.length_cons] at h
    omega

theorem map_place_of_key {r : Role} (h : r = .pathVariable ∨ r = .queryParameter) :
    (m.withRole r).map Parameter.place = m.keys r := by
  refine List.map_congr_left fun p hp => ?_
  rw [Parameter.place, declaredRole_of_mem_withRole hp]
  rcases h with rfl | rfl <;> rfl

theorem map_place_of_header {r : Role} (h : r = .requestHeader ∨ r = .contentHeader) :
    (m.withRole r).map Parameter.place = (m.keys r).map Text.lower := by
  rw [keys, List.map_map]
  refine List.map_congr_left fun p hp => ?_
  rw [Parameter.place, declaredRole_of_mem_withRole hp]
  rcases h with rfl | rfl <;> rfl

theorem nodup_place_body :
    ((m.withRole .body).map Parameter.place).Nodup ↔ (m.withRole .body).length ≤ 1 := by
  have h : (m.withRole .body).map Parameter.place =
      List.replicate (m.withRole .body).length "" := by
    rw [← List.map_const']
    refine List.map_congr_left fun p hp => ?_
    rw [Parameter.place, declaredRole_of_mem_withRole hp]
  rw [h, List.nodup_replicate]

theorem nodup_places_iff : (∀ r ≠ .responseHeader, ((m.withRole r).map Parameter.place).Nodup) ↔
    (m.keys .pathVariable).Nodup ∧ (m.keys .queryParameter).Nodup ∧
      ((m.keys .requestHeader).map Text.lower).Nodup ∧
      ((m.keys .contentHeader).map Text.lower).Nodup ∧ (m.withRole .body).length ≤ 1 := by
  rw [← map_place_of_key (.inl rfl), ← map_place_of_key (.inr rfl), ← map_place_of_header (.inl rfl),
    ← map_place_of_header (.inr rfl), ← nodup_place_body]
  constructor
  · exact fun h => ⟨h _ (by decide), h _ (by decide), h _ (by decide), h _ (by decide),
      h _ (by decide)⟩
  · rintro ⟨h1, h2, h3, h4, h5⟩ r hr
    cases r with
    | pathVariable => exact h1
    | queryParameter => exact h2
    | requestHeader => exact h3
    | contentHeader => exact h4
    | responseHeader => exact absurd rfl hr
    | body => exact h5

end Signature

/-! ### The run over the parameters -/

namespace PathSite
variable {s : PathSite} {path : String}

theorem tokens_eq (h : s.path = some path) : s.tokens = PathTemplate.tokens path := by
  rw [tokens, h]; rfl

theorem decides_checkFree (h : s.path = some path) (before : List Binding) (b : Binding) :
    Decides s.Refusal (s.checkFree before b)
      ((b.role = .pathVariable → b.key ∈ s.tokens) ∧ ∀ a ∈ before, a.collides b = false) () := by
  unfold checkFree
  refine .ite (fun hc => ?_) fun hc => ?_
  · simp only [Bool.not_eq_true', List.contains_eq_mem, decide_eq_false_iff_not] at hc
    rw [h]
    exact .rejects (fun hp => hc.2 (hp.1 hc.1)) _ ⟨.unknownToken b.key path, rfl⟩ rfl
  · have ht : b.role = .pathVariable → b.key ∈ s.tokens := by
      intro hr
      by_contra hn
      exact hc ⟨hr, by simpa using hn⟩
    cases hf : before.find? (·.collides b) with
    | none =>
      exact .accepts ⟨ht, fun a ha => by simpa using List.find?_eq_none.mp hf a ha⟩ rfl
    | some first =>
      refine .rejects (fun hp => ?_) _ ⟨first.collision b, rfl⟩ rfl
      have := hp.2 first (List.mem_of_find?_eq_some hf)
      rw [List.find?_some hf] at this
      cases this

/-- One more parameter fits if it is sound by itself, has its token, and its place is free. -/
structure Fits (s : PathSite) (before : List Binding) (p : Parameter) : Prop where
  unreserved : p.name.startsWith reservedStart = false
  bindable : p.Bindable
  token : p.declaredRole = .pathVariable → p.declaredKey ∈ s.tokens
  free : ∀ a ∈ before, a.collides p.binding = false

theorem decides_bindNext (h : s.path = some path) (before : List Binding) (p : Parameter) :
    Decides s.Refusal (s.bindNext before p) (s.Fits before p) (before ++ [p.binding]) := by
  unfold bindNext
  refine Decides.congr (.bind (s.decides_require _ _) fun _ =>
    .bind (p.decides_bind.mapError fun f _ => ⟨f, rfl⟩) fun _ =>
    .bind_pure _ (decides_checkFree h before p.binding)) ⟨?_, ?_⟩
  · rintro ⟨hu, hb, ht, hf⟩
    exact ⟨by simpa using hu, hb, ht, hf⟩
  · rintro ⟨hu, hb, ht, hf⟩
    exact ⟨by simpa using hu, hb, ht, hf⟩

/-- All parameters fit, behind the bindings before them and one behind the other. -/
structure FitAll (s : PathSite) (before : List Binding) (ps : List Parameter) : Prop where
  unreserved : ∀ p ∈ ps, p.name.startsWith reservedStart = false
  bindable : ∀ p ∈ ps, p.Bindable
  token : ∀ p ∈ ps, p.declaredRole = .pathVariable → p.declaredKey ∈ s.tokens
  free : ∀ a ∈ before, ∀ p ∈ ps, a.collides p.binding = false
  apart : (ps.map Parameter.binding).Pairwise fun a b => a.collides b = false

theorem fitAll_nil (before : List Binding) : s.FitAll before [] :=
  ⟨by simp, by simp, by simp, by simp, .nil⟩

theorem fitAll_cons {before : List Binding} {p : Parameter} {ps : List Parameter} :
    s.Fits before p ∧ s.FitAll (before ++ [p.binding]) ps ↔ s.FitAll before (p :: ps) := by
  constructor
  · rintro ⟨h, hs⟩
    refine ⟨?_, ?_, ?_, fun a ha => ?_, ?_⟩
    · exact List.forall_mem_cons.mpr ⟨h.unreserved, hs.unreserved⟩
    · exact List.forall_mem_cons.mpr ⟨h.bindable, hs.bindable⟩
    · exact List.forall_mem_cons.mpr ⟨h.token, hs.token⟩
    · exact List.forall_mem_cons.mpr ⟨h.free a ha, hs.free a (by simp [ha])⟩
    · rw [List.map_cons, List.pairwise_cons, List.forall_mem_map]
      exact ⟨hs.free p.binding (by simp), hs.apart⟩
  · rintro ⟨hu, hb, ht, hf, hp⟩
    rw [List.map_cons, List.pairwise_cons, List.forall_mem_map] at hp
    simp only [List.forall_mem_cons] at hu hb ht hf
    refine ⟨⟨hu.1, hb.1, ht.1, fun a ha => (hf a ha).1⟩, hu.2, hb.2, ht.2, fun a ha => ?_, hp.2⟩
    rcases List.mem_append.mp ha with ha | ha
    · exact (hf a ha).2
    · rw [List.mem_singleton.mp ha]
      exact hp.1

/-- The run: what has been bound stays, and the declared bindings follow. -/
theorem decides_foldlM_bindNext (h : s.path = some path) (ps : List Parameter)
    (before : List Binding) : Decides s.Refusal (ps.foldlM s.bindNext before) (s.FitAll before ps)
      (before ++ ps.map Parameter.binding) := by
  induction ps generalizing before with
  | nil =>
    rw [List.foldlM_nil, List.map_nil, List.append_nil]
    exact Decides.pure.congr ⟨fun _ => fitAll_nil before, fun _ => trivial⟩
  | cons p ps ih =>
    rw [List.foldlM_cons, List.map_cons, List.append_cons]
    exact ((decides_bindNext h before p).bind fun _ => ih _).congr fitAll_cons

end PathSite

/-! ### The return -/

namespace Signature
variable {m : Signature}

theorem decides_bodyResult (shape : Shape) (format : BodyEncoding) (contentType : Option String) :
    Decides (fun _ => True)
      (if shape.isVoid then pure (.body (some format) contentType)
        else do
          let f ← format.resolve shape.returns
          pure (.body (some f) contentType) : Except Fault ResultPlace)
      (shape.isVoid = false → format = .raw → shape.returns.rawForm.isSome = true)
      (.body (some (if shape.isVoid then format else format.resolved shape.returns))
        contentType) := by
  cases shape.isVoid with
  | true => exact Decides.pure.congr ⟨fun _ h => (nomatch h), fun _ => trivial⟩
  | false =>
    exact Decides.congr (.bind_pure _ (format.decides_resolve shape.returns))
      ⟨fun h _ => h, fun h => h rfl⟩

theorem decides_resultPlace (m : Signature) :
    Decides (fun _ => True) (m.resultPlace m.shape) m.ReturnAcceptable m.declaredResult := by
  have once := ReturnAcceptable.markedOnce (m := m)
  unfold resultPlace declaredResult
  match hb : m.returnBodies, hh : m.returnHeaders with
  | _ :: _, _ :: _ =>
    refine .rejects (fun h => ?_) _ trivial rfl
    have := once h
    rw [hb, hh, List.length_cons, List.length_cons] at this
    omega
  | _ :: _ :: _, [] =>
    refine .rejects (fun h => ?_) _ trivial rfl
    have := once h
    rw [hb, List.length_cons, List.length_cons] at this
    omega
  | [], _ :: _ :: _ =>
    refine .rejects (fun h => ?_) _ trivial rfl
    have := once h
    rw [hh, List.length_cons, List.length_cons] at this
    omega
  | [], [key] =>
    refine .ite (fun hk => ?_) fun hk => ?_
    · exact .rejects (fun h => h.headerNamed key (by rw [hh]; simp) hk) _ trivial rfl
    · refine .accepts ⟨by rw [hb, hh]; exact Nat.le_refl 1, ?_, by rw [hb]; simp⟩ rfl
      rw [hh]
      simpa using hk
  | [], [] =>
    refine (decides_bodyResult m.shape .auto none).congr ⟨fun _ => ?_, fun _ _ h => nomatch h⟩
    exact ⟨by rw [hb, hh]; exact Nat.zero_le 1, by rw [hh]; simp, by rw [hb]; simp⟩
  | [(format, contentType)], [] =>
    refine (decides_bodyResult m.shape format contentType).congr ⟨fun h => ?_, fun h hv hf => ?_⟩
    · refine ⟨by rw [hb, hh]; exact Nat.le_refl 1, by rw [hh]; simp, fun c hc hv => ?_⟩
      rw [hb, List.mem_singleton, Prod.mk.injEq] at hc
      exact h hv hc.1.symm
    · subst hf
      exact h.rawBody contentType (by rw [hb]; exact List.mem_singleton_self _) hv

/-! ### The whole method -/

theorem typeNames_bindings (m : Signature) : typeNames m.shape m.bindings = m.evaluatedNames := by
  unfold typeNames evaluatedNames
  rw [bindings, List.filter_map, List.flatMap_map]
  rfl

theorem headers_bindings (m : Signature) (r : Role) :
    Roles.headers r m.bindings = m.pairs r := by
  rw [Roles.headers, bindings, List.filter_map, List.map_map]
  rfl

theorem find?_body_bindings (m : Signature) :
    (m.bindings.find? (·.role == .body)).map (·.name) = (m.withRole .body).head?.map (·.name) := by
  rw [bindings, List.find?_map, withRole, List.head?_filter, Option.map_map]
  rfl

/-- The roles that a method declares. -/
def roles (m : Signature) : Roles where
  bindings := m.bindings
  requestHeaders := m.pairs .requestHeader
  contentHeaders := m.pairs .contentHeader
  body := (m.withRole .body).head?.map (·.name)
  resultPlace := m.declaredResult

/-- The rules hold exactly if the parameters fit one after the other, no name that is looked up is
taken, every token is bound, and the return is sound. -/
theorem acceptable_iff (m : Signature) {s : PathSite} {path : String} (hs : s.path = some path) :
    m.Acceptable path ↔ s.FitAll [] m.parameters ∧ (∀ p ∈ m.parameters, p.name ∉ m.evaluatedNames) ∧
      (∀ t ∈ s.tokens, t ∈ m.keys .pathVariable) ∧ m.ReturnAcceptable := by
  have hkey : (∀ p ∈ m.parameters, p.declaredRole = .pathVariable → p.declaredKey ∈ s.tokens) ↔
      ∀ t ∈ m.keys .pathVariable, t ∈ s.tokens := by
    rw [keys, List.forall_mem_map]
    constructor
    · exact fun h p hp => h p (mem_of_mem_withRole hp) (declaredRole_of_mem_withRole hp)
    · exact fun h p hp hr => h p (hr ▸ mem_withRole hp)
  rw [s.tokens_eq hs] at hkey ⊢
  constructor
  · intro h
    refine ⟨⟨h.unreserved, h.bindable, ?_, by simp, ?_⟩, h.unshadowed, fun t => (h.tokens t).mpr,
      h.returned⟩
    · rw [s.tokens_eq hs]
      exact hkey.mpr fun t => (h.tokens t).mp
    · exact pairwise_bindings_iff.mpr (nodup_places_iff.mpr
        ⟨h.pathKeys, h.queryKeys, h.requestHeaders, h.contentHeaders, h.oneBody⟩)
  · rintro ⟨h, hn, ht, hr⟩
    obtain ⟨h1, h2, h3, h4, h5⟩ := nodup_places_iff.mp (pairwise_bindings_iff.mp h.apart)
    have hk := h.token
    rw [s.tokens_eq hs] at hk
    exact ⟨h.unreserved, h.bindable, h1, fun t => ⟨hkey.mp hk t, ht t⟩, h2, h3, h4, h5, hn, hr⟩

theorem unshadowed_iff (m : Signature) :
    (∀ b ∈ m.bindings, (typeNames m.shape m.bindings).contains b.name = false) ↔
      ∀ p ∈ m.parameters, p.name ∉ m.evaluatedNames := by
  rw [typeNames_bindings, bindings, List.forall_mem_map]
  simp only [List.contains_eq_mem, decide_eq_false_iff_not]
  rfl

theorem bound_iff (m : Signature) (tokens : List String) :
    (tokens.filter fun t => !((m.bindings.filter (·.role == .pathVariable)).map (·.key)).contains t)
      = [] ↔ ∀ t ∈ tokens, t ∈ m.keys .pathVariable := by
  rw [bindings, List.filter_map, List.map_map, List.filter_eq_nil_iff]
  refine forall₂_congr fun t _ => ?_
  rw [Bool.not_eq_true', Bool.not_eq_false, List.contains_iff_mem]
  rfl

theorem decides_roles {m : Signature} {e : Endpoint} (he : m.endpoint = some e) (contract : String) :
    Decides (Site.Refusal ⟨contract, m.name⟩) (Roles.ofSignature m m.shape contract)
      (m.Acceptable e.path) m.roles := by
  have hs : (⟨⟨contract, m.name⟩, m.endpoint.map (·.path)⟩ : PathSite).path = some e.path := by
    rw [he]; rfl
  have hr : m.roles = {
      bindings := m.bindings, resultPlace := m.declaredResult
      requestHeaders := Roles.headers .requestHeader m.bindings
      contentHeaders := Roles.headers .contentHeader m.bindings
      body := (m.bindings.find? (·.role == .body)).map (·.name) } := by
    rw [headers_bindings, headers_bindings, find?_body_bindings]
    rfl
  rw [hr]
  unfold Roles.ofSignature
  refine Decides.congr (.bind (PathSite.decides_foldlM_bindNext hs m.parameters []) fun _ => ?_)
    (acceptable_iff m hs).symm
  rw [List.nil_append, show m.parameters.map Parameter.binding = m.bindings from rfl]
  rw [← unshadowed_iff, ← bound_iff]
  cases hf : m.bindings.find? fun b => (typeNames m.shape m.bindings).contains b.name with
  | some b =>
    refine .rejects (fun h => ?_) _ ⟨.shadowedName b.name, rfl⟩ rfl
    have := h.1 b (List.mem_of_find?_eq_some hf)
    rw [List.find?_some hf] at this
    cases this
  | none =>
    have free : ∀ b ∈ m.bindings, (typeNames m.shape m.bindings).contains b.name = false :=
      fun b hb => by simpa using List.find?_eq_none.mp hf b hb
    refine Decides.congr (.bind (Site.decides_require _ _ _) fun _ =>
      .bind_pure _ (m.decides_resultPlace.mapError fun f _ => ⟨f, rfl⟩)) ?_
    rw [List.isEmpty_iff]
    exact ⟨fun h => ⟨free, h⟩, fun h => h.2⟩

theorem decides_ofSignature {m : Signature} {e : Endpoint} (he : m.endpoint = some e)
    (contract : String) : Decides (Site.Refusal ⟨contract, m.name⟩)
      (Operation.ofSignature m contract) (m.Acceptable e.path) (m.operation e) := by
  have ha : Decides (Site.Refusal ⟨contract, m.name⟩) (m.analyze contract) True (e, m.shape) :=
    .accepts trivial (by rw [analyze, he]; rfl)
  exact Decides.congr (.bind ha fun _ => .bind_pure _ (decides_roles he contract))
    ⟨fun h => h.2, fun h => ⟨trivial, h⟩⟩

theorem ofSignature_eq_ok {m : Signature} {contract : String} {o : Operation}
    (ho : Operation.ofSignature m contract = .ok o) :
    ∃ e, m.endpoint = some e ∧ m.Acceptable e.path ∧ o = m.operation e := by
  cases he : m.endpoint with
  | none =>
    have ha : m.analyze contract = Site.refuse ⟨contract, m.name⟩ (.noVerb m.name) := by
      rw [analyze, he]
    rw [Operation.ofSignature, ha] at ho
    cases ho
  | some e => exact ⟨e, rfl, (decides_ofSignature he contract).eq_ok_iff.mp ho⟩

end Signature

/-- A method has an operation exactly if it is acceptable; any other method is refused by a report
that names it. -/
theorem ofSignature_ok_iff_acceptable {m : Signature} {e : Endpoint} (he : m.endpoint = some e)
    (contract : String) :
    ((∃ o, Operation.ofSignature m contract = .ok o) ↔ m.Acceptable e.path) ∧
      (¬ m.Acceptable e.path →
        ∃ f, Operation.ofSignature m contract = .error (.rejected f contract (some m.name))) := by
  have h := Signature.decides_ofSignature he contract
  refine ⟨h.exists_ok_iff, fun hn => ?_⟩
  obtain ⟨_, ⟨f, rfl⟩, hf⟩ := h.exists_error_of_not hn
  exact ⟨f, hf⟩

/-- An unmarked parameter `name` beside one that is marked as the query key `name`. -/
def twiceKeyed : Signature where
  name := "find"
  returns := .builtin "str"
  parameters := [
    { name := "name", type := .builtin "str" },
    { name := "text", type := .builtin "str", marks := [.keyed .query (some "name")] }]
  endpoint := some ⟨"GET", "/users"⟩

theorem twiceKeyed_rejected : twiceKeyed.endpoint = some ⟨"GET", "/users"⟩ ∧
    ¬ twiceKeyed.Acceptable "/users" ∧ ∃ f, Operation.ofSignature twiceKeyed "app.Users" =
      .error (.rejected f "app.Users" (some "find")) := by
  have hn : ¬ twiceKeyed.Acceptable "/users" := fun h => absurd h.queryKeys (by decide)
  exact ⟨rfl, hn, (ofSignature_ok_iff_acceptable (e := ⟨"GET", "/users"⟩) rfl "app.Users").2 hn⟩

/-- A method with one parameter in each role. -/
def storeDocument : Signature where
  name := "store"
  returns := .builtin "str"
  parameters := [
    { name := "id", type := .builtin "str", marks := [.keyed .path none] },
    { name := "draft", type := .builtin "bool" },
    { name := "trace", type := .builtin "str", marks := [.keyed .requestHeader (some "X-Trace")] },
    { name := "text", type := .builtin "str", marks := [.body .auto none] },
    { name := "language", type := .builtin "str",
      marks := [.keyed .contentHeader (some "Content-Language")] },
    { name := "version", marks := [.keyed .responseHeader (some "ETag")],
      type := ⟨"declient_sdk.messages", "Out", [.builtin "str"], false, none, none⟩ }]
  endpoint := some ⟨"PUT", "/docs/{id}"⟩

theorem ofSignature_of_isSome {m : Signature} {e : Endpoint} (he : m.endpoint = some e)
    {contract : String} (h : (Operation.ofSignature m contract).toOption.isSome = true) :
    Operation.ofSignature m contract = .ok (m.operation e) := by
  cases ho : Operation.ofSignature m contract with
  | error f => rw [ho] at h; cases h
  | ok o => rw [((Signature.decides_ofSignature he contract).eq_ok_iff.mp ho).2]

theorem ofSignature_storeDocument : Operation.ofSignature storeDocument "app.Docs" =
    .ok (storeDocument.operation ⟨"PUT", "/docs/{id}"⟩) :=
  ofSignature_of_isSome rfl (by decide +kernel)

end HttpContract
