import HttpContract.Client.Execution
import HttpContract.Proofs.Http.Request
import HttpContract.Proofs.Plan.Declared

/-!
# Drafts of planned requests

What the steps up to the sending make of the arguments of a call. `Operation.requestOf` is the
request read off the roles of the parameters, and `Operation.Encodable` says which arguments it can be
made of; `decides_requestSteps`: the steps of the plan end with that request under that condition, and
fail otherwise.
-/

namespace HttpContract

namespace Operation

/-- The arguments for the parameters of a role, under their keys and in order. -/
def arguments (o : Operation) (r : Role) (argument : String → Value) : List (String × Value) :=
  (o.withRole r).map fun b => (b.key, argument b.name)

/-- What an argument is sent as in the body: under the content type of its mark, and with the headers
that describe it. -/
def contentOf (o : Operation) (argument : String → Value) (b : Binding) : Content :=
  let c := (BodyEncoding.encode b.bodyEncoding (argument b.name)).toOption.getD default
  { body := c.body
    headers := Entries.merge
      ((contentTypeHeader, (Location.given b.contentType).getD c.type) ::
        sentTexts (o.arguments .contentHeader argument)) }

/-- The request of a call, read off the roles of the parameters. -/
def requestOf (o : Operation) (binder : Binder) (argument : String → Value) : Request where
  method := o.verb
  service := binder.service
  path := binder.join (Binder.filledPath o.path (o.arguments .pathVariable argument))
  params := sentParams (o.arguments .queryParameter argument)
  headers := sentTexts (o.arguments .requestHeader argument)
  content := (o.withRole .body).head?.map (o.contentOf argument)

/-- Every argument that is sent has the form it is sent in. Headers of a body that there is not are
not sent. -/
structure Encodable (o : Operation) (argument : String → Value) : Prop where
  path : ∀ a ∈ o.arguments .pathVariable argument, a.2.HasText
  query : ∀ a ∈ present (o.arguments .queryParameter argument), a.2.HasQuery
  headers : ∀ a ∈ present (o.arguments .requestHeader argument), a.2.HasText
  body : ∀ b ∈ o.withRole .body, ∃ c, BodyEncoding.encode b.bodyEncoding (argument b.name) = .ok c
  contentHeaders : o.withRole .body ≠ [] →
    ∀ a ∈ present (o.arguments .contentHeader argument), a.2.HasText

end Operation

namespace Step

/-- What a list of steps adds to a draft. -/
def buildAll (x : CallContext) (frame : Frame) (steps : List Step) (d : Draft) :
    Except Breakdown Draft := steps.foldlM (fun d s => s.build x frame d) d

variable {x : CallContext} {frame : Frame} {d : Draft}

theorem buildAll_append (steps steps' : List Step) (d : Draft) :
    buildAll x frame (steps ++ steps') d =
      buildAll x frame steps d >>= buildAll x frame steps' := by
  rw [buildAll, List.foldlM_append]
  rfl

theorem buildAll_singleton (s : Step) (d : Draft) : buildAll x frame [s] d = s.build x frame d := by
  rw [buildAll, List.foldlM_cons]
  exact bind_pure _

theorem decides_construct (hx : x.obstacles = .none) (verb path : String) (d : Draft) :
    Decides (fun _ => True) ((construct verb path).build x frame d)
      ((∀ a ∈ Binder.tokenValues path d.tokens, a.2.HasText) ∧
        ∀ a ∈ present d.params, a.2.HasQuery)
      ⟨d.tokens, d.params, some {
        method := verb, service := x.binder.service
        path := x.binder.join (Binder.filledPath path d.tokens)
        params := sentParams d.params }⟩ := by
  rw [build, hx]
  show Decides _ (x.binder.request verb path d.tokens d.params >>= fun r =>
    pure { d with request := some r }) _ _
  exact .bind_pure _ (Binder.decides_request ..)

/-! ### Headers -/

variable {argument : String → Value}

theorem headerText_eq (hx : x.obstacles = .none) {p : String} {v : Value}
    (hv : frame.value p = .ok v) :
    headerText x frame p = if v.isNull then .ok none else (valueText v).map some := by
  unfold headerText
  rw [hv, hx]
  cases v <;> rfl

theorem decides_headerText (hx : x.obstacles = .none) {p : String} {v : Value}
    (hv : frame.value p = .ok v) :
    Decides (fun _ => True) (headerText x frame p) (v.isNull = false → v.HasText)
      (if v.isNull then none else some v.sentText) := by
  rw [headerText_eq hx hv]
  cases v.isNull with
  | true => exact .accepts (fun h => nomatch h) rfl
  | false => exact (v.decides_valueText.map some).congr ⟨fun h _ => h, fun h => h rfl⟩

/-- Steps that add one header each, whatever they add it to. -/
theorem decides_buildAll_headers (hx : x.obstacles = .none) {f : String × String → Step}
    (add : Draft → String → String → Draft)
    (hf : ∀ d b, (f b).build x frame d = do
      let text ← headerText x frame b.2
      pure (Option.elim text d (add d b.1)))
    {bs : List (String × String)} (hb : ∀ b ∈ bs, frame.value b.2 = .ok (argument b.2)) (d : Draft) :
    Decides (fun _ => True) (buildAll x frame (bs.map f) d)
      (∀ a ∈ present (bs.map fun b => (b.1, argument b.2)), a.2.HasText)
      ((sentTexts (bs.map fun b => (b.1, argument b.2))).foldl (fun d t => add d t.1 t.2) d) := by
  induction bs generalizing d with
  | nil => exact Decides.pure.congr ⟨fun _ _ h => (nomatch h), fun _ => trivial⟩
  | cons b bs ih =>
    rw [List.forall_mem_cons] at hb
    have hstep : Decides (fun _ => True) ((f b).build x frame d)
        ((argument b.2).isNull = false → (argument b.2).HasText)
        (Option.elim (if (argument b.2).isNull then none else some (argument b.2).sentText) d
          (add d b.1)) := by
      rw [hf]
      exact .bind_pure _ (decides_headerText hx hb.1)
    have hrest := hstep.bind fun _ => ih hb.2 _
    rw [buildAll, List.map_cons, List.foldlM_cons]
    unfold sentTexts at hrest ⊢
    rw [List.map_cons, present_cons]
    cases hn : (argument b.2).isNull with
    | true =>
      rw [hn] at hrest
      exact hrest.congr ⟨fun h => h.2, fun h => ⟨fun h => (nomatch h), h⟩⟩
    | false =>
      rw [hn] at hrest
      refine hrest.congr ?_
      show _ ↔ ∀ a ∈ (b.1, argument b.2) :: _, _
      rw [List.forall_mem_cons]
      exact ⟨fun h => ⟨h.1 rfl, h.2⟩, fun h => ⟨fun _ => h.1, h.2⟩⟩

theorem foldl_withHeader (ts : List (String × String)) (tokens params : List (String × Value))
    (r : Request) : ts.foldl (fun (d : Draft) t => d.withHeader t.1 t.2) ⟨tokens, params, some r⟩ =
      ⟨tokens, params, some { r with
        headers := ts.foldl (fun es t => Entries.insert es t.1 t.2) r.headers }⟩ := by
  induction ts generalizing r with
  | nil => rfl
  | cons t ts ih => exact ih _

theorem foldl_withContentHeader (ts : List (String × String))
    (tokens params : List (String × Value)) (r : Request) (c : Content) :
    ts.foldl (fun (d : Draft) t => d.withContentHeader t.1 t.2)
      ⟨tokens, params, some { r with content := some c }⟩ =
      ⟨tokens, params, some { r with content := some { c with
        headers := ts.foldl (fun es t => Entries.insert es t.1 t.2) c.headers } }⟩ := by
  induction ts generalizing c with
  | nil => rfl
  | cons t ts ih => exact ih _

/-! ### Bodies -/

theorem decides_encodeBody (hx : x.obstacles = .none) (format : Option BodyEncoding)
    (contentType : Option String) (v : Value) :
    Decides (fun _ => True) (encodeBody x format contentType v)
      (∃ c, BodyEncoding.encode format v = .ok c)
      (((BodyEncoding.encode format v).toOption.getD default).withType contentType) := by
  have he : encodeBody x format contentType v =
      (BodyEncoding.encode format v).map (Content.withType · contentType) := by
    unfold encodeBody BodyEncoding.encode
    rw [hx]
    split_ifs with h
    · show Content.raw v (Location.given contentType) = _
      rw [Content.raw_eq_withType]
      simp only [Content.withType_given]
    · show Content.json v (Location.given contentType) = _
      rw [Content.json_eq_withType]
      simp only [Content.withType_given]
  rw [he]
  exact (Decides.self _ _).map _

theorem decides_attachBody (hx : x.obstacles = .none) {p : String} {v : Value}
    (hv : frame.value p = .ok v) (format : Option BodyEncoding) (contentType : Option String)
    (d : Draft) :
    Decides (fun _ => True) ((attachBody p format contentType).build x frame d)
      (∃ c, BodyEncoding.encode format v = .ok c)
      (d.withContent
        (((BodyEncoding.encode format v).toOption.getD default).withType contentType)) := by
  rw [build, hv]
  show Decides _ (encodeBody x format contentType v >>= fun c => pure (d.withContent c)) _ _
  exact .bind_pure _ (decides_encodeBody hx format contentType v)

end Step

namespace Signature
variable {m : Signature} {e : Endpoint} {x : CallContext} {frame : Frame}
  {argument : String → Value}

theorem arguments_operation (m : Signature) (e : Endpoint) (r : Role) (argument : String → Value) :
    (m.operation e).arguments r argument = (m.pairs r).map fun b => (b.1, argument b.2) := by
  rw [Operation.arguments, withRole_operation, pairs, List.map_map, List.map_map]
  rfl

theorem keys_arguments (m : Signature) (e : Endpoint) (r : Role) (argument : String → Value) :
    ((m.operation e).arguments r argument).map (·.1) = m.keys r := by
  rw [arguments_operation, pairs, List.map_map, List.map_map]
  rfl

theorem value_pairs (hf : ∀ p ∈ m.parameters, frame.value p.name = .ok (argument p.name))
    (r : Role) : ∀ b ∈ m.pairs r, frame.value b.2 = .ok (argument b.2) :=
  List.forall_mem_map.mpr fun p hp => hf p (mem_of_mem_withRole hp)

theorem values_pairs (hf : ∀ p ∈ m.parameters, frame.value p.name = .ok (argument p.name))
    (e : Endpoint) (r : Role) :
    frame.values (m.pairs r) = .ok ((m.operation e).arguments r argument) := by
  have h : Decides (fun _ => True) (frame.values (m.pairs r)) (∀ b ∈ m.pairs r, True)
      ((m.pairs r).map fun b => (b.1, argument b.2)) :=
    .mapM fun b hb => .accepts trivial (by rw [value_pairs hf r b hb]; rfl)
  rw [arguments_operation]
  exact h.eq_ok_iff.mpr ⟨fun _ _ => trivial, rfl⟩

theorem buildAll_bindingSteps
    (hf : ∀ p ∈ m.parameters, frame.value p.name = .ok (argument p.name)) (e : Endpoint) {r : Role}
    {step : List (String × String) → Step} (set : List (String × Value) → Draft) {d : Draft}
    (hs : ∀ bs vs, frame.values bs = .ok vs → (step bs).build x frame d = .ok (set vs))
    (h0 : set [] = d) : Step.buildAll x frame (m.bindingSteps r step) d =
      .ok (set ((m.operation e).arguments r argument)) := by
  unfold bindingSteps
  split_ifs with he
  · rw [arguments_operation, pairs, List.isEmpty_iff.mp he]
    exact congrArg Except.ok h0.symm
  · rw [Step.buildAll, List.foldlM_cons, hs _ _ (values_pairs hf e r)]
    rfl

theorem decides_bodySteps (hx : x.obstacles = .none)
    (hf : ∀ p ∈ m.parameters, frame.value p.name = .ok (argument p.name)) (e : Endpoint)
    (hb : (m.withRole .body).length ≤ 1) (tokens params : List (String × Value)) (r : Request)
    (hr : r.content = none) :
    Decides (fun _ => True) (Step.buildAll x frame m.bodySteps ⟨tokens, params, some r⟩)
      ((∀ b ∈ (m.operation e).withRole .body,
          ∃ c, BodyEncoding.encode b.bodyEncoding (argument b.name) = .ok c) ∧
        ((m.operation e).withRole .body ≠ [] →
          ∀ a ∈ present ((m.operation e).arguments .contentHeader argument), a.2.HasText))
      ⟨tokens, params, some { r with
        content := ((m.operation e).withRole .body).head?.map
          ((m.operation e).contentOf argument) }⟩ := by
  unfold bodySteps
  rw [withRole_operation]
  rcases withRole_body hb with hm | ⟨p, hm⟩
  · cases r
    cases hr
    rw [hm]
    exact Decides.pure.congr ⟨fun _ => ⟨fun _ h => (nomatch h), fun h => absurd rfl h⟩,
      fun _ => trivial⟩
  · have hp : p ∈ m.withRole .body := by rw [hm]; exact List.mem_singleton_self p
    have hv := hf p (mem_of_mem_withRole hp)
    have hall := (Step.decides_attachBody hx hv p.binding.bodyEncoding p.binding.contentType
      ⟨tokens, params, some r⟩).bind fun _ => Step.decides_buildAll_headers hx
        (f := fun h => .attachContentHeader h.1 h.2) Draft.withContentHeader (fun _ _ => rfl)
        (value_pairs hf .contentHeader) _
    rw [← arguments_operation m e, Draft.withContent, Draft.mapRequest, Option.map_some,
      Step.foldl_withContentHeader] at hall
    rw [hm]
    refine hall.congr ⟨fun h => ⟨?_, fun _ => h.2⟩, fun h => ⟨?_, h.2 (List.cons_ne_nil _ _)⟩⟩
    · exact List.forall_mem_singleton.mpr h.1
    · exact h.1 p.binding (List.mem_singleton_self _)

theorem foldl_insert_sentTexts (ha : m.Acceptable e.path) (argument : String → Value) :
    (sentTexts ((m.operation e).arguments .requestHeader argument)).foldl
      (fun es t => Entries.insert es t.1 t.2) [] =
        sentTexts ((m.operation e).arguments .requestHeader argument) := by
  have hn := List.Nodup.of_map _ ha.requestHeaders
  rw [← keys_arguments m e .requestHeader argument] at hn
  exact Entries.foldl_insert (hn.sublist (keys_sentTexts_sublist _)) fun _ _ h => nomatch h

theorem hasText_pathVariables (ha : m.Acceptable e.path) (argument : String → Value) :
    (∀ a ∈ Binder.tokenValues e.path ((m.operation e).arguments .pathVariable argument),
      a.2.HasText) ↔ ∀ a ∈ (m.operation e).arguments .pathVariable argument, a.2.HasText := by
  refine Binder.hasText_tokenValues ?_ ?_
  · rw [keys_arguments]
    exact ha.pathKeys
  · rw [keys_arguments]
    exact ha.tokens

/-- The steps up to the sending make the request that the roles ask for, or fail where an argument has
no form to be sent in. -/
theorem decides_requestSteps (hx : x.obstacles = .none)
    (hf : ∀ p ∈ m.parameters, frame.value p.name = .ok (argument p.name))
    (ha : m.Acceptable e.path) :
    Decides (fun _ => True) (Step.buildAll x frame (m.requestSteps e) {})
      ((m.operation e).Encodable argument)
      { tokens := (m.operation e).arguments .pathVariable argument
        params := (m.operation e).arguments .queryParameter argument
        request := some ((m.operation e).requestOf x.binder argument) } := by
  have hpath : Step.buildAll x frame (m.bindingSteps .pathVariable .bindPath) {} =
      .ok { tokens := (m.operation e).arguments .pathVariable argument } :=
    buildAll_bindingSteps hf e (fun vs => { tokens := vs })
      (fun bs vs h => by rw [Step.build, h]; rfl) rfl
  have hquery : Step.buildAll x frame (m.bindingSteps .queryParameter .bindQuery)
      { tokens := (m.operation e).arguments .pathVariable argument } =
      .ok { tokens := (m.operation e).arguments .pathVariable argument
            params := (m.operation e).arguments .queryParameter argument } :=
    buildAll_bindingSteps hf e (fun vs => { tokens := _, params := vs })
      (fun bs vs h => by rw [Step.build, h]; rfl) rfl
  -- the mappings cannot fail; each of the steps behind them can, at the arguments that it sends
  have hconstruct : Decides (fun _ => True) ((Step.construct e.verb e.path).build x frame
      ⟨(m.operation e).arguments .pathVariable argument,
        (m.operation e).arguments .queryParameter argument, none⟩) _ _ :=
    Step.decides_construct hx e.verb e.path _
  have hheaders := hconstruct.bind fun _ => Step.decides_buildAll_headers hx
    (f := fun h => .attachHeader h.1 h.2) Draft.withHeader (fun _ _ => rfl)
    (value_pairs hf .requestHeader) _
  rw [Step.foldl_withHeader, ← arguments_operation m e] at hheaders
  have hbody := hheaders.bind fun _ => decides_bodySteps hx hf e ha.oneBody _ _ _ rfl
  have hsteps : Step.buildAll x frame (m.requestSteps e) {} =
      ((Step.construct e.verb e.path).build x frame
        ⟨(m.operation e).arguments .pathVariable argument,
          (m.operation e).arguments .queryParameter argument, none⟩ >>=
        Step.buildAll x frame ((m.pairs .requestHeader).map fun h => .attachHeader h.1 h.2)) >>=
        Step.buildAll x frame m.bodySteps := by
    simp only [requestSteps, Step.buildAll_append, hpath]
    show ((Step.buildAll x frame (m.bindingSteps .queryParameter .bindQuery) _ >>= _) >>= _) >>= _ = _
    rw [hquery]
    show (Step.buildAll x frame [_] _ >>= _) >>= _ = _
    rw [Step.buildAll_singleton]
  rw [hsteps]
  simp only [foldl_insert_sentTexts ha argument] at hbody
  refine hbody.congr ⟨?_, fun h => ?_⟩
  · rintro ⟨⟨⟨hpath, hquery⟩, hheaders⟩, hbody, hcontent⟩
    exact ⟨(hasText_pathVariables ha argument).mp hpath, hquery, hheaders, hbody, hcontent⟩
  · exact ⟨⟨⟨(hasText_pathVariables ha argument).mpr h.path, h.query⟩, h.headers⟩, h.body,
      h.contentHeaders⟩

end Signature

end HttpContract
