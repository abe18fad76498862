import HttpContract.Proofs.Client.Failures
import HttpContract.Proofs.Http.HeaderNames
import HttpContract.Proofs.Text.Utf8

/-!
# Bodies that come back

A method that takes a body of a type and yields the same type sends it in the format that it reads it in
(`Signature.Echoes`), so a service that answers with what it was sent gives the caller the argument back
(`echoed_bodies_come_back`). What that is says `Returned`: a text, the bytes, what a stream still had, or
the value whose JSON went out. A text also needs the charset that it was encoded in, which is that of the
content type unless a header argument names another one (`Operation.LeavesType`).
-/

namespace HttpContract

/-! ### JSON is never empty -/

theorem Binary64.write_ne_empty (x : Binary64) : x.write .document ≠ "" := by
  have hplain : ∀ ds point, writePlain ds point ≠ [] := by
    intro ds point
    unfold writePlain
    split_ifs <;> simp
  have hexponent : ∀ ds point, writeExponent .document ds point ≠ [] := by
    intro ds point
    simp [writeExponent]
  have hmagnitude : ∀ m e, writeMagnitude .document m e ≠ [] := by
    intro m e
    unfold writeMagnitude
    simp only
    split_ifs
    · exact List.cons_ne_nil _ _
    · exact hplain _ _
    · exact hexponent _ _
  unfold write
  cases x.view with
  | nan => decide
  | infinite negative => cases negative <;> decide
  | finite negative m e =>
    intro h
    have hchars := congrArg String.toList h
    rw [String.toList_ofList] at hchars
    exact hmagnitude m e (List.append_eq_nil_iff.mp hchars).2

theorem Json.write_ne_empty (j : Json) : j.write ≠ "" := by
  have hopened : ∀ s t : String, s ≠ "" → s ++ t ≠ "" := fun s t hs h =>
    hs (String.append_eq_empty_iff.mp h).1
  cases j with
  | null => decide
  | bool b => cases b <;> decide
  | int i =>
    intro h
    rw [write] at h
    cases i <;> simp [toString, Int.repr] at h
  | float x => exact x.write_ne_empty
  | string s =>
    intro h
    have hchars := congrArg String.toList h
    rw [write, quote, String.toList_ofList] at hchars
    cases hchars
  | array items => exact hopened _ _ (hopened _ _ (by decide))
  | object entries => exact hopened _ _ (hopened _ _ (by decide))

theorem Value.jsonBytes_ne_nil {v : Value} {body : Bytes} (h : v.jsonBytes = .ok body) : body ≠ [] := by
  unfold jsonBytes at h
  cases hj : v.toJson .refuse with
  | error e =>
    rw [hj] at h
    cases h
  | ok j =>
    rw [hj] at h
    cases h
    exact Utf8.encode_ne_nil j.write_ne_empty

theorem Content.json_eq_ok {v : Value} {contentType : Option String} {content : Content}
    (h : json v contentType = .ok content) : ∃ body, v.jsonBytes = .ok body ∧ content.body = body := by
  unfold json at h
  cases hbytes : v.jsonBytes with
  | error e =>
    rw [hbytes] at h
    cases h
  | ok body =>
    rw [hbytes] at h
    cases h
    exact ⟨body, rfl, rfl⟩

/-! ### The content type that is sent -/

namespace HttpSender
variable {c : HttpSender} {r : Request} {id : String} {out : SentRequest}

theorem body_outgoing (h : c.outgoing r id = .ok out) :
    out.body = (r.content.map (·.body)).getD [] := by
  unfold outgoing at h
  obtain ⟨address, -, h⟩ := bind_eq_ok.mp h
  obtain ⟨headers, -, h⟩ := bind_eq_ok.mp h
  obtain ⟨url, -, h⟩ := bind_eq_ok.mp h
  rw [← Except.ok.inj h]

end HttpSender

/-- The content type as it goes over the wire. -/
def sentTypeHeader : String := "content-type"

theorem lower_contentTypeHeader : Text.lower contentTypeHeader = sentTypeHeader := by decide

/-- No header argument that is given is called like the content type. -/
def Operation.LeavesType (o : Operation) (argument : String → Value) : Prop :=
  ∀ r ∈ [Role.requestHeader, .contentHeader], ∀ n ∈ o.sentNames r argument,
    Text.lower n ≠ sentTypeHeader

/-- Header arguments that are given are called like the content type in its own spelling only. -/
def Operation.SpellsType (o : Operation) (argument : String → Value) : Prop :=
  ∀ r ∈ [Role.requestHeader, .contentHeader], ∀ n ∈ o.sentNames r argument,
    Text.lower n = sentTypeHeader → n = contentTypeHeader

theorem Operation.LeavesType.spellsType {o : Operation} {argument : String → Value}
    (h : o.LeavesType argument) : o.SpellsType argument :=
  fun r hr n hn hname => absurd hname (h r hr n hn)

theorem Operation.SpellsType.eq_of_mem_headersOf {o : Operation} {argument : String → Value}
    (h : o.SpellsType argument) {b : Binding} (hb : o.withRole .body = [b]) {binder : Binder}
    {id n : String} (hn : n ∈ (HttpSender.headersOf (o.requestOf binder argument) id).map (·.1))
    (hname : Text.lower n = sentTypeHeader) : n = contentTypeHeader := by
  obtain ⟨place, hplace, hn⟩ := (Operation.mem_keys_headersOf id).mp hn
  rw [headerPlaces, hb] at hplace
  simp only [List.isEmpty_cons, Bool.false_eq_true, ↓reduceIte, List.cons_append, List.nil_append,
    List.mem_cons, List.not_mem_nil, or_false] at hplace
  rcases hplace with rfl | rfl | rfl | rfl
  · exact h _ (by decide) _ hn hname
  · rw [List.mem_singleton.mp hn] at hname
    exact absurd hname (by decide)
  · exact List.mem_singleton.mp hn
  · exact h _ (by decide) _ hn hname

/-- What the encoder of a body makes of its argument. -/
def Operation.encoded (argument : String → Value) (b : Binding) : Content :=
  (BodyEncoding.encode b.bodyEncoding (argument b.name)).toOption.getD default

namespace Signature
variable {m : Signature} {e : Endpoint} {argument : String → Value} {binder : Binder}
  {c : HttpSender} {id : String} {out : SentRequest} {b : Binding}

theorem mem_contentOf (htype : (m.operation e).LeavesType argument)
    (hgiven : Location.given b.contentType = none) :
    (contentTypeHeader, (Operation.encoded argument b).type) ∈
      ((m.operation e).contentOf argument b).headers := by
  have hne : contentTypeHeader ∉ (m.operation e).sentNames .contentHeader argument :=
    fun h => htype _ (by decide) _ h lower_contentTypeHeader
  rw [Operation.contentOf, hgiven]
  exact Entries.mem_foldl_insert (List.mem_singleton_self _) hne

/-- A request that leaves its content type to the encoder of the body is sent with that one. -/
theorem get?_sentTypeHeader (ha : m.Acceptable e.path) (hb : (m.operation e).withRole .body = [b])
    (hgiven : Location.given b.contentType = none) (htype : (m.operation e).LeavesType argument)
    (hout : c.outgoing ((m.operation e).requestOf binder argument) id = .ok out) :
    Entries.get? out.headers sentTypeHeader = some (Operation.encoded argument b).type := by
  have hcontent : ((m.operation e).requestOf binder argument).content =
      some ((m.operation e).contentOf argument b) := by
    rw [Operation.requestOf, hb]
    rfl
  have hspelled : (((m.operation e).requestOf binder argument).headers.map (·.1)).Nodup :=
    List.Nodup.of_map Text.lower (nodup_lower_sentNames ha.requestHeaders)
  have hnodup := Operation.nodup_keys_headersOf hspelled id
  have hnil : (([] : List (String × String)).map (·.1)).Nodup := List.nodup_nil
  have hmem : (contentTypeHeader, (Operation.encoded argument b).type) ∈
      HttpSender.headersOf ((m.operation e).requestOf binder argument) id := by
    rw [HttpSender.headersOf, hcontent]
    exact Entries.mem_foldl_insert_new (Entries.nodup_keys_foldl_insert hnil _)
      (mem_contentOf htype hgiven)
  obtain ⟨hkept, hmade⟩ := HttpSender.mem_outgoing_headers hout
  have hsent := hkept _ hmem
  rw [lower_contentTypeHeader] at hsent
  refine Entries.get?_eq_some hsent fun h hh hname => ?_
  rcases hmade h hh with hagent | ⟨n, hn, hlower⟩
  · rw [hagent] at hname
    exact absurd hname (by decide)
  · obtain rfl := htype.spellsType.eq_of_mem_headersOf hb (List.mem_map_of_mem hn) (hlower.trans hname)
    have hfound := Entries.get?_of_mem hnodup hn
    rw [Entries.get?_of_mem hnodup hmem] at hfound
    exact (Option.some.inj hfound).symm

end Signature

/-! ### Reading -/

theorem charset_textType :
    (charsetName? Content.textType).map Charset.ofName? = some (some .utf8) := by
  decide

theorem Response.text_eq {p : Response} {s : String} (hbody : p.body = Utf8.encode s)
    (htype : p.header? sentTypeHeader = some Content.textType) : p.text = s := by
  have hcharset : ((p.header? "content-type").bind charsetName?).map Charset.ofName? =
      some (some .utf8) := by
    show ((p.header? sentTypeHeader).bind charsetName?).map Charset.ofName? = _
    rw [htype, Option.bind_some, charset_textType]
  rw [text, hcharset, hbody]
  exact Utf8.decodeLossy_encode s

/-- The JSON of a value is read by a type as the value. -/
def TypeReference.ReadsBack (t : TypeReference) (scope : Scope) (v : Value) : Prop :=
  ∃ body schema j a, v.jsonBytes = .ok body ∧ t.target.schema? scope = some schema ∧
    receivedJson? body = some j ∧ schema.read j = .ok a ∧ a.value = v

/-- What an argument of a type comes back as: text, bytes and what was left of a stream, or else a value
that is read from its JSON. -/
inductive Returned (scope : Scope) (t : TypeReference) : Value → Value → Prop
  | text {s : String} (ht : t.rawForm = some .text) : Returned scope t (.text s) (.text s)
  | member {cls : ClassName} {name s : String} (ht : t.rawForm = some .text) :
      Returned scope t (.member cls .text name (.text s)) (.text s)
  | bytes {bs : Bytes} (ht : t.rawForm = some .bytes) : Returned scope t (.bytes bs) (.bytes bs)
  | byteArray {bs : Bytes} (ht : t.rawForm = some .bytes) :
      Returned scope t (.byteArray bs) (.bytes bs)
  | stream {bs : Bytes} (ht : t.rawForm = some .stream) : Returned scope t (.stream bs) (.stream bs)
  | json {v : Value} (ht : t.rawForm = none) (hv : t.ReadsBack scope v) : Returned scope t v v

/-- The format that a body or a result of a type has unless it is said. -/
def TypeReference.ownFormat (t : TypeReference) : BodyEncoding := BodyEncoding.auto.resolved t

section
variable {scope : Scope} {t : TypeReference} {v w : Value} {x : CallContext} {frame : Frame}
  {p : Response}

theorem TypeReference.ownFormat_raw {form : RawForm} (ht : t.rawForm = some form) :
    t.ownFormat = .raw := by
  rw [ownFormat, BodyEncoding.resolved, ht]
  rfl

theorem TypeReference.ownFormat_json (ht : t.rawForm = .none) : t.ownFormat = .json := by
  rw [ownFormat, BodyEncoding.resolved, ht]
  rfl

theorem Step.receive_raw (hx : x.obstacles = .none) {form : RawForm} (ht : t.rawForm = some form) :
    Step.receive x p frame (.returnBody t (some .raw)) = .ok (frame, some (p.rawBody form)) := by
  rw [receive, if_pos rfl, hx, ht]
  rfl

theorem Step.receive_json (hx : x.obstacles = .none) (hv : t.ReadsBack x.scope v)
    (hbody : v.jsonBytes = .ok p.body) :
    Step.receive x p frame (.returnBody t (some .json)) = .ok (frame, some v) := by
  obtain ⟨body, schema, j, a, hjson, hschema, hreceived, hread, rfl⟩ := hv
  rw [hjson] at hbody
  obtain rfl := Except.ok.inj hbody
  have hempty : p.body.isEmpty = false := by
    rw [List.isEmpty_eq_false_iff]
    exact Value.jsonBytes_ne_nil hjson
  have hvalue : p.bodyAs x.scope t.target = .ok a.value := by
    rw [Response.bodyAs, hempty, hschema, hreceived]
    simp only [Bool.false_eq_true, ↓reduceIte, hread]
  rw [receive, if_neg (by simp), hx, hvalue]
  rfl

/-- What a body is sent as is what the result of the same type is read from. -/
theorem Step.receive_returned (hv : Returned x.scope t v w) (hx : x.obstacles = .none)
    {content : Content} (hcontent : BodyEncoding.encode (some t.ownFormat) v = .ok content)
    (hbody : p.body = content.body)
    (htype : t.rawForm = some .text → p.header? sentTypeHeader = some content.type) :
    Step.receive x p frame (.returnBody t (some t.ownFormat)) = .ok (frame, some w) := by
  cases hv with
  | text ht | member ht =>
    rw [TypeReference.ownFormat_raw ht] at hcontent ⊢
    cases hcontent
    rw [receive_raw hx ht, Response.rawBody, Response.text_eq hbody (htype ht)]
  | bytes ht | byteArray ht | stream ht =>
    rw [TypeReference.ownFormat_raw ht] at hcontent ⊢
    cases hcontent
    rw [receive_raw hx ht, Response.rawBody, hbody]
    rfl
  | json ht hv =>
    rw [TypeReference.ownFormat_json ht] at hcontent ⊢
    obtain ⟨body, hjson, hsent⟩ := Content.json_eq_ok hcontent
    exact receive_json hx hv (by rw [hjson, hbody, hsent])

/-! ### Holders -/

/-- Whether what a response has for a holder can be put into it. -/
def Value.Fillable (holder : Value) (scope : Scope) (p : Response) (q : Parameter) : Prop :=
  holder = .null ∨ ∃ v filled, p.headerAs scope q.declaredKey q.targetType.target = .ok v ∧
    holder.hold v = .ok filled

theorem Frame.value_set_of_ne {n n' : String} (h : n' ≠ n) (filled : Value) :
    (frame.set n filled).value n' = frame.value n' := by
  rw [value, set, Entries.get?_insert_of_ne h, value]

theorem Step.receive_extractHeader (hx : x.obstacles = .none) {q : Parameter} {holder : Value}
    (hvalue : frame.value q.name = .ok holder) (hfill : holder.Fillable x.scope p q) :
    ∃ frame', Step.receive x p frame (.extractHeader q.declaredKey q.name q.targetType) =
      .ok (frame', none) ∧ ∀ n ≠ q.name, frame'.value n = frame.value n := by
  rw [receive, hvalue, hx]
  rcases hfill with rfl | ⟨v, filled, hhead, hhold⟩
  · exact ⟨frame, rfl, fun _ _ => rfl⟩
  · refine ⟨frame.set q.name filled, ?_, fun n hn => Frame.value_set_of_ne hn filled⟩
    cases holder with
    | null => cases hhold
    | _ =>
      simp only [Except.mapError, bind, Except.bind, hhead, hhold]
      rfl

/-- Holders that can be filled leave the result to the steps behind them. -/
theorem receiveAll_extractHeaders (hx : x.obstacles = .none) {argument : String → Value}
    {qs : List Parameter} (hn : (qs.map (·.name)).Nodup)
    (hvalue : ∀ q ∈ qs, frame.value q.name = .ok (argument q.name))
    (hfill : ∀ q ∈ qs, (argument q.name).Fillable x.scope p q) (rest : List Step) :
    ∃ frame', receiveAll x p
      (qs.map (fun q => .extractHeader q.declaredKey q.name q.targetType) ++ rest) frame =
        receiveAll x p rest frame' := by
  induction qs generalizing frame with
  | nil => exact ⟨frame, rfl⟩
  | cons q qs ih =>
    rw [List.map_cons, List.nodup_cons] at hn
    rw [List.forall_mem_cons] at hvalue hfill
    obtain ⟨frame', hreceive, hkept⟩ := Step.receive_extractHeader hx hvalue.1 hfill.1
    obtain ⟨last, hrest⟩ := ih hn.2 (fun r hr => by
      rw [hkept r.name fun he => hn.1 (he ▸ List.mem_map_of_mem hr)]
      exact hvalue.2 r hr) hfill.2
    refine ⟨last, ?_⟩
    rw [List.map_cons, List.cons_append, receiveAll, hreceive]
    exact hrest

end

/-! ### Calls that get their bodies back -/

/-- A request that reaches its service, and the answer that counts. -/
structure HttpSender.Answers (c : HttpSender) (mode : Completion) (r : Request) (t : Traffic)
    (out : SentRequest) (p : Response) : Prop where
  isOpen : c.isClosedFor mode = false
  outgoing : c.outgoing r (identify r t).1 = .ok out
  scheme : out.url.scheme ≠ ""
  answer : t.lastOutcome c.settings.maxRetries = .response p

/-- An answer of success with the body and the content type of a request. -/
structure SentRequest.EchoedBy (out : SentRequest) (p : Response) : Prop where
  status : p.status = 200
  body : p.body = out.body
  contentType : p.header? sentTypeHeader = Entries.get? out.headers sentTypeHeader

theorem HttpSender.send_answered {c : HttpSender} {mode : Completion} {r : Request} {t : Traffic}
    {out : SentRequest} {p : Response} (h : c.Answers mode r t out p) (hstatus : p.status = 200) :
    (c.send mode r t).1 = .ok p := by
  have hsend := concludes_send h.isOpen h.outgoing
  rw [h.answer] at hsend
  generalize (c.send mode r t).1 = result at hsend ⊢
  cases hsend with
  | success => rfl
  | serverError _ status => omega
  | clientError _ noSuccess => exact absurd (by omega) noSuccess
  | refused hrefused =>
    rw [refusal?, if_neg h.scheme, redirectFault?, hstatus] at hrefused
    cases hrefused

/-- A method that takes a body of a type and yields that type, and leaves both formats and the content
type to it. -/
structure Signature.Echoes (m : Signature) (p : Parameter) : Prop where
  mem : p ∈ m.parameters
  body : ∃ contentType, p.roleMarks = [.body .auto contentType] ∧ Location.given contentType = none
  returns : m.shape.returns = p.type
  notVoid : m.shape.isVoid = false
  noHeader : m.returnHeaders = []
  ownFormat : ∀ b ∈ m.returnBodies, b.1 = .auto

/-- A call of a method whose request is answered with the body and the content type that it has, while
the holders among the arguments can be filled. No argument names another content type for a text. -/
structure ClientRegistry.Echoed (f : ClientRegistry) (client : BoundClient) (m : Signature)
    (o : Operation) (p : Parameter) (frame : Frame) (argument : String → Value) (t : Traffic) :
    Prop where
  frame : ∀ q ∈ m.parameters, frame.value q.name = .ok (argument q.name)
  encodable : o.Encodable argument
  leavesType : p.type.rawForm = some .text → o.LeavesType argument
  answered : ∃ out response,
    f.client.Answers o.completion (o.requestOf client.binder argument) t out response ∧
    out.EchoedBy response ∧
    ∀ q ∈ m.withRole .responseHeader, (argument q.name).Fillable f.program.scope response q

namespace Signature
variable {m : Signature} {e : Endpoint} {p : Parameter}

theorem Echoes.declaredRole (h : m.Echoes p) : p.declaredRole = .body := by
  obtain ⟨contentType, hmarks, -⟩ := h.body
  rw [Parameter.declaredRole_cons hmarks]
  rfl

theorem Echoes.withRole_body (h : m.Echoes p) (ha : m.Acceptable e.path) : m.withRole .body = [p] := by
  have hmem : p ∈ m.withRole .body := List.mem_filter.mpr ⟨h.mem, beq_iff_eq.mpr h.declaredRole⟩
  rcases Signature.withRole_body ha.oneBody with hnone | ⟨q, hone⟩
  · rw [hnone] at hmem
    cases hmem
  · rw [hone, List.mem_singleton] at hmem
    rw [hone, hmem]

theorem Echoes.bodyEncoding (h : m.Echoes p) :
    p.binding.bodyEncoding = some p.type.ownFormat ∧ Location.given p.binding.contentType = none := by
  obtain ⟨contentType, hmarks, hgiven⟩ := h.body
  rw [Parameter.binding, Parameter.declaredEncoding?_cons hmarks]
  exact ⟨rfl, hgiven⟩

theorem Echoes.returnSteps (h : m.Echoes p) :
    m.returnSteps = [.returnBody p.type (some p.type.ownFormat)] := by
  have hformat : (m.returnBodies.head?.getD (.auto, none)).1 = .auto := by
    cases hb : m.returnBodies with
    | nil => rfl
    | cons b bs => exact h.ownFormat b (by rw [hb]; exact List.mem_cons_self)
  have hresult : m.declaredResult = .body (some p.type.ownFormat)
      (m.returnBodies.head?.getD (.auto, none)).2 := by
    rw [declaredResult, h.noHeader, h.notVoid, h.returns]
    simp only [Bool.false_eq_true, ↓reduceIte, hformat]
    rfl
  rw [Signature.returnSteps, h.notVoid, hresult, h.returns]
  rfl

/-- What such a method sends and gives back, if its sender gives it the answer. -/
theorem Echoes.run_eq (h : m.Echoes p) (ha : m.Acceptable e.path)
    (hn : (m.parameters.map (·.name)).Nodup) {x : CallContext} (hx : x.obstacles = .none)
    {frame : Frame} {argument : String → Value}
    (hf : ∀ q ∈ m.parameters, frame.value q.name = .ok (argument q.name))
    (hencodable : (m.operation e).Encodable argument) {σ : Type}
    {send : Completion → Request → σ → Except CallError Response × σ} {s : σ} {response : Response}
    (hsend : (send m.shape.completion ((m.operation e).requestOf x.binder argument) s).1 =
      .ok response)
    (hfill : ∀ q ∈ m.withRole .responseHeader, (argument q.name).Fillable x.scope response q) :
    ∃ frame', (runSteps x send (m.steps e) {} frame s).1 =
      (receiveAll x response [.returnBody p.type (some p.type.ownFormat)] frame').1 := by
  have hdraft := (decides_requestSteps hx hf ha).eq_ok_iff.mpr ⟨hencodable, rfl⟩
  have hnames : ((m.withRole .responseHeader).map (·.name)).Nodup :=
    hn.sublist (List.filter_sublist.map _)
  obtain ⟨frame', hread⟩ := receiveAll_extractHeaders hx hnames
    (fun q hq => hf q (mem_of_mem_withRole hq)) hfill
    [.returnBody p.type (some p.type.ownFormat)]
  rw [steps, runSteps_append ne_invoke_of_mem_requestSteps, hdraft]
  simp only
  rw [runSteps_invoke hx rfl]
  refine ⟨frame', ?_⟩
  cases hsent : send m.shape.completion ((m.operation e).requestOf x.binder argument) s with
  | mk result s' =>
    rw [hsent] at hsend
    obtain rfl : result = .ok response := hsend
    simp only
    rw [responseSteps, h.returnSteps, hread]

end Signature

theorem ClientRegistry.Echoed.run_eq {f : ClientRegistry} {client : BoundClient} {m : Signature}
    {e : Endpoint} {p : Parameter} {frame : Frame} {argument : String → Value} {t : Traffic}
    (h : f.Echoed client m (m.operation e) p frame argument t) (hp : m.Echoes p)
    (ha : m.Acceptable e.path) (hn : (m.parameters.map (·.name)).Nodup) {v : Value}
    (hv : Returned f.program.scope p.type (argument p.name) v) :
    (runSteps (client.cls.contract.context f.program.scope) (ClientRegistry.send client) (m.steps e) {}
      frame (f.client, t)).1 = .ok v := by
  obtain ⟨out, response, hanswers, hecho, hfill⟩ := h.answered
  obtain ⟨hencoding, hgiven⟩ := hp.bodyEncoding
  have hsend : (ClientRegistry.send client m.shape.completion
      ((m.operation e).requestOf client.binder argument) (f.client, t)).1 = .ok response := by
    have hid := HttpSender.identify_record ((m.operation e).requestOf client.binder argument) t
      (client.invokingRecord ((m.operation e).requestOf client.binder argument))
    exact HttpSender.send_answered { hanswers with outgoing := by rw [hid, hanswers.outgoing] }
      hecho.status
  obtain ⟨frame', hrun⟩ := hp.run_eq ha hn (x := client.cls.contract.context f.program.scope) rfl
    h.frame h.encodable hsend hfill
  have hroles : (m.operation e).withRole .body = [p.binding] := by
    rw [Signature.withRole_operation, hp.withRole_body ha, List.map_singleton]
  obtain ⟨content, hcontent⟩ := h.encodable.body p.binding (hroles ▸ List.mem_singleton_self _)
  have hencoded : Operation.encoded argument p.binding = content := by
    rw [Operation.encoded, hcontent]
    rfl
  have hbody : response.body = content.body := by
    rw [hecho.body, HttpSender.body_outgoing hanswers.outgoing, Operation.requestOf, hroles, ← hencoded]
    rfl
  have htype (ht : p.type.rawForm = some .text) :
      response.header? sentTypeHeader = some content.type := by
    rw [hecho.contentType, ← hencoded]
    exact Signature.get?_sentTypeHeader ha hroles hgiven (h.leavesType ht) hanswers.outgoing
  rw [hencoding] at hcontent
  rw [hrun, receiveAll, Step.receive_returned hv rfl hcontent hbody htype]

/-- A method that takes a body of a type and yields the same type, and says nothing else about the two,
sends and reads it in the one format that the type has, and a body in JSON is never empty. If the service
answers with what it was sent, the plan of the method gives the argument back, and so does a call of the
method that its client performs. -/
theorem echoed_bodies_come_back {f : ClientRegistry} {client : BoundClient} {candidate : Candidate}
    (hclient : client.cls.IsClientOf f.program candidate) {m : Signature} {o : Operation}
    (ho : Operation.ofSignature m candidate.fullName = .ok o)
    (hmem : o ∈ client.cls.contract.operations) (hn : (m.parameters.map (·.name)).Nodup)
    {p : Parameter} (hp : m.Echoes p) :
    (∀ v content, BodyEncoding.encode (some .json) v = .ok content → content.body ≠ []) ∧
    ∃ plan contentType, o.plan = .ok plan ∧ Location.given contentType = none ∧
      .attachBody p.name (some p.type.ownFormat) contentType ∈ plan.steps ∧
      .returnBody p.type (some p.type.ownFormat) ∈ plan.steps ∧
      ∀ (frame : Frame) (argument : String → Value) (t : Traffic) (v : Value),
        f.Echoed client m o p frame argument t →
        Returned f.program.scope p.type (argument p.name) v →
        (plan.run (client.cls.contract.context f.program.scope) (ClientRegistry.send client) frame
          (f.client, t)).1 = .ok v ∧
        ∀ a : Arguments, a.bind? o.formals = some frame → o.name ∉ ClientClass.stateNames →
          (∀ q ∈ plan.primitives, q.name ∉ client.cls.methodNames) →
          (f.call client o.name a t).1.result = .ok v := by
  obtain ⟨e, -, ha, rfl⟩ := Signature.ofSignature_eq_ok ho
  have hplan := Signature.plan_operation hn e
  refine ⟨fun v content hcontent => ?_, _, p.binding.contentType, hplan, hp.bodyEncoding.2, ?_, ?_,
    fun frame argument t v hechoed hv => ?_⟩
  · obtain ⟨body, hjson, hbody⟩ := Content.json_eq_ok hcontent
    exact hbody ▸ Value.jsonBytes_ne_nil hjson
  · refine List.mem_append_left _ (List.mem_append_right _ ?_)
    rw [Signature.bodySteps, hp.withRole_body ha, ← hp.bodyEncoding.1]
    exact List.mem_cons_self
  · refine List.mem_append_right _ (List.mem_cons_of_mem _ (List.mem_append_right _ ?_))
    rw [hp.returnSteps]
    exact List.mem_singleton_self _
  · have hrun := hechoed.run_eq hp ha hn hv
    refine ⟨hrun, fun a hbound hstate hfree => ?_⟩
    have hown : client.cls.plan (m.operation e) = ⟨m.name, m.steps e⟩ :=
      Except.ok.inj ((hclient.exists_plan hmem).symm.trans hplan)
    have hattribute := (ClientClass.attribute?_operation hclient hmem).mpr hstate
    rw [hown] at hattribute
    rw [ClientRegistry.call_operation hattribute,
      ClientRegistry.callOperation_eq_performed hbound hfree]
    exact hrun

/-- A function that gets its body back. -/
def echoFunction (name : String) (t : TypeExpr) : Function where
  parameters := [{ name := "body", type := some (.annotated t [.body .auto none]) }]
  returns := some t
  endpoint := some ⟨"PUT", "/" ++ name⟩

/-- A contract that sends a text and a list of numbers. -/
def echoScope : Scope :=
  [{ name := ⟨"app", "Echo"⟩
     body := .contract {
       kind := .protocol, service := some ⟨"users", ""⟩
       members := [("say", .method (echoFunction "say" (.named "str")) false),
         ("add", .method (echoFunction "add" (.subscript (.named "list") [.named "int"])) false)] } }]

/-- A registry for a program whose methods get back what they send. -/
def echoRegistry : ClientRegistry where
  program := { scope := echoScope, lineages := (echoScope.declare.toOption).getD [] }
  settings := {}
  client := HttpSender.usersSender
  tree := ⟨[], []⟩

def echoCandidate : Candidate :=
  ((echoRegistry.program.candidate ⟨"app", "Echo"⟩).toOption).getD default

def echoContract : Contract :=
  ((Contract.ofCandidate echoCandidate).toOption).getD default

def echoClient : BoundClient where
  cls := {
    subject := ⟨"app", "Echo"⟩
    contract := echoContract
    plans := (echoContract.plans.toOption).getD []
    name := "appEcho"
    module := "declient.generated"
    doc := ""
    isFinal := false }
  logger := "app"

theorem isClientOf_echoClient : echoClient.cls.IsClientOf echoRegistry.program echoCandidate := by
  have hmade : (echoRegistry.program.candidate ⟨"app", "Echo"⟩).toOption.isSome = true ∧
      (Contract.ofCandidate echoCandidate).toOption.isSome = true ∧
      echoContract.plans.toOption.isSome = true := by
    decide +kernel
  obtain ⟨hcandidate, hcontract, hplans⟩ := hmade
  exact ⟨eq_ok_getD hcandidate _, eq_ok_getD hcontract _, eq_ok_getD hplans _⟩

/-- A body of a type, encoded as the type asks for. -/
def echoParameter (t : TypeReference) : Parameter where
  name := "body"
  type := t
  marks := [.body .auto none]

/-- A method that sends and returns values of one type. -/
def echoSignature (name : String) (t : TypeReference) : Signature where
  name
  returns := t
  parameters := [echoParameter t]
  endpoint := some ⟨"PUT", "/" ++ name⟩

def numbersType : TypeReference := { TypeReference.builtin "list" with args := [.builtin "int"] }

theorem operations_echoContract : echoContract.operations =
    [(echoSignature "say" (.builtin "str")).operation ⟨"PUT", "/say"⟩,
      (echoSignature "add" numbersType).operation ⟨"PUT", "/add"⟩] := by
  with_unfolding_all rfl

theorem echoes_echoSignature {name : String} {t : TypeReference}
    (hreturns : (echoSignature name t).shape.returns = t)
    (hvoid : (echoSignature name t).shape.isVoid = false) :
    (echoSignature name t).Echoes (echoParameter t) where
  mem := List.mem_singleton_self _
  body := ⟨_, rfl, rfl⟩
  returns := hreturns
  notVoid := hvoid
  noHeader := rfl
  ownFormat := fun _ h => nomatch h

/-- The request that such a method makes. -/
def echoRequest (name : String) (t : TypeReference) (v : Value) : Request :=
  ((echoSignature name t).operation ⟨"PUT", "/" ++ name⟩).requestOf echoClient.binder fun _ => v

theorem echoed_echoSignature {name : String} {t : TypeReference} {v : Value} {response : Response}
    (hencode : (BodyEncoding.encode (some t.ownFormat) v).toOption.isSome = true)
    (hmode : (echoSignature name t).shape.completion = .sync) (hstatus : response.status = 200)
    (hsent : ((HttpSender.usersSender.outgoing (echoRequest name t v)
      (HttpSender.identify (echoRequest name t v) {}).1).toOption.any fun out =>
        out.url.scheme ≠ "" ∧ response.body = out.body ∧
          response.header? sentTypeHeader = Entries.get? out.headers sentTypeHeader) = true) :
    echoRegistry.Echoed echoClient (echoSignature name t)
      ((echoSignature name t).operation ⟨"PUT", "/" ++ name⟩) (echoParameter t) [("body", v)]
      (fun _ => v) { script := [.response response] } where
  frame := List.forall_mem_singleton.mpr rfl
  encodable := {
    path := fun _ h => nomatch h
    query := fun _ h => nomatch h
    headers := fun _ h => nomatch h
    body := List.forall_mem_singleton.mpr ⟨_, eq_ok_getD hencode default⟩
    contentHeaders := fun _ _ h => nomatch h }
  leavesType := by
    intro _ r hr _ hn
    rcases List.mem_pair.mp hr with rfl | rfl <;> cases hn
  answered := by
    cases hout : HttpSender.usersSender.outgoing (echoRequest name t v)
        (HttpSender.identify (echoRequest name t v) {}).1 with
    | error e =>
      rw [hout] at hsent
      cases hsent
    | ok out =>
      rw [hout] at hsent
      obtain ⟨hscheme, hbody, htype⟩ := of_decide_eq_true hsent
      have hopen : HttpSender.usersSender.isClosedFor (echoSignature name t).shape.completion =
          false := by
        rw [hmode]
        rfl
      exact ⟨out, response, ⟨hopen, hout, hscheme, rfl⟩, ⟨hstatus, hbody, htype⟩,
        fun _ h => nomatch h⟩

/-- A response with a text of some content type. -/
def echoResponse (body type : String) : Response where
  headers := [("Content-Type", type)]
  body := Utf8.encode body

/-- The empty text comes back, and so does a list of numbers. -/
theorem echoed_bodies_come_back_say_add :
    echoClient.cls.IsClientOf echoRegistry.program echoCandidate ∧
      (echoRegistry.call echoClient "say" ⟨[.text ""], []⟩
          { script := [.response (echoResponse "" Content.textType)] }).1.result = .ok (.text "") ∧
      (echoRegistry.call echoClient "add" ⟨[.list [.int 1, .int 2]], []⟩
          { script := [.response (echoResponse "[1,2]" "application/json")] }).1.result =
            .ok (.list [.int 1, .int 2]) := by
  have hnames : echoClient.cls.methodNames = ["say", "add"] :=
    congrArg (List.map fun o : Operation => o.name) operations_echoContract
  have hfree : ∀ q : Primitive, q.name ∉ echoClient.cls.methodNames := by
    intro q
    rw [hnames]
    cases q <;> decide
  refine ⟨isClientOf_echoClient, ?_, ?_⟩
  · have hmem : (echoSignature "say" (.builtin "str")).operation ⟨"PUT", "/say"⟩ ∈
        echoClient.cls.contract.operations := operations_echoContract ▸ List.mem_cons_self
    obtain ⟨-, plan, -, -, -, -, -, hcalls⟩ := echoed_bodies_come_back isClientOf_echoClient
      (ofSignature_of_isSome rfl (by decide +kernel)) hmem (List.nodup_singleton _)
      (echoes_echoSignature (t := .builtin "str") rfl rfl)
    obtain ⟨-, hcall⟩ := hcalls [("body", .text "")] (fun _ => .text "")
      { script := [.response (echoResponse "" Content.textType)] } (.text "")
      (echoed_echoSignature rfl rfl rfl (by decide +kernel)) (.text rfl)
    exact hcall ⟨[.text ""], []⟩ rfl (by decide) fun q _ => hfree q
  · have hmem : (echoSignature "add" numbersType).operation ⟨"PUT", "/add"⟩ ∈
        echoClient.cls.contract.operations :=
      operations_echoContract ▸ List.mem_cons_of_mem _ List.mem_cons_self
    obtain ⟨-, plan, -, -, -, -, -, hcalls⟩ := echoed_bodies_come_back isClientOf_echoClient
      (ofSignature_of_isSome rfl (by decide +kernel)) hmem (List.nodup_singleton _)
      (echoes_echoSignature (t := numbersType) rfl rfl)
    have hback : numbersType.ReadsBack echoRegistry.program.scope (.list [.int 1, .int 2]) :=
      ⟨_, _, _, _, by with_unfolding_all rfl, by with_unfolding_all rfl, by with_unfolding_all rfl,
        by with_unfolding_all rfl, rfl⟩
    obtain ⟨-, hcall⟩ := hcalls [("body", .list [.int 1, .int 2])] (fun _ => .list [.int 1, .int 2])
      { script := [.response (echoResponse "[1,2]" "application/json")] } (.list [.int 1, .int 2])
      (echoed_echoSignature (by decide +kernel) rfl rfl (by decide +kernel)) (.json rfl hback)
    exact hcall ⟨[.list [.int 1, .int 2]], []⟩ rfl (by decide) fun q _ => hfree q

end HttpContract
