import HttpContract.Proofs.Http.Resource
import HttpContract.Proofs.Text.Form

/-!
# Queries

What the query of an address says about the arguments of a call. The query is the form of the pairs of the
request (`HttpSender.query_outgoing`), and encoding it for the address leaves it as it is. So it reads back
as the texts of the query arguments under their keys, in the order of the parameters
(`query_reads_back`).
-/

namespace HttpContract

namespace Url

/-! ### The class of query characters -/

theorem isQuerySafe_of_isPathSafe {c : Char} (h : isPathSafe c = true) : isQuerySafe c = true := by
  have hsigns : "\"#<>".toList = ['"', '#', '<', '>'] := rfl
  obtain ⟨hlow, hhigh, hsafe⟩ := (isPathSafe_iff c).mp h
  have hquery : c ∉ "\"#<>".toList := by
    rw [hsigns]
    exact fun hc => hsafe (List.subset_def.mp (by decide) hc)
  rw [isQuerySafe, isPrintableSign, decide_eq_true hlow, decide_eq_true hhigh,
    List.contains_eq_mem, decide_eq_false hquery]
  rfl

theorem isPathClass_isQuerySafe : Percent.IsPathClass isQuerySafe where
  ascii c h := by
    rw [isQuerySafe, isPrintableSign, Bool.and_eq_true, Bool.and_eq_true] at h
    have := of_decide_eq_true h.1.2
    omega
  percent := by decide
  digit c h := isQuerySafe_of_isPathSafe (isPathClass_isPathSafe.digit c h)

theorem quote_form (pairs : List (String × String)) :
    quote isQuerySafe (Percent.form pairs) = Percent.form pairs := by
  have hsafe : ∀ c ∈ (Percent.form pairs).toList, isQuerySafe c = true := by
    intro c hc
    rcases Percent.mem_form hc with hplain | hsign
    · exact isQuerySafe_of_isPathSafe (isPathSafe_of_isPlain hplain)
    · simp only [List.mem_cons, List.not_mem_nil, or_false] at hsign
      rcases hsign with rfl | rfl | rfl | rfl <;> rfl
  rw [quote, isPathClass_isQuerySafe.quoteKeeping_eq,
    isPathClass_isQuerySafe.flatMap_encodeChar_of_safe hsafe, String.ofList_toList]

end Url

/-! ### Pairs -/

namespace HttpSender
variable {c : HttpSender} {r : Request} {id : String} {out : SentRequest}

/-- The query of an address is the form of the pairs of the request; what its text says behind a question
mark does not count. -/
theorem query_outgoing (h : c.outgoing r id = .ok out) : out.url.query =
    if r.params.isEmpty then none else some (Percent.form (queryPairs r.params)) := by
  obtain ⟨address, -, -, hurl⟩ := outgoing_eq_ok h
  obtain ⟨-, hquery, -⟩ := Url.build?_eq_some (Url.build?_of_withQuery? hurl)
  rw [hquery]
  split_ifs
  · rfl
  · rw [Option.map_some, Url.quote_form]

theorem readForm_query (h : c.outgoing r id = .ok out) :
    Percent.readForm (out.url.query.getD "") = queryPairs r.params := by
  rw [query_outgoing h]
  split_ifs with hempty
  · rw [List.isEmpty_iff.mp hempty]
    rfl
  · exact Percent.readForm_form _

end HttpSender

/-! ### Arguments -/

namespace Value

/-- What is sent of a query argument: nothing of none, and each item of a list. -/
def queryItems : Value → List Value
  | .null => []
  | .list vs | .tuple vs => vs
  | v => [v]

theorem queryItems_of_isNull {v : Value} (h : v.isNull = true) : v.queryItems = [] := by
  cases v with
  | null => rfl
  | _ => cases h

theorem sentQuery_eq {v : Value} {q : QueryValue} (h : formatQuery v = .ok q) : v.sentQuery = q := by
  rw [sentQuery, h]
  rfl

/-- The items that are sent of a value have texts, which stand in the query in their order. -/
def IsSentByItem (v : Value) : Prop :=
  (∀ w ∈ v.queryItems, w.HasText) ∧ ∀ key,
    HttpSender.queryPairs [(key, v.sentQuery)] = v.queryItems.map fun w => (key, w.sentText)

theorem isSentByItem_of_items {v : Value} {vs : List Value} (hitems : v.queryItems = vs)
    (hformat : formatQuery v = vs.mapM valueText >>= fun ts => pure (.many (ts.map .text)))
    (h : v.HasQuery) : v.IsSentByItem := by
  obtain ⟨q, hq⟩ := h
  have htexts : Decides (fun _ => True) (vs.mapM valueText) (∀ w ∈ vs, w.HasText)
      (vs.map sentText) := .mapM fun w _ => w.decides_valueText
  obtain ⟨htext, hmany⟩ := (htexts.bind_pure _).eq_ok_iff.mp (hformat.symm.trans hq)
  rw [IsSentByItem, hitems]
  refine ⟨htext, fun key => ?_⟩
  rw [sentQuery_eq hq, hmany, HttpSender.queryPairs, List.flatMap_singleton]
  simp only [List.map_map]
  rfl

theorem isSentByItem_of_single {v : Value} (hitems : v.queryItems = [v])
    (hformat : formatQuery v = (valueText v).map fun t => .one (.text t))
    (h : v.HasQuery) : v.IsSentByItem := by
  obtain ⟨q, hq⟩ := h
  obtain ⟨htext, hone⟩ := (v.decides_valueText.map _).eq_ok_iff.mp (hformat.symm.trans hq)
  rw [IsSentByItem, hitems]
  refine ⟨List.forall_mem_singleton.mpr htext, fun key => ?_⟩
  rw [sentQuery_eq hq, hone, HttpSender.queryPairs, List.flatMap_singleton]
  rfl

theorem isSentByItem {v : Value} (hnull : v.isNull = false) (h : v.HasQuery) : v.IsSentByItem := by
  cases v with
  | null => cases hnull
  | list vs => exact isSentByItem_of_items rfl rfl h
  | tuple vs => exact isSentByItem_of_items rfl rfl h
  | _ => exact isSentByItem_of_single rfl rfl h

end Value

theorem queryPairs_sentParams {entries : List (String × Value)}
    (h : ∀ a ∈ present entries, a.2.HasQuery) :
    HttpSender.queryPairs (sentParams entries) =
      entries.flatMap fun a => a.2.queryItems.map fun w => (a.1, w.sentText) := by
  induction entries with
  | nil => rfl
  | cons a entries ih =>
    rw [present_cons] at h
    rw [sentParams, present_cons, List.flatMap_cons]
    cases hnull : a.2.isNull with
    | true =>
      rw [hnull, if_pos rfl] at h
      rw [if_pos rfl, Value.queryItems_of_isNull hnull, List.map_nil, List.nil_append, ← ih h]
      rfl
    | false =>
      rw [hnull, if_neg Bool.false_ne_true, List.forall_mem_cons] at h
      rw [if_neg Bool.false_ne_true, ← ih h.2, ← (Value.isSentByItem hnull h.1).2 a.1,
        HttpSender.queryPairs, HttpSender.queryPairs, HttpSender.queryPairs, List.map_cons,
        List.flatMap_cons, List.flatMap_singleton]
      rfl

namespace Operation

/-- The texts of the query arguments under their keys, in the order of the parameters. -/
def queryTexts (o : Operation) (argument : String → Value) : List (String × String) :=
  (o.withRole .queryParameter).flatMap fun b =>
    (argument b.name).queryItems.map fun v => (b.key, v.sentText)

theorem Encodable.queryPairs_requestOf {o : Operation} {argument : String → Value}
    (h : o.Encodable argument) (binder : Binder) :
    HttpSender.queryPairs (o.requestOf binder argument).params = o.queryTexts argument := by
  refine (queryPairs_sentParams h.query).trans ?_
  rw [arguments, List.flatMap_map]
  rfl

end Operation

/-- The query of a call that is sent reads back as the texts of the query arguments: none of nothing, one
for each item of a list or tuple, and otherwise the one of the argument. No two parameters share a key,
and each of the texts is that of its value. -/
theorem query_reads_back {c : Candidate} {k : Contract} (hk : Contract.ofCandidate c = .ok k)
    (hn : ∀ m ∈ c.methods, (m.parameters.map (·.name)).Nodup) {o : Operation}
    (ho : o ∈ k.operations) {frame : Frame} {argument : String → Value}
    (hf : ∀ b ∈ o.parameters, frame.value b.name = .ok (argument b.name)) (scope : Scope) :
    ((o.withRole .queryParameter).map (·.key)).Nodup ∧
    ∃ plan, o.plan = .ok plan ∧
      (o.Encodable argument → plan.requests (k.context scope) frame ≠ []) ∧
      ∀ r ∈ plan.requests (k.context scope) frame,
        (∀ b ∈ o.withRole .queryParameter, ∀ v ∈ (argument b.name).queryItems,
          valueText v = .ok v.sentText) ∧
        ∀ (sender : HttpSender) (id : String) (out : SentRequest), sender.outgoing r id = .ok out →
          Percent.readForm (out.url.query.getD "") = o.queryTexts argument := by
  obtain ⟨plan, hplan, hiff⟩ := Contract.mem_requests hk hn ho hf scope
  obtain ⟨m, hm, ho'⟩ := Contract.exists_of_mem_operations hk ho
  obtain ⟨e, -, ha, rfl⟩ := Signature.ofSignature_eq_ok ho'
  have hkeys : (((m.operation e).withRole .queryParameter).map (·.key)).Nodup := by
    have := ha.queryKeys
    rw [← Signature.keys_arguments m e .queryParameter argument, Operation.arguments,
      List.map_map] at this
    exact this
  refine ⟨hkeys, plan, hplan, fun h => List.ne_nil_of_mem ((hiff _).mpr ⟨h, rfl⟩), fun r hr => ?_⟩
  obtain ⟨hencodable, rfl⟩ := (hiff r).mp hr
  refine ⟨fun b hb v hv => ?_, fun sender id out hout => ?_⟩
  · cases hnull : (argument b.name).isNull with
    | true =>
      rw [Value.queryItems_of_isNull hnull] at hv
      cases hv
    | false =>
      have hsent : (b.key, argument b.name) ∈
          present ((m.operation e).arguments .queryParameter argument) :=
        List.mem_filter.mpr ⟨List.mem_map_of_mem hb, by rw [hnull, Bool.not_false]⟩
      obtain ⟨t, ht⟩ := (Value.isSentByItem hnull (hencodable.query _ hsent)).1 v hv
      rw [ht, Value.sentText_eq ht]
  · rw [HttpSender.readForm_query hout, hencodable.queryPairs_requestOf]

/-- Arguments of which that of the query is a list. -/
def listedArgument : String → Value := fun name =>
  if name = "draft" then .list [.text "a&b=c+d%", .text "", .text "é ü", .bool true, .null]
  else documentArgument name

/-- Signs, spaces and letters of all kinds come back, and so does an empty text. -/
theorem query_reads_back_document : ∃ plan r out, storeOperation.plan = .ok plan ∧
    r ∈ plan.requests (documentContract.context []) (storeDocument.frame listedArgument) ∧
    documentSender.outgoing r "7" = .ok out ∧
    Percent.readForm (out.url.query.getD "") =
      [("draft", "a&b=c+d%"), ("draft", ""), ("draft", "é ü"), ("draft", "true"), ("draft", "")] := by
  have hencodable : storeOperation.Encodable listedArgument := {
    path := List.forall_mem_singleton.mpr ⟨"a/b", rfl⟩
    query := List.forall_mem_singleton.mpr ⟨_, rfl⟩
    headers := List.forall_mem_singleton.mpr ⟨"t1", rfl⟩
    body := List.forall_mem_singleton.mpr ⟨_, rfl⟩
    contentHeaders := fun _ => List.forall_mem_singleton.mpr ⟨"en", rfl⟩ }
  have hframe := storeDocument.value_frame ⟨"PUT", "/docs/{id}"⟩ listedArgument
  obtain ⟨-, plan, hplan, -, hreads⟩ := query_reads_back ofCandidate_documents
    (List.forall_mem_singleton.mpr (by decide)) (List.mem_singleton_self storeOperation) hframe []
  obtain ⟨plan', hplan', hiff⟩ := Contract.mem_requests ofCandidate_documents
    (List.forall_mem_singleton.mpr (by decide)) (List.mem_singleton_self storeOperation) hframe []
  obtain rfl : plan = plan' := Except.ok.inj (hplan.symm.trans hplan')
  have hr := (hiff _).mpr ⟨hencodable, rfl⟩
  have hsome : (documentSender.outgoing (storeOperation.requestOf
      (documentContract.context []).binder listedArgument) "7").toOption.isSome = true := by
    decide +kernel
  have hout := eq_ok_getD hsome default
  have htexts : storeOperation.queryTexts listedArgument = [("draft", "a&b=c+d%"), ("draft", ""),
      ("draft", "é ü"), ("draft", "true"), ("draft", "")] := by decide +kernel
  exact ⟨plan, _, _, hplan, hr, hout, ((hreads _ hr).2 documentSender "7" _ hout).trans htexts⟩

end HttpContract
