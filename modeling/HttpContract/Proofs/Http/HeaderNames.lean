import HttpContract.Proofs.Client.Requests
import HttpContract.Proofs.Http.Attempts
import Mathlib.Data.List.Pairwise

/-!
# Header names

The names under which a request is sent come from four places: the headers of the request, its id, the
content type of a body and the headers of the content (`Operation.headerPlaces`). In each place they
differ in more than their case, but they are put together by their spelling. So no two of them are one
name in different cases exactly if the places spell alike what they share (`header_names_differ_iff`).
-/

namespace HttpContract

/-! ### Names on the wire -/

theorem Text.lower_of_isAscii {s : String} (h : isAscii s = true) :
    Text.lower s = String.ofList (s.toList.map Char.toLower) := by
  have hfrom : ∀ cs before : List Char, (∀ c ∈ cs, c.toNat < 128) →
      lowerFrom before cs = cs.map Char.toLower := by
    intro cs
    induction cs with
    | nil => exact fun _ _ => rfl
    | cons c cs ih =>
      intro before hcs
      rw [List.forall_mem_cons] at hcs
      have hsigma : c.toNat ≠ 0x3a3 := by omega
      have hdotted : c.toNat ≠ 0x130 := by omega
      have hlower : lowerChar c = c.toLower := if_pos hcs.1
      rw [lowerFrom, if_neg hsigma, if_neg hdotted, hlower, ih _ hcs.2]
      rfl
  rw [lower, hfrom _ _ fun c hc => of_decide_eq_true (List.all_eq_true.mp h c hc)]

namespace HttpSender
variable {c : HttpSender} {r : Request} {id : String} {out : SentRequest}

/-- The headers of a request go over the wire under their names in lower case, perhaps behind one that
says who sends it. -/
theorem headers_outgoing (h : c.outgoing r id = .ok out) :
    let named := (headersOf r id).map fun h => (Text.lower h.1, h.2)
    out.headers = named ∨ out.headers = (userAgentHeader, c.settings.userAgent) :: named := by
  intro named
  obtain ⟨-, -, hsent, -⟩ := outgoing_eq_ok h
  unfold sentHeaders at hsent
  split_ifs at hsent with hascii
  have hnamed : (headersOf r id).map (fun h => (String.ofList (h.1.toList.map Char.toLower), h.2)) =
      named := by
    refine List.map_congr_left fun e he => ?_
    have hname := List.all_eq_true.mp hascii e he
    rw [Bool.and_eq_true] at hname
    rw [Text.lower_of_isAscii hname.1]
  rw [← Except.ok.inj hsent, hnamed]
  split_ifs
  · exact .inl rfl
  · exact .inr rfl

/-- The values of the headers of a name, but for that of the agent, are those of all its spellings. -/
theorem values_outgoing (h : c.outgoing r id = .ok out) {name : String} (hname : name ≠ userAgentHeader) :
    (out.headers.filter (·.1 == name)).map (·.2) =
      ((headersOf r id).filter (Text.lower ·.1 == name)).map (·.2) := by
  have hnamed : (((headersOf r id).map fun h => (Text.lower h.1, h.2)).filter (·.1 == name)).map (·.2) =
      ((headersOf r id).filter (Text.lower ·.1 == name)).map (·.2) := by
    rw [List.filter_map, List.map_map]
    rfl
  rcases headers_outgoing h with hout | hout
  · rw [hout, hnamed]
  · rw [hout, List.filter_cons_of_neg (by simpa using Ne.symm hname), hnamed]

theorem mem_outgoing_headers (h : c.outgoing r id = .ok out) :
    (∀ e ∈ headersOf r id, (Text.lower e.1, e.2) ∈ out.headers) ∧
    ∀ e ∈ out.headers,
      e.1 = userAgentHeader ∨ ∃ n, (n, e.2) ∈ headersOf r id ∧ Text.lower n = e.1 := by
  have hkept : ∀ e ∈ headersOf r id,
      (Text.lower e.1, e.2) ∈ (headersOf r id).map fun h => (Text.lower h.1, h.2) :=
    fun e he => List.mem_map_of_mem (f := fun h : String × String => (Text.lower h.1, h.2)) he
  have hmade : ∀ e ∈ (headersOf r id).map fun h => (Text.lower h.1, h.2),
      ∃ n, (n, e.2) ∈ headersOf r id ∧ Text.lower n = e.1 := by
    intro e he
    obtain ⟨h, hh, rfl⟩ := List.mem_map.mp he
    exact ⟨h.1, hh, rfl⟩
  rcases headers_outgoing h with hout | hout <;> rw [hout]
  · exact ⟨hkept, fun e he => .inr (hmade e he)⟩
  · refine ⟨fun e he => List.mem_cons_of_mem _ (hkept e he), fun e he => ?_⟩
    rcases List.mem_cons.mp he with rfl | he
    · exact .inl rfl
    · exact .inr (hmade e he)

end HttpSender

/-! ### Names from several places -/

/-- Names of the two lists that are one name but for the case are the same. -/
def SpelledAlike (xs ys : List String) : Prop :=
  ∀ x ∈ xs, ∀ y ∈ ys, Text.lower x = Text.lower y → x = y

instance : Std.Symm SpelledAlike where
  symm _ _ h y hy x hx he := (h x hx y hy he.symm).symm

theorem spelledAlike_self {xs : List String} (h : (xs.map Text.lower).Nodup) : SpelledAlike xs xs :=
  fun _ hx _ hy he => List.inj_on_of_nodup_map h hx hy he

namespace Operation

/-- The names of the arguments that are sent in headers of a role. -/
def sentNames (o : Operation) (r : Role) (argument : String → Value) : List String :=
  (sentTexts (o.arguments r argument)).map (·.1)

/-- Where the names of the headers of a request come from. -/
def headerPlaces (o : Operation) (argument : String → Value) : List (List String) :=
  [o.sentNames .requestHeader argument, [HttpSender.requestIdHeader]] ++
    if (o.withRole .body).isEmpty then []
    else [[contentTypeHeader], o.sentNames .contentHeader argument]

variable {o : Operation} {argument : String → Value} {binder : Binder}

theorem mem_keys_contentOf (b : Binding) {n : String} :
    n ∈ (o.contentOf argument b).headers.map (·.1) ↔
      n = contentTypeHeader ∨ n ∈ o.sentNames .contentHeader argument := by
  rw [contentOf, Entries.merge, Entries.mem_keys_foldl_insert, List.map_cons, List.mem_cons]
  exact or_iff_right List.not_mem_nil

theorem mem_keys_headersOf (id : String) {n : String} :
    n ∈ (HttpSender.headersOf (o.requestOf binder argument) id).map (·.1) ↔
      ∃ place ∈ o.headerPlaces argument, n ∈ place := by
  have hplaces : (∃ place ∈ o.headerPlaces argument, n ∈ place) ↔
      (n ∈ o.sentNames .requestHeader argument ∨ n = HttpSender.requestIdHeader) ∨
        (o.withRole .body ≠ [] ∧
          (n = contentTypeHeader ∨ n ∈ o.sentNames .contentHeader argument)) := by
    unfold headerPlaces
    cases o.withRole .body <;> simp [or_assoc]
  rw [hplaces, HttpSender.headersOf, Entries.mem_keys_foldl_insert, Entries.mem_keys_insert]
  refine or_congr_right ?_
  unfold requestOf
  cases o.withRole .body with
  | nil => simp
  | cons b bs =>
    refine (mem_keys_contentOf b).trans (and_iff_right (List.cons_ne_nil b bs)).symm

theorem nodup_keys_headersOf {r : Request} (hn : (r.headers.map (·.1)).Nodup) (id : String) :
    ((HttpSender.headersOf r id).map (·.1)).Nodup :=
  Entries.nodup_keys_foldl_insert (Entries.nodup_keys_insert hn _ _) _

end Operation

namespace Signature
variable {m : Signature} {e : Endpoint} {argument : String → Value}

theorem nodup_lower_sentNames {r : Role} (h : ((m.keys r).map Text.lower).Nodup) :
    (((m.operation e).sentNames r argument).map Text.lower).Nodup := by
  rw [← keys_arguments m e r argument] at h
  exact h.sublist ((keys_sentTexts_sublist _).map Text.lower)

theorem nodup_lower_headerPlaces (ha : m.Acceptable e.path) :
    ∀ place ∈ (m.operation e).headerPlaces argument, (place.map Text.lower).Nodup := by
  refine List.forall_mem_append.mpr ⟨?_, ?_⟩
  · rw [List.forall_mem_cons, List.forall_mem_singleton]
    exact ⟨nodup_lower_sentNames ha.requestHeaders, List.nodup_singleton _⟩
  · split_ifs
    · exact fun _ h => nomatch h
    · rw [List.forall_mem_cons, List.forall_mem_singleton]
      exact ⟨List.nodup_singleton _, nodup_lower_sentNames ha.contentHeaders⟩

theorem nodup_lower_headersOf_iff (ha : m.Acceptable e.path) (binder : Binder) (id : String) :
    (((HttpSender.headersOf ((m.operation e).requestOf binder argument) id).map (·.1)).map
      Text.lower).Nodup ↔ ((m.operation e).headerPlaces argument).Pairwise SpelledAlike := by
  have hplaces : ∀ place ∈ (m.operation e).headerPlaces argument, (place.map Text.lower).Nodup :=
    nodup_lower_headerPlaces ha
  have hspelled : (((m.operation e).requestOf binder argument).headers.map (·.1)).Nodup :=
    List.Nodup.of_map Text.lower (nodup_lower_sentNames ha.requestHeaders)
  rw [List.nodup_map_iff_inj_on (Operation.nodup_keys_headersOf hspelled id)]
  constructor
  · intro h
    refine List.pairwise_iff_forall_sublist.mpr fun {xs ys} hsub x hx y hy he => ?_
    have hxs := hsub.subset (List.mem_cons_self (a := xs))
    have hys := hsub.subset (List.mem_cons_of_mem xs (List.mem_singleton_self ys))
    exact h x ((Operation.mem_keys_headersOf id).mpr ⟨xs, hxs, hx⟩) y
      ((Operation.mem_keys_headersOf id).mpr ⟨ys, hys, hy⟩) he
  · intro h x hx y hy he
    obtain ⟨xs, hxs, hx⟩ := (Operation.mem_keys_headersOf id).mp hx
    obtain ⟨ys, hys, hy⟩ := (Operation.mem_keys_headersOf id).mp hy
    exact h.forall_of_forall (fun place hp => spelledAlike_self (hplaces place hp)) hxs hys x hx y hy
      he

end Signature

/-- The headers that a call of a contract's method is sent with have the names that their places give.
In each place no two names agree but for the case, so no two of all names do exactly if that holds
between any two places of names that are spelled in different ways. -/
theorem header_names_differ_iff {c : Candidate} {k : Contract}
    (hk : Contract.ofCandidate c = .ok k)
    (hn : ∀ m ∈ c.methods, (m.parameters.map (·.name)).Nodup) {o : Operation}
    (ho : o ∈ k.operations) {frame : Frame} {argument : String → Value}
    (hf : ∀ b ∈ o.parameters, frame.value b.name = .ok (argument b.name)) (scope : Scope) :
    ∃ plan, o.plan = .ok plan ∧ (o.Encodable argument →
      plan.requests (k.context scope) frame ≠ []) ∧
      ∀ r ∈ plan.requests (k.context scope) frame, ∀ id,
        let names := (HttpSender.headersOf r id).map (·.1)
        (∀ name, name ∈ names ↔ ∃ place ∈ o.headerPlaces argument, name ∈ place) ∧
        (∀ place ∈ o.headerPlaces argument, (place.map Text.lower).Nodup) ∧
        ((names.map Text.lower).Nodup ↔ (o.headerPlaces argument).Pairwise SpelledAlike) := by
  obtain ⟨plan, hplan, hiff⟩ := Contract.mem_requests hk hn ho hf scope
  obtain ⟨m, hm, ho'⟩ := Contract.exists_of_mem_operations hk ho
  obtain ⟨e, -, ha, rfl⟩ := Signature.ofSignature_eq_ok ho'
  refine ⟨plan, hplan, fun h => List.ne_nil_of_mem ((hiff _).mpr ⟨h, rfl⟩), fun r hr id => ?_⟩
  obtain ⟨-, rfl⟩ := (hiff r).mp hr
  exact ⟨fun name => Operation.mem_keys_headersOf id, Signature.nodup_lower_headerPlaces ha,
    Signature.nodup_lower_headersOf_iff ha _ id⟩

/-- No two of the names that a document is stored with agree but for the case. -/
theorem header_names_differ_document : ∃ plan,
    (storeDocument.operation ⟨"PUT", "/docs/{id}"⟩).plan = .ok plan ∧
    plan.requests (documentContract.context []) (storeDocument.frame documentArgument) ≠ [] ∧
    ∀ r ∈ plan.requests (documentContract.context []) (storeDocument.frame documentArgument),
      ∀ id, (((HttpSender.headersOf r id).map (·.1)).map Text.lower).Nodup := by
  obtain ⟨plan, hplan, hsome, hnames⟩ := header_names_differ_iff ofCandidate_documents
    (List.forall_mem_singleton.mpr (by decide)) (List.mem_singleton_self _)
    (storeDocument.value_frame _ documentArgument) []
  have hplaces : (storeDocument.operation ⟨"PUT", "/docs/{id}"⟩).headerPlaces documentArgument =
      [["X-Trace"], ["X-Request-ID"], ["Content-Type"], ["Content-Language"]] := by decide +kernel
  have hlower : ["X-Trace", "X-Request-ID", "Content-Type", "Content-Language"].map Text.lower =
      ["x-trace", "x-request-id", "content-type", "content-language"] := by decide +kernel
  refine ⟨plan, hplan, hsome encodable_documentArgument, fun r hr id =>
    (hnames r hr id).2.2.mpr ?_⟩
  rw [hplaces]
  simp only [List.map_cons, List.map_nil, List.cons.injEq] at hlower
  simp [SpelledAlike, hlower]

/-- A method whose content has a header of the request, too, in lower case. -/
def traceDocument : Signature where
  name := "trace"
  returns := .builtin "str"
  parameters := [
    { name := "trace", type := .builtin "str", marks := [.keyed .requestHeader (some "X-Trace")] },
    { name := "text", type := .builtin "str", marks := [.body .auto none] },
    { name := "language", type := .builtin "str",
      marks := [.keyed .contentHeader (some "x-trace")] }]
  endpoint := some ⟨"PUT", "/docs"⟩

/-- A candidate with this method. -/
def tracedDocuments : Candidate := { documents with methods := [traceDocument] }

def traceOperation : Operation := traceDocument.operation ⟨"PUT", "/docs"⟩

/-- The method is accepted, and its header stands in two places, spelled in different ways. -/
example : (Contract.ofCandidate tracedDocuments).toOption.isSome ∧
    (traceOperation.headerPlaces documentArgument).flatten =
      ["X-Trace", "X-Request-ID", "Content-Type", "x-trace"] ∧
    Text.lower "X-Trace" = Text.lower "x-trace" := by decide +kernel

end HttpContract
