import HttpContract.Proofs.Http.Queries

/-!
# Queries in templates

What becomes of a template that has a query of its own. A request keeps the text, and so does the address
that is logged, but the sender puts the query arguments in the place of the query that the text says. What
stands behind a question mark is never sent (`HttpSender.outgoing_of_query`), so the pairs of a template
only come along where there are none (`template_queries_are_dropped`).
-/

namespace HttpContract

namespace Url
variable {u a : Url}

/-! ### Addresses with a query -/

theorem build?_query (scheme authority path : String) (query fragment : Option String) :
    build? scheme authority path query fragment =
      (build? scheme authority path none fragment).map fun u =>
        { u with query := query.map (quote isQuerySafe) } := by
  unfold build?
  obtain ⟨user, host, port⟩ := splitAuthority authority
  cases hhost : Host.encode? host with
  | none => simp only [hhost, bind, Option.bind, Option.map_none]
  | some host =>
    cases hport : port? scheme port with
    | none => simp only [hhost, hport, bind, Option.bind, Option.map_none]
    | some port =>
      simp only [hhost, hport, bind, Option.bind]
      split_ifs <;> rfl

theorem cut_append {separator : Char} {cs : List Char} (h : separator ∉ cs) (ds : List Char) :
    cut separator (cs ++ separator :: ds) = (cs, some (String.ofList ds)) := by
  obtain ⟨hfirst, hrest⟩ := takeWhile_dropWhile_ne_append h ds
  rw [cut, hrest, hfirst]

/-- A text with a query is an address only if the text without it is the same address otherwise. -/
theorem parse?_append_query {s q : String} (hsign : '#' ∉ s.toList) (hmark : '?' ∉ s.toList)
    (hq : '#' ∉ q.toList) (h : parse? (s ++ "?" ++ q) = some u) :
    ∃ u' query, parse? s = some u' ∧ u = { u' with query } := by
  have hmarked : (s ++ "?" ++ q).toList = s.toList ++ '?' :: q.toList := by
    rw [String.toList_append, String.toList_append, List.append_assoc]
    rfl
  have hsign' : '#' ∉ s.toList ++ '?' :: q.toList := by simp [hsign, hq]
  have hshort : ¬ (decide (maxLength < s.length) || s.toList.any isControl) = true := by
    intro hlong
    refine absurd h ?_
    rw [parse?, if_pos]
    · exact nofun
    · simp only [Bool.or_eq_true, decide_eq_true_eq, List.any_eq_true] at hlong ⊢
      refine hlong.imp (fun hlong => ?_) ?_
      · rw [String.length_append, String.length_append]
        omega
      · rintro ⟨c, hc, hcontrol⟩
        exact ⟨c, hmarked ▸ List.mem_append_left _ hc, hcontrol⟩
  unfold parse? at h
  split_ifs at h
  simp only [hmarked, cut_of_not_mem hsign', cut_append hmark] at h
  rw [build?_query] at h
  obtain ⟨u', hu', rfl⟩ := Option.map_eq_some_iff.mp h
  refine ⟨u', _, ?_, rfl⟩
  rw [parse?, if_neg hshort, cut_of_not_mem hsign]
  simp only [cut_of_not_mem hmark]
  exact hu'

theorem rooted?_query {query : Option String} (h : { u with query }.rooted? = some a) :
    ∃ a' query', u.rooted? = some a' ∧ a = { a' with query := query' } := by
  unfold rooted? at h ⊢
  have habsolute : { u with query }.isAbsolute = u.isAbsolute := rfl
  rw [habsolute] at h
  split_ifs at h ⊢
  · exact ⟨u, query, rfl, (Option.some.inj h).symm⟩
  · rw [build?_query] at h ⊢
    obtain ⟨a', ha', rfl⟩ := Option.map_eq_some_iff.mp h
    exact ⟨{ a' with query := u.query.map (quote isQuerySafe) }, _, by rw [ha']; rfl, rfl⟩

end Url

namespace HttpSender
variable {c : HttpSender} {r : Request} {id : String} {out : SentRequest}

/-- What stands behind a question mark in the path of a request is not sent. -/
theorem outgoing_of_query {p q : String} (hpath : r.path = p ++ "?" ++ q)
    (hsign : '#' ∉ (c.settings.baseAddress r.service ++ p).toList)
    (hmark : '?' ∉ (c.settings.baseAddress r.service ++ p).toList) (hq : '#' ∉ q.toList)
    (h : c.outgoing r id = .ok out) : c.outgoing { r with path := p } id = .ok out := by
  have haddressOf : c.addressOf r = c.addressOf { r with path := p } ++ "?" ++ q := by
    rw [addressOf, hpath, addressOf]
    simp only [String.append_assoc]
  obtain ⟨address, haddress, -⟩ := outgoing_eq_ok h
  obtain ⟨u, hu, hrooted⟩ := Option.bind_eq_some_iff.mp haddress
  rw [haddressOf] at hu
  obtain ⟨u', query, hu', rfl⟩ := Url.parse?_append_query hsign hmark hq hu
  obtain ⟨address', query', hrooted', rfl⟩ := Url.rooted?_query hrooted
  unfold outgoing at h ⊢
  rw [haddress] at h
  rw [show Url.parse? (c.addressOf { r with path := p }) = some u' from hu', Option.bind_some, hrooted']
  exact h

end HttpSender

/-! ### Queries of templates -/

namespace PathTemplate

/-- The pieces of a template behind its first question mark, up to a number sign. -/
def queryPieces (path : String) : List Piece :=
  (((pieces path.toList).takeWhile (· != .char '#')).dropWhile (· != .char '?')).drop 1

/-- The pairs of the query of a template, with texts in the place of its tokens. -/
def literalPairs (path : String) (text : String → String) : List (String × String) :=
  Percent.readForm (String.ofList (fill text (queryPieces path)))

end PathTemplate

open PathTemplate

/-- A request keeps what its template says, but the query it is sent with holds the query arguments and
nothing else. So the pairs of the template stand before them exactly if it has none, and it makes no
difference to what is sent if the path of the request ends at the question mark. -/
theorem template_queries_are_dropped {c : Candidate} {k : Contract}
    (hk : Contract.ofCandidate c = .ok k)
    (hn : ∀ m ∈ c.methods, (m.parameters.map (·.name)).Nodup) {o : Operation}
    (ho : o ∈ k.operations) {frame : Frame} {argument : String → Value} {text : String → String}
    (hf : ∀ b ∈ o.parameters, frame.value b.name = .ok (argument b.name))
    (htext : ∀ b ∈ o.withRole .pathVariable, valueText (argument b.name) = .ok (text b.key))
    (scope : Scope) :
    ∃ plan, o.plan = .ok plan ∧ (o.Encodable argument →
      plan.requests (k.context scope) frame ≠ []) ∧
      ∀ r ∈ plan.requests (k.context scope) frame,
        r.path = (Binder.of k.serviceName k.baseRoute).join
          (String.ofList (fill text (pieces o.path.toList))) ∧
        ∀ (sender : HttpSender) (id : String) (out : SentRequest), sender.outgoing r id = .ok out →
          let pairs := Percent.readForm (out.url.query.getD "")
          pairs = o.queryTexts argument ∧
          (pairs = literalPairs o.path text ++ o.queryTexts argument ↔
            literalPairs o.path text = []) ∧
          ∀ p q, r.path = p ++ "?" ++ q → '#' ∉ q.toList →
            '#' ∉ (sender.settings.baseAddress k.serviceName ++ p).toList →
            '?' ∉ (sender.settings.baseAddress k.serviceName ++ p).toList →
            sender.outgoing { r with path := p } id = .ok out := by
  obtain ⟨plan, hplan, hiff⟩ := Contract.mem_requests hk hn ho hf scope
  refine ⟨plan, hplan, fun h => List.ne_nil_of_mem ((hiff _).mpr ⟨h, rfl⟩), fun r hr => ?_⟩
  obtain ⟨hservice, hpath⟩ := Contract.Requests.request hk hn ho
    ⟨plan, scope, frame, argument, hplan, hf, htext, hr⟩
  obtain ⟨hencodable, hrequest⟩ := (hiff r).mp hr
  refine ⟨hpath, ?_⟩
  intro sender id out hout pairs
  have hpairs : pairs = o.queryTexts argument := by
    rw [← hencodable.queryPairs_requestOf, ← hrequest, ← HttpSender.readForm_query hout]
  refine ⟨hpairs, ?_, fun p q hq hsign hbase hmark => ?_⟩
  · rw [hpairs, List.self_eq_append_left]
  · rw [← hservice] at hbase hmark
    exact HttpSender.outgoing_of_query hq hbase hmark hsign hout

/-- A method whose template has a query, with a placeholder in it. -/
def searchBooks : Signature where
  name := "search"
  returns := .builtin "str"
  parameters := [
    { name := "author", type := .builtin "str", marks := [.keyed .path none] },
    { name := "page", type := .builtin "int" }]
  endpoint := some ⟨"GET", "/search?kind=book&author={author}"⟩

/-- A candidate with one method, whose path has a query of its own. -/
def books : Candidate := { documents with methods := [searchBooks] }

def searchOperation : Operation :=
  searchBooks.operation ⟨"GET", "/search?kind=book&author={author}"⟩

def bookContract : Contract := { documentContract with operations := [searchOperation] }

theorem ofCandidate_books : Contract.ofCandidate books = .ok bookContract :=
  Contract.ofCandidate_of_methods (c := books) rfl
    (mapM_singleton_of_eq_ok (f := fun m => Operation.ofSignature m books.fullName)
      (ofSignature_of_isSome rfl (by decide +kernel)))

def bookArgument : String → Value := fun name =>
  if name = "author" then .text "Ann & Co" else .int 2

/-- The text in the place of the author. -/
def bookText : String → String := fun _ => "Ann & Co"

/-- Neither the kind of the books nor their author is sent, but only the page. -/
theorem template_queries_are_dropped_books : ∃ plan r out, searchOperation.plan = .ok plan ∧
    r ∈ plan.requests (bookContract.context []) (searchBooks.frame bookArgument) ∧
    r.path = "/v1/search?kind=book&author=Ann%20%26%20Co" ∧
    literalPairs searchOperation.path bookText = [("kind", "book"), ("author", "Ann & Co")] ∧
    documentSender.outgoing r "7" = .ok out ∧
    Percent.readForm (out.url.query.getD "") = [("page", "2")] ∧
    documentSender.outgoing { r with path := "/v1/search" } "7" = .ok out := by
  have hencodable : searchOperation.Encodable bookArgument := {
    path := List.forall_mem_singleton.mpr ⟨"Ann & Co", rfl⟩
    query := List.forall_mem_singleton.mpr ⟨_, rfl⟩
    headers := fun _ h => nomatch h
    body := fun _ h => nomatch h
    contentHeaders := fun h => absurd rfl h }
  have hframe := searchBooks.value_frame ⟨"GET", "/search?kind=book&author={author}"⟩ bookArgument
  have htext : ∀ b ∈ searchOperation.withRole .pathVariable,
      valueText (bookArgument b.name) = .ok (bookText b.key) := List.forall_mem_singleton.mpr rfl
  obtain ⟨plan, hplan, -, hdropped⟩ := template_queries_are_dropped ofCandidate_books
    (List.forall_mem_singleton.mpr (by decide)) (List.mem_singleton_self searchOperation) hframe
    htext []
  obtain ⟨plan', hplan', hiff⟩ := Contract.mem_requests ofCandidate_books
    (List.forall_mem_singleton.mpr (by decide)) (List.mem_singleton_self searchOperation) hframe []
  obtain rfl : plan = plan' := Except.ok.inj (hplan.symm.trans hplan')
  have hr := (hiff _).mpr ⟨hencodable, rfl⟩
  obtain ⟨hpath, hsent⟩ := hdropped _ hr
  have hsome : (documentSender.outgoing (searchOperation.requestOf
      (bookContract.context []).binder bookArgument) "7").toOption.isSome = true := by
    decide +kernel
  have hfilled : (Binder.of bookContract.serviceName bookContract.baseRoute).join (String.ofList
      (fill bookText (pieces searchOperation.path.toList))) =
        "/v1/search?kind=book&author=Ann%20%26%20Co" := by decide +kernel
  have hliteral : literalPairs searchOperation.path bookText =
      [("kind", "book"), ("author", "Ann & Co")] := by decide +kernel
  have htexts : searchOperation.queryTexts bookArgument = [("page", "2")] := by decide +kernel
  obtain ⟨hpairs, -, hcut⟩ := hsent documentSender "7" _ (eq_ok_getD hsome default)
  exact ⟨plan, _, _, hplan, hr, hpath.trans hfilled, hliteral, eq_ok_getD hsome default,
    hpairs.trans htexts, hcut "/v1/search" "kind=book&author=Ann%20%26%20Co"
      (hpath.trans hfilled) (by decide) (by decide +kernel) (by decide +kernel)⟩

end HttpContract
