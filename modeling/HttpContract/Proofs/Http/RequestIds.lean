import HttpContract.Proofs.Client.Failures
import HttpContract.Proofs.Http.Closing
import HttpContract.Proofs.Http.HeaderNames
import Mathlib.Data.List.Dedup

/-!
# Request ids

The ids that go over the wire with a call. The sender looks for an id under one spelling of its name, and
puts the headers together by their spelling, so a request is sent with one header for each spelling of that
name. Every attempt carries the id that the errors name, and no other, exactly if the request spells the
name as the sender does (`request_ids_agree_iff`).
-/

namespace HttpContract

/-- The name of the request id as it goes over the wire. -/
def sentIdHeader : String := "x-request-id"

/-- The request ids that are sent. -/
def SentRequest.ids (s : SentRequest) : List String :=
  (s.headers.filter (·.1 == sentIdHeader)).map (·.2)

/-- Whether a name is that of the request id, whatever its case. -/
def namesId (name : String) : Bool := Text.lower name == sentIdHeader

theorem namesId_requestIdHeader : namesId HttpSender.requestIdHeader = true := by decide +kernel

namespace Request

/-- The headers that come with the body of a request. -/
def contentHeaders (r : Request) : List (String × String) := (r.content.map (·.headers)).getD []

/-- No two headers of a request have the same name, nor do two of its content. -/
structure HasDistinctNames (r : Request) : Prop where
  own : (r.headers.map (·.1)).Nodup
  content : (r.contentHeaders.map (·.1)).Nodup

/-- The spellings of the name of the request id, that of the sender among them. -/
def idSpellings (r : Request) : List String :=
  ((HttpSender.requestIdHeader :: (r.headers ++ r.contentHeaders).map (·.1)).filter namesId).dedup

/-- The name of the request id has no other spelling than that of the sender, and the content no other
id. -/
structure SpellsId (r : Request) (id : String) : Prop where
  own : ∀ h ∈ r.headers, namesId h.1 = true → h.1 = HttpSender.requestIdHeader
  content : ∀ h ∈ r.contentHeaders, namesId h.1 = true → h = (HttpSender.requestIdHeader, id)

end Request

namespace HttpSender
open Traffic

variable {c : HttpSender} {mode : Completion} {r : Request} {id : String} {out : SentRequest}
  {t : Traffic}

/-! ### Headers for the id -/

/-- The headers for the id, before they are sent. -/
def idHeaders (r : Request) (id : String) : List (String × String) :=
  (headersOf r id).filter fun h => namesId h.1

theorem mem_idHeaders {h : String × String} :
    h ∈ idHeaders r id ↔ h ∈ headersOf r id ∧ namesId h.1 = true := List.mem_filter

theorem ids_outgoing (h : c.outgoing r id = .ok out) : out.ids = (idHeaders r id).map (·.2) :=
  values_outgoing h (by decide)

theorem mem_keys_headersOf (id : String) {n : String} : n ∈ (headersOf r id).map (·.1) ↔
    n ∈ requestIdHeader :: (r.headers ++ r.contentHeaders).map (·.1) := by
  rw [headersOf, Entries.mem_keys_foldl_insert, Entries.mem_keys_insert, List.mem_cons,
    List.map_append, List.mem_append, ← or_assoc, or_comm (a := n = requestIdHeader)]
  rfl

theorem nodup_keys_idHeaders (hr : r.HasDistinctNames) (id : String) :
    ((idHeaders r id).map (·.1)).Nodup :=
  (Operation.nodup_keys_headersOf hr.own id).sublist (List.filter_sublist.map _)

theorem keys_idHeaders_perm (hr : r.HasDistinctNames) (id : String) :
    ((idHeaders r id).map (·.1)).Perm r.idSpellings := by
  refine (List.perm_ext_iff_of_nodup (nodup_keys_idHeaders hr id) (List.nodup_dedup _)).mpr fun n => ?_
  rw [List.mem_dedup, List.mem_filter, ← mem_keys_headersOf id]
  constructor
  · intro hn
    obtain ⟨h, hh, rfl⟩ := List.mem_map.mp hn
    obtain ⟨hh, hname⟩ := mem_idHeaders.mp hh
    exact ⟨List.mem_map_of_mem hh, hname⟩
  · rintro ⟨hn, hname⟩
    obtain ⟨h, hh, rfl⟩ := List.mem_map.mp hn
    exact List.mem_map_of_mem (mem_idHeaders.mpr ⟨hh, hname⟩)

/-- The sender's own spelling is among those that are sent, so if there is one, it is that. -/
theorem spellsId_of_idHeaders (hr : r.HasDistinctNames) {e : String × String}
    (he : idHeaders r id = [e]) (hid : e.2 = id) : r.SpellsId id := by
  have hkey : ∀ n ∈ requestIdHeader :: (r.headers ++ r.contentHeaders).map (·.1),
      namesId n = true → n = e.1 := by
    intro n hn hname
    obtain ⟨e', he', rfl⟩ := List.mem_map.mp ((mem_keys_headersOf id).mpr hn)
    have hsame := mem_idHeaders.mpr ⟨he', hname⟩
    rw [he, List.mem_singleton] at hsame
    rw [hsame]
  have hspelled := hkey _ List.mem_cons_self namesId_requestIdHeader
  refine ⟨fun h hh hname => ?_, fun h hh hname => ?_⟩
  · rw [hspelled]
    exact hkey _ (List.mem_cons_of_mem _ (List.mem_map_of_mem (List.mem_append_left _ hh))) hname
  · have hsame : h ∈ idHeaders r id :=
      mem_idHeaders.mpr ⟨Entries.mem_foldl_insert_new hr.content hh, hname⟩
    rw [he, List.mem_singleton] at hsame
    rw [hsame, hspelled, ← hid]

theorem mem_headersOf_of_spellsId (hr : r.HasDistinctNames) (hspells : r.SpellsId id) :
    (requestIdHeader, id) ∈ headersOf r id := by
  by_cases hcontent : requestIdHeader ∈ r.contentHeaders.map (·.1)
  · obtain ⟨h, hh, hname⟩ := List.mem_map.mp hcontent
    have hvalue := hspells.content h hh (hname ▸ namesId_requestIdHeader)
    exact Entries.mem_foldl_insert_new hr.content (hvalue ▸ hh)
  · exact Entries.mem_foldl_insert (Entries.mem_insert_self ..) hcontent

theorem eq_of_mem_idHeaders (hr : r.HasDistinctNames) (hspells : r.SpellsId id)
    {e : String × String} (he : e ∈ idHeaders r id) : e = (requestIdHeader, id) := by
  obtain ⟨he, hname⟩ := mem_idHeaders.mp he
  have hspelled : e.1 = requestIdHeader := by
    rcases List.mem_cons.mp ((mem_keys_headersOf id).mp (List.mem_map_of_mem he)) with hown | hgiven
    · exact hown
    · obtain ⟨h, hh, hsame⟩ := List.mem_map.mp hgiven
      rw [← hsame] at hname ⊢
      rcases List.mem_append.mp hh with hh | hh
      · exact hspells.own h hh hname
      · rw [hspells.content h hh hname]
  have hnodup := Operation.nodup_keys_headersOf hr.own id
  have hfound := Entries.get?_of_mem hnodup he
  rw [hspelled, Entries.get?_of_mem hnodup (mem_headersOf_of_spellsId hr hspells)] at hfound
  exact Prod.ext hspelled (Option.some.inj hfound).symm

theorem idHeaders_of_spellsId (hr : r.HasDistinctNames) (hspells : r.SpellsId id) :
    idHeaders r id = [(requestIdHeader, id)] := by
  have hnodup : (idHeaders r id).Nodup := .of_map _ (nodup_keys_idHeaders hr id)
  refine List.perm_singleton.mp ((List.perm_ext_iff_of_nodup hnodup (List.nodup_singleton _)).mpr
    fun e => ?_)
  rw [List.mem_singleton]
  constructor
  · exact eq_of_mem_idHeaders hr hspells
  · rintro rfl
    exact mem_idHeaders.mpr ⟨mem_headersOf_of_spellsId hr hspells, namesId_requestIdHeader⟩

/-- The id is sent alone exactly if the request spells its name as the sender does. -/
theorem ids_outgoing_eq_iff (hr : r.HasDistinctNames) (h : c.outgoing r id = .ok out) :
    out.ids = [id] ↔ r.SpellsId id := by
  rw [ids_outgoing h]
  constructor
  · intro hids
    obtain ⟨e, he, hid⟩ := List.map_eq_singleton_iff.mp hids
    exact spellsId_of_idHeaders hr he hid
  · intro hspells
    rw [idHeaders_of_spellsId hr hspells]
    rfl

/-! ### Calls -/

/-- What a call hands to the transport. -/
def sentBy (c : HttpSender) (mode : Completion) (r : Request) (t : Traffic) : List SentRequest :=
  (c.send mode r t).2.2.sent.drop t.sent.length

/-- Every attempt of a call carries one id: the one that the request brings under any spelling of the
name, and the one that an error of the service names. -/
def CarriesOneId (c : HttpSender) (mode : Completion) (r : Request) (t : Traffic) : Prop :=
  ∀ s ∈ c.sentBy mode r t, ∃ v, s.ids = [v] ∧
    (∀ h ∈ r.headers, namesId h.1 = true → h.2 ≠ "" → h.2 = v) ∧
    ∀ e, (c.send mode r t).1 = .error (.service e) → e.requestId = some v

theorem identify_script (r : Request) (t : Traffic) (script : List Outcome) :
    (identify r { t with script }).1 = (identify r t).1 := by
  unfold identify
  cases ownId? r <;> rfl

theorem sentBy_of_silent (h : c.IsSilent mode r (identify r t).1) :
    c.sentBy mode r t = [] ∧ ∀ e, (c.send mode r t).1 ≠ .error (.service e) := by
  obtain ⟨⟨b, hb⟩, hsent⟩ := send_of_silent h
  refine ⟨by rw [sentBy, hsent, List.drop_length], fun e he => ?_⟩
  rw [hb] at he
  cases he

theorem sent_attemptEvents (c : HttpSender) (out : SentRequest) (n : Nat) :
    (c.attemptEvents out n).filterMap Event.sent? = List.replicate (n - 1 + 1) out := by
  rw [attemptEvents, List.filterMap_cons, List.filterMap_flatMap]
  show out :: (List.range (n - 1)).flatMap (fun _ => [out]) = _
  rw [← List.map_eq_flatMap, List.map_const', List.length_range]
  rfl

/-- Over an open channel all attempts hand over the one request. -/
theorem sentBy_of_open (hopen : c.isClosedFor mode = false)
    (hout : c.outgoing r (identify r t).1 = .ok out) :
    c.sentBy mode r t = List.replicate (attemptCount t.script c.settings.maxRetries) out := by
  have hcount := attemptCount_pos t.script c.settings.maxRetries
  rw [sentBy, send_of_open hopen hout]
  simp only [Traffic.sent, List.filterMap_append, List.drop_left]
  rw [sent_attemptEvents, Nat.sub_add_cancel hcount]

theorem Concludes.requestId {url : Url} {o : Outcome} {e : RemoteError}
    (h : Concludes c r id url o (.error (.service e))) : e.requestId = some id := by
  cases h <;> rfl

theorem requestId_of_send (hopen : c.isClosedFor mode = false)
    (hout : c.outgoing r (identify r t).1 = .ok out) {e : RemoteError}
    (he : (c.send mode r t).1 = .error (.service e)) : e.requestId = some (identify r t).1 := by
  have hends := concludes_send hopen hout
  rw [he] at hends
  exact hends.requestId

theorem send_timeout (hopen : c.isClosedFor mode = false) (hscript : t.script = [.timeout])
    (hout : c.outgoing r (identify r t).1 = .ok out) :
    ∃ e, (c.send mode r t).1 = .error (.service e) := by
  have hlast : t.lastOutcome c.settings.maxRetries = .timeout := by
    rw [lastOutcome, hscript, outcomeAt, List.length_singleton, Nat.sub_self, Nat.min_zero]
    rfl
  have hends := concludes_send hopen hout
  rw [hlast] at hends
  generalize (c.send mode r t).1 = result at hends
  cases hends
  exact ⟨_, rfl⟩

/-- An id that a request brings under the spelling of the sender is the id of the call. -/
theorem identify_of_mem (hr : r.HasDistinctNames) {v : String}
    (h : (requestIdHeader, v) ∈ r.headers) (hv : v ≠ "") (t : Traffic) : (identify r t).1 = v := by
  have hown : ownId? r = some v := by
    rw [ownId?, Entries.get?_of_mem hr.own h]
    exact if_pos (bne_iff_ne.mpr hv)
  rw [identify, hown]

/-- A call that is silent sends nothing and raises no error of the service. Any other call sends one
request in all its attempts, with a header for each spelling of the name of the request id, and its errors
name the id that the sender goes by. That id is the only one that is sent, and the one that the request
brings, exactly if the request spells its name as the sender does. -/
theorem request_ids_agree_iff (hr : r.HasDistinctNames) (c : HttpSender) (mode : Completion)
    (t : Traffic) :
    let id := (identify r t).1
    (c.IsSilent mode r id →
      c.sentBy mode r t = [] ∧ ∀ e, (c.send mode r t).1 ≠ .error (.service e)) ∧
    ∀ out, c.isClosedFor mode = false → c.outgoing r id = .ok out →
      (∀ script, c.sentBy mode r { t with script } =
          List.replicate (attemptCount script c.settings.maxRetries) out ∧
        ∀ e, (c.send mode r { t with script }).1 = .error (.service e) → e.requestId = some id) ∧
      out.ids.length = r.idSpellings.length ∧
      ((∀ script, c.CarriesOneId mode r { t with script }) ↔ r.SpellsId id) := by
  intro id
  refine ⟨sentBy_of_silent, fun out hopen hout => ?_⟩
  have hsent : ∀ script, c.outgoing r (identify r { t with script }).1 = .ok out := by
    intro script
    rw [identify_script, hout]
  have hcalls : ∀ script, c.sentBy mode r { t with script } =
        List.replicate (attemptCount script c.settings.maxRetries) out ∧
      ∀ e, (c.send mode r { t with script }).1 = .error (.service e) → e.requestId = some id := by
    refine fun script => ⟨sentBy_of_open hopen (hsent script), fun e he => ?_⟩
    rw [requestId_of_send hopen (hsent script) he, identify_script]
  refine ⟨hcalls, ?_, ?_⟩
  · rw [ids_outgoing hout, List.length_map, ← (keys_idHeaders_perm hr id).length_eq, List.length_map]
  · rw [← ids_outgoing_eq_iff hr hout]
    constructor
    · intro hcarries
      -- A timeout makes the call name its id.
      have hmem : out ∈ c.sentBy mode r { t with script := [.timeout] } := by
        rw [(hcalls _).1]
        exact List.mem_replicate.mpr ⟨Nat.ne_of_gt (attemptCount_pos ..), rfl⟩
      obtain ⟨v, hids, -, herror⟩ := hcarries [.timeout] out hmem
      obtain ⟨e, he⟩ := send_timeout hopen rfl (hsent [.timeout])
      obtain rfl : id = v := Option.some.inj (((hcalls _).2 e he).symm.trans (herror e he))
      exact hids
    · intro hids script s hs
      rw [(hcalls script).1] at hs
      rw [List.eq_of_mem_replicate hs]
      refine ⟨id, hids, fun h hh hname hvalue => ?_, (hcalls script).2⟩
      have hspelled := ((ids_outgoing_eq_iff hr hout).mp hids).own h hh hname
      exact (identify_of_mem hr (hspelled ▸ hh) hvalue t).symm

/-- A request that brings an id along. -/
def markedRequest (name : String) : Request := { userRequest with headers := [(name, "abc")] }

/-- An id under the spelling of the sender is the one of the call; under another one there are two. -/
theorem request_ids_agree_iff_marked :
    (∀ name, (markedRequest name).HasDistinctNames) ∧
    usersSender.isClosedFor .sync = false ∧
    (∀ script, usersSender.CarriesOneId .sync (markedRequest "X-Request-ID") { script }) ∧
    ¬ ∀ script, usersSender.CarriesOneId .sync (markedRequest "x-request-id") { script } := by
  have hdistinct : ∀ name, (markedRequest name).HasDistinctNames :=
    fun name => ⟨List.nodup_singleton _, List.nodup_nil⟩
  have hopen : usersSender.isClosedFor .sync = false := rfl
  refine ⟨hdistinct, hopen, ?_, fun hcarries => ?_⟩
  · have hsome : (usersSender.outgoing (markedRequest "X-Request-ID")
        (identify (markedRequest "X-Request-ID") {}).1).toOption.isSome = true := by decide +kernel
    refine ((request_ids_agree_iff (hdistinct "X-Request-ID") usersSender .sync {}).2 _ hopen
      (eq_ok_getD hsome default)).2.2.mpr ⟨?_, fun _ h => nomatch h⟩
    exact List.forall_mem_singleton.mpr fun _ => rfl
  · have hsome : (usersSender.outgoing (markedRequest "x-request-id")
        (identify (markedRequest "x-request-id") {}).1).toOption.isSome = true := by decide +kernel
    have hspells := ((request_ids_agree_iff (hdistinct "x-request-id") usersSender .sync {}).2 _ hopen
      (eq_ok_getD hsome default)).2.2.mp hcarries
    have hname := hspells.own _ (List.mem_singleton_self _) (by decide +kernel)
    exact absurd hname (by decide)

end HttpSender

end HttpContract
