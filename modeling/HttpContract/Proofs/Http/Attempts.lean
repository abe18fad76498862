import HttpContract.Http.Sender
import HttpContract.Proofs.Entries
import HttpContract.Proofs.Settings.Transport

/-!
# Attempts

How often a request is sent, and what a call comes to. `attemptCount` counts the outcomes of a script
up to the first that lets no further attempt follow, within the retries that are allowed. A call makes
as many attempts, with the same request and a pause behind each that is not the last
(`trafficBefore_eq`), and the last outcome alone says how it ends (`send_repeats_request`).
-/

namespace HttpContract

/-- Whether the request may be sent again after an outcome. -/
def Outcome.isTransient : Outcome → Bool
  | .timeout | .connectFailed => true
  | .response _ | .failed _ => false

/-! ### Scripts -/

namespace Traffic
variable {script : List Outcome}

/-- The outcomes that are left when a number of them have come. -/
def rest (script : List Outcome) (i : Nat) : List Outcome :=
  (fun outcomes => (nextOutcome outcomes).2)^[i] script

theorem rest_succ (script : List Outcome) (i : Nat) :
    rest script (i + 1) = (nextOutcome (rest script i)).2 := Function.iterate_succ_apply' ..

/-- The outcome of an attempt, counted from nought. -/
def outcomeAt (script : List Outcome) (i : Nat) : Outcome :=
  script[min i (script.length - 1)]?.getD (.response { status := 204 })

/-- The position, counted from one, of the first outcome that is not transient. -/
def firstLasting? (script : List Outcome) : Option Nat :=
  if script.isEmpty then some 1 else (script.findIdx? (!·.isTransient)).map (· + 1)

/-- How many attempts a script lets a call make. -/
def attemptCount (script : List Outcome) (retries : Nat) : Nat :=
  match firstLasting? script with
  | some k => min (retries + 1) k
  | none => retries + 1

theorem nextOutcome_fst (script : List Outcome) : (nextOutcome script).1 = outcomeAt script 0 := by
  match script with
  | [] => rfl
  | [_] => rfl
  | _ :: _ :: _ => rfl

theorem outcomeAt_next (script : List Outcome) (i : Nat) :
    outcomeAt (nextOutcome script).2 i = outcomeAt script (i + 1) := by
  match script with
  | [] => rfl
  | [o] =>
    simp [nextOutcome, outcomeAt]
  | o :: o' :: os =>
    have hmin : min (i + 1) (os.length + 1) = min i os.length + 1 := by omega
    simp only [nextOutcome, outcomeAt, List.length_cons, Nat.add_sub_cancel, hmin,
      List.getElem?_cons_succ]

theorem attemptCount_of_lasting (h : (outcomeAt script 0).isTransient = false) (retries : Nat) :
    attemptCount script retries = 1 := by
  match script with
  | [] => simp [attemptCount, firstLasting?]
  | o :: os =>
    have ho : o.isTransient = false := h
    simp [attemptCount, firstLasting?, List.findIdx?_cons, ho]

theorem attemptCount_pos (script : List Outcome) (retries : Nat) :
    1 ≤ attemptCount script retries := by
  unfold attemptCount
  cases h : firstLasting? script with
  | none => exact Nat.le_add_left ..
  | some k =>
    have hk : 1 ≤ k := by
      unfold firstLasting? at h
      split_ifs at h
      · cases h
        exact le_rfl
      · obtain ⟨j, -, rfl⟩ := Option.map_eq_some_iff.mp h
        omega
    exact le_min (Nat.le_add_left ..) hk

theorem attemptCount_le (script : List Outcome) (retries : Nat) :
    attemptCount script retries ≤ retries + 1 := by
  unfold attemptCount
  split
  · exact min_le_left ..
  · exact le_rfl

theorem attemptCount_succ (h : (outcomeAt script 0).isTransient) (retries : Nat) :
    attemptCount script (retries + 1) = attemptCount (nextOutcome script).2 retries + 1 := by
  match script with
  | [] => cases h
  | [o] =>
    have ho : o.isTransient = true := h
    simp [attemptCount, firstLasting?, nextOutcome, List.findIdx?_cons, ho]
  | o :: o' :: os =>
    have ho : o.isTransient = true := h
    simp only [attemptCount, firstLasting?, nextOutcome]
    rw [List.findIdx?_cons]
    cases (o' :: os).findIdx? (!·.isTransient) with
    | none => simp [ho]
    | some k => simp [ho]

end Traffic

/-! ### Attempts in a row -/

namespace HttpSender
open Traffic

variable {c : HttpSender} {mode : Completion} {r : Request} {id : String} {out : SentRequest}

/-- What an attempt leaves in the log. -/
def attemptRecord (c : HttpSender) (r : Request) (id : String) : LogRecord :=
  ⟨.debug, logger, s!"{r.method} {c.addressOf r} (request_id={id})"⟩

/-- What has passed before an attempt, counted from nought, after `number` attempts of the same
call. -/
def trafficBefore (c : HttpSender) (mode : Completion) (r : Request) (id : String) :
    (number : Nat) → Traffic → Nat → Traffic
  | _, t, 0 => t
  | number, t, i + 1 =>
    trafficBefore c mode r id (number + 1)
      ((c.attempt mode r id t).2.pause (c.settings.backoff number)) i

theorem attempt_eq (hopen : c.isClosedFor mode = false) (hout : c.outgoing r id = .ok out)
    (t : Traffic) : c.attempt mode r id t =
      (Attempt.ofOutcome c r id out.url (outcomeAt t.script 0),
        { t with
          script := (nextOutcome t.script).2
          events := t.events ++ [.sent out]
          log := t.log ++ [c.attemptRecord r id] }) := by
  rw [← nextOutcome_fst]
  unfold attempt
  simp only [hout, hopen]
  rfl

/-- Before an attempt, the attempts that came first have sent the request, each with a pause behind
it. -/
theorem trafficBefore_eq (hopen : c.isClosedFor mode = false) (hout : c.outgoing r id = .ok out)
    (number : Nat) (t : Traffic) (i : Nat) :
    c.trafficBefore mode r id number t i = { t with
      script := rest t.script i
      events := t.events ++ (List.range i).flatMap fun j : Nat =>
        [.sent out, .paused (c.settings.backoff (number + j : Nat))]
      log := t.log ++ List.replicate i (c.attemptRecord r id) } := by
  induction i generalizing number t with
  | zero => simp [trafficBefore, rest]
  | succ i ih =>
    have hrest : rest (nextOutcome t.script).2 i = rest t.script (i + 1) := rfl
    have hnumber : ∀ j, number + 1 + j = number + (j + 1) := fun j => by omega
    rw [trafficBefore, ih, attempt_eq hopen hout]
    simp [pause, hrest, hnumber, List.range_succ_eq_map, List.replicate_succ, List.flatMap_map]

/-- What comes behind each of some events and is followed by the same again comes before each but the
first. -/
theorem events_repeated (e : Event) (between : Nat → Event) (i : Nat) :
    ((List.range i).flatMap fun j => [e, between j]) ++ [e] =
      e :: (List.range i).flatMap fun j => [between j, e] := by
  induction i with
  | zero => rfl
  | succ i ih =>
    simp only [List.range_succ, List.flatMap_append, List.flatMap_singleton, ← List.cons_append, ← ih,
      List.append_assoc]
    rfl

theorem outcomeAt_rest (script : List Outcome) (i j : Nat) :
    outcomeAt (rest script i) j = outcomeAt script (i + j) := by
  induction i generalizing script with
  | zero => rw [Nat.zero_add]; rfl
  | succ i ih =>
    have hrest : rest script (i + 1) = rest (nextOutcome script).2 i := rfl
    rw [hrest, ih, outcomeAt_next, Nat.add_right_comm]

theorem Attempt.ofOutcome_of_transient (c : HttpSender) (r : Request) (id : String) (url : Url)
    {o : Outcome} (h : o.isTransient) : ∃ e, Attempt.ofOutcome c r id url o = .again e := by
  cases o with
  | timeout => exact ⟨_, rfl⟩
  | connectFailed => exact ⟨_, rfl⟩
  | response p => cases h
  | failed b => cases h

theorem Attempt.ofOutcome_of_lasting (c : HttpSender) (r : Request) (id : String) (url : Url)
    {o : Outcome} (h : o.isTransient = false) :
    ∃ result, Attempt.ofOutcome c r id url o = .done result := by
  cases o with
  | timeout => cases h
  | connectFailed => cases h
  | response p =>
    simp only [Attempt.ofOutcome]
    cases refusal? url p with
    | none => exact ⟨_, rfl⟩
    | some b => exact ⟨_, rfl⟩
  | failed b => exact ⟨_, rfl⟩

/-- A run of attempts ends with the attempt whose number the script and the retries give. -/
theorem attempts_eq (hopen : c.isClosedFor mode = false) (hout : c.outgoing r id = .ok out)
    (left number : Nat) (t : Traffic) :
    c.attempts mode r id left number t =
      let last := c.attempt mode r id
        (c.trafficBefore mode r id number t (attemptCount t.script left - 1))
      (last.1.result, last.2) := by
  have hstep := attempt_eq hopen hout
  induction left generalizing number t with
  | zero =>
    have hcount : attemptCount t.script 0 = 1 :=
      le_antisymm (attemptCount_le ..) (attemptCount_pos ..)
    rw [hcount]
    rfl
  | succ left ih =>
    -- the first outcome ends the run, or the run that is left goes on behind a pause
    cases ho : (outcomeAt t.script 0).isTransient with
    | false =>
      obtain ⟨result, he⟩ := Attempt.ofOutcome_of_lasting c r id out.url ho
      rw [attemptCount_of_lasting ho, attempts, Nat.sub_self, trafficBefore, hstep, he]
      rfl
    | true =>
      obtain ⟨e, he⟩ := Attempt.ofOutcome_of_transient c r id out.url ho
      have hpos := attemptCount_pos (nextOutcome t.script).2 left
      have hcount : attemptCount t.script (left + 1) - 1 =
          attemptCount (nextOutcome t.script).2 left - 1 + 1 := by
        rw [attemptCount_succ ho]
        omega
      rw [hcount, attempts, trafficBefore, hstep t, he]
      exact ih (number + 1) _

/-! ### Calls -/

/-- The text that stands for a response in the error of its status. -/
def statusMessage (p : Response) : String :=
  let text := if p.text = "" then s!"HTTP {p.status}" else p.text
  if 400 ≤ p.status ∧ p.status < 600 then text else s!"Unexpected status {p.status}: {text}"

theorem checked_eq (p : Response) (id : String) : checked p id =
    if 200 ≤ p.status ∧ p.status < 300 then .ok p
    else .error (.status (if 500 ≤ p.status ∧ p.status < 600 then .server else .client)
      (statusMessage p) (some p.status) (some id) []) := by
  simp only [checked, statusMessage]
  by_cases h4 : 400 ≤ p.status ∧ p.status < 500
  · rw [if_pos h4, if_neg (by omega : ¬ (500 ≤ p.status ∧ p.status < 600)),
      if_pos (by omega : 400 ≤ p.status ∧ p.status < 600)]
  · by_cases h5 : 500 ≤ p.status ∧ p.status < 600
    · rw [if_neg h4, if_pos h5, if_pos h5, if_pos (by omega : 400 ≤ p.status ∧ p.status < 600)]
    · rw [if_neg h4, if_neg h5, if_neg h5,
        if_neg (by omega : ¬ (400 ≤ p.status ∧ p.status < 600))]

/-- How a call ends by the last outcome. -/
inductive Concludes (c : HttpSender) (r : Request) (id : String) (url : Url) :
    Outcome → Except CallError Response → Prop
  | success {p : Response} (accepted : refusal? url p = none)
      (status : 200 ≤ p.status ∧ p.status < 300) : Concludes c r id url (.response p) (.ok p)
  | serverError {p : Response} (accepted : refusal? url p = none)
      (status : 500 ≤ p.status ∧ p.status < 600) : Concludes c r id url (.response p)
        (.error (.service (.status .server (statusMessage p) (some p.status) (some id) [])))
  | clientError {p : Response} (accepted : refusal? url p = none)
      (noSuccess : ¬ (200 ≤ p.status ∧ p.status < 300))
      (noServerError : ¬ (500 ≤ p.status ∧ p.status < 600)) : Concludes c r id url (.response p)
        (.error (.service (.status .client (statusMessage p) (some p.status) (some id) [])))
  | refused {p : Response} {b : Breakdown} (refused : refusal? url p = some b) :
      Concludes c r id url (.response p) (.error (.broken b))
  | timeout : Concludes c r id url .timeout (.error (.service
      (.timeout RemoteError.timeoutMessage (some (.float c.settings.timeout)) (some id))))
  | connection : Concludes c r id url .connectFailed (.error (.service
      (.connection s!"Failed to connect to {c.addressOf r}" (some id) [])))
  | failed (b : Breakdown) : Concludes c r id url (.failed b) (.error (.broken b))

theorem concludes_ofOutcome (c : HttpSender) (r : Request) (id : String) (url : Url) (o : Outcome) :
    Concludes c r id url o (Attempt.ofOutcome c r id url o).result := by
  cases o with
  | timeout => exact .timeout
  | connectFailed => exact .connection
  | failed b => exact .failed b
  | response p =>
    simp only [Attempt.ofOutcome]
    cases hp : refusal? url p with
    | some b => exact .refused hp
    | none =>
      simp only [Attempt.result, checked_eq]
      split_ifs with h2 h5
      · exact .success hp h2
      · exact .serverError hp h5
      · exact .clientError hp h2 h5

/-- The id of a request, its own or a new one. -/
def identify (r : Request) (t : Traffic) : String × Traffic :=
  match ownId? r with
  | some id => (id, t)
  | none => t.makeId

theorem opened_settings (c : HttpSender) (mode : Completion) :
    (c.opened mode).settings = c.settings := by
  cases mode <;> rfl

theorem isClosedFor_opened (c : HttpSender) (mode : Completion) :
    (c.opened mode).isClosedFor mode = c.isClosedFor mode := by
  cases mode with
  | sync => rfl
  | async => cases hc : c.asyncClosed <;> simp [opened, isClosedFor, hc]

theorem attempt_congr {c' : HttpSender} {mode' : Completion} (hs : c.settings = c'.settings)
    (h : c.isClosedFor mode = c'.isClosedFor mode') :
    c.attempt mode r id t = c'.attempt mode' r id t := by
  obtain ⟨settings, closed, asyncClosed⟩ := c
  obtain ⟨settings', closed', asyncClosed'⟩ := c'
  obtain rfl : settings = settings' := hs
  unfold attempt
  rw [h]
  rfl

theorem attempts_congr {c' : HttpSender} {mode' : Completion} (hs : c.settings = c'.settings)
    (h : c.isClosedFor mode = c'.isClosedFor mode') (left number : Nat) :
    c.attempts mode r id left number t = c'.attempts mode' r id left number t := by
  induction left generalizing number t with
  | zero => rw [attempts, attempts, attempt_congr hs h]
  | succ left ih => simp only [attempts, attempt_congr hs h, ih, hs]

theorem send_eq (c : HttpSender) (mode : Completion) (r : Request) (t : Traffic) :
    c.send mode r t =
      let (result, t) := c.attempts mode r (identify r t).1 c.settings.maxRetries 0 (identify r t).2
      (result, c.opened mode, t) := by
  unfold send identify
  cases ownId? r <;> simp only [attempts_congr (opened_settings c mode) (isClosedFor_opened c mode),
    opened_settings]

theorem outgoing_eq_ok (h : c.outgoing r id = .ok out) :
    ∃ address, (Url.parse? (c.addressOf r)).bind Url.rooted? = some address ∧
      c.sentHeaders (headersOf r id) = .ok out.headers ∧
      address.withQuery? (if r.params.isEmpty then none
        else some (Percent.form (queryPairs r.params))) = some out.url := by
  unfold outgoing at h
  cases ha : (Url.parse? (c.addressOf r)).bind Url.rooted? with
  | none => rw [ha] at h; cases h
  | some address =>
    cases hh : c.sentHeaders (headersOf r id) with
    | error b => rw [ha, hh] at h; cases h
    | ok headers =>
      cases hu : address.withQuery? (if r.params.isEmpty then none
        else some (Percent.form (queryPairs r.params))) with
      | none =>
        rw [ha, hh] at h
        simp only [Option.elim_some, bind, Except.bind, hu, Option.elim_none] at h
        cases h
      | some url =>
        rw [ha, hh] at h
        simp only [Option.elim_some, bind, Except.bind, hu] at h
        cases h
        exact ⟨address, rfl, rfl, hu⟩

theorem id_mem_headers (hout : c.outgoing r id = .ok out) (hcontent : ∀ content,
      r.content = some content → requestIdHeader ∉ content.headers.map (·.1)) :
    ("x-request-id", id) ∈ out.headers := by
  have hmem : (requestIdHeader, id) ∈ headersOf r id := by
    refine Entries.mem_foldl_insert (Entries.mem_insert_self ..) ?_
    cases hr : r.content with
    | none => exact List.not_mem_nil
    | some content => exact hcontent content hr
  obtain ⟨-, -, hh, -⟩ := outgoing_eq_ok hout
  unfold sentHeaders at hh
  split_ifs at hh
  have hlower : String.ofList (requestIdHeader.toList.map Char.toLower) = "x-request-id" := by
    decide +kernel
  have hnamed := List.mem_map_of_mem
    (f := fun h : String × String => (String.ofList (h.1.toList.map Char.toLower), h.2)) hmem
  rw [hlower] at hnamed
  rw [← Except.ok.inj hh]
  split_ifs
  · exact hnamed
  · exact List.mem_cons_of_mem _ hnamed

/-- The events of a call that makes a number of attempts: it pauses before each but the first. -/
def attemptEvents (c : HttpSender) (out : SentRequest) (n : Nat) : List Event :=
  .sent out :: (List.range (n - 1)).flatMap fun i : Nat =>
    [.paused (c.settings.backoff i), .sent out]

/-- What a call over an open channel comes to, and what it leaves. -/
theorem send_of_open (hopen : c.isClosedFor mode = false) {t : Traffic}
    (hout : c.outgoing r (identify r t).1 = .ok out) :
    let n := attemptCount t.script c.settings.maxRetries
    c.send mode r t =
      ((Attempt.ofOutcome c r (identify r t).1 out.url (outcomeAt t.script (n - 1))).result,
        c.opened mode, { (identify r t).2 with
          script := rest t.script n
          events := t.events ++ c.attemptEvents out n
          log := t.log ++ List.replicate n (c.attemptRecord r (identify r t).1) }) := by
  intro n
  have hstart : (identify r t).2 = { t with idsMade := (identify r t).2.idsMade } := by
    unfold identify
    cases ownId? r <;> rfl
  have hlast : n = n - 1 + 1 := by
    have := attemptCount_pos t.script c.settings.maxRetries
    omega
  have hscript : (identify r t).2.script = t.script := by rw [hstart]
  have hn : attemptCount (identify r t).2.script c.settings.maxRetries = n := by rw [hscript]
  rw [send_eq, attempts_eq hopen hout, hn, trafficBefore_eq hopen hout, attempt_eq hopen hout, hstart]
  simp only [Nat.zero_add]
  rw [outcomeAt_rest, Nat.add_zero, ← rest_succ, List.append_assoc, events_repeated,
    List.append_assoc, ← List.replicate_succ', ← hlast]
  rfl

/-- A call over an open channel sends its request as often as the script and the retries say, first of
all and then behind each pause; a pause is as long as the settings say, and nothing else is sent or
waited for. The id is chosen once. How the call ends depends on the last outcome alone. -/
theorem send_repeats_request (hopen : c.isClosedFor mode = false) {t : Traffic}
    (hout : c.outgoing r (identify r t).1 = .ok out) :
    let id := (identify r t).1
    let start := (identify r t).2
    let n := attemptCount t.script c.settings.maxRetries
    ∃ result, c.send mode r t = (result, c.opened mode, { start with
        script := rest t.script n
        events := t.events ++ .sent out :: (List.range (n - 1)).flatMap fun i : Nat =>
          [.paused (c.settings.backoff i), .sent out]
        log := t.log ++ List.replicate n (c.attemptRecord r id) }) ∧
      (∀ value, TransportSettings.read value = .ok c.settings → c.settings.backoffFactor.isFinite →
        c.settings.backoffMax.isFinite → ∀ i < n - 1, (c.settings.backoff i).isFinite ∧
          (c.settings.backoff i).value =
            min (c.settings.backoffFactor.value * 2 ^ i) c.settings.backoffMax.value) ∧
      ((∀ content, r.content = some content → requestIdHeader ∉ content.headers.map (·.1)) →
        ("x-request-id", id) ∈ out.headers) ∧
      Concludes c r id out.url (outcomeAt t.script (n - 1)) result := by
  intro id start n
  refine ⟨_, send_of_open hopen hout, fun value hvalue hfactor hmost i hi => ?_,
    id_mem_headers hout, concludes_ofOutcome ..⟩
  obtain ⟨hretries, hsign⟩ := TransportSettings.read_bounds hvalue
  have hn : n ≤ c.settings.maxRetries + 1 := attemptCount_le ..
  have hmost' : TransportSettings.mostRetries = 10 := rfl
  exact TransportSettings.backoff_value hfactor hmost hsign (by omega)

/-- A sender that may try twice more. -/
def usersSender : HttpSender where
  settings := { services := [("users", "http://users.test")], maxRetries := 2 }

/-- A request that is sent to a service. -/
def userRequest : Request := { method := "GET", service := "users", path := "/users/1" }

def sentUserRequest : SentRequest where
  method := "GET"
  url := { scheme := "http", host := "users.test", path := "/users/1" }
  headers := [("user-agent", "declient-sdk-python/0.1.0"),
    ("x-request-id", "00000000-0000-0000-0000-000000000001")]
  body := []

/-- The settings of `usersSender` as values. -/
def usersSetting (name : String) : Option Value :=
  if name = "services" then some (.dict [(.text "users", .text "http://users.test")])
  else if name = "max_retries" then some (.int 2)
  else none

theorem outgoing_userRequest :
    usersSender.outgoing userRequest "00000000-0000-0000-0000-000000000001" =
      .ok sentUserRequest := by
  with_unfolding_all rfl

/-- Two failures and an answer: three attempts with a pause between any two. -/
theorem send_repeats_request_thrice :
    usersSender.isClosedFor .sync = false ∧
      TransportSettings.read usersSetting = .ok usersSender.settings ∧
      ∃ t, usersSender.send .sync userRequest
          { script := [.timeout, .connectFailed, .response {}] } = (.ok {}, usersSender, t) ∧
        t.events = [.sent sentUserRequest, .paused (usersSender.settings.backoff 0),
          .sent sentUserRequest, .paused (usersSender.settings.backoff 1), .sent sentUserRequest] ∧
        (usersSender.settings.backoff 1).value = min
          (usersSender.settings.backoffFactor.value * 2) usersSender.settings.backoffMax.value := by
  have hread : TransportSettings.read usersSetting = .ok usersSender.settings := by
    with_unfolding_all rfl
  have hrefusal : refusal? sentUserRequest.url {} = none := by with_unfolding_all rfl
  have hopen : usersSender.isClosedFor .sync = false := rfl
  obtain ⟨result, hsend, hpause, -, hresult⟩ := send_repeats_request hopen
    (t := { script := [.timeout, .connectFailed, .response {}] }) outgoing_userRequest
  have hvalue := (hpause usersSetting hread (by decide +kernel) (by decide +kernel) 1 (by decide)).2
  obtain rfl : result = .ok {} := by
    cases hresult with
    | success => rfl
    | serverError _ h => exact absurd h.1 (by decide)
    | clientError _ h => exact absurd ⟨by decide, by decide⟩ h
    | refused h => rw [hrefusal] at h; cases h
  refine ⟨hopen, hread, _, hsend, rfl, ?_⟩
  simpa using hvalue

/-- A redirect to what is no address breaks the call off, whatever its status stands for. -/
example : (usersSender.send .sync userRequest { script := [.response {
    status := 302, headers := [("location", "http://h:x")] }] }).1 =
      .error (.broken .protocolViolated) := by
  with_unfolding_all rfl

end HttpSender

end HttpContract
