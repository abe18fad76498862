import HttpContract.Proofs.Http.Attempts

/-! # Closed senders

What sending and closing leave of a sender. A closed channel carries nothing (`send_of_closed`), and is
never opened again. The asynchronous channel is only made by sending over it, and closing does not make
it: so a sender that is closed before its first asynchronous request still makes the channel for one, as
if it had not been closed (`closed_senders_stay_closed_iff`). -/

namespace HttpContract
namespace HttpSender
variable {c : HttpSender} {mode : Completion}

/-! ### Closed channels -/

/-- Why nothing is handed to the transport: the channel is closed, or there is no request to hand
over. -/
def IsSilent (c : HttpSender) (mode : Completion) (r : Request) (id : String) : Prop :=
  c.isClosedFor mode = true ∨ ∃ b, c.outgoing r id = .error b

theorem attempt_of_silent {r : Request} {id : String} (h : c.IsSilent mode r id) (t : Traffic) :
    ∃ b u, c.attempt mode r id t = (.done (.error (.broken b)), u) ∧ u.sent = t.sent := by
  unfold attempt
  cases hout : c.outgoing r id with
  | error b => exact ⟨b, _, rfl, rfl⟩
  | ok out =>
    rcases h with hclosed | ⟨b, hb⟩
    · simp only [hclosed, if_true]
      exact ⟨_, _, rfl, rfl⟩
    · rw [hout] at hb
      cases hb

theorem attempts_of_silent {r : Request} {id : String} (h : c.IsSilent mode r id)
    (left number : Nat) (t : Traffic) :
    ∃ b u, c.attempts mode r id left number t = (.error (.broken b), u) ∧ u.sent = t.sent := by
  obtain ⟨b, u, hattempt, hsent⟩ := attempt_of_silent h t
  cases left with
  | zero => exact ⟨b, u, by rw [attempts, hattempt]; rfl, hsent⟩
  | succ left => exact ⟨b, u, by rw [attempts, hattempt]; rfl, hsent⟩

theorem sent_identify (r : Request) (t : Traffic) : (identify r t).2.sent = t.sent := by
  unfold identify
  cases ownId? r <;> rfl

theorem send_snd_fst (c : HttpSender) (mode : Completion) (r : Request) (t : Traffic) :
    (c.send mode r t).2.1 = c.opened mode := by
  rw [send_eq]

theorem send_of_silent {r : Request} {t : Traffic} (h : c.IsSilent mode r (identify r t).1) :
    (∃ b, (c.send mode r t).1 = .error (.broken b)) ∧ (c.send mode r t).2.2.sent = t.sent := by
  obtain ⟨b, u, hattempts, hsent⟩ := attempts_of_silent h c.settings.maxRetries 0 (identify r t).2
  rw [send_eq, hattempts]
  exact ⟨⟨b, rfl⟩, hsent.trans (sent_identify r t)⟩

/-- A closed channel hands nothing to the transport, and the call fails. -/
theorem send_of_closed (h : c.isClosedFor mode = true) (r : Request) (t : Traffic) :
    (∃ b, (c.send mode r t).1 = .error (.broken b)) ∧ (c.send mode r t).2.2.sent = t.sent :=
  send_of_silent (.inl h)

theorem send_congr {c' : HttpSender} (hs : c.settings = c'.settings)
    (h : c.isClosedFor mode = c'.isClosedFor mode) (r : Request) (t : Traffic) :
    (c.send mode r t).1 = (c'.send mode r t).1 ∧ (c.send mode r t).2.2 = (c'.send mode r t).2.2 := by
  rw [send_eq, send_eq, attempts_congr hs h, hs]
  exact ⟨rfl, rfl⟩

/-! ### Runs -/

/-- What is done with a sender: a request with the outcomes that await it, or a way to close. -/
inductive Action
  | send (mode : Completion) (r : Request) (script : List Outcome)
  | close
  | closeAll

namespace Action

/-- What an action does to a sender and to the traffic. -/
def perform : Action → HttpSender × Traffic → HttpSender × Traffic
  | send mode r script, (c, t) => (c.send mode r { t with script }).2
  | close, (c, t) => c.close t
  | closeAll, (c, t) => c.closeAll t

/-- What the action leaves of the sender; the traffic does not matter. -/
def after : Action → HttpSender → HttpSender
  | send mode _ _, c => c.opened mode
  | close, c => { c with isClosed := true }
  | closeAll, c => { c with isClosed := true, asyncClosed := c.asyncClosed.map fun _ => true }

/-- Whether the action sends over the asynchronous channel. -/
def usesAsync : Action → Bool
  | send .async _ _ => true
  | _ => false

/-- Whether the action sends a request. -/
def isSend : Action → Bool
  | send .. => true
  | _ => false

variable {x : Action}

theorem fst_perform (x : Action) (s : HttpSender × Traffic) : (x.perform s).1 = x.after s.1 := by
  cases x with
  | send mode r script => exact send_snd_fst ..
  | close => rfl
  | closeAll => rfl

theorem settings_after (x : Action) (c : HttpSender) : (x.after c).settings = c.settings := by
  cases x with
  | send mode r script => exact opened_settings c mode
  | close => rfl
  | closeAll => rfl

theorem isClosed_after (x : Action) (h : c.isClosed = true) : (x.after c).isClosed = true := by
  cases x with
  | send mode r script => cases mode <;> exact h
  | close => rfl
  | closeAll => rfl

theorem asyncClosed_after (x : Action) (h : c.asyncClosed = some true) :
    (x.after c).asyncClosed = some true := by
  cases x with
  | send mode r script => cases mode <;> simp [after, opened, h]
  | close => exact h
  | closeAll => simp [after, h]

theorem isSome_asyncClosed_after (x : Action) (c : HttpSender) :
    (x.after c).asyncClosed.isSome = (c.asyncClosed.isSome || x.usesAsync) := by
  cases x with
  | send mode r script => cases mode <;> simp [after, opened, usesAsync]
  | close => simp [after, usesAsync]
  | closeAll => simp [after, usesAsync]

theorem asyncClosed_after_send (hx : x.isSend = true) (c : HttpSender) : (x.after c).asyncClosed =
    if x.usesAsync then some (c.asyncClosed.getD false) else c.asyncClosed := by
  cases x with
  | send mode r script => cases mode <;> rfl
  | close => cases hx
  | closeAll => cases hx

theorem sent_perform {s : HttpSender × Traffic} (h : s.1.isClosed = true)
    (hasync : x.usesAsync = true → s.1.asyncClosed = some true) : (x.perform s).2.sent = s.2.sent := by
  obtain ⟨c, t⟩ := s
  have hclose : ∀ c : HttpSender, (c.close t).2.sent = t.sent := by
    intro c
    unfold HttpSender.close
    split <;> rfl
  cases x with
  | send mode r script =>
    have hmode : c.isClosedFor mode = true := by
      cases mode with
      | sync => exact h
      | async =>
        have hclosed : c.asyncClosed = some true := hasync rfl
        rw [isClosedFor, hclosed]
        rfl
    exact (send_of_closed hmode r { t with script }).2
  | close => exact hclose c
  | closeAll => exact hclose _

end Action

/-- What several actions do, one after the other. -/
def run (xs : List Action) (s : HttpSender × Traffic) : HttpSender × Traffic :=
  xs.foldl (fun s x => x.perform s) s

section
variable {xs : List Action} {s : HttpSender × Traffic}

theorem run_append (xs ys : List Action) (s : HttpSender × Traffic) :
    run (xs ++ ys) s = run ys (run xs s) := List.foldl_append

theorem run_cons (x : Action) (xs : List Action) (s : HttpSender × Traffic) :
    run (x :: xs) s = run xs (x.perform s) := rfl

theorem settings_run (xs : List Action) (s : HttpSender × Traffic) :
    (run xs s).1.settings = s.1.settings := by
  induction xs generalizing s with
  | nil => rfl
  | cons x xs ih => rw [run_cons, ih, x.fst_perform, x.settings_after]

theorem isClosed_run (h : s.1.isClosed = true) (xs : List Action) : (run xs s).1.isClosed = true := by
  induction xs generalizing s with
  | nil => exact h
  | cons x xs ih => exact ih (by rw [x.fst_perform]; exact x.isClosed_after h)

theorem asyncClosed_run (h : s.1.asyncClosed = some true) (xs : List Action) :
    (run xs s).1.asyncClosed = some true := by
  induction xs generalizing s with
  | nil => exact h
  | cons x xs ih => exact ih (by rw [x.fst_perform]; exact x.asyncClosed_after h)

theorem isSome_asyncClosed_run (xs : List Action) (s : HttpSender × Traffic) :
    (run xs s).1.asyncClosed.isSome = (s.1.asyncClosed.isSome || xs.any Action.usesAsync) := by
  induction xs generalizing s with
  | nil => simp [run]
  | cons x xs ih =>
    rw [run_cons, ih, x.fst_perform, x.isSome_asyncClosed_after, List.any_cons, Bool.or_assoc]

/-- Requests make the asynchronous channel if they use it, and leave one that is there as it is. -/
theorem asyncClosed_run_sends (hxs : xs.all Action.isSend = true) (s : HttpSender × Traffic) :
    (run xs s).1.asyncClosed =
      if xs.any Action.usesAsync then some (s.1.asyncClosed.getD false) else s.1.asyncClosed := by
  induction xs generalizing s with
  | nil => rfl
  | cons x xs ih =>
    rw [List.all_cons, Bool.and_eq_true] at hxs
    rw [run_cons, ih hxs.2, x.fst_perform, Action.asyncClosed_after_send hxs.1, List.any_cons]
    cases x.usesAsync <;> cases xs.any Action.usesAsync <;> simp

theorem sent_run (h : s.1.isClosed = true)
    (hasync : s.1.asyncClosed = some true ∨ xs.any Action.usesAsync = false) :
    (run xs s).2.sent = s.2.sent := by
  -- Both channels stay closed, or the asynchronous one is not there and no action that is left makes it.
  induction xs generalizing s with
  | nil => rfl
  | cons x xs ih =>
    rw [List.any_cons, Bool.or_eq_false_iff] at hasync
    rw [run_cons, ih]
    · refine Action.sent_perform h fun hx => hasync.resolve_right ?_
      rw [hx]
      simp
    · rw [x.fst_perform]
      exact x.isClosed_after h
    · rw [x.fst_perform]
      exact hasync.imp x.asyncClosed_after And.right

/-- A new sender after a run that ends with the closing of both channels. -/
def closedAfter (settings : TransportSettings) (t : Traffic) (before : List Action) :
    HttpSender × Traffic := run (before ++ [.closeAll]) ({ settings }, t)

theorem isClosed_closedAfter (settings : TransportSettings) (t : Traffic) (before : List Action) :
    (closedAfter settings t before).1.isClosed = true := by
  rw [closedAfter, run_append]
  rfl

theorem settings_closedAfter (settings : TransportSettings) (t : Traffic) (before : List Action) :
    (closedAfter settings t before).1.settings = settings := by
  rw [closedAfter, settings_run]

theorem asyncClosed_closedAfter (settings : TransportSettings) (t : Traffic) (before : List Action) :
    (closedAfter settings t before).1.asyncClosed =
      if before.any Action.usesAsync then some true else none := by
  have hmade : (run before ({ settings }, t)).1.asyncClosed.isSome = before.any Action.usesAsync :=
    isSome_asyncClosed_run before ({ settings }, t)
  rw [closedAfter, run_append, ← hmade]
  show (run before ({ settings }, t)).1.asyncClosed.map (fun _ => true) = _
  cases (run before ({ settings }, t)).1.asyncClosed <;> rfl

end

/-- After both channels of a new sender have been closed, the synchronous one carries nothing more,
whatever else is done. If the asynchronous one had been made before, or is not used after, nothing at all
is handed to the transport. Otherwise it is made by the first request that uses it, and until the channels
are closed again it carries what that of a new sender would; so a sender is left with an open channel
exactly if that has happened since. -/
theorem closed_senders_stay_closed_iff (settings : TransportSettings) (t : Traffic)
    (before after : List Action) :
    let closed := closedAfter settings t before
    let last := run after closed
    (∀ r u, (∃ b, (last.1.send .sync r u).1 = .error (.broken b)) ∧
      (last.1.send .sync r u).2.2.sent = u.sent) ∧
    (before.any Action.usesAsync = true → ∀ r u,
      (∃ b, (last.1.send .async r u).1 = .error (.broken b)) ∧
        (last.1.send .async r u).2.2.sent = u.sent) ∧
    (before.any Action.usesAsync = true ∨ after.any Action.usesAsync = false →
      last.2.sent = closed.2.sent) ∧
    (after.all Action.isSend = true → last.1.isClosed = true ∧
      (last.1.asyncClosed = some false ↔
        before.any Action.usesAsync = false ∧ after.any Action.usesAsync = true) ∧
      (before.any Action.usesAsync = false → ∀ r u,
        (last.1.send .async r u).1 = (({ settings } : HttpSender).send .async r u).1 ∧
          (last.1.send .async r u).2.2 = (({ settings } : HttpSender).send .async r u).2.2)) := by
  intro closed last
  have hsync : closed.1.isClosed = true := isClosed_closedAfter settings t before
  have hasync : closed.1.asyncClosed = if before.any Action.usesAsync then some true else none :=
    asyncClosed_closedAfter settings t before
  have hlast : last.1.isClosedFor .sync = true := isClosed_run hsync after
  have hused : before.any Action.usesAsync = true → last.1.isClosedFor .async = true := by
    intro hb
    rw [hb, if_pos rfl] at hasync
    rw [isClosedFor, asyncClosed_run hasync after]
    rfl
  refine ⟨fun r u => send_of_closed hlast r u, fun hb r u => send_of_closed (hused hb) r u, ?_, ?_⟩
  · rintro (hb | hafter)
    · exact sent_run hsync (.inl (by rw [hasync, if_pos hb]))
    · exact sent_run hsync (.inr hafter)
  · intro hsends
    have hmade : last.1.asyncClosed = _ := asyncClosed_run_sends hsends closed
    have hsettings : last.1.settings = settings :=
      (settings_run after closed).trans (settings_closedAfter settings t before)
    refine ⟨hlast, ?_, fun hb r u => send_congr hsettings ?_ r u⟩
    · rw [hmade, hasync]
      cases before.any Action.usesAsync <;> cases after.any Action.usesAsync <;> simp
    · rw [isClosedFor, hmade, hasync, hb]
      cases after.any Action.usesAsync <;> rfl

/-! ### Users -/

def userAction (mode : Completion) : Action := .send mode userRequest []

/-- A sender whose asynchronous channel has been used before it was closed sends nothing more. -/
theorem closed_senders_stay_closed_users :
    (run [userAction .async, .close, userAction .sync]
      (closedAfter usersSender.settings {} [userAction .async])).2.sent = [sentUserRequest] := by
  obtain ⟨-, -, hsent, -⟩ := closed_senders_stay_closed_iff usersSender.settings {} [userAction .async]
    [userAction .async, .close, userAction .sync]
  exact (hsent (.inl rfl)).trans (by with_unfolding_all rfl)

/-- One whose first asynchronous request comes after sends it, and is left with an open channel. -/
example : (run [userAction .async] (closedAfter usersSender.settings {} [])).2.sent = [sentUserRequest] ∧
    (run [userAction .async] (closedAfter usersSender.settings {} [])).1.asyncClosed = some false := by
  with_unfolding_all exact ⟨rfl, rfl⟩

end HttpSender
end HttpContract
