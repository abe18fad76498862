import HttpContract.Proofs.Client.Annotations
import HttpContract.Proofs.Http.Closing

/-! # Runs of registries

Registries at work side by side: classes are asked for, clients are made and called, channels are
closed, and what surrounds a registry changes in between, so that generating or loading may fail at one
time and not at another. A class enters a registry only where it was loaded, and then it stays
(`classes_perform`); as every class that is made has a number of its own, no two entries are the same
class. A registry closes only a client that it made. -/

namespace HttpContract

/-! ### Sending -/

namespace HttpSender
variable {c : HttpSender} {mode : Completion}

theorem classesMade_attempt (c : HttpSender) (mode : Completion) (r : Request) (id : String)
    (t : Traffic) : (c.attempt mode r id t).2.classesMade = t.classesMade := by
  unfold attempt
  cases c.outgoing r id with
  | error b => rfl
  | ok out =>
    simp only
    split_ifs <;> rfl

theorem classesMade_attempts (c : HttpSender) (mode : Completion) (r : Request) (id : String)
    (left number : Nat) (t : Traffic) :
    (c.attempts mode r id left number t).2.classesMade = t.classesMade := by
  induction left generalizing number t with
  | zero => exact classesMade_attempt c mode r id t
  | succ left ih =>
    rw [attempts]
    have hattempt := classesMade_attempt c mode r id t
    cases hx : c.attempt mode r id t with
    | mk result u =>
      rw [hx] at hattempt
      cases result with
      | done result => exact hattempt
      | again e => exact (ih _ _).trans hattempt

theorem classesMade_send (c : HttpSender) (mode : Completion) (r : Request) (t : Traffic) :
    (c.send mode r t).2.2.classesMade = t.classesMade := by
  rw [send_eq]
  refine (classesMade_attempts ..).trans ?_
  unfold identify
  cases ownId? r <;> rfl

theorem classesMade_close (c : HttpSender) (t : Traffic) :
    (c.close t).2.classesMade = t.classesMade := by
  unfold close
  simp only
  split_ifs <;> rfl

/-- A sender whose asynchronous channel may have been made, while neither was closed. -/
def OpenedFrom (c' c : HttpSender) : Prop :=
  c'.isClosed = c.isClosed ∧ (c'.asyncClosed = c.asyncClosed ∨
    c.asyncClosed = none ∧ c'.asyncClosed = some false)

theorem OpenedFrom.refl (c : HttpSender) : OpenedFrom c c := ⟨rfl, .inl rfl⟩

theorem OpenedFrom.trans {c c' c'' : HttpSender} (h : OpenedFrom c' c) (h' : OpenedFrom c'' c') :
    OpenedFrom c'' c := by
  obtain ⟨hclosed, hasync⟩ := h
  obtain ⟨hclosed', hasync'⟩ := h'
  refine ⟨hclosed'.trans hclosed, ?_⟩
  rcases hasync' with h' | ⟨h', hmade⟩
  · rw [h']
    exact hasync
  · rcases hasync with h | ⟨-, h⟩
    · exact .inr ⟨h.symm.trans h', hmade⟩
    · rw [h] at h'
      cases h'

theorem openedFrom_opened (c : HttpSender) (mode : Completion) : OpenedFrom (c.opened mode) c := by
  cases mode with
  | sync => exact .refl c
  | async =>
    refine ⟨rfl, ?_⟩
    cases hc : c.asyncClosed with
    | none => exact .inr ⟨rfl, by simp [opened, hc]⟩
    | some b => exact .inl (by simp [opened, hc])

end HttpSender

/-- A run of a plan sends at most once. -/
theorem runSteps_state {σ : Type} (x : CallContext)
    (send : Completion → Request → σ → Except CallError Response × σ) (steps : List Step) (d : Draft)
    (frame : Frame) (s : σ) : (runSteps x send steps d frame s).2.2 = s ∨
      ∃ mode r, (runSteps x send steps d frame s).2.2 = (send mode r s).2 := by
  induction steps generalizing d with
  | nil => exact .inl rfl
  | cons step rest ih =>
    by_cases hinvoke : ∃ mode, step = .invoke mode
    · obtain ⟨mode, rfl⟩ := hinvoke
      rw [runSteps]
      split
      · exact .inl rfl
      · exact .inl rfl
      · next r _ _ =>
        refine .inr ⟨mode, r, ?_⟩
        split
        · next e s' hs => rw [hs]
        · next response s' hs => rw [hs]
    · rw [runSteps_cons fun mode h => hinvoke ⟨mode, h⟩]
      cases step.build x frame d with
      | error b => exact .inl rfl
      | ok d => exact ih d

namespace ClientRegistry
variable {f : ClientRegistry} {name : ClassName} {t : Traffic}

theorem openedFrom_of_sent {b : BoundClient} {s : HttpSender × Traffic}
    (h : s = (f.client, t) ∨ ∃ mode r, s = (send b mode r (f.client, t)).2) :
    s.1.OpenedFrom f.client ∧ s.2.classesMade = t.classesMade := by
  rcases h with rfl | ⟨mode, r, rfl⟩
  · exact ⟨.refl _, rfl⟩
  · refine ⟨?_, HttpSender.classesMade_send ..⟩
    rw [send, HttpSender.send_snd_fst]
    exact HttpSender.openedFrom_opened ..

/-- A call changes no more of a registry than the channels of its client. -/
theorem call_snd (f : ClientRegistry) (b : BoundClient) (name : String) (a : Arguments) (t : Traffic) :
    ∃ c u, (f.call b name a t).2 = ({ f with client := c }, u) ∧ c.OpenedFrom f.client ∧
      u.classesMade = t.classesMade := by
  have hnone : ∃ c u, (f, t) = ({ f with client := c }, u) ∧ HttpSender.OpenedFrom c f.client ∧
      u.classesMade = t.classesMade := ⟨f.client, t, rfl, .refl _, rfl⟩
  unfold call
  simp only
  split
  · exact hnone
  · exact hnone
  · next o plan _ =>
    unfold callOperation
    cases a.bind? o.formals with
    | none => exact hnone
    | some frame => exact ⟨_, _, rfl, openedFrom_of_sent (runSteps_state ..)⟩
  · exact hnone
  · exact hnone
  · exact hnone
  · exact hnone
  · exact hnone
  · exact hnone

/-! ### Single actions -/

/-- What asking for a class comes to: it is there, or it is loaded, and kept if that succeeds. -/
theorem classOf_cases (f : ClientRegistry) (name : ClassName) (t : Traffic) :
    (∃ c, Entries.get? f.classes name = some c ∧ f.classOf name t = (.ok c, f, t)) ∨
    Entries.get? f.classes name = none ∧
      ((∃ e tree u, f.loadClass name t = (.error e, tree, u) ∧
        f.classOf name t = (.error e, { f with tree }, u)) ∨
      ∃ c tree u, f.loadClass name t = (.ok c, tree, u) ∧
        f.classOf name t = (.ok c, { f with tree, classes := Entries.insert f.classes name c }, u)) := by
  unfold classOf
  cases hc : Entries.get? f.classes name with
  | some c => exact .inl ⟨c, rfl, rfl⟩
  | none =>
    refine .inr ⟨rfl, ?_⟩
    obtain ⟨result, tree, u⟩ := f.loadClass name t
    cases result with
    | error e => exact .inl ⟨e, tree, u, rfl, rfl⟩
    | ok c => exact .inr ⟨c, tree, u, rfl, rfl⟩

theorem create_snd (f : ClientRegistry) (name : ClassName) (logger : String) (t : Traffic) :
    (f.create name logger t).2 = (f.classOf name t).2 := by
  unfold create
  obtain ⟨result, f', u⟩ := f.classOf name t
  cases result with
  | error e => rfl
  | ok c =>
    simp only
    cases c.obstacleToMake? f'.program <;> rfl

/-- A class was loaded, as the next one, from what was generated for it. -/
structure Loaded (f : ClientRegistry) (name : ClassName) (t : Traffic) (c : ClientClass) : Prop where
  source : ∃ g k, (Generation.generate f.settings f.program (.declared name) f.tree).result = .ok g ∧
    ClientClass.load f.program f.settings name g = .ok k ∧ c = { k with identity := t.classesMade }
  result : (f.loadClass name t).1 = .ok c

theorem loadClass_of_ok {g : GeneratedClient} {k : ClientClass}
    (hg : (Generation.generate f.settings f.program (.declared name) f.tree).result = .ok g)
    (hk : ClientClass.load f.program f.settings name g = .ok k) :
    (f.loadClass name t).1 = .ok { k with identity := t.classesMade } := by
  simp [loadClass, hg, hk]

theorem loadClass_cases (f : ClientRegistry) (name : ClassName) (t : Traffic) :
    (∃ e, (f.loadClass name t).1 = .error e ∧ (f.loadClass name t).2.2.classesMade = t.classesMade) ∨
      ∃ c, f.Loaded name t c ∧ (f.loadClass name t).2.2.classesMade = t.classesMade + 1 := by
  unfold loadClass
  simp only
  cases hg : (Generation.generate f.settings f.program (.declared name) f.tree).result with
  | error e => exact .inl ⟨e, rfl, rfl⟩
  | ok g =>
    cases hk : ClientClass.load f.program f.settings name g with
    | error b => exact .inl ⟨.broken b, by simp [hk], by simp [hk]⟩
    | ok k =>
      exact .inr ⟨_, ⟨⟨g, k, hg, hk, rfl⟩, loadClass_of_ok hg hk⟩, by simp [hk]⟩

theorem classes_classOf (f : ClientRegistry) (name : ClassName) (t : Traffic) :
    ((f.classOf name t).2.1.classes = f.classes ∧
      (f.classOf name t).2.2.classesMade = t.classesMade) ∨
    ∃ c, Entries.get? f.classes name = none ∧ f.Loaded name t c ∧
      (f.classOf name t).2.1.classes = Entries.insert f.classes name c ∧
      (f.classOf name t).2.2.classesMade = t.classesMade + 1 := by
  rcases f.classOf_cases name t with
    ⟨c, -, h⟩ | ⟨hnone, ⟨e, tree, u, hload, h⟩ | ⟨c, tree, u, hload, h⟩⟩ <;> rw [h]
  · exact .inl ⟨rfl, rfl⟩
  · rcases f.loadClass_cases name t with ⟨e', -, hmade⟩ | ⟨c, hc, -⟩
    · rw [hload] at hmade
      exact .inl ⟨rfl, hmade⟩
    · have hresult := hc.result
      rw [hload] at hresult
      cases hresult
  · rcases f.loadClass_cases name t with ⟨e', he, -⟩ | ⟨c', hc', hmade⟩
    · rw [hload] at he
      cases he
    · have hresult := hc'.result
      rw [hload] at hresult hmade
      obtain rfl : c = c' := Except.ok.inj hresult
      exact .inr ⟨c, hnone, hc', rfl, hmade⟩

theorem client_classOf (f : ClientRegistry) (name : ClassName) (t : Traffic) :
    (f.classOf name t).2.1.ownsClient = f.ownsClient ∧ (f.classOf name t).2.1.client = f.client := by
  rcases f.classOf_cases name t with ⟨c, -, h⟩ | ⟨-, ⟨e, tree, u, -, h⟩ | ⟨c, tree, u, -, h⟩⟩ <;>
    rw [h] <;> exact ⟨rfl, rfl⟩

/-- What is done with a registry: a class or a client is asked for, a client is called, channels are
closed; or what surrounds the registry changes. -/
inductive Action
  | classOf (name : ClassName)
  | create (name : ClassName) (logger : String)
  | call (b : BoundClient) (name : String) (a : Arguments)
  | close
  | closeAll
  | surround (program : Program) (settings : GenerationSettings) (tree : FileTree)

namespace Action

/-- What an action does to a registry and to the traffic. -/
def perform : Action → ClientRegistry → Traffic → ClientRegistry × Traffic
  | classOf name, f, t => (f.classOf name t).2
  | create name logger, f, t => (f.create name logger t).2
  | call b name a, f, t => (f.call b name a t).2
  | close, f, t => f.close t
  | closeAll, f, t => f.closeAll t
  | surround program settings tree, f, t => ({ f with program, settings, tree }, t)

/-- Whether the action asks for the class of a contract. -/
def Asks (name : ClassName) : Action → Prop
  | classOf n | create n _ => n = name
  | _ => False

/-- Whether the action closes channels. -/
def closes : Action → Bool
  | close | closeAll => true
  | _ => false

variable {x : Action} {name : ClassName}

theorem perform_of_asks (h : x.Asks name) (f : ClientRegistry) (t : Traffic) :
    x.perform f t = (f.classOf name t).2 := by
  cases x with
  | classOf n =>
    obtain rfl : n = name := h
    rfl
  | create n logger =>
    obtain rfl : n = name := h
    exact f.create_snd n logger t
  | _ => cases h

/-- The classes of a registry stay as they are, or the one that is asked for enters them, loaded. -/
theorem classes_perform (x : Action) (f : ClientRegistry) (t : Traffic) :
    ((x.perform f t).1.classes = f.classes ∧ (x.perform f t).2.classesMade = t.classesMade) ∨
    ∃ name c, x.Asks name ∧ Entries.get? f.classes name = none ∧ f.Loaded name t c ∧
      (x.perform f t).1.classes = Entries.insert f.classes name c ∧
      (x.perform f t).2.classesMade = t.classesMade + 1 := by
  cases x with
  | classOf name => exact (f.classes_classOf name t).imp_right fun ⟨c, hc⟩ => ⟨name, c, rfl, hc⟩
  | create name logger =>
    rw [perform, create_snd]
    exact (f.classes_classOf name t).imp_right fun ⟨c, hc⟩ => ⟨name, c, rfl, hc⟩
  | call b name a =>
    obtain ⟨c, u, h, -, hmade⟩ := f.call_snd b name a t
    rw [perform, h]
    exact .inl ⟨rfl, hmade⟩
  | close =>
    rw [perform, ClientRegistry.close]
    split_ifs
    · exact .inl ⟨rfl, HttpSender.classesMade_close ..⟩
    · exact .inl ⟨rfl, rfl⟩
  | closeAll =>
    rw [perform, ClientRegistry.closeAll]
    split_ifs
    · exact .inl ⟨rfl, HttpSender.classesMade_close ..⟩
    · exact .inl ⟨rfl, rfl⟩
  | surround program settings tree => exact .inl ⟨rfl, rfl⟩

theorem ownsClient_perform (x : Action) (f : ClientRegistry) (t : Traffic) :
    (x.perform f t).1.ownsClient = f.ownsClient := by
  cases x with
  | classOf name => exact (f.client_classOf name t).1
  | create name logger =>
    rw [perform, create_snd]
    exact (f.client_classOf name t).1
  | call b name a =>
    obtain ⟨c, u, h, -⟩ := f.call_snd b name a t
    rw [perform, h]
  | close =>
    rw [perform, ClientRegistry.close]
    split_ifs <;> rfl
  | closeAll =>
    rw [perform, ClientRegistry.closeAll]
    split_ifs <;> rfl
  | surround program settings tree => rfl

/-- Nothing but closing closes a channel, and a call may make the asynchronous one. -/
theorem openedFrom_perform (hx : x.closes = false) (f : ClientRegistry) (t : Traffic) :
    (x.perform f t).1.client.OpenedFrom f.client := by
  cases x with
  | classOf name =>
    rw [perform, (f.client_classOf name t).2]
    exact .refl _
  | create name logger =>
    rw [perform, create_snd, (f.client_classOf name t).2]
    exact .refl _
  | call b name a =>
    obtain ⟨c, u, h, hopened, -⟩ := f.call_snd b name a t
    rw [perform, h]
    exact hopened
  | close => cases hx
  | closeAll => cases hx
  | surround program settings tree => exact .refl _

theorem perform_of_closes_of_given (hx : x.closes = true) {f : ClientRegistry}
    (howns : f.ownsClient = false) (t : Traffic) : x.perform f t = (f, t) := by
  cases x with
  | close => simp [perform, ClientRegistry.close, howns]
  | closeAll => simp [perform, ClientRegistry.closeAll, howns]
  | _ => cases hx

theorem isClosed_perform_of_closes (hx : x.closes = true) {f : ClientRegistry}
    (howns : f.ownsClient = true) (t : Traffic) : (x.perform f t).1.client.isClosed = true := by
  cases x with
  | close =>
    rw [perform, ClientRegistry.close, if_pos howns]
    rfl
  | closeAll =>
    rw [perform, ClientRegistry.closeAll, if_pos howns]
    rfl
  | _ => cases hx

theorem isClosed_perform {f : ClientRegistry} (h : f.client.isClosed = true) (x : Action)
    (t : Traffic) : (x.perform f t).1.client.isClosed = true := by
  cases hx : x.closes with
  | false => rw [(openedFrom_perform hx f t).1, h]
  | true =>
    cases howns : f.ownsClient with
    | false => rw [perform_of_closes_of_given hx howns, h]
    | true => exact isClosed_perform_of_closes hx howns t

end Action

end ClientRegistry

/-! ### Runs -/

/-- Registries side by side, with the traffic that they share. -/
abbrev Registries := (Nat → ClientRegistry) × Traffic

namespace Registries
open ClientRegistry (Action)
variable {s : Registries} {x : Nat × Action} {xs : List (Nat × Action)} {i j : Nat}
  {name n : ClassName} {c k : ClientClass}

/-- What an action of one of several registries does. -/
def perform (x : Nat × Action) (s : Registries) : Registries :=
  (Function.update s.1 x.1 (x.2.perform (s.1 x.1) s.2).1, (x.2.perform (s.1 x.1) s.2).2)

/-- What several actions do, one after the other. -/
def run (xs : List (Nat × Action)) (s : Registries) : Registries := xs.foldl (fun s x => perform x s) s

/-- The class that a registry keeps for a contract. -/
def class? (s : Registries) (i : Nat) (name : ClassName) : Option ClientClass :=
  Entries.get? (s.1 i).classes name

theorem run_cons (x : Nat × Action) (xs : List (Nat × Action)) (s : Registries) :
    run (x :: xs) s = run xs (perform x s) := rfl

theorem run_append_singleton (xs : List (Nat × Action)) (x : Nat × Action) (s : Registries) :
    run (xs ++ [x]) s = perform x (run xs s) := by
  rw [run, List.foldl_append]
  rfl

theorem fst_perform_self (x : Nat × Action) (s : Registries) :
    (perform x s).1 x.1 = (x.2.perform (s.1 x.1) s.2).1 := Function.update_self ..

theorem fst_perform_of_ne (h : i ≠ x.1) (s : Registries) : (perform x s).1 i = s.1 i :=
  Function.update_of_ne h ..

/-- A class enters one of the registries, for a contract that it had none for; all other entries stay. -/
structure Enters (x : Nat × Action) (s : Registries) (name : ClassName) (c : ClientClass) : Prop where
  asks : x.2.Asks name
  fresh : s.class? x.1 name = none
  loaded : (s.1 x.1).Loaded name s.2 c
  made : (perform x s).2.classesMade = s.2.classesMade + 1
  entry : (perform x s).class? x.1 name = some c
  others : ∀ i n, i ≠ x.1 ∨ n ≠ name → (perform x s).class? i n = s.class? i n

theorem class?_perform (x : Nat × Action) (s : Registries) :
    ((∀ i n, (perform x s).class? i n = s.class? i n) ∧
      (perform x s).2.classesMade = s.2.classesMade) ∨ ∃ name c, Enters x s name c := by
  have hother : ∀ i n, i ≠ x.1 → (perform x s).class? i n = s.class? i n := by
    intro i n hi
    rw [class?, fst_perform_of_ne hi, class?]
  rcases x.2.classes_perform (s.1 x.1) s.2 with ⟨hsame, hmade⟩ | ⟨name, c, hasks, hnone, hc, hnew, hmade⟩
  · refine .inl ⟨fun i n => ?_, hmade⟩
    by_cases hi : i = x.1
    · rw [hi, class?, fst_perform_self, hsame, class?]
    · exact hother i n hi
  · refine .inr ⟨name, c, hasks, hnone, hc, hmade, ?_, fun i n h => ?_⟩
    · rw [class?, fst_perform_self, hnew, Entries.get?_insert_self]
    · by_cases hi : i = x.1
      · have hn : n ≠ name := h.resolve_left (by simp [hi])
        rw [hi, class?, fst_perform_self, hnew, Entries.get?_insert_of_ne hn, class?]
      · exact hother i n hi

theorem class?_run (h : s.class? i name = some c) (xs : List (Nat × Action)) :
    (run xs s).class? i name = some c := by
  -- A class only enters where there was none, so an entry that is there is not the new one.
  induction xs generalizing s with
  | nil => exact h
  | cons x xs ih =>
    refine ih ?_
    rcases class?_perform x s with ⟨hsame, -⟩ | ⟨n, k, hk⟩
    · rw [hsame, h]
    · rw [hk.others, h]
      by_contra hboth
      rw [not_or, not_not, not_not] at hboth
      obtain ⟨rfl, rfl⟩ := hboth
      rw [hk.fresh] at h
      cases h

theorem class?_run_eq_none (h : s.class? i name = none)
    (hxs : ∀ x ∈ xs, x.1 = i → ¬ x.2.Asks name) : (run xs s).class? i name = none := by
  induction xs generalizing s with
  | nil => exact h
  | cons x xs ih =>
    rw [List.forall_mem_cons] at hxs
    refine ih ?_ hxs.2
    rcases class?_perform x s with ⟨hsame, -⟩ | ⟨n, k, hk⟩
    · rw [hsame, h]
    · rw [hk.others, h]
      by_contra hboth
      rw [not_or, not_not, not_not] at hboth
      obtain ⟨hi, rfl⟩ := hboth
      exact hxs.1 hi.symm hk.asks

/-- The classes of the registries are told apart by their numbers. -/
structure Apart (s : Registries) : Prop where
  below : ∀ i n c, s.class? i n = some c → c.identity < s.2.classesMade
  entry : ∀ i j n n' c c', s.class? i n = some c → s.class? j n' = some c' →
    c.identity = c'.identity → i = j ∧ n = n'

theorem Apart.perform (h : Apart s) (x : Nat × Action) : Apart (perform x s) := by
  rcases class?_perform x s with ⟨hsame, hmade⟩ | ⟨name, c, hc⟩
  · constructor
    · intro i n c hc
      rw [hsame] at hc
      rw [hmade]
      exact h.below i n c hc
    · intro i j n n' c c' hc hc'
      rw [hsame] at hc hc'
      exact h.entry i j n n' c c' hc hc'
  · have hnumber : c.identity = s.2.classesMade := by
      obtain ⟨g, k, -, -, rfl⟩ := hc.loaded.source
      rfl
    -- An entry is either the new one or an old one, whose number is smaller.
    have hcases : ∀ i n k, (Registries.perform x s).class? i n = some k →
        (i = x.1 ∧ n = name ∧ k = c) ∨ s.class? i n = some k ∧ k.identity < s.2.classesMade := by
      intro i n k hk
      by_cases hnew : i = x.1 ∧ n = name
      · obtain ⟨rfl, rfl⟩ := hnew
        rw [hc.entry] at hk
        exact .inl ⟨rfl, rfl, (Option.some.inj hk).symm⟩
      · rw [hc.others i n (by rwa [not_and_or] at hnew)] at hk
        exact .inr ⟨hk, h.below i n k hk⟩
    constructor
    · intro i n k hk
      rw [hc.made]
      rcases hcases i n k hk with ⟨-, -, rfl⟩ | ⟨-, hlt⟩ <;> omega
    · intro i j n n' k k' hk hk' heq
      rcases hcases i n k hk with ⟨rfl, rfl, rfl⟩ | ⟨hk, hlt⟩ <;>
        rcases hcases j n' k' hk' with ⟨rfl, rfl, rfl⟩ | ⟨hk', hlt'⟩
      · exact ⟨rfl, rfl⟩
      · omega
      · omega
      · exact h.entry i j n n' k k' hk hk' heq

theorem Apart.run (h : Apart s) (xs : List (Nat × Action)) : Apart (run xs s) := by
  induction xs generalizing s with
  | nil => exact h
  | cons x xs ih => exact ih (h.perform x)

/-- A class that is kept at the end of a run entered at some point of it. -/
theorem exists_enters (hs : ∀ i n, s.class? i n = none) (h : (run xs s).class? i name = some c) :
    ∃ before x after, xs = before ++ (i, x) :: after ∧ Enters (i, x) (run before s) name c := by
  -- From the end of the run: the last action entered the class, or an earlier one did.
  induction xs using List.reverseRecOn with
  | nil =>
    have hnone : (run [] s).class? i name = none := hs i name
    rw [hnone] at h
    cases h
  | append_singleton xs x ih =>
    rw [run_append_singleton] at h
    have hearlier : (run xs s).class? i name = some c →
        ∃ before y after, xs ++ [x] = before ++ (i, y) :: after ∧
          Enters (i, y) (run before s) name c := by
      intro h
      obtain ⟨before, y, after, rfl, henters⟩ := ih h
      exact ⟨before, y, after ++ [x], by simp, henters⟩
    rcases class?_perform x (run xs s) with ⟨hsame, -⟩ | ⟨n, k, hk⟩
    · rw [hsame] at h
      exact hearlier h
    · by_cases hnew : i = x.1 ∧ name = n
      · obtain ⟨rfl, rfl⟩ := hnew
        rw [hk.entry] at h
        obtain rfl : k = c := Option.some.inj h
        exact ⟨xs, x.2, [], rfl, hk⟩
      · rw [hk.others i name (by rwa [not_and_or] at hnew)] at h
        exact hearlier h

theorem class?_perform_of_ok {a : Action} (ha : a.Asks name)
    (h : ((s.1 i).classOf name s.2).1 = .ok k) : (perform (i, a) s).class? i name = some k := by
  rw [class?, fst_perform_self, Action.perform_of_asks ha]
  rcases (s.1 i).classOf_cases name s.2 with
    ⟨c, hc, hx⟩ | ⟨-, ⟨e, tree, u, -, hx⟩ | ⟨c, tree, u, -, hx⟩⟩ <;> rw [hx] at h ⊢
  · rw [← Except.ok.inj h]
    exact hc
  · cases h
  · rw [← Except.ok.inj h]
    exact Entries.get?_insert_self ..

theorem class?_perform_of_error {a : Action} (ha : a.Asks name) {e : Failure}
    (h : ((s.1 i).classOf name s.2).1 = .error e) :
    (∀ j n, (perform (i, a) s).class? j n = s.class? j n) ∧ s.class? i name = none := by
  rcases (s.1 i).classOf_cases name s.2 with
    ⟨c, -, hx⟩ | ⟨hnone, ⟨e', tree, u, -, hx⟩ | ⟨c, tree, u, -, hx⟩⟩
  · rw [hx] at h
    cases h
  · refine ⟨fun j n => ?_, hnone⟩
    by_cases hj : j = i
    · rw [hj, class?, fst_perform_self, Action.perform_of_asks ha, hx, class?]
    · rw [class?, fst_perform_of_ne hj, class?]
  · rw [hx] at h
    cases h

/-- A class that is kept is handed out, clients are made of it, and nothing is generated. -/
theorem classOf_run_of_kept (h : s.class? i name = some k) (xs : List (Nat × Action)) :
    ((run xs s).1 i).classOf name (run xs s).2 = (.ok k, (run xs s).1 i, (run xs s).2) ∧
    ∀ logger, (((run xs s).1 i).create name logger (run xs s).2).2 = ((run xs s).1 i, (run xs s).2) ∧
      ∀ b, (((run xs s).1 i).create name logger (run xs s).2).1 = .ok b → b.cls = k := by
  have hkept : Entries.get? ((run xs s).1 i).classes name = some k := class?_run h xs
  have hclass : ((run xs s).1 i).classOf name (run xs s).2 = (.ok k, (run xs s).1 i, (run xs s).2) := by
    rw [ClientRegistry.classOf, hkept]
  refine ⟨hclass, fun logger => ⟨by rw [ClientRegistry.create_snd, hclass], fun b hb => ?_⟩⟩
  rw [ClientRegistry.create, hclass] at hb
  simp only at hb
  split at hb
  · cases hb
  · rw [← Except.ok.inj hb]

theorem classOf_run_of_free (h : s.class? i name = none)
    (hxs : ∀ x ∈ xs, x.1 = i → ¬ x.2.Asks name) :
    (((run xs s).1 i).classOf name (run xs s).2).1 =
        (((run xs s).1 i).loadClass name (run xs s).2).1 ∧
      (((run xs s).1 i).classOf name (run xs s).2).2.2 =
        (((run xs s).1 i).loadClass name (run xs s).2).2.2 := by
  have hfree : (run xs s).class? i name = none := class?_run_eq_none h hxs
  rcases ((run xs s).1 i).classOf_cases name (run xs s).2 with
    ⟨c, hc, -⟩ | ⟨-, ⟨e, tree, u, hload, hx⟩ | ⟨c, tree, u, hload, hx⟩⟩
  · have hboth : none = some c := hfree.symm.trans hc
    cases hboth
  · rw [hx, hload]
    exact ⟨rfl, rfl⟩
  · rw [hx, hload]
    exact ⟨rfl, rfl⟩

theorem ownsClient_run (xs : List (Nat × Action)) (s : Registries) (i : Nat) :
    ((run xs s).1 i).ownsClient = (s.1 i).ownsClient := by
  induction xs generalizing s with
  | nil => rfl
  | cons x xs ih =>
    rw [run_cons, ih]
    by_cases hi : i = x.1
    · rw [hi, fst_perform_self, x.2.ownsClient_perform]
    · rw [fst_perform_of_ne hi]

theorem openedFrom_run (h : (s.1 i).ownsClient = false) (xs : List (Nat × Action)) :
    ((run xs s).1 i).client.OpenedFrom (s.1 i).client := by
  -- Closing a registry that was given its client does nothing, and no other action closes it.
  induction xs generalizing s with
  | nil => exact .refl _
  | cons x xs ih =>
    have howns : ((perform x s).1 i).ownsClient = false := (ownsClient_run [x] s i).trans h
    refine HttpSender.OpenedFrom.trans ?_ (ih howns)
    by_cases hi : i = x.1
    · rw [hi, fst_perform_self]
      rw [hi] at h
      cases hx : x.2.closes with
      | false => exact Action.openedFrom_perform hx _ _
      | true =>
        rw [Action.perform_of_closes_of_given hx h]
        exact .refl _
    · rw [fst_perform_of_ne hi]
      exact .refl _

theorem isClosed_run (h : (s.1 i).client.isClosed = true) (xs : List (Nat × Action)) :
    ((run xs s).1 i).client.isClosed = true := by
  induction xs generalizing s with
  | nil => exact h
  | cons x xs ih =>
    refine ih ?_
    by_cases hi : i = x.1
    · rw [hi, fst_perform_self]
      rw [hi] at h
      exact Action.isClosed_perform h x.2 _
    · rw [fst_perform_of_ne hi, h]

theorem isClosed_run_of_closes (h : (s.1 i).ownsClient = true) {a : Action} (ha : a.closes = true)
    (hxs : (i, a) ∈ xs) : ((run xs s).1 i).client.isClosed = true := by
  obtain ⟨before, after, rfl⟩ := List.append_of_mem hxs
  have hrun : run (before ++ (i, a) :: after) s = run after (perform (i, a) (run before s)) := by
    rw [run, List.foldl_append]
    rfl
  rw [hrun]
  refine isClosed_run ?_ after
  rw [fst_perform_self]
  exact Action.isClosed_perform_of_closes ha ((ownsClient_run before s i).trans h) _

end Registries

open Registries ClientRegistry in
/-- Registries that start without classes, and do and suffer whatever they may. Once a class has been
handed out for a contract, the registry hands out this one and makes its clients of it, and generates
nothing. Where a class cannot be had, the entries stay as they are, and until it is asked for again there
is none, so it is generated then. What is kept for a contract was loaded from what was generated for it.
No two entries, of one registry or of two, are the same class. A client that a registry was given is
closed by nothing; the synchronous channel of one that it made is closed once the registry has been. -/
theorem registries_keep_classes (p : Nat → Program) (settings : Nat → GenerationSettings)
    (tree : Nat → FileTree) (given? : Nat → Option HttpSender) (own : Nat → HttpSender) (t : Traffic)
    (xs : List (Nat × Action)) :
    let start : Registries := (fun i => make (p i) (settings i) (tree i) (given? i) (own i), t)
    let s := run xs start
    (∀ i name (a : Action) k, a.Asks name → ((s.1 i).classOf name s.2).1 = .ok k → ∀ ys,
      let s' := run ((i, a) :: ys) s
      (s'.1 i).classOf name s'.2 = (.ok k, s'.1 i, s'.2) ∧
      ∀ logger, ((s'.1 i).create name logger s'.2).2 = (s'.1 i, s'.2) ∧
        ∀ b, ((s'.1 i).create name logger s'.2).1 = .ok b → b.cls = k) ∧
    (∀ i name (a : Action) e, a.Asks name → ((s.1 i).classOf name s.2).1 = .error e →
      (∀ j n, (perform (i, a) s).class? j n = s.class? j n) ∧
      ∀ ys, (∀ y ∈ ys, y.1 = i → ¬ y.2.Asks name) →
        let s' := run ((i, a) :: ys) s
        ((s'.1 i).classOf name s'.2).1 = ((s'.1 i).loadClass name s'.2).1 ∧
          ((s'.1 i).classOf name s'.2).2.2 = ((s'.1 i).loadClass name s'.2).2.2) ∧
    (∀ i name c, s.class? i name = some c → ∃ before a after, xs = before ++ (i, a) :: after ∧
      Enters (i, a) (run before start) name c) ∧
    (∀ i j n n' c c', s.class? i n = some c → s.class? j n' = some c' → c.identity = c'.identity →
      i = j ∧ n = n') ∧
    (∀ i sender, given? i = some sender → (s.1 i).client.OpenedFrom sender) ∧
    ∀ i (a : Action), given? i = none → a.closes = true → (i, a) ∈ xs →
      (s.1 i).client.isClosed = true := by
  intro start s
  have hnone : ∀ i n, start.class? i n = none := fun _ _ => rfl
  refine ⟨fun i name a k ha hk ys => ?_, fun i name a e ha he => ?_, fun i name c => exists_enters hnone,
    ?_, fun i sender hgiven => ?_, fun i a hgiven ha hmem => ?_⟩
  · exact classOf_run_of_kept (class?_perform_of_ok ha hk) ys
  · obtain ⟨hsame, hfree⟩ := class?_perform_of_error ha he
    have hnext : (perform (i, a) s).class? i name = none := (hsame i name).trans hfree
    refine ⟨hsame, fun ys hys => ?_⟩
    rw [run_cons]
    exact classOf_run_of_free hnext hys
  · have hapart : Apart start :=
      ⟨fun i n c hc => by simp [hnone] at hc, fun i j n n' c c' hc => by simp [hnone] at hc⟩
    exact (hapart.run xs).entry
  · have hstart : (start.1 i).ownsClient = false ∧ (start.1 i).client = sender := by
      simp [start, make, hgiven]
    rw [← hstart.2]
    exact openedFrom_run hstart.1 xs
  · have hstart : (start.1 i).ownsClient = true := by simp [start, make, hgiven]
    exact isClosed_run_of_closes hstart ha hmem

/-! ### Reports -/

def reportsName : ClassName := ⟨"app", "Reports"⟩

/-- Registries of the program that has the reports, each with a client of its own. -/
def reportsRegistry : ClientRegistry :=
  .make (reportsProgram listBelow) {} ⟨[], []⟩ none HttpSender.usersSender

theorem exists_loadClass_reports (t : Traffic) :
    ∃ c, (reportsRegistry.loadClass reportsName t).1 = .ok c := by
  have hcandidate : (reportsProgram listBelow).candidateOf (.declared reportsName) =
      .ok (reportsCandidate listBelow) := eq_ok_getD (by decide +kernel) _
  have hsource : Generation.sourceOf {} (reportsCandidate listBelow) = .ok (reportsClient listBelow) :=
    eq_ok_getD isSome_sourceOf_listBelow _
  obtain ⟨-, hcontract, -⟩ := sourceOf_reportsClient isSome_sourceOf_listBelow
  have hload : ∃ k, ClientClass.load (reportsProgram listBelow) {} reportsName
      (reportsClient listBelow) = .ok k := by
    rw [ClientClass.exists_load_iff] <;> rw [hcontract]
    · exact eq_ok_of_toOption (by decide +kernel)
    · exact isReadable_listBelow
    · exact canImport_listBelow
  obtain ⟨k, hk⟩ := hload
  have hgenerated : (Generation.generate {} (reportsProgram listBelow) (.declared reportsName)
      ⟨[], []⟩).result = .ok (reportsClient listBelow) := by
    obtain ⟨log, hlog⟩ := Generation.generate_eq {} (reportsProgram listBelow) (.declared reportsName)
      ⟨[], []⟩
    rw [hlog, hcandidate, ok_bind, hsource]
    rfl
  exact ⟨_, ClientRegistry.loadClass_of_ok hgenerated hk⟩

theorem exists_classOf_reports (t : Traffic) :
    ∃ c, (reportsRegistry.classOf reportsName t).1 = .ok c := by
  obtain ⟨c, hc⟩ := exists_loadClass_reports t
  rcases reportsRegistry.classOf_cases reportsName t with
    ⟨k, -, h⟩ | ⟨-, ⟨e, tree, u, hload, -⟩ | ⟨k, tree, u, -, h⟩⟩
  · exact ⟨k, by rw [h]⟩
  · rw [hload] at hc
    cases hc
  · exact ⟨k, by rw [h]⟩

open Registries ClientRegistry ClientRegistry.Action in
theorem registries_keep_classes_reports :
    let s := run [(0, classOf reportsName), (1, classOf reportsName), (0, close)]
      (fun _ => reportsRegistry, {})
    (∃ c c', (s.1 0).classOf reportsName s.2 = (.ok c, s.1 0, s.2) ∧
      (s.1 1).classOf reportsName s.2 = (.ok c', s.1 1, s.2) ∧ c.identity ≠ c'.identity) ∧
    (s.1 0).client.isClosed = true := by
  intro s
  have hkeep := registries_keep_classes (fun _ => reportsProgram listBelow) (fun _ => {})
    (fun _ => ⟨[], []⟩) (fun _ => none) (fun _ => HttpSender.usersSender) {}
  obtain ⟨c, hc⟩ := exists_classOf_reports {}
  obtain ⟨c', hc'⟩ := exists_classOf_reports
    (run [(0, classOf reportsName)] (fun _ => reportsRegistry, {})).2
  have hfirst := (hkeep []).1 0 reportsName (classOf reportsName) c rfl hc
    [(1, classOf reportsName), (0, close)]
  have hsecond := (hkeep [(0, classOf reportsName)]).1 1 reportsName (classOf reportsName) c' rfl hc'
    [(0, close)]
  obtain ⟨-, -, -, hapart, -, hclosed⟩ :=
    hkeep [(0, classOf reportsName), (1, classOf reportsName), (0, close)]
  refine ⟨⟨c, c', hfirst.1, hsecond.1, fun heq => ?_⟩, hclosed 0 close rfl rfl (by simp)⟩
  have hentry : s.class? 0 reportsName = some c :=
    class?_run (class?_perform_of_ok (i := 0) (a := classOf reportsName) rfl hc) _
  have hentry' : s.class? 1 reportsName = some c' :=
    class?_run (class?_perform_of_ok (i := 1) (a := classOf reportsName) rfl hc') _
  exact absurd (hapart 0 1 reportsName reportsName c c' hentry hentry' heq).1 (by decide)

end HttpContract
