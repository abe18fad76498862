import HttpContract.Proofs.Lists
import Mathlib.Data.List.Forall2
import Mathlib.Tactic.SplitIfs

/-!
# Decisions

`Decides E x P a`: the computation `x` yields `a` if `P` holds, and an error of the kind `E` if it
does not. A check made of checks is decided by the conjunction of their conditions (`Decides.bind`),
each one looked at only where those before it hold. `FailsOnly E x`: where `x` yields an error, it is
one of the kind `E`.
-/

namespace HttpContract

/-- A computation that yields `a` under a condition, and an error of some kind otherwise. -/
inductive Decides {ε α : Type} (E : ε → Prop) (x : Except ε α) (P : Prop) (a : α) : Prop
  | accepts (holds : P) (eq : x = .ok a)
  | rejects (fails : ¬ P) (e : ε) (kind : E e) (eq : x = .error e)

namespace Decides

variable {ε ε' α β : Type} {E : ε → Prop} {E' : ε' → Prop} {x : Except ε α} {P Q : Prop} {a : α}
  {b : β}

theorem congr (h : Decides E x P a) (hpq : P ↔ Q) : Decides E x Q a := by
  rcases h with ⟨hp, hx⟩ | ⟨hp, e, he, hx⟩
  · exact .accepts (hpq.mp hp) hx
  · exact .rejects (fun hq => hp (hpq.mpr hq)) e he hx

theorem pure : Decides E (Pure.pure a) True a := .accepts trivial rfl

theorem error {e : ε} (he : E e) : Decides E (.error e : Except ε α) False a :=
  .rejects id e he rfl

theorem ite {p : Prop} [Decidable p] {y : Except ε α} (h : p → Decides E x P a)
    (h' : ¬ p → Decides E y P a) : Decides E (if p then x else y) P a := by
  split_ifs with hp
  · exact h hp
  · exact h' hp

theorem bind {g : α → Except ε β} (h : Decides E x P a) (hg : P → Decides E (g a) Q b) :
    Decides E (x >>= g) (P ∧ Q) b := by
  rcases h with ⟨hp, rfl⟩ | ⟨hp, e, he, rfl⟩
  · exact (hg hp).congr (iff_and_self.mpr fun _ => hp)
  · exact .rejects (fun h => hp h.1) e he rfl

theorem bind_pure (f : α → β) (h : Decides E x P a) :
    Decides E (x >>= fun a => Pure.pure (f a)) P (f a) := by
  rcases h with ⟨hp, rfl⟩ | ⟨hp, e, he, rfl⟩
  · exact .accepts hp rfl
  · exact .rejects hp e he rfl

theorem map (f : α → β) (h : Decides E x P a) : Decides E (x.map f) P (f a) := by
  rcases h with ⟨hp, rfl⟩ | ⟨hp, e, he, rfl⟩
  · exact .accepts hp rfl
  · exact .rejects hp e he rfl

theorem mapError {f : ε → ε'} (h : Decides E x P a) (hf : ∀ e, E e → E' (f e)) :
    Decides E' (x.mapError f) P a := by
  rcases h with ⟨hp, rfl⟩ | ⟨hp, e, he, rfl⟩
  · exact .accepts hp rfl
  · exact .rejects hp (f e) (hf e he) rfl

theorem self (x : Except ε α) (d : α) :
    Decides (fun _ => True) x (∃ a, x = .ok a) (x.toOption.getD d) := by
  cases x with
  | ok a => exact .accepts ⟨a, rfl⟩ rfl
  | error e => exact .rejects (fun ⟨_, h⟩ => nomatch h) e trivial rfl

/-- A computation for each item of a list: all of them must succeed. -/
theorem mapM {f : α → Except ε β} {p : α → Prop} {g : α → β} {l : List α}
    (h : ∀ a ∈ l, Decides E (f a) (p a) (g a)) :
    Decides E (l.mapM f) (∀ a ∈ l, p a) (l.map g) := by
  induction l with
  | nil => exact Decides.pure.congr (by simp)
  | cons a l ih =>
    rw [List.forall_mem_cons] at h
    rw [List.mapM_cons, List.map_cons]
    refine Decides.congr (.bind h.1 fun _ => .bind (ih h.2) fun _ => .pure) ?_
    rw [and_true, List.forall_mem_cons]

theorem eq_ok_iff (h : Decides E x P a) {a' : α} : x = .ok a' ↔ P ∧ a' = a := by
  rcases h with ⟨hp, rfl⟩ | ⟨hp, e, -, rfl⟩
  · exact ⟨fun h => ⟨hp, (Except.ok.inj h).symm⟩, fun h => by rw [h.2]⟩
  · exact ⟨fun h => (nomatch h), fun h => absurd h.1 hp⟩

theorem exists_ok_iff (h : Decides E x P a) : (∃ a', x = .ok a') ↔ P :=
  ⟨fun ⟨_, hx⟩ => (h.eq_ok_iff.mp hx).1, fun hp => ⟨a, h.eq_ok_iff.mpr ⟨hp, rfl⟩⟩⟩

theorem exists_error_of_not (h : Decides E x P a) (hp : ¬ P) : ∃ e, E e ∧ x = .error e := by
  rcases h with ⟨hp', -⟩ | ⟨-, e, he, hx⟩
  · exact absurd hp' hp
  · exact ⟨e, he, hx⟩

end Decides

/-! ### Lists of computations -/

theorem eq_ok_of_toOption {ε α : Type} {x : Except ε α} {a : α} (h : x.toOption = some a) :
    x = .ok a := by
  cases x with
  | error e => cases h
  | ok b => rw [Option.some.inj h]

theorem eq_ok_getD {ε α : Type} {x : Except ε α} (h : x.toOption.isSome = true) (a : α) :
    x = .ok (x.toOption.getD a) := by
  cases x with
  | error e => cases h
  | ok a => rfl

section
variable {ε α β γ : Type} {f : α → Except ε β} {as : List α} {bs : List β}

theorem ok_bind (a : α) (g : α → Except ε γ) : (Except.ok a >>= g) = g a := rfl

theorem bind_eq_ok {x : Except ε α} {g : α → Except ε γ} {c : γ} :
    (x >>= g) = .ok c ↔ ∃ a, x = .ok a ∧ g a = .ok c := by
  cases x with
  | error e => exact ⟨fun h => (nomatch h), fun ⟨_, h, _⟩ => (nomatch h)⟩
  | ok a => exact ⟨fun h => ⟨a, rfl, h⟩, fun ⟨_, h, hf⟩ => by cases h; exact hf⟩

theorem bind_unit_eq_ok {x : Except ε Unit} {y : Except ε γ} {c : γ} :
    (x >>= fun _ => y) = .ok c ↔ x = .ok () ∧ y = .ok c := by
  rw [bind_eq_ok]
  exact ⟨fun ⟨_, h⟩ => h, fun h => ⟨(), h⟩⟩

theorem bind_eq_error {x : Except ε α} {g : α → Except ε γ} {e : ε} :
    (x >>= g) = .error e ↔ x = .error e ∨ ∃ a, x = .ok a ∧ g a = .error e := by
  cases x with
  | error e' =>
    constructor
    · intro h
      cases h
      exact .inl rfl
    · rintro (h | ⟨a, h, -⟩)
      · cases h
        rfl
      · cases h
  | ok a =>
    refine ⟨fun h => .inr ⟨a, rfl, h⟩, ?_⟩
    rintro (h | ⟨a', h, hg⟩)
    · cases h
    · cases h
      exact hg

theorem map_eq_ok {g : α → γ} {x : Except ε α} {c : γ} : x.map g = .ok c ↔ ∃ a, x = .ok a ∧ g a = c := by
  cases x with
  | error e => exact ⟨fun h => (nomatch h), fun ⟨_, h, _⟩ => (nomatch h)⟩
  | ok a => exact ⟨fun h => ⟨a, rfl, Except.ok.inj h⟩, fun ⟨_, h, hg⟩ => by cases h; exact congrArg _ hg⟩

theorem map_eq_error {g : α → γ} {x : Except ε α} {e : ε} : x.map g = .error e ↔ x = .error e := by
  cases x with
  | error e' => exact ⟨fun h => congrArg Except.error (Except.error.inj h), fun h => by cases h; rfl⟩
  | ok a => exact ⟨fun h => (nomatch h), fun h => (nomatch h)⟩

theorem mapError_eq_ok {ε' : Type} {x : Except ε α} {g : ε → ε'} {a : α} :
    x.mapError g = .ok a ↔ x = .ok a := by
  cases x with
  | error e => exact ⟨fun h => (nomatch h), fun h => (nomatch h)⟩
  | ok a' => exact ⟨fun h => congrArg Except.ok (Except.ok.inj h), fun h => by cases h; rfl⟩

theorem mapError_eq_error {ε' : Type} {x : Except ε α} {g : ε → ε'} {e : ε'} :
    x.mapError g = .error e ↔ ∃ e', x = .error e' ∧ g e' = e := by
  cases x with
  | error e' =>
    constructor
    · intro h
      exact ⟨e', rfl, Except.error.inj h⟩
    · rintro ⟨e'', h, rfl⟩
      cases h
      rfl
  | ok a => exact ⟨fun h => (nomatch h), fun ⟨_, h, _⟩ => (nomatch h)⟩

theorem exists_of_mapM_cons {a : α} (h : (a :: as).mapM f = .ok bs) :
    ∃ b bs', f a = .ok b ∧ as.mapM f = .ok bs' ∧ bs = b :: bs' := by
  rw [List.mapM_cons] at h
  obtain ⟨b, hb, h⟩ := bind_eq_ok.mp h
  obtain ⟨bs', hbs, h⟩ := bind_eq_ok.mp h
  exact ⟨b, bs', hb, hbs, (Except.ok.inj h).symm⟩

/-- A list of computations yields what they yield one by one. -/
theorem mapM_eq_ok_iff : as.mapM f = .ok bs ↔ List.Forall₂ (fun a b => f a = .ok b) as bs := by
  constructor
  · intro h
    induction as generalizing bs with
    | nil =>
      cases h
      exact .nil
    | cons a as ih =>
      obtain ⟨b, bs', hb, hbs, rfl⟩ := exists_of_mapM_cons h
      exact .cons hb (ih hbs)
  · intro h
    induction h with
    | nil => rfl
    | cons hb _ ih =>
      rw [List.mapM_cons, hb, ih]
      rfl

theorem mapM_eq_error_iff {e : ε} : as.mapM f = .error e ↔ ∃ before a after,
    as = before ++ a :: after ∧ (∀ b ∈ before, ∃ c, f b = .ok c) ∧ f a = .error e := by
  constructor
  · intro h
    induction as with
    | nil => cases h
    | cons a as ih =>
      rw [List.mapM_cons] at h
      rcases bind_eq_error.mp h with h | ⟨b, hb, h⟩
      · exact ⟨[], a, as, rfl, List.forall_mem_nil _, h⟩
      · rcases bind_eq_error.mp h with h | ⟨bs', -, h⟩
        · obtain ⟨before, a', after, rfl, hbefore, ha'⟩ := ih h
          exact ⟨a :: before, a', after, rfl, List.forall_mem_cons.mpr ⟨⟨b, hb⟩, hbefore⟩, ha'⟩
        · cases h
  · rintro ⟨before, a, after, rfl, hbefore, ha⟩
    induction before with
    | nil =>
      rw [List.nil_append, List.mapM_cons, ha]
      rfl
    | cons b before ih =>
      rw [List.forall_mem_cons] at hbefore
      obtain ⟨⟨c, hc⟩, hbefore⟩ := hbefore
      rw [List.cons_append, List.mapM_cons, hc, ih hbefore]
      rfl

theorem mapM_singleton_of_eq_ok {a : α} {b : β} (h : f a = .ok b) : [a].mapM f = .ok [b] := by
  rw [List.mapM_cons, h]
  rfl

theorem exists_of_mem_mapM (h : as.mapM f = .ok bs) : ∀ b ∈ bs, ∃ a ∈ as, f a = .ok b := by
  induction as generalizing bs with
  | nil =>
    cases h
    exact fun b hb => nomatch hb
  | cons a as ih =>
    obtain ⟨b, bs', hb, hbs, rfl⟩ := exists_of_mapM_cons h
    refine List.forall_mem_cons.mpr ⟨⟨a, List.mem_cons_self, hb⟩, fun b' hb' => ?_⟩
    obtain ⟨a', ha', hf⟩ := ih hbs b' hb'
    exact ⟨a', List.mem_cons_of_mem _ ha', hf⟩

theorem map_of_mapM {g : α → γ} {g' : β → γ} (hg : ∀ a b, f a = .ok b → g' b = g a)
    (h : as.mapM f = .ok bs) : bs.map g' = as.map g := by
  induction as generalizing bs with
  | nil =>
    cases h
    rfl
  | cons a as ih =>
    obtain ⟨b, bs', hb, hbs, rfl⟩ := exists_of_mapM_cons h
    rw [List.map_cons, List.map_cons, hg a b hb, ih hbs]

end

/-! ### Kinds of errors -/

/-- A computation that fails with errors of one kind only. -/
def FailsOnly {ε α : Type} (E : ε → Prop) (x : Except ε α) : Prop := ∀ e, x = .error e → E e

namespace FailsOnly
variable {ε ε' α β : Type} {E : ε → Prop} {E' : ε' → Prop} {x : Except ε α}

theorem ok (a : α) : FailsOnly E (.ok a : Except ε α) := fun _ h => nomatch h

theorem error {e : ε} (he : E e) : FailsOnly E (.error e : Except ε α) := by
  rintro e' h
  cases h
  exact he

theorem bind {g : α → Except ε β} (h : FailsOnly E x) (hg : ∀ a, FailsOnly E (g a)) :
    FailsOnly E (x >>= g) := by
  intro e he
  rcases bind_eq_error.mp he with he | ⟨a, -, he⟩
  · exact h e he
  · exact hg a e he

theorem map {f : α → β} (h : FailsOnly E x) : FailsOnly E (x.map f) := by
  cases x with
  | error e => exact error (h e rfl)
  | ok a => exact ok _

theorem mapError {f : ε → ε'} (h : FailsOnly E x) (hf : ∀ e, E e → E' (f e)) :
    FailsOnly E' (x.mapError f) := by
  intro e' he
  obtain ⟨e, hx, rfl⟩ := mapError_eq_error.mp he
  exact hf e (h e hx)

theorem mapM {f : α → Except ε β} {l : List α} (h : ∀ a ∈ l, FailsOnly E (f a)) :
    FailsOnly E (l.mapM f) := by
  intro e he
  obtain ⟨before, a, after, rfl, -, ha⟩ := mapM_eq_error_iff.mp he
  exact h a (by simp) e ha

end FailsOnly

/-- The error of a computation that fails. -/
def errorOf? {ε α : Type} : Except ε α → Option ε
  | .error e => some e
  | .ok _ => none

section
variable {ε α β γ : Type} {x : Except ε α} {e : ε}

theorem errorOf?_eq_some_iff : errorOf? x = some e ↔ x = .error e := by
  cases x with
  | error e' => rw [errorOf?, Option.some.injEq, Except.error.injEq]
  | ok a => exact ⟨fun h => (nomatch h), fun h => (nomatch h)⟩

theorem errorOf?_map (f : α → β) : errorOf? (x.map f) = errorOf? x := by
  cases x <;> rfl

/-- Of two computations that do not depend on each other the first that fails is what both fail with. -/
theorem errorOf?_bind_bind (f : α → β → γ) (x : Except ε α) (y : Except ε β) :
    errorOf? (x >>= fun a => y >>= fun b => pure (f a b)) = (errorOf? x).or (errorOf? y) := by
  cases x with
  | error e => rfl
  | ok a => cases y <;> rfl

theorem errorOf?_mapM (f : α → Except ε β) (l : List α) :
    errorOf? (l.mapM f) = l.findSome? fun a => errorOf? (f a) := by
  induction l with
  | nil => rfl
  | cons a l ih =>
    rw [List.mapM_cons, errorOf?_bind_bind, ih, List.findSome?_cons]
    cases errorOf? (f a) <;> rfl

end

end HttpContract
