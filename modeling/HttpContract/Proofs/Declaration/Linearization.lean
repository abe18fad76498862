import HttpContract.Declaration.Extraction
import HttpContract.Proofs.Decision
import HttpContract.Proofs.Entries
import Mathlib.Tactic.SplitIfs

/-!
# Orders of ancestors

A class comes first in its order, and the orders of its bases are kept in it
(`Lineage.ofClass?_eq_some`). A class of a program has the lineage that the classes before it give it
(`Program.lineage?_of_split`).
-/

namespace HttpContract

namespace Ancestor

theorem sublist_of_merge {fuel : Nat} {orders : List (List Ancestor)} {order o : List Ancestor}
    (h : merge fuel orders = some order) (ho : o ∈ orders) : o.Sublist order := by
  induction fuel generalizing orders order o with
  | zero =>
    simp only [merge] at h
    split_ifs at h with hempty
    rw [List.all_eq_true] at hempty
    rw [List.isEmpty_iff.mp (hempty o ho)]
    exact List.nil_sublist _
  | succ fuel ih =>
    cases o with
    | nil => exact List.nil_sublist _
    | cons a tail =>
      have hkept : a :: tail ∈ orders.filter (!·.isEmpty) := by simpa using ho
      simp only [merge] at h
      split_ifs at h with hempty
      · rw [List.isEmpty_iff.mp hempty] at hkept
        cases hkept
      obtain ⟨next, -, h⟩ := Option.bind_eq_some_iff.mp h
      obtain ⟨rest, hrest, h⟩ := Option.bind_eq_some_iff.mp h
      obtain rfl : next :: rest = order := Option.some.inj h
      have hstep := ih hrest (List.mem_map_of_mem hkept)
      by_cases ha : a = next
      · subst ha
        simp only [List.head?_cons, if_true, List.drop_one, List.tail_cons] at hstep
        exact hstep.cons_cons a
      · simp only [List.head?_cons, Option.some.injEq, ha, if_false] at hstep
        exact hstep.cons next

theorem linearize?_eq_some {cls : Ancestor} {bases : List Ancestor} {orders : List (List Ancestor)}
    {order : List Ancestor} (h : linearize? cls bases orders = some order) :
    order.head? = some cls ∧ ∀ o ∈ orders, o ⊆ order := by
  obtain ⟨rest, hrest, rfl⟩ := Option.map_eq_some_iff.mp h
  exact ⟨rfl, fun o ho => List.subset_cons_of_subset cls
    (sublist_of_merge hrest (List.mem_append_left _ ho)).subset⟩

end Ancestor

namespace Lineage
variable {known : Lineages} {name : ClassName} {c : ContractClass} {l : Lineage}

theorem mem_bases {b : ClassName × List TypeExpr} (hb : b ∈ c.bases) :
    .declared b.1 ∈ bases known c := by
  have hown : Ancestor.declared b.1 ∈ c.bases.map fun b => Ancestor.declared b.1 :=
    List.mem_map_of_mem hb
  have hall : ∀ rest, .declared b.1 ∈ (if (c.bases.map (fun b => Ancestor.declared b.1) ++ rest).isEmpty
      then [.object] else c.bases.map (fun b => Ancestor.declared b.1) ++ rest) := by
    intro rest
    rw [if_neg]
    · exact List.mem_append_left _ hown
    · intro hempty
      rw [List.isEmpty_iff, List.append_eq_nil_iff] at hempty
      rw [hempty.1] at hown
      cases hown
  unfold bases
  cases c.kind with
  | protocol => exact hall _
  | abstractBase =>
    simp only [List.append_assoc]
    exact hall _
  | plain => exact hall _

theorem ofClass?_eq_some (h : ofClass? known name c = some l) :
    l.order.head? = some (.declared name) ∧
      ∀ b ∈ c.bases, orderOf known (.declared b.1) ⊆ l.order := by
  simp only [ofClass?] at h
  split_ifs at h
  obtain ⟨order, horder, rfl⟩ := Option.map_eq_some_iff.mp h
  obtain ⟨hhead, hbases⟩ := Ancestor.linearize?_eq_some horder
  exact ⟨hhead, fun b hb => hbases _ (List.mem_map_of_mem (mem_bases hb))⟩

theorem find?_of_mem (hn : (known.map (·.1)).Nodup) (h : (name, l) ∈ known) :
    find? known name = some l := by
  refine Entries.get?_of_mem ?_ (List.mem_reverse.mpr h)
  rw [List.map_reverse]
  exact List.nodup_reverse.mpr hn

end Lineage

theorem Declaration.declare_eq_ok {known known' : Lineages} {d : Declaration}
    (h : declare known d = .ok known') : ∃ l, known' = known ++ [(d.name, l)] ∧
      ∀ c, d.body = .contract c → Lineage.ofClass? known d.name c = some l := by
  unfold declare at h
  cases hbody : d.body with
  | contract c =>
    rw [hbody] at h
    simp only at h
    split_ifs at h
    split at h
    · next l hl => exact ⟨l, (Except.ok.inj h).symm, by rintro c' ⟨⟩; exact hl⟩
    · cases h
  | _ =>
    rw [hbody] at h
    exact ⟨_, (Except.ok.inj h).symm, fun c hc => nomatch hc⟩

theorem Scope.exists_of_foldlM_declare {s : Scope} {known known' : Lineages}
    (h : s.foldlM Declaration.declare known = .ok known') :
    ∃ more, known' = known ++ more ∧ more.map (·.1) = s.map (·.name) := by
  induction s generalizing known with
  | nil => exact ⟨[], by simp [Except.ok.inj h], rfl⟩
  | cons d ds ih =>
    rw [List.foldlM_cons] at h
    obtain ⟨next, hnext, h⟩ := bind_eq_ok.mp h
    obtain ⟨l, rfl, -⟩ := Declaration.declare_eq_ok hnext
    obtain ⟨more, rfl, hmore⟩ := ih h
    exact ⟨(d.name, l) :: more, by simp, by simp [hmore]⟩

namespace Program
variable {s before after : Scope} {d : Declaration} {p : Program}

theorem scope_ofScope (h : ofScope s = .ok p) : p.scope = s := by
  unfold ofScope at h
  cases hl : s.declare with
  | error e => rw [hl] at h; cases h
  | ok known => rw [hl] at h; rw [← Except.ok.inj h]

theorem lineages_ofScope (h : ofScope s = .ok p) : s.declare = .ok p.lineages := by
  unfold ofScope at h
  cases hl : s.declare with
  | error e => rw [hl] at h; cases h
  | ok known => rw [hl] at h; rw [← Except.ok.inj h]

/-- In a program that declares each class once, a class has the lineage that the classes before it give
it: it stands first in its order, and the orders of its bases are kept. -/
theorem lineage?_of_split (h : ofScope s = .ok p) (hn : (s.map (·.name)).Nodup)
    (hs : s = before ++ d :: after) {c : ContractClass} (hd : d.body = .contract c) :
    ∃ l, p.lineage? d.name = some l ∧ l.order.head? = some (.declared d.name) ∧
      ∀ b ∈ c.bases, b.1 ∈ before.map (·.name) →
        ∃ lb, p.lineage? b.1 = some lb ∧ lb.order ⊆ l.order := by
  have hdeclare := lineages_ofScope h
  unfold Scope.declare at hdeclare
  obtain ⟨all, hall, hkeys⟩ := Scope.exists_of_foldlM_declare hdeclare
  have hnodup : (p.lineages.map (·.1)).Nodup := by rw [hall, List.nil_append, hkeys]; exact hn
  rw [hs, List.foldlM_append] at hdeclare
  obtain ⟨known, hbefore, hrest⟩ := bind_eq_ok.mp hdeclare
  rw [List.foldlM_cons] at hrest
  obtain ⟨next, hnext, hafter⟩ := bind_eq_ok.mp hrest
  obtain ⟨l, rfl, hclass⟩ := Declaration.declare_eq_ok hnext
  obtain ⟨more, hmore, -⟩ := Scope.exists_of_foldlM_declare hafter
  obtain ⟨done, hdone, hknown⟩ := Scope.exists_of_foldlM_declare hbefore
  rw [List.nil_append] at hdone
  subst hdone
  obtain ⟨hhead, horders⟩ := Lineage.ofClass?_eq_some (hclass c hd)
  refine ⟨l, Lineage.find?_of_mem hnodup (by simp [hmore]), hhead, fun b hb hbefore => ?_⟩
  rw [← hknown] at hbefore
  obtain ⟨⟨name, lb⟩, hmem, rfl⟩ := List.mem_map.mp hbefore
  refine ⟨lb, Lineage.find?_of_mem hnodup (by simp [hmore, hmem]), ?_⟩
  have hfind : Lineage.find? known b.1 = some lb := by
    refine Lineage.find?_of_mem (hnodup.sublist (List.Sublist.map _ ?_)) hmem
    rw [hmore, List.append_assoc]
    exact List.sublist_append_left _ _
  have horder := horders b hb
  rw [Lineage.orderOf, hfind] at horder
  exact horder

end Program

end HttpContract
