import HttpContract.Basic
import HttpContract.Proofs.Lists
import Mathlib.Data.List.Induction
import Mathlib.Data.List.Nodup

/-!
# Laws of ordered entries

Looking a key up, and inserting keys that are new: entries with distinct keys are kept as they come
(`foldl_insert`). Entries that are merged keep the first place of a key (`keys_merge`) and its last
value (`get?_merge`).
-/

namespace HttpContract

namespace Entries

variable {κ α : Type} [BEq κ] [LawfulBEq κ] {k k' : κ} {a : α} {entries : List (κ × α)}

theorem get?_cons_self : get? ((k, a) :: entries) k = some a := by
  unfold get?
  rw [List.find?_cons]
  simp only [beq_self_eq_true, Option.map_some]

theorem get?_cons_of_ne (h : k ≠ k') : get? ((k, a) :: entries) k' = get? entries k' := by
  unfold get?
  rw [List.find?_cons, beq_false_of_ne h]

omit [LawfulBEq κ] in
theorem get?_map_value {β : Type} (f : α → β) (entries : List (κ × α)) (k : κ) :
    get? (entries.map fun e => (e.1, f e.2)) k = (get? entries k).map f := by
  unfold get?
  rw [List.find?_map, Option.map_map, Option.map_map]
  rfl

/-- Among keys that are given what `g` has for them, a key is found if `g` has something for it. -/
theorem get?_filterMap_key (g : κ → Option α) (ks : List κ) (k : κ) :
    get? (ks.filterMap fun k => (g k).map (k, ·)) k = if ks.contains k then g k else none := by
  induction ks with
  | nil => rfl
  | cons k' ks ih =>
    rw [List.contains_cons]
    cases hg : g k' with
    | none =>
      rw [List.filterMap_cons_none (by rw [hg]; rfl), ih]
      by_cases he : k = k'
      · subst he
        rw [hg, ite_self, ite_self]
      · rw [beq_false_of_ne he, Bool.false_or]
    | some a =>
      rw [List.filterMap_cons_some (by rw [hg]; rfl)]
      by_cases he : k = k'
      · subst he
        rw [get?_cons_self, beq_self_eq_true, Bool.true_or, hg]
        rfl
      · rw [get?_cons_of_ne (Ne.symm he), ih, beq_false_of_ne he, Bool.false_or]

theorem get?_of_mem (hn : (entries.map (·.1)).Nodup) (h : (k, a) ∈ entries) :
    get? entries k = some a := by
  induction entries with
  | nil => cases h
  | cons e es ih =>
    rw [List.map_cons, List.nodup_cons] at hn
    rcases List.mem_cons.mp h with rfl | h
    · exact get?_cons_self
    · have hne : e.1 ≠ k := fun he => hn.1 (he ▸ List.mem_map_of_mem h)
      exact (get?_cons_of_ne hne).trans (ih hn.2 h)

theorem mem_of_get? (h : get? entries k = some a) : (k, a) ∈ entries := by
  obtain ⟨e, he, rfl⟩ := Option.map_eq_some_iff.mp h
  have hk : (e.1 == k) = true := List.find?_some (p := fun e : κ × α => e.1 == k) he
  rw [← beq_iff_eq.mp hk]
  exact List.mem_of_find?_eq_some he

theorem exists_get?_of_mem (h : k ∈ entries.map (·.1)) : ∃ a, get? entries k = some a := by
  induction entries with
  | nil => cases h
  | cons e es ih =>
    obtain ⟨k', a⟩ := e
    by_cases he : k' = k
    · exact ⟨a, by rw [he, get?_cons_self]⟩
    · rw [get?_cons_of_ne he]
      exact ih ((List.mem_cons.mp h).resolve_left (Ne.symm he))

theorem get?_eq_some (h : (k, a) ∈ entries) (hall : ∀ e ∈ entries, e.1 = k → e.2 = a) :
    get? entries k = some a := by
  obtain ⟨b, hb⟩ : ∃ b, get? entries k = some b := exists_get?_of_mem (List.mem_map_of_mem h)
  have hvalue : b = a := hall _ (mem_of_get? hb) rfl
  rw [hb, hvalue]

theorem mem_insert_self (entries : List (κ × α)) (k : κ) (a : α) : (k, a) ∈ insert entries k a := by
  induction entries with
  | nil => exact List.mem_singleton_self _
  | cons e es ih =>
    rw [insert]
    split_ifs with he
    · rw [beq_iff_eq.mp he]
      exact List.mem_cons_self
    · exact List.mem_cons_of_mem _ ih

theorem mem_insert_of_ne {e : κ × α} (h : e ∈ entries) (hne : e.1 ≠ k) (a : α) :
    e ∈ insert entries k a := by
  induction entries with
  | nil => cases h
  | cons e' es ih =>
    rw [insert]
    rcases List.mem_cons.mp h with rfl | h
    · rw [if_neg (by simpa using hne)]
      exact List.mem_cons_self
    · split_ifs
      · exact List.mem_cons_of_mem _ h
      · exact List.mem_cons_of_mem _ (ih h)

theorem mem_of_mem_insert {e : κ × α} (h : e ∈ insert entries k a) : e = (k, a) ∨ e ∈ entries := by
  induction entries with
  | nil => exact .inl (List.mem_singleton.mp h)
  | cons e' es ih =>
    rw [insert] at h
    split_ifs at h with hk
    · rcases List.mem_cons.mp h with rfl | h
      · exact .inl (by rw [beq_iff_eq.mp hk])
      · exact .inr (List.mem_cons_of_mem _ h)
    · rcases List.mem_cons.mp h with rfl | h
      · exact .inr List.mem_cons_self
      · exact (ih h).imp_right (List.mem_cons_of_mem _)

theorem get?_insert_self (entries : List (κ × α)) (k : κ) (a : α) :
    get? (insert entries k a) k = some a := by
  induction entries with
  | nil => exact get?_cons_self
  | cons e es ih =>
    rw [insert]
    split_ifs with he
    · rw [beq_iff_eq.mp he]
      exact get?_cons_self
    · exact (get?_cons_of_ne (by simpa using he)).trans ih

theorem get?_insert_of_ne (h : k' ≠ k) (entries : List (κ × α)) (a : α) :
    get? (insert entries k a) k' = get? entries k' := by
  induction entries with
  | nil => exact get?_cons_of_ne h.symm
  | cons e es ih =>
    rw [insert]
    by_cases hk : e.1 = k'
    · have hne : ¬ (e.1 == k) = true := by simpa [hk] using h
      rw [if_neg hne, ← hk]
      exact get?_cons_self.trans get?_cons_self.symm
    · split_ifs
      · exact (get?_cons_of_ne hk).trans (get?_cons_of_ne hk).symm
      · exact (get?_cons_of_ne hk).trans (ih.trans (get?_cons_of_ne hk).symm)

theorem mem_foldl_insert {e : κ × α} (h : e ∈ entries) {new : List (κ × α)}
    (hne : e.1 ∉ new.map (·.1)) :
    e ∈ new.foldl (fun es e => insert es e.1 e.2) entries := by
  induction new generalizing entries with
  | nil => exact h
  | cons e' es ih =>
    rw [List.map_cons, List.mem_cons, not_or] at hne
    exact ih (mem_insert_of_ne h hne.1 e'.2) hne.2

/-- Entries with distinct keys are there once they have been inserted. -/
theorem mem_foldl_insert_new {new : List (κ × α)} (hn : (new.map (·.1)).Nodup) (h : (k, a) ∈ new) :
    (k, a) ∈ new.foldl (fun es e => insert es e.1 e.2) entries := by
  obtain ⟨before, after, rfl⟩ := List.append_of_mem h
  rw [List.map_append, List.map_cons, List.nodup_append, List.nodup_cons] at hn
  rw [List.foldl_append, List.foldl_cons]
  exact mem_foldl_insert (mem_insert_self _ k a) hn.2.1.1

theorem insert_of_fresh (h : k ∉ entries.map (·.1)) (a : α) :
    insert entries k a = entries ++ [(k, a)] := by
  induction entries with
  | nil => rfl
  | cons e es ih =>
    rw [List.map_cons, List.mem_cons, not_or] at h
    rw [insert, if_neg (by simpa using Ne.symm h.1), ih h.2, List.cons_append]

theorem keys_insert_of_mem (h : k ∈ entries.map (·.1)) (a : α) :
    (insert entries k a).map (·.1) = entries.map (·.1) := by
  induction entries with
  | nil => cases h
  | cons e es ih =>
    rw [insert]
    split_ifs with he
    · rfl
    · have hne : k ≠ e.1 := fun hk => he (beq_iff_eq.mpr hk.symm)
      rw [List.map_cons, List.map_cons, ih ((List.mem_cons.mp h).resolve_left hne)]

theorem mem_keys_insert : k' ∈ (insert entries k a).map (·.1) ↔ k' ∈ entries.map (·.1) ∨ k' = k := by
  by_cases h : k ∈ entries.map (·.1)
  · rw [keys_insert_of_mem h]
    exact ⟨.inl, fun hk => hk.elim id fun he => he ▸ h⟩
  · rw [insert_of_fresh h, List.map_append, List.mem_append, List.map_singleton,
      List.mem_singleton]

theorem nodup_keys_insert (hn : (entries.map (·.1)).Nodup) (k : κ) (a : α) :
    ((insert entries k a).map (·.1)).Nodup := by
  by_cases h : k ∈ entries.map (·.1)
  · rwa [keys_insert_of_mem h]
  · rw [insert_of_fresh h, List.map_append, List.map_singleton, List.nodup_append]
    refine ⟨hn, List.nodup_singleton k, fun x hx y hy he => h ?_⟩
    obtain rfl : y = k := List.mem_singleton.mp hy
    exact he ▸ hx

theorem mem_keys_foldl_insert {new : List (κ × α)} :
    k ∈ (new.foldl (fun es e => insert es e.1 e.2) entries).map (·.1) ↔
      k ∈ entries.map (·.1) ∨ k ∈ new.map (·.1) := by
  induction new generalizing entries with
  | nil => simp
  | cons e es ih =>
    rw [List.foldl_cons, ih, mem_keys_insert, List.map_cons, List.mem_cons, or_assoc]

theorem nodup_keys_foldl_insert (hn : (entries.map (·.1)).Nodup) (new : List (κ × α)) :
    ((new.foldl (fun es e => insert es e.1 e.2) entries).map (·.1)).Nodup := by
  induction new generalizing entries with
  | nil => exact hn
  | cons e es ih => exact ih (nodup_keys_insert hn e.1 e.2)

theorem foldl_insert {new : List (κ × α)} (hn : (new.map (·.1)).Nodup)
    (h : ∀ k ∈ new.map (·.1), k ∉ entries.map (·.1)) :
    new.foldl (fun es e => insert es e.1 e.2) entries = entries ++ new := by
  induction new generalizing entries with
  | nil => rw [List.foldl_nil, List.append_nil]
  | cons e es ih =>
    rw [List.map_cons, List.nodup_cons] at hn
    rw [List.map_cons, List.forall_mem_cons] at h
    rw [List.foldl_cons, insert_of_fresh h.1, ih hn.2, List.append_assoc, List.singleton_append]
    intro k hk hm
    rw [List.map_append, List.mem_append, List.map_singleton, List.mem_singleton] at hm
    rcases hm with hm | rfl
    · exact h.2 k hk hm
    · exact hn.1 hk

/-! ### Merged entries -/

omit [LawfulBEq κ] in
theorem merge_append_singleton (entries : List (κ × α)) (e : κ × α) :
    merge (entries ++ [e]) = insert (merge entries) e.1 e.2 := by
  rw [merge, List.foldl_append]
  rfl

theorem nodup_keys_merge (entries : List (κ × α)) : ((merge entries).map (·.1)).Nodup := by
  have hnil : (([] : List (κ × α)).map (·.1)).Nodup := List.nodup_nil
  exact nodup_keys_foldl_insert hnil entries

theorem keys_merge (entries : List (κ × α)) :
    (merge entries).map (·.1) = (entries.map (·.1)).eraseDups := by
  induction entries using List.reverseRecOn with
  | nil => rfl
  | append_singleton entries e ih =>
    rw [merge_append_singleton, List.map_append, List.map_singleton, List.eraseDups_append, ← ih]
    by_cases h : e.1 ∈ entries.map (·.1)
    · have hmem : e.1 ∈ (merge entries).map (·.1) := by rwa [ih, List.mem_eraseDups]
      rw [keys_insert_of_mem hmem, List.removeAll, List.filter_cons_of_neg (by simpa using h),
        List.filter_nil, List.eraseDups_nil, List.append_nil]
    · have hmem : e.1 ∉ (merge entries).map (·.1) := by rwa [ih, List.mem_eraseDups]
      rw [insert_of_fresh hmem, List.map_append, List.removeAll,
        List.filter_cons_of_pos (by simpa using h)]
      rfl

theorem get?_foldl_insert (new entries : List (κ × α)) (k : κ) :
    get? (new.foldl (fun es e => insert es e.1 e.2) entries) k =
      (get? new.reverse k).or (get? entries k) := by
  induction new using List.reverseRecOn with
  | nil => rfl
  | append_singleton new e ih =>
    rw [List.foldl_append, List.foldl_cons, List.foldl_nil, List.reverse_append,
      List.reverse_singleton, List.singleton_append]
    by_cases h : e.1 = k
    · subst h
      have hlast : get? (e :: new.reverse) e.1 = some e.2 := get?_cons_self
      rw [get?_insert_self, hlast]
      rfl
    · have hother : get? (e :: new.reverse) k = get? new.reverse k := get?_cons_of_ne h
      rw [get?_insert_of_ne (Ne.symm h), ih, hother]

/-- Each key has the value that it was given last. -/
theorem get?_merge (entries : List (κ × α)) (k : κ) :
    get? (merge entries) k = get? entries.reverse k :=
  (get?_foldl_insert entries [] k).trans Option.or_none

theorem mem_iff_get? (hn : (entries.map (·.1)).Nodup) :
    (k, a) ∈ entries ↔ get? entries k = some a :=
  ⟨get?_of_mem hn, mem_of_get?⟩

theorem get?_reverse (hn : (entries.map (·.1)).Nodup) (k : κ) :
    get? entries.reverse k = get? entries k := by
  have hback : (entries.reverse.map (·.1)).Nodup := by
    rw [List.map_reverse]
    exact List.nodup_reverse.mpr hn
  refine Option.ext fun a => ?_
  rw [← mem_iff_get? hn, ← mem_iff_get? hback, List.mem_reverse]

theorem mem_merge_iff : (k, a) ∈ merge entries ↔ get? entries.reverse k = some a := by
  rw [mem_iff_get? (nodup_keys_merge entries), get?_merge]

omit [LawfulBEq κ] in
/-- In entries from several places, the first place that has a key counts. -/
theorem get?_flatMap {β : Type} (as : List β) (g : β → List (κ × α)) (k : κ) :
    get? (as.flatMap g) k = as.findSome? fun a => get? (g a) k := by
  unfold get?
  rw [List.find?_flatMap, List.map_findSome?]
  rfl

end Entries

end HttpContract
