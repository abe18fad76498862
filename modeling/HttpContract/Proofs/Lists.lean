import Mathlib.Data.List.Forall2
import Mathlib.Tactic.SplitIfs

/-!
# Lists

Facts about lists of anything: lists that are related item by item, what a search finds, where a list is
cut by a condition, and how parts are put together with separators between them.
-/

namespace HttpContract

/-! ### Item by item -/

section
variable {α β γ : Type} {as : List α} {bs : List β}

theorem exists_of_mem_forall₂ {R : α → β → Prop} (h : List.Forall₂ R as bs) :
    ∀ a ∈ as, ∃ b ∈ bs, R a b := by
  induction h with
  | nil => exact fun a ha => nomatch ha
  | cons hR _ ih =>
    refine List.forall_mem_cons.mpr ⟨⟨_, List.mem_cons_self, hR⟩, fun a ha => ?_⟩
    obtain ⟨b, hb, hR⟩ := ih a ha
    exact ⟨b, List.mem_cons_of_mem _ hb, hR⟩

theorem forall₂_comp {R : α → β → Prop} {S : β → γ → Prop} {T : α → γ → Prop} {cs : List γ}
    (hT : ∀ a b c, R a b → S b c → T a c) (hR : List.Forall₂ R as bs) (hS : List.Forall₂ S bs cs) :
    List.Forall₂ T as cs := by
  induction hR generalizing cs with
  | nil =>
    cases hS
    exact .nil
  | cons hab _ ih =>
    cases hS with
    | cons hbc hS => exact .cons (hT _ _ _ hab hbc) (ih hS)

theorem map_eq_of_forall₂ {g : α → γ} {g' : β → γ}
    (h : List.Forall₂ (fun a b => g a = g' b) as bs) : as.map g = bs.map g' := by
  rwa [← List.forall₂_eq_eq_eq, List.forall₂_map_left_iff, List.forall₂_map_right_iff]

theorem mapM_eq_some_iff {f : α → Option β} :
    as.mapM f = some bs ↔ List.Forall₂ (fun a b => f a = some b) as bs := by
  induction as generalizing bs with
  | nil =>
    rw [List.mapM_nil, List.forall₂_nil_left_iff]
    exact Option.some_inj.trans eq_comm
  | cons a as ih =>
    rw [List.mapM_cons, List.forall₂_cons_left_iff]
    simp only [Option.bind_eq_bind, Option.bind_eq_some_iff, ih]
    constructor
    · rintro ⟨b, hb, bs', hbs, h⟩
      exact ⟨b, bs', hb, hbs, (Option.some.inj h).symm⟩
    · rintro ⟨b, bs', hb, hbs, rfl⟩
      exact ⟨b, hb, bs', hbs, rfl⟩

theorem mapM_id_map_some (xs : List α) : (xs.map some).mapM id = some xs := by
  induction xs with
  | nil => rfl
  | cons x xs ih => simp [ih]

theorem sublist_fst_zip (as : List α) (bs : List β) :
    ((as.zip bs).map (·.1)).Sublist as := by
  induction as generalizing bs with
  | nil => exact List.nil_sublist _
  | cons a as ih =>
    cases bs with
    | nil => exact List.nil_sublist _
    | cons b bs => exact (ih bs).cons_cons a

end

/-! ### Searching -/

section
variable {α β γ : Type} {as : List α}

theorem eraseDups_of_nodup [BEq α] [LawfulBEq α] (hn : as.Nodup) :
    as.eraseDups = as := by
  induction as with
  | nil => rfl
  | cons a as ih =>
    rw [List.nodup_cons] at hn
    have hfresh : as.filter (fun b => !b == a) = as := List.filter_eq_self.mpr fun b hb => by
      have hne : b ≠ a := fun he => hn.1 (he ▸ hb)
      rw [beq_false_of_ne hne, Bool.not_false]
    rw [List.eraseDups_cons, hfresh, ih hn.2]

theorem findSome?_flatMap (f : β → Option γ) (g : α → List β) (l : List α) :
    (l.flatMap g).findSome? f = l.findSome? fun a => (g a).findSome? f := by
  induction l with
  | nil => rfl
  | cons a l ih =>
    rw [List.flatMap_cons, List.findSome?_append, ih, List.findSome?_cons]
    cases (g a).findSome? f <;> rfl

theorem find?_filter_of_imp {q r : α → Bool} (h : ∀ a, q a → r a) (as : List α) :
    (as.filter r).find? q = as.find? q := by
  rw [List.find?_filter]
  congr 1
  funext a
  cases hq : q a <;> simp [h, hq]

end

section
variable {α : Type} {name : α → String} {as : List α} {a : α}

theorem filter_name (hn : (as.map name).Nodup) (ha : a ∈ as) :
    as.filter (name · == name a) = [a] := by
  induction as with
  | nil => cases ha
  | cons b as ih =>
    rw [List.map_cons, List.nodup_cons] at hn
    rcases List.mem_cons.mp ha with rfl | ha
    · have hnone : as.filter (name · == name a) = [] :=
        List.filter_eq_nil_iff.mpr fun b hb h => hn.1 (beq_iff_eq.mp h ▸ List.mem_map_of_mem hb)
      rw [List.filter_cons_of_pos (by simp), hnone]
    · have hne : name b ≠ name a := fun h => hn.1 (h ▸ List.mem_map_of_mem ha)
      rw [List.filter_cons_of_neg (by simpa using hne), ih hn.2 ha]

theorem find?_name (hn : (as.map name).Nodup) (ha : a ∈ as) :
    as.find? (name · == name a) = some a := by
  rw [← List.head?_filter, filter_name hn ha, List.head?_cons]

theorem find?_name_eq_none {n : String} : as.find? (name · == n) = none ↔ n ∉ as.map name := by
  rw [List.find?_eq_none, List.mem_map]
  simp only [beq_iff_eq, not_exists, not_and]

end

/-! ### Cutting -/

section
variable {α : Type} {p : α → Bool} {a x : α} {row xs ys rest : List α}

theorem mem_dropWhile (hx : x ∈ xs) (hp : p x = false) :
    x ∈ xs.dropWhile p := by
  rw [← List.takeWhile_append_dropWhile (p := p) (l := xs), List.mem_append] at hx
  rcases hx with hx | hx
  · rw [List.all_eq_true.mp List.all_takeWhile x hx] at hp
    cases hp
  · exact hx

/-- What is behind the items of a kind begins where the first of another kind stands. -/
theorem takeWhile_append_stops (hxs : ∀ x ∈ xs, p x = true)
    (hrest : ∀ x ∈ rest.head?, p x = false) :
    (xs ++ rest).takeWhile p = xs ∧ (xs ++ rest).dropWhile p = rest := by
  rw [List.takeWhile_append_of_pos hxs, List.dropWhile_append_of_pos hxs]
  cases rest with
  | nil => exact ⟨List.append_nil xs, rfl⟩
  | cons x rest =>
    have hx : ¬ p x = true := by
      rw [hrest x rfl]
      exact Bool.false_ne_true
    rw [List.takeWhile_cons_of_neg hx, List.dropWhile_cons_of_neg hx, List.append_nil]
    exact ⟨rfl, rfl⟩

theorem takeWhile_append_cons (ha : p a = false)
    (xs ys : List α) : (xs ++ a :: ys).takeWhile p = xs.takeWhile p := by
  induction xs with
  | nil => rw [List.nil_append, List.takeWhile_cons, ha]; rfl
  | cons x xs ih =>
    rw [List.cons_append, List.takeWhile_cons, List.takeWhile_cons, ih]

theorem dropWhile_append_cons (ha : p a = false)
    (xs ys : List α) : (xs ++ a :: ys).dropWhile p = xs.dropWhile p ++ a :: ys := by
  induction xs with
  | nil => rw [List.nil_append, List.dropWhile_cons, ha]; rfl
  | cons x xs ih =>
    rw [List.cons_append, List.dropWhile_cons, List.dropWhile_cons, ih]
    split <;> rfl

theorem prefix_append_cons_iff (h : a ∉ row) : row <+: xs ++ a :: ys ↔ row <+: xs := by
  refine ⟨fun hp => ?_, fun hp => hp.trans (List.prefix_append _ _)⟩
  -- a longer row would begin with all of `xs` and then have the separator
  rcases Nat.le_total row.length xs.length with hle | hle
  · exact List.prefix_of_prefix_length_le hp (List.prefix_append _ _) hle
  · obtain ⟨rest, rfl⟩ := List.prefix_of_prefix_length_le (List.prefix_append _ _) hp hle
    cases rest with
    | nil => exact (List.append_nil xs).symm ▸ List.prefix_refl _
    | cons b rest =>
      rw [List.prefix_append_right_inj, List.cons_prefix_cons] at hp
      exact absurd (hp.1 ▸ List.mem_append_right _ List.mem_cons_self) h

/-- A row without the separator does not reach across it. -/
theorem infix_append_cons_iff (h : a ∉ row) :
    row <:+: xs ++ a :: ys ↔ row <:+: xs ∨ row <:+: ys := by
  induction xs with
  | nil =>
    rw [List.nil_append, List.infix_cons_iff, ← List.nil_append (a :: ys), prefix_append_cons_iff h,
      List.prefix_nil, List.infix_nil]
  | cons x xs ih =>
    rw [List.cons_append, List.infix_cons_iff, ih, ← List.cons_append, prefix_append_cons_iff h,
      List.infix_cons_iff, or_assoc]

end

section
variable {α : Type} [BEq α] [LawfulBEq α] {a x : α} {xs ys part : List α}

/-- A list is cut at the first separator. -/
theorem takeWhile_dropWhile_ne_append (h : a ∉ xs) (ys : List α) :
    (xs ++ a :: ys).takeWhile (· != a) = xs ∧ (xs ++ a :: ys).dropWhile (· != a) = a :: ys := by
  refine takeWhile_append_stops (fun x hx => bne_iff_ne.mpr fun he => h (he ▸ hx)) fun x hx => ?_
  cases Option.some.inj hx
  exact bne_self_eq_false a

theorem dropWhile_replicate_append (a : α) (n : Nat) (xs : List α) :
    (List.replicate n a ++ xs).dropWhile (· == a) = xs.dropWhile (· == a) :=
  List.dropWhile_append_of_pos fun _ hx => beq_iff_eq.mpr (List.eq_of_mem_replicate hx)

/-! ### Separators -/

theorem splitOn_append (h : a ∉ xs) (ys : List α) :
    (xs ++ ys).splitOn a = (ys.splitOn a).modifyHead (xs ++ ·) := by
  induction xs with
  | nil => rw [List.nil_append]; cases ys.splitOn a <;> rfl
  | cons x xs ih =>
    rw [List.mem_cons, not_or] at h
    rw [List.cons_append, List.splitOn_cons_eq_if_modifyHead,
      if_neg (by simpa using Ne.symm h.1), ih h.2]
    cases ys.splitOn a <;> rfl

theorem not_mem_of_mem_splitOn (h : part ∈ xs.splitOn a) :
    a ∉ part := by
  induction xs generalizing part with
  | nil =>
    rw [List.splitOn_nil, List.mem_singleton] at h
    rw [h]
    exact List.not_mem_nil
  | cons x xs ih =>
    rw [List.splitOn_cons_eq_if_modifyHead] at h
    split_ifs at h with hx
    · rcases List.mem_cons.mp h with rfl | h
      · exact List.not_mem_nil
      · exact ih h
    · obtain ⟨s, ss, hs⟩ := List.exists_cons_of_ne_nil (List.splitOn_ne_nil a xs)
      rw [hs] at h ih
      rcases List.mem_cons.mp h with rfl | h
      · rw [List.mem_cons, not_or]
        exact ⟨fun he => hx (by simp [he]), ih List.mem_cons_self⟩
      · exact ih (List.mem_cons_of_mem _ h)

theorem exists_mem_splitOn (hx : x ∈ xs) (hne : x ≠ a) :
    ∃ part ∈ xs.splitOn a, x ∈ part := by
  induction xs with
  | nil => cases hx
  | cons y xs ih =>
    obtain ⟨part, parts, hparts⟩ := List.exists_cons_of_ne_nil (List.splitOn_ne_nil a xs)
    rw [hparts] at ih
    rw [List.splitOn_cons_eq_if_modifyHead, hparts, List.modifyHead_cons]
    rcases List.mem_cons.mp hx with rfl | hx
    · rw [if_neg (by rwa [beq_iff_eq])]
      exact ⟨_, List.mem_cons_self, List.mem_cons_self⟩
    · obtain ⟨found, hfound, hmem⟩ := ih hx
      split_ifs
      · exact ⟨found, List.mem_cons_of_mem _ hfound, hmem⟩
      · rcases List.mem_cons.mp hfound with rfl | hfound
        · exact ⟨_, List.mem_cons_self, List.mem_cons_of_mem _ hmem⟩
        · exact ⟨found, List.mem_cons_of_mem _ hfound, hmem⟩

end

section
variable {α β : Type} {a x : α} {part : List α} {xs ys : List (List α)}

theorem intercalate_append (a : α) (hx : xs ≠ []) (hy : ys ≠ []) :
    [a].intercalate (xs ++ ys) = [a].intercalate xs ++ a :: [a].intercalate ys := by
  induction xs with
  | nil => exact absurd rfl hx
  | cons x xs ih =>
    cases xs with
    | nil => rw [List.singleton_append, List.intercalate_cons_of_ne_nil hy, List.intercalate_singleton,
        List.append_assoc, List.singleton_append]
    | cons x' xs =>
      rw [List.cons_append, List.intercalate_cons_of_ne_nil (by simp), ih (List.cons_ne_nil _ _),
        List.intercalate_cons_cons]
      simp only [List.append_assoc]

theorem mem_intercalate (hp : part ∈ xs)
    (hx : x ∈ part) : x ∈ [a].intercalate xs := by
  obtain ⟨before, behind, rfl⟩ := List.append_of_mem hp
  have hpart : x ∈ [a].intercalate (part :: behind) := by
    by_cases hnil : behind = []
    · rwa [hnil, List.intercalate_singleton]
    · rw [List.intercalate_cons_of_ne_nil hnil, List.append_assoc]
      exact List.mem_append_left _ hx
  by_cases hnil : before = []
  · rwa [hnil]
  · rw [intercalate_append a hnil (List.cons_ne_nil _ _)]
    exact List.mem_append_right _ (List.mem_cons_of_mem _ hpart)

theorem eq_or_exists_of_mem_intercalate (h : x ∈ [a].intercalate xs) : x = a ∨ ∃ part ∈ xs, x ∈ part := by
  induction xs with
  | nil => cases h
  | cons part xs ih =>
    by_cases hnil : xs = []
    · rw [hnil, List.intercalate_singleton] at h
      exact .inr ⟨part, List.mem_cons_self, h⟩
    · rw [List.intercalate_cons_of_ne_nil hnil, List.append_assoc, List.mem_append,
        List.singleton_append, List.mem_cons] at h
      rcases h with h | h | h
      · exact .inr ⟨part, List.mem_cons_self, h⟩
      · exact .inl h
      · rcases ih h with h | ⟨part', hp, h⟩
        · exact .inl h
        · exact .inr ⟨part', List.mem_cons_of_mem _ hp, h⟩

theorem not_mem_intercalate (hx : x ≠ a) (h : ∀ part ∈ xs, x ∉ part) :
    x ∉ [a].intercalate xs := by
  intro hmem
  rcases eq_or_exists_of_mem_intercalate hmem with rfl | ⟨part, hpart, hmem⟩
  · exact hx rfl
  · exact h part hpart hmem

theorem head?_intercalate (hpart : part ≠ []) (xs : List (List α)) :
    ([a].intercalate (part :: xs)).head? = part.head? := by
  by_cases hnil : xs = []
  · rw [hnil, List.intercalate_singleton]
  · rw [List.intercalate_cons_of_ne_nil hnil, List.append_assoc, List.head?_append_of_ne_nil _ hpart]

theorem getLast?_intercalate (hpart : part ≠ []) (xs : List (List α)) :
    ([a].intercalate (xs ++ [part])).getLast? = part.getLast? := by
  by_cases hnil : xs = []
  · rw [hnil, List.nil_append, List.intercalate_singleton]
  · rw [intercalate_append a hnil (List.cons_ne_nil _ _), List.intercalate_singleton,
      List.append_cons, List.getLast?_append_of_ne_nil _ hpart]

theorem filterMap_intercalate {f : α → Option β} (ha : f a = none) (xss : List (List α)) :
    ([a].intercalate xss).filterMap f = xss.flatMap (·.filterMap f) := by
  induction xss with
  | nil => rfl
  | cons xs xss ih =>
    cases xss with
    | nil => simp
    | cons ys xss =>
      rw [List.intercalate_cons_cons, List.filterMap_append, List.filterMap_append, ih,
        List.filterMap_cons_none ha, List.filterMap_nil, List.append_nil]
      exact List.flatMap_cons.symm

theorem write_intercalate {w : List α → String} (hnil : w [] = "")
    (happend : ∀ xs ys, w (xs ++ ys) = w xs ++ w ys) {s : String} (ha : w [a] = s)
    (xss : List (List α)) : w ([a].intercalate xss) = String.intercalate s (xss.map w) := by
  induction xss with
  | nil => exact hnil
  | cons xs xss ih =>
    cases xss with
    | nil => rw [List.intercalate_singleton, List.map_singleton, String.intercalate_singleton]
    | cons ys xss =>
      rw [List.intercalate_cons_cons, happend, happend, ih, ha]
      exact String.intercalate_cons_cons.symm

end

end HttpContract
