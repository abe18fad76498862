import HttpContract.Basic
import HttpContract.Proofs.Lists
import HttpContract.Proofs.PathTemplate.Cut

/-!
# Segments

`parts` are the parts of a list between separators, once the separators around the whole are left
out: of a path or of a template, its segments. What is put in the place of the items between
separators does not move the separators (`parts_flatMap`), as long as it holds none itself and the
whole neither begins nor ends with nothing in the place of an item.
-/

namespace HttpContract

open Text

section
variable {α β : Type} [BEq α] [LawfulBEq α] [BEq β] [LawfulBEq β]

/-! ### Splitting -/

/-- What an item is replaced by. The separator stays one separator. -/
structure Keeps (g : α → List β) (a : α) (b : β) : Prop where
  separator : g a = [b]
  item : ∀ x, x ≠ a → b ∉ g x

variable {g : α → List β} {a : α} {b : β}

theorem Keeps.splitOn_flatMap (h : Keeps g a b) (xs : List α) :
    (xs.flatMap g).splitOn b = (xs.splitOn a).map (·.flatMap g) := by
  induction xs with
  | nil => rfl
  | cons x xs ih =>
    rw [List.flatMap_cons, List.splitOn_cons_eq_if_modifyHead]
    split_ifs with hx
    · rw [beq_iff_eq.mp hx, h.separator, List.singleton_append,
        List.splitOn_cons_eq_if_modifyHead, if_pos (beq_self_eq_true b), ih]
      rfl
    · rw [splitOn_append (h.item x (by simpa using hx)), ih]
      cases xs.splitOn a <;> simp

/-! ### Trimming -/

theorem Keeps.dropWhile_flatMap (h : Keeps g a b) {xs : List α}
    (hhead : ∀ x, (xs.dropWhile (· == a)).head? = some x → g x ≠ []) :
    (xs.flatMap g).dropWhile (· == b) = (xs.dropWhile (· == a)).flatMap g := by
  induction xs with
  | nil => rfl
  | cons x xs ih =>
    rw [List.flatMap_cons]
    rw [List.dropWhile_cons] at hhead ⊢
    split_ifs at hhead ⊢ with hx
    · rw [beq_iff_eq.mp hx, h.separator, List.singleton_append, List.dropWhile_cons,
        if_pos (beq_self_eq_true b)]
      exact ih hhead
    · have hitem := h.item x (by simpa using hx)
      obtain ⟨y, ys, hy⟩ := List.exists_cons_of_ne_nil (hhead x rfl)
      rw [hy, List.mem_cons, not_or] at hitem
      rw [List.flatMap_cons, hy, List.cons_append, List.dropWhile_cons,
        if_neg (by simpa using Ne.symm hitem.1)]

omit [BEq α] [LawfulBEq α] [BEq β] [LawfulBEq β] in
theorem Keeps.reverse (h : Keeps g a b) : Keeps (fun x => (g x).reverse) a b where
  separator := by rw [h.separator]; rfl
  item x hx := by rw [List.mem_reverse]; exact h.item x hx

omit [BEq α] [LawfulBEq α] in
theorem head?_trimBoth (p : α → Bool) (xs : List α) :
    (trimBoth p xs).head? = (xs.dropWhile p).head? := by
  unfold trimBoth
  cases h : xs.dropWhile p with
  | nil => rfl
  | cons x rest =>
    have hx : ¬ p x = true := by
      have := List.head?_dropWhile_not p xs
      rw [h] at this
      simpa using this
    rw [List.reverse_cons, List.dropWhile_append, List.dropWhile_cons, if_neg hx]
    split_ifs
    · rfl
    · rw [List.reverse_append]
      rfl

/-- Items at the ends that are replaced by something end what is trimmed, too. -/
theorem Keeps.trimBoth_flatMap (h : Keeps g a b) {xs : List α}
    (hends : ∀ x, ((trimBoth (· == a) xs).head? = some x ∨
      (trimBoth (· == a) xs).getLast? = some x) → g x ≠ []) :
    trimBoth (· == b) (xs.flatMap g) = (trimBoth (· == a) xs).flatMap g := by
  have hhead : ∀ x, (xs.dropWhile (· == a)).head? = some x → g x ≠ [] := by
    intro x hx
    exact hends x (.inl (by rw [head?_trimBoth, hx]))
  have hlast : ∀ x, ((xs.dropWhile (· == a)).reverse.dropWhile (· == a)).head? = some x →
      (g x).reverse ≠ [] := by
    intro x hx
    rw [Ne, List.reverse_eq_nil_iff]
    exact hends x (.inr (by rw [trimBoth, List.getLast?_reverse, hx]))
  unfold trimBoth
  have hreverse := h.reverse.dropWhile_flatMap hlast
  rw [h.dropWhile_flatMap hhead, List.reverse_flatMap, Function.comp_def, hreverse,
    List.reverse_flatMap]
  simp only [Function.comp_def, List.reverse_reverse]

/-- The parts between separators, once the separators around the whole are left out. -/
def parts (a : α) (xs : List α) : List (List α) :=
  if (trimBoth (· == a) xs).isEmpty then [] else (trimBoth (· == a) xs).splitOn a

theorem Keeps.parts_flatMap (h : Keeps g a b) {xs : List α}
    (hends : ∀ x, ((trimBoth (· == a) xs).head? = some x ∨
      (trimBoth (· == a) xs).getLast? = some x) → g x ≠ []) :
    parts b (xs.flatMap g) = (parts a xs).map (·.flatMap g) := by
  unfold parts
  rw [h.trimBoth_flatMap hends]
  cases ht : trimBoth (· == a) xs with
  | nil => rfl
  | cons x rest =>
    have hx : g x ≠ [] := hends x (.inl (by rw [ht]; rfl))
    rw [if_neg (by simpa using fun h => absurd h hx), if_neg (by simp), h.splitOn_flatMap]

theorem not_mem_of_mem_parts {a : α} {xs part : List α} (h : part ∈ parts a xs) : a ∉ part := by
  unfold parts at h
  split_ifs at h
  · cases h
  · exact not_mem_of_mem_splitOn h

theorem intercalate_parts (a : α) (xs : List α) :
    [a].intercalate (parts a xs) = trimBoth (· == a) xs := by
  unfold parts
  split_ifs with h
  · rw [List.isEmpty_iff.mp h]
    rfl
  · exact List.intercalate_splitOn a

/-! ### What the parts hold -/

theorem exists_mem_parts {a x : α} {xs : List α} (hx : x ∈ xs) (hne : x ≠ a) :
    ∃ part ∈ parts a xs, x ∈ part := by
  have hp : (x == a) = false := by simpa using hne
  have htrim : x ∈ trimBoth (· == a) xs := by
    rw [trimBoth, List.mem_reverse]
    exact mem_dropWhile (List.mem_reverse.mpr (mem_dropWhile hx hp)) hp
  rw [← intercalate_parts] at htrim
  exact (eq_or_exists_of_mem_intercalate htrim).resolve_left hne

omit [BEq α] [LawfulBEq α] in
theorem mem_of_mem_trimBoth {p : α → Bool} {x : α} {xs : List α} (h : x ∈ trimBoth p xs) :
    x ∈ xs := by
  rw [trimBoth, List.mem_reverse] at h
  have hback := (List.dropWhile_suffix p).subset h
  rw [List.mem_reverse] at hback
  exact (List.dropWhile_suffix p).subset hback

theorem mem_of_mem_parts {a x : α} {xs part : List α} (hp : part ∈ parts a xs) (hx : x ∈ part) :
    x ∈ xs := by
  have h := mem_intercalate (a := a) hp hx
  rw [intercalate_parts] at h
  exact mem_of_mem_trimBoth h

/-! ### The outermost parts -/

theorem head?_trimBoth_ne (a : α) (xs : List α) :
    (trimBoth (· == a) xs).head? ≠ some a := by
  intro h
  have hnot := List.head?_dropWhile_not (· == a) xs
  rw [← head?_trimBoth, h] at hnot
  simp at hnot

theorem getLast?_trimBoth_ne (a : α) (xs : List α) :
    (trimBoth (· == a) xs).getLast? ≠ some a := by
  intro h
  have hnot := List.head?_dropWhile_not (· == a) (xs.dropWhile (· == a)).reverse
  rw [trimBoth, List.getLast?_reverse] at h
  rw [h] at hnot
  simp at hnot

/-- Parts that are read back when they are put together: they hold no separator, and those at the ends
are not empty. -/
structure AreParts (a : α) (xs : List (List α)) : Prop where
  separator : ∀ part ∈ xs, a ∉ part
  head : [] ∉ xs.head?
  last : [] ∉ xs.getLast?

theorem parts_ne_singleton (a : α) (xs : List α) : parts a xs ≠ [[]] := by
  intro h
  have htrim := intercalate_parts a xs
  rw [h, List.intercalate_singleton] at htrim
  rw [parts, ← htrim] at h
  cases h

theorem areParts_parts (a : α) (xs : List α) : AreParts a (parts a xs) where
  separator _ := not_mem_of_mem_parts
  head h := by
    obtain ⟨rest, hrest⟩ := List.head?_eq_some_iff.mp (Option.mem_def.mp h)
    by_cases hnil : rest = []
    · exact parts_ne_singleton a xs (by rw [hrest, hnil])
    · refine head?_trimBoth_ne a xs ?_
      rw [← intercalate_parts, hrest, List.intercalate_cons_of_ne_nil hnil]
      rfl
  last h := by
    obtain ⟨rest, hrest⟩ := List.getLast?_eq_some_iff.mp (Option.mem_def.mp h)
    by_cases hnil : rest = []
    · exact parts_ne_singleton a xs (by rw [hrest, hnil, List.nil_append])
    · refine getLast?_trimBoth_ne a xs ?_
      rw [← intercalate_parts, hrest, intercalate_append a hnil (List.cons_ne_nil _ _),
        List.intercalate_singleton]
      exact List.getLast?_concat

theorem exists_head?_parts {a x : α} {xs : List α} (h : (trimBoth (· == a) xs).head? = some x) :
    ∃ part ∈ (parts a xs).head?, x ∈ part := by
  have hparts := areParts_parts a xs
  rw [← intercalate_parts] at h
  cases hp : parts a xs with
  | nil => rw [hp] at h; cases h
  | cons part rest =>
    have hne : part ≠ [] := fun hnil => hparts.head (by rw [hp, hnil]; rfl)
    rw [hp, head?_intercalate hne] at h
    exact ⟨part, rfl, List.mem_of_head? h⟩

theorem exists_getLast?_parts {a x : α} {xs : List α}
    (h : (trimBoth (· == a) xs).getLast? = some x) :
    ∃ part ∈ (parts a xs).getLast?, x ∈ part := by
  have hparts := areParts_parts a xs
  rw [← intercalate_parts] at h
  rcases List.eq_nil_or_concat' (parts a xs) with hp | ⟨rest, part, hp⟩
  · rw [hp] at h
    cases h
  · have hne : part ≠ [] := fun hnil => hparts.last (by rw [hp, hnil]; exact List.getLast?_concat)
    rw [hp, getLast?_intercalate hne] at h
    exact ⟨part, by rw [hp]; exact List.getLast?_concat, List.mem_of_getLast? h⟩

omit [BEq α] [LawfulBEq α] in
theorem AreParts.append {xs ys : List (List α)} (hx : AreParts a xs) (hy : AreParts a ys) :
    AreParts a (xs ++ ys) where
  separator := List.forall_mem_append.mpr ⟨hx.separator, hy.separator⟩
  head := by
    cases xs with
    | nil => exact hy.head
    | cons x xs => exact hx.head
  last := by
    rcases List.eq_nil_or_concat' ys with rfl | ⟨rest, y, rfl⟩
    · rw [List.append_nil]
      exact hx.last
    · have hlast := hy.last
      rw [List.getLast?_concat] at hlast
      rwa [← List.append_assoc, List.getLast?_concat]

theorem parts_cons_self (a : α) (xs : List α) : parts a (a :: xs) = parts a xs := by
  have hdrop : (a :: xs).dropWhile (· == a) = xs.dropWhile (· == a) := by
    rw [List.dropWhile_cons, if_pos (beq_self_eq_true a)]
  rw [parts, parts, trimBoth, trimBoth, hdrop]

theorem trimBoth_eq_self {a : α} {xs : List α} (hhead : xs.head? ≠ some a)
    (hlast : xs.getLast? ≠ some a) : trimBoth (· == a) xs = xs := by
  have hkeep : ∀ ys : List α, ys.head? ≠ some a → ys.dropWhile (· == a) = ys := by
    intro ys hy
    cases ys with
    | nil => rfl
    | cons y ys => rw [List.dropWhile_cons, if_neg (by simpa using hy)]
  rw [trimBoth, hkeep xs hhead, hkeep xs.reverse (by rwa [List.head?_reverse]), List.reverse_reverse]

theorem AreParts.parts_intercalate {xs : List (List α)} (h : AreParts a xs) :
    parts a ([a].intercalate xs) = xs := by
  cases xs with
  | nil => rfl
  | cons x rest =>
    have hx : x ≠ [] := fun hnil => h.head (by rw [hnil]; rfl)
    have hhead := head?_intercalate (a := a) hx rest
    obtain ⟨before, y, hxs⟩ :=
      (List.eq_nil_or_concat' (x :: rest)).resolve_left (List.cons_ne_nil x rest)
    have hy : y ≠ [] := fun hnil => h.last (by rw [hxs, hnil]; exact List.getLast?_concat)
    have hlast := getLast?_intercalate (a := a) hy before
    rw [← hxs] at hlast
    have htrim : trimBoth (· == a) ([a].intercalate (x :: rest)) = [a].intercalate (x :: rest) := by
      refine trimBoth_eq_self (fun he => ?_) fun he => ?_
      · rw [hhead] at he
        exact h.separator x List.mem_cons_self (List.mem_of_head? he)
      · rw [hlast] at he
        exact h.separator y (by rw [hxs]; exact List.mem_append_right _ (List.mem_singleton_self y))
          (List.mem_of_getLast? he)
    have hne : [a].intercalate (x :: rest) ≠ [] := fun he => by
      rw [he] at hhead
      exact hx (List.head?_eq_none_iff.mp hhead.symm)
    rw [parts, htrim, if_neg (by simpa using hne),
      List.splitOn_intercalate a h.separator (List.cons_ne_nil x rest)]

/-- As many parts that hold no separator are told apart by what they make up. -/
theorem eq_of_intercalate_eq {a : α} {xs ys : List (List α)} (hx : ∀ part ∈ xs, a ∉ part)
    (hy : ∀ part ∈ ys, a ∉ part) (hlength : xs.length = ys.length)
    (h : [a].intercalate xs = [a].intercalate ys) : xs = ys := by
  cases xs with
  | nil => exact (List.length_eq_zero_iff.mp hlength.symm).symm
  | cons x xs =>
    cases ys with
    | nil => cases hlength
    | cons y ys =>
      rw [← List.splitOn_intercalate a hx (List.cons_ne_nil _ _), h,
        List.splitOn_intercalate a hy (List.cons_ne_nil _ _)]

omit [BEq α] [LawfulBEq α] [BEq β] [LawfulBEq β] in
theorem Keeps.flatMap_intercalate (h : Keeps g a b) (xs : List (List α)) :
    ([a].intercalate xs).flatMap g = [b].intercalate (xs.map (·.flatMap g)) := by
  induction xs with
  | nil => rfl
  | cons x xs ih =>
    by_cases hnil : xs = []
    · rw [hnil, List.intercalate_singleton, List.map_singleton, List.intercalate_singleton]
    · rw [List.intercalate_cons_of_ne_nil hnil, List.map_cons,
        List.intercalate_cons_of_ne_nil (by simpa using hnil), List.flatMap_append,
        List.flatMap_append, ih, List.flatMap_singleton, h.separator]

end

end HttpContract
