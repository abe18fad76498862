import HttpContract.Proofs.Entries
import HttpContract.Schema.Read
import HttpContract.Toml.Document

/-!
# Keys of tables

A document that has been read has each key once, in the table at the top and in every table that stands
there under a key (`isKeyed_read?`). Every statement keeps this: what it adds is a new key, or stands in
the place of one that is there already. The same holds of the entries of a JSON object once they are
merged (`isTable_ofJson`).
-/

namespace HttpContract

namespace Toml

/-! ### Tables -/

/-- The keys of a table differ. -/
def Table.Distinct (t : Table) : Prop := (t.map (·.1)).Nodup

/-- A value is a table whose keys differ, if it is a table at all. -/
def IsTable (v : Value) : Prop :=
  ∀ entries, v = .dict entries → ∃ t : Table, t.Distinct ∧ v = t.toValue

/-- A table whose keys differ, as do those of the tables in it. -/
structure Table.IsKeyed (t : Table) : Prop where
  keys : t.Distinct
  inner : ∀ e ∈ t, IsTable e.2

namespace Table
variable {t t' : Table} {k : String} {v : Value} {f : Table → Option Table} {intoLists : Bool}
  {key : Key}

theorem distinct_nil : Distinct [] := List.nodup_nil

theorem isTable_toValue (h : t.Distinct) : IsTable t.toValue := fun _ _ => ⟨t, h, rfl⟩

theorem ofValue?_toValue (t : Table) : ofValue? t.toValue = some t := by
  unfold ofValue? toValue
  simp only [List.mapM_map, Function.comp_def]
  induction t with
  | nil => rfl
  | cons e t ih => rw [List.mapM_cons, ih]; rfl

theorem distinct_of_ofValue? (h : ofValue? v = some t) (hv : IsTable v) : t.Distinct := by
  cases v with
  | dict entries =>
    obtain ⟨t', ht', heq⟩ := hv entries rfl
    rw [heq, ofValue?_toValue] at h
    rwa [← Option.some.inj h]
  | _ => cases h

theorem IsKeyed.insert (h : t.IsKeyed) (k : String) (hv : IsTable v) :
    IsKeyed (Entries.insert t k v) where
  keys := Entries.nodup_keys_insert h.keys k v
  inner e he := by
    rcases Entries.mem_of_mem_insert he with rfl | he
    · exact hv
    · exact h.inner e he

theorem insert_of_get?_eq_none (h : Entries.get? t k = none) (v : Value) :
    Entries.insert t k v = t ++ [(k, v)] := by
  refine Entries.insert_of_fresh (fun hmem => ?_) v
  obtain ⟨v', hv'⟩ := Entries.exists_get?_of_mem hmem
  rw [h] at hv'
  cases hv'

/-! ### Changes -/

/-- A change of tables that puts a value of a kind in the place of a key, if it does anything. -/
def Puts (P : Value → Prop) (f : Table → Option Table) : Prop :=
  ∀ t t', f t = some t' → t' = t ∨ ∃ k v, P v ∧ t' = Entries.insert t k v

theorem puts_some (P : Value → Prop) : Puts P some := fun _ _ h => .inl (Option.some.inj h).symm

theorem puts_add? {P : Value → Prop} (k : String) (hv : P v) : Puts P (add? k v) := by
  intro t t' h
  unfold add? at h
  split at h
  · next hk => exact .inr ⟨k, v, hv, by rw [insert_of_get?_eq_none hk]; exact (Option.some.inj h).symm⟩
  · cases h

theorem puts_appendTable? (k : String) : Puts IsTable (appendTable? k) := by
  intro t t' h
  have hlist : ∀ items, IsTable (.list items) := fun _ _ h => nomatch h
  unfold appendTable? at h
  split at h
  · next hk =>
    exact .inr ⟨k, _, hlist _, by rw [insert_of_get?_eq_none hk]; exact (Option.some.inj h).symm⟩
  · exact .inr ⟨k, _, hlist _, (Option.some.inj h).symm⟩
  · cases h

/-- A change below a key puts one value in its place: a list, or a table that was changed. -/
theorem modifyAt?_cons (h : modifyAt? intoLists f (k :: key) t = some t') :
    ∃ v, t' = Entries.insert t k v ∧ ((∃ items, v = .list items) ∨ ∃ inner inner',
      (inner = [] ∨ ∃ old, Entries.get? t k = some old ∧ ofValue? old = some inner) ∧
        modifyAt? intoLists f key inner = some inner' ∧ v = inner'.toValue) := by
  rw [modifyAt?] at h
  split at h
  · obtain ⟨inner', hinner', h⟩ := Option.bind_eq_some_iff.mp h
    cases h
    exact ⟨_, rfl, .inr ⟨[], inner', .inl rfl, hinner', rfl⟩⟩
  · split at h
    · obtain ⟨inner, -, h⟩ := Option.bind_eq_some_iff.mp h
      obtain ⟨inner', -, h⟩ := Option.bind_eq_some_iff.mp h
      cases h
      exact ⟨_, rfl, .inl ⟨_, rfl⟩⟩
    · cases h
  · next old _ hold =>
    obtain ⟨inner, hinner, h⟩ := Option.bind_eq_some_iff.mp h
    obtain ⟨inner', hinner', h⟩ := Option.bind_eq_some_iff.mp h
    cases h
    exact ⟨_, rfl, .inr ⟨inner, inner', .inr ⟨old, hold, hinner⟩, hinner', rfl⟩⟩

theorem Puts.distinct_modifyAt? {P : Value → Prop} (hf : Puts P f)
    (h : modifyAt? intoLists f key t = some t') (ht : t.Distinct) : t'.Distinct := by
  cases key with
  | nil =>
    rcases hf t t' h with rfl | ⟨k, v, -, rfl⟩
    · exact ht
    · exact Entries.nodup_keys_insert ht k v
  | cons k key =>
    obtain ⟨v, rfl, -⟩ := modifyAt?_cons h
    exact Entries.nodup_keys_insert ht k v

theorem Puts.isKeyed_modifyAt? (hf : Puts IsTable f) (h : modifyAt? intoLists f key t = some t')
    (ht : t.IsKeyed) : t'.IsKeyed := by
  cases key with
  | nil =>
    rcases hf t t' h with rfl | ⟨k, v, hv, rfl⟩
    · exact ht
    · exact ht.insert k hv
  | cons k key =>
    obtain ⟨v, rfl, ⟨items, rfl⟩ | ⟨inner, inner', hinner, hchanged, rfl⟩⟩ := modifyAt?_cons h
    · exact ht.insert k fun _ h => nomatch h
    · refine ht.insert k (isTable_toValue (hf.distinct_modifyAt? hchanged ?_))
      rcases hinner with rfl | ⟨old, hold, hinner⟩
      · exact distinct_nil
      · exact distinct_of_ofValue? hinner (ht.inner _ (Entries.mem_of_get? hold))

end Table

/-! ### Values -/

section
variable {fuel : Nat} {cs rest : List Char} {v : Value}

theorem decimal?_ne_dict {entries : List (Value × Value)} :
    decimal? cs ≠ some (.dict entries, rest) := by
  intro h
  unfold decimal? at h
  simp only at h
  obtain ⟨⟨whole, cs'⟩, -, h⟩ := Option.bind_eq_some_iff.mp h
  simp only at h
  split at h
  · split_ifs at h <;> cases h
  · cases h

theorem special?_ne_dict {entries : List (Value × Value)} :
    special? cs ≠ some (.dict entries, rest) := by
  intro h
  unfold special? at h
  simp only at h
  split at h <;> cases h

theorem moment?_ne_dict {entries : List (Value × Value)} :
    moment? cs ≠ some (some (.dict entries, rest)) := by
  intro h
  unfold moment? at h
  split at h
  · cases h
  · have h := Option.some.inj h
    simp only [Option.orElse_eq_or] at h
    rcases Option.or_eq_some_iff.mp h with h | ⟨-, h⟩
    · split at h
      · split_ifs at h
        obtain ⟨time, -, h⟩ := Option.bind_eq_some_iff.mp h
        cases h
      · cases h
    · cases h
  · obtain ⟨_, -, h⟩ := Option.map_eq_some_iff.mp h
    cases h

theorem isTable_scalar? (h : scalar? cs = some (v, rest)) : IsTable v := by
  intro entries hv
  subst hv
  unfold scalar? at h
  split at h
  · obtain ⟨s, -, h⟩ := Option.map_eq_some_iff.mp h
    cases h
  · obtain ⟨s, -, h⟩ := Option.map_eq_some_iff.mp h
    cases h
  · cases h
  · cases h
  · split at h
    · next r hr =>
      exact absurd (hr.trans (congrArg some h)) moment?_ne_dict
    · unfold number? at h
      split at h
      · cases h
      · rw [Option.orElse_eq_or] at h
        rcases Option.or_eq_some_iff.mp h with h | ⟨-, h⟩
        · exact absurd h decimal?_ne_dict
        · exact absurd h special?_ne_dict

theorem distinct_inline? {sealedKeys : List Key} {t t' : Table}
    (h : inline? fuel sealedKeys t cs = some (t', rest)) (ht : t.Distinct) : t'.Distinct := by
  induction fuel generalizing sealedKeys t cs with
  | zero => cases h
  | succ fuel ih =>
    rw [inline?] at h
    obtain ⟨⟨key, v, cs'⟩, -, h⟩ := Option.bind_eq_some_iff.mp h
    obtain ⟨-, h⟩ := Option.ite_none_left_eq_some.mp h
    obtain ⟨table, htable, h⟩ := Option.bind_eq_some_iff.mp h
    have hkeys := (Table.puts_add? (P := fun _ => True) (key.getLastD "")
      (v := v) trivial).distinct_modifyAt? htable ht
    split at h
    · cases h
      exact hkeys
    · exact ih h hkeys
    · cases h

theorem isTable_value? (h : value? fuel cs = some (v, rest)) : IsTable v := by
  unfold value? at h
  split at h
  · cases h
  · split at h
    · obtain ⟨cs', -, h⟩ := Option.bind_eq_some_iff.mp h
      split at h
      · cases h
        exact fun _ h => nomatch h
      · obtain ⟨⟨items, rest'⟩, -, h⟩ := Option.bind_eq_some_iff.mp h
        cases h
        exact fun _ h => nomatch h
    · split at h
      · cases h
        exact Table.isTable_toValue Table.distinct_nil
      · obtain ⟨⟨table, rest'⟩, htable, h⟩ := Option.map_eq_some_iff.mp h
        cases h
        exact Table.isTable_toValue (distinct_inline? htable Table.distinct_nil)
    · exact isTable_scalar? h

theorem isTable_of_entry {key : Key} (h : entry? fuel cs = some (key, v, rest)) : IsTable v := by
  cases fuel with
  | zero => cases h
  | succ fuel =>
    rw [ entry?] at h
    obtain ⟨⟨key', cs'⟩, -, h⟩ := Option.bind_eq_some_iff.mp h
    split at h
    · obtain ⟨⟨v', rest'⟩, hv, h⟩ := Option.bind_eq_some_iff.mp h
      cases h
      exact isTable_value? hv
    · cases h

end

/-! ### Documents -/

namespace Progress
variable {p p' : Progress} {key : Key} {v : Value}

theorem isKeyed_openTable? (h : p.openTable? key = some p') (hp : p.root.IsKeyed) :
    p'.root.IsKeyed := by
  unfold openTable? at h
  simp only at h
  split_ifs at h
  obtain ⟨root, hroot, h⟩ := Option.bind_eq_some_iff.mp h
  cases h
  exact (Table.puts_some IsTable).isKeyed_modifyAt? hroot hp

theorem isKeyed_openListed? (h : p.openListed? key = some p') (hp : p.root.IsKeyed) :
    p'.root.IsKeyed := by
  unfold openListed? at h
  simp only at h
  split_ifs at h
  obtain ⟨root, hroot, h⟩ := Option.bind_eq_some_iff.mp h
  cases h
  exact (Table.puts_appendTable? _).isKeyed_modifyAt? hroot hp

theorem isKeyed_add? (h : p.add? key v = some p') (hv : IsTable v) (hp : p.root.IsKeyed) :
    p'.root.IsKeyed := by
  unfold add? at h
  obtain ⟨-, h⟩ := Option.ite_none_left_eq_some.mp h
  obtain ⟨root, hroot, h⟩ := Option.bind_eq_some_iff.mp h
  cases h
  exact (Table.puts_add? _ hv).isKeyed_modifyAt? hroot hp

end Progress

theorem isKeyed_statement? {p p' : Progress} {cs rest : List Char}
    (h : statement? p cs = some (p', rest)) (hp : p.root.IsKeyed) : p'.root.IsKeyed := by
  unfold statement? at h
  split at h
  · obtain ⟨⟨key, cs'⟩, -, h⟩ := Option.bind_eq_some_iff.mp h
    split at h
    · obtain ⟨p'', hp'', h⟩ := Option.bind_eq_some_iff.mp h
      cases h
      exact Progress.isKeyed_openListed? hp'' hp
    · cases h
  · obtain ⟨⟨key, cs'⟩, -, h⟩ := Option.bind_eq_some_iff.mp h
    split at h
    · obtain ⟨p'', hp'', h⟩ := Option.bind_eq_some_iff.mp h
      cases h
      exact Progress.isKeyed_openTable? hp'' hp
    · cases h
  · obtain ⟨⟨key, v, cs'⟩, hentry, h⟩ := Option.bind_eq_some_iff.mp h
    obtain ⟨p'', hp'', h⟩ := Option.bind_eq_some_iff.mp h
    cases h
    exact Progress.isKeyed_add? hp'' (isTable_of_entry hentry) hp

theorem isKeyed_statements? {fuel : Nat} {p : Progress} {cs : List Char} {t : Table}
    (h : statements? fuel p cs = some t) (hp : p.root.IsKeyed) : t.IsKeyed := by
  induction fuel generalizing p cs with
  | zero => cases h
  | succ fuel ih =>
    rw [statements?] at h
    split at h
    · cases h
      exact hp
    · exact ih h hp
    · -- a comment stands alone on its line; either way the rest of the line must be empty
      extract_lets finish at h
      have hfinish {p' : Progress} {cs' : List Char} (hp' : p'.root.IsKeyed)
          (h : finish (p', cs') = some t) : t.IsKeyed := by
        obtain ⟨rest, -, h⟩ := Option.bind_eq_some_iff.mp h
        split at h
        · cases h
          exact hp'
        · exact ih h hp'
        · cases h
      split_ifs at h
      · exact hfinish hp h
      · obtain ⟨⟨p', cs'⟩, hstep, h⟩ := Option.bind_eq_some_iff.mp h
        exact hfinish (isKeyed_statement? hstep hp) h

/-- A document that has been read has each key once, as have the tables in it. -/
theorem isKeyed_read? {s : String} {t : Table} (h : read? s = some t) : t.IsKeyed :=
  isKeyed_statements? h ⟨Table.distinct_nil, fun _ he => nomatch he⟩

end Toml

/-! ### Objects -/

namespace Value
open Toml

theorem sameKey_text (k k' : String) : sameKey (.text k) (.text k') = (k == k') := rfl

theorem insertKey_toValue (t : Table) (k : String) (v : Value) :
    insertKey (t.map fun e => (.text e.1, e.2)) (.text k) v =
      (Entries.insert t k v).map fun e => (.text e.1, e.2) := by
  induction t with
  | nil => rfl
  | cons e t ih =>
    rw [List.map_cons, insertKey, Entries.insert, sameKey_text, ih]
    split_ifs <;> rfl

theorem dict_dictOf (t : Table) :
    dict (dictOf (t.map fun e => (.text e.1, e.2))) = Table.toValue (Entries.merge t) := by
  have hfold (done : Table) :
      (t.map fun e => (Value.text e.1, e.2)).foldl (fun done e => insertKey done e.1 e.2)
          (done.map fun e => (.text e.1, e.2)) =
        (t.foldl (fun done e => Entries.insert done e.1 e.2) done).map fun e => (.text e.1, e.2) := by
    induction t generalizing done with
    | nil => rfl
    | cons e t ih => rw [List.map_cons, List.foldl_cons, insertKey_toValue, ih]; rfl
  exact congrArg dict (hfold [])

theorem ofJsonEntries_eq (entries : List (String × Json)) :
    ofJsonEntries entries = (entries.map fun e => (e.1, ofJson e.2)).map fun e => (.text e.1, e.2) := by
  induction entries with
  | nil => rfl
  | cons e entries ih => rw [ofJsonEntries, ih]; rfl

theorem isTable_ofJson (j : Json) : IsTable (ofJson j) := by
  intro entries h
  cases j with
  | object es =>
    refine ⟨Entries.merge (es.map fun e => (e.1, ofJson e.2)), Entries.nodup_keys_merge _, ?_⟩
    rw [ofJson, ofJsonEntries_eq, dict_dictOf]
  | _ => rw [ofJson] at h; cases h

end Value

end HttpContract
