import HttpContract.Files.FileTree
import HttpContract.Proofs.Decision
import HttpContract.Proofs.Entries

/-!
# Writing files

A file that has been written holds what was written (`read_write`), and no other file is changed
(`file_write_of_ne`). Directories stay directories, so that whatever path could be followed before the
file was there can be followed still.
-/

namespace HttpContract

namespace Entries
variable {κ α : Type} [BEq κ] [LawfulBEq κ] [DecidableEq κ] {k k' : κ} {a : α} {entries : List (κ × α)}

theorem find?_insert_self : (insert entries k a).find? (fun e => e.1 = k) = some (k, a) := by
  induction entries with
  | nil =>
    rw [insert, List.find?_cons]
    simp only [decide_true]
  | cons e es ih =>
    rw [insert]
    split_ifs with he
    · rw [beq_iff_eq.mp he, List.find?_cons]
      simp only [decide_true]
    · have hne : e.1 ≠ k := fun h => he (beq_iff_eq.mpr h)
      rw [List.find?_cons]
      simp only [hne, decide_false]
      exact ih

theorem find?_insert_of_ne (h : k' ≠ k) :
    (insert entries k a).find? (fun e => e.1 = k') = entries.find? fun e => e.1 = k' := by
  induction entries with
  | nil =>
    rw [insert, List.find?_cons]
    simp only [h.symm, decide_false]
  | cons e es ih =>
    rw [insert]
    split_ifs with he
    · have hne : e.1 ≠ k' := fun hk => h (hk.symm.trans (beq_iff_eq.mp he))
      rw [List.find?_cons, List.find?_cons]
      simp only [hne, decide_false]
    · rw [List.find?_cons, List.find?_cons, ih]

end Entries

namespace FileTree
variable {t t' : FileTree} {p : PathName} {q place : Place} {content : Bytes}

theorem write_eq_ok (h : t.write p content = .ok t') : ∃ place, t.locate p = .ok place ∧
    t.at? place ≠ some .directory ∧ t' = { t with files := Entries.insert t.files place content } := by
  unfold write at h
  cases hplace : t.locate p with
  | error f =>
    rw [hplace] at h
    cases h
  | ok place =>
    rw [hplace] at h
    simp only at h
    split at h
    · cases h
    · next hfree => exact ⟨place, rfl, hfree, (Except.ok.inj h).symm⟩

theorem at?_insert_self (t : FileTree) (place : Place) (content : Bytes) :
    ({ t with files := Entries.insert t.files place content } : FileTree).at? place =
      some (.file content) := by
  unfold at?
  simp only [Entries.find?_insert_self]

theorem directory_insert (hq : t.at? q = some .directory) (hne : q ≠ place) :
    ({ t with files := Entries.insert t.files place content } : FileTree).at? q = some .directory := by
  unfold at? at hq ⊢
  simp only [Entries.find?_insert_of_ne hne]
  cases hf : t.files.find? (fun f => f.1 = q) with
  | some f =>
    rw [hf] at hq
    cases hq
  | none =>
    rw [hf] at hq
    simp only [Bool.or_eq_true, List.any_eq_true] at hq ⊢
    split_ifs at hq with hdir
    refine if_pos ?_
    rcases hdir with hdir | ⟨f, hf, hprefix⟩
    · exact .inl hdir
    · refine .inr ?_
      by_cases hplace : f.1 = place
      · exact ⟨(place, content), Entries.mem_insert_self _ _ _, hplace ▸ hprefix⟩
      · exact ⟨f, Entries.mem_insert_of_ne hf hplace content, hprefix⟩

/-- A walk passes directories only. -/
theorem walk_of_directories {segments : List String} (h : t.walk q segments = .ok place)
    (hdir : ∀ q, t.at? q = some .directory → t'.at? q = some .directory) :
    t'.walk q segments = .ok place := by
  induction segments generalizing q with
  | nil => exact h
  | cons s segments ih =>
    rw [walk] at h ⊢
    split at h
    · cases h
    · cases h
    · next hq =>
      rw [hdir q hq]
      simp only
      split_ifs at h ⊢ with hlong
      exact ih h

theorem locate_of_directories (hplace : t.locate p = .ok place)
    (hdir : ∀ q, t.at? q = some .directory → t'.at? q = some .directory) :
    t'.locate p = .ok place := by
  unfold locate at hplace ⊢
  by_cases hnul : p.text.toList.contains '\x00'
  · rw [if_pos hnul] at hplace
    cases hplace
  · rw [if_neg hnul] at hplace ⊢
    by_cases hlong : maxPathBytes < p.text.utf8ByteSize
    · rw [if_pos hlong] at hplace
      cases hplace
    · rw [if_neg hlong] at hplace ⊢
      exact walk_of_directories hplace hdir

theorem locate_write (h : t.write p content = .ok t') {p' : PathName} (hplace : t.locate p' = .ok place) :
    t'.locate p' = .ok place := by
  obtain ⟨target, -, hfree, rfl⟩ := write_eq_ok h
  refine locate_of_directories hplace fun q hq => directory_insert hq ?_
  rintro rfl
  exact hfree hq

theorem find_eq_ok {o : Occupant} :
    t.find p = .ok o ↔ ∃ place, t.locate p = .ok place ∧ t.at? place = some o := by
  unfold find
  rw [bind_eq_ok]
  refine exists_congr fun place => and_congr_right fun _ => ?_
  cases t.at? place with
  | none => exact ⟨fun h => (nomatch h), fun h => (nomatch h)⟩
  | some o' => exact ⟨fun h => congrArg some (Except.ok.inj h), fun h => by cases h; rfl⟩

theorem read_eq_ok : t.read p = .ok content ↔
    ∃ place, t.locate p = .ok place ∧ t.at? place = some (.file content) := by
  rw [← find_eq_ok, read]
  cases t.find p with
  | error f => exact ⟨fun h => (nomatch h), fun h => (nomatch h)⟩
  | ok o =>
    cases o with
    | directory => exact ⟨fun h => (nomatch h), fun h => (nomatch h)⟩
    | file content' =>
      constructor
      · intro h
        rw [Except.ok.inj h]
      · intro h
        cases h
        rfl

/-- A file holds what was written to it. -/
theorem read_write (h : t.write p content = .ok t') : t'.read p = .ok content := by
  obtain ⟨place, hplace, -, ht⟩ := write_eq_ok h
  refine read_eq_ok.mpr ⟨place, locate_write h hplace, ?_⟩
  rw [ht]
  exact at?_insert_self t place content

theorem file_write_of_ne (h : t.write p content = .ok t') (hplace : t.locate p = .ok place)
    (hne : q ≠ place) {other : Bytes} :
    t'.at? q = some (.file other) ↔ t.at? q = some (.file other) := by
  obtain ⟨target, htarget, -, rfl⟩ := write_eq_ok h
  rw [hplace] at htarget
  cases htarget
  unfold at?
  simp only [Entries.find?_insert_of_ne hne]
  cases t.files.find? (fun f => f.1 = q) with
  | some f => rfl
  | none =>
    constructor
    · intro h
      split_ifs at h
      cases h
    · intro h
      split_ifs at h
      cases h

end FileTree

end HttpContract
