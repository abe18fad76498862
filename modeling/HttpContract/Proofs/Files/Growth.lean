import HttpContract.Proofs.Client.Writing

/-!
# Growing trees

Making directories and writing files takes no directory away (`FileTree.Grows`), so a path that leads
somewhere leads there still. Two names in one directory lead to two places (`locate_join_inj`), which is
why a file is not touched by writing another beside it (`read_write_join`).
-/

namespace HttpContract.FileTree
variable {t t' t'' made : FileTree} {p : PathName} {q place : Place} {content : Bytes}

/-! ### Directories -/

/-- Directories stay directories. -/
def Grows (t t' : FileTree) : Prop := ∀ q, t.at? q = some .directory → t'.at? q = some .directory

theorem Grows.refl (t : FileTree) : t.Grows t := fun _ h => h

theorem Grows.trans (h : t.Grows t') (h' : t'.Grows t'') : t.Grows t'' := fun q hq => h' q (h q hq)

theorem grows_makeDirectory (h : t.makeDirectory p = .ok t') : t.Grows t' := by
  obtain ⟨place, -, h⟩ := bind_eq_ok.mp h
  split at h
  · cases h
  · cases h
    intro q hq
    unfold at? at hq ⊢
    cases hf : t.files.find? (fun f => f.1 = q) with
    | some f =>
      rw [hf] at hq
      cases hq
    | none =>
      rw [hf] at hq
      simp only at hq ⊢
      split_ifs at hq with hdir
      refine if_pos ?_
      simp only [Bool.or_eq_true, List.any_append] at hdir ⊢
      exact hdir.imp_left fun h => h.imp_right .inl

theorem grows_ensureDirectory (h : t.ensureDirectory p = .ok t') : t.Grows t' := by
  unfold ensureDirectory at h
  split at h
  · next hmade =>
    cases h
    exact grows_makeDirectory hmade
  · cases h
  · cases h
  · split_ifs at h
    cases h
    exact Grows.refl t

theorem grows_ensureAbove {root : String} {up : List String} (h : t.ensureAbove root up = .ok t') :
    t.Grows t' := by
  induction up generalizing t t' with
  | nil => exact grows_ensureDirectory h
  | cons s up ih =>
    rw [ensureAbove] at h
    split at h
    · obtain ⟨above, habove, h⟩ := bind_eq_ok.mp h
      exact (ih habove).trans (grows_ensureDirectory h)
    · exact grows_ensureDirectory h

theorem grows_ensureDirectories (h : t.ensureDirectories p = .ok t') : t.Grows t' :=
  grows_ensureAbove h

theorem grows_write (h : t.write p content = .ok t') : t.Grows t' := by
  obtain ⟨target, -, hfree, rfl⟩ := write_eq_ok h
  intro q hq
  refine directory_insert hq ?_
  rintro rfl
  exact hfree hq

/-! ### Paths -/

theorem Grows.locate (h : t.Grows t') (hplace : t.locate p = .ok place) : t'.locate p = .ok place :=
  locate_of_directories hplace h

theorem walk_append (t : FileTree) (q : Place) (xs ys : List String) :
    t.walk q (xs ++ ys) = t.walk q xs >>= fun q => t.walk q ys := by
  induction xs generalizing q with
  | nil => rfl
  | cons s xs ih =>
    rw [List.cons_append, walk, walk]
    split
    · rfl
    · rfl
    · split_ifs
      · rfl
      · exact ih _

theorem exists_of_locate_join {name : String} (hname : name ≠ "..")
    (h : t.locate (p.join name) = .ok place) :
    ∃ dir, t.walk (if p.isAbsolute then ["/"] else []) p.segments = .ok dir ∧ place = dir ++ [name] := by
  unfold locate at h
  by_cases hnul : (p.join name).text.toList.contains '\x00'
  · rw [if_pos hnul] at h
    cases h
  rw [if_neg hnul] at h
  by_cases hlong : maxPathBytes < (p.join name).text.utf8ByteSize
  · rw [if_pos hlong] at h
    cases h
  rw [if_neg hlong, PathName.join, walk_append] at h
  obtain ⟨dir, hdir, h⟩ := bind_eq_ok.mp h
  refine ⟨dir, hdir, ?_⟩
  rw [walk] at h
  split at h
  · cases h
  · cases h
  · split_ifs at h
    cases h
    exact if_neg hname

/-- Different names in a directory lead to different places. -/
theorem locate_join_inj {name name' : String} {place' : Place} (hname : name ≠ "..")
    (hname' : name' ≠ "..") (h : t.locate (p.join name) = .ok place)
    (h' : t.locate (p.join name') = .ok place') : place = place' ↔ name = name' := by
  obtain ⟨dir, hdir, rfl⟩ := exists_of_locate_join hname h
  obtain ⟨dir', hdir', rfl⟩ := exists_of_locate_join hname' h'
  rw [hdir] at hdir'
  cases hdir'
  rw [List.append_cancel_left_eq, List.cons.injEq, and_iff_left rfl]

/-! ### Files -/

theorem read_ensureDirectories (h : t.ensureDirectories p = .ok t') {p' : PathName}
    (hread : t.read p' = .ok content) : t'.read p' = .ok content := by
  obtain ⟨place, hplace, hfile⟩ := read_eq_ok.mp hread
  exact read_eq_ok.mpr ⟨place, (grows_ensureDirectories h).locate hplace,
    (file_congr (files_ensureDirectories h)).mpr hfile⟩

theorem read_write_join {name name' : String} {other : Bytes} (hname : name ≠ "..")
    (hname' : name' ≠ "..") (hne : name' ≠ name) (h : t.write (p.join name) content = .ok t')
    (hread : t.read (p.join name') = .ok other) : t'.read (p.join name') = .ok other := by
  obtain ⟨place', hplace', hfile⟩ := read_eq_ok.mp hread
  obtain ⟨place, hplace, -⟩ := write_eq_ok h
  have hplaces : place' ≠ place := fun he =>
    hne ((locate_join_inj hname' hname hplace' hplace).mp he)
  exact read_eq_ok.mpr ⟨place', (grows_write h).locate hplace',
    (file_write_of_ne h hplace hplaces).mpr hfile⟩

theorem exists_at?_nil (t : FileTree) : ∃ o, t.at? [] = some o := by
  unfold at?
  split
  · exact ⟨_, rfl⟩
  · exact ⟨_, rfl⟩

/-- A name in the working directory leads to the same place whatever else there is. -/
theorem locate_name {name : String} (h : t.locate ⟨"", [name]⟩ = .ok place) :
    t.at? [] = some .directory ∧
      ∀ t' : FileTree, t'.at? [] = some .directory → t'.locate ⟨"", [name]⟩ = .ok place := by
  unfold locate at h ⊢
  split_ifs at h ⊢ with hnul hlong habsolute
  · cases habsolute
  · rw [walk] at h
    split at h
    · cases h
    · cases h
    · next hbase =>
      refine ⟨hbase, fun t' hbase' => ?_⟩
      rw [walk, hbase']
      exact h

/-! ### New contents -/

/-- A tree that has grown, and in which what a file holds was there before or is of some kind. -/
structure GrowsBy (New : Bytes → Prop) (t t' : FileTree) : Prop where
  directories : t.Grows t'
  files : ∀ q content, t.at? q = some (.file content) → ∃ content', t'.at? q = some (.file content')
  contents : ∀ q content, t'.at? q = some (.file content) → t.at? q = some (.file content) ∨ New content

namespace GrowsBy
variable {New : Bytes → Prop}

theorem refl (t : FileTree) : t.GrowsBy New t :=
  ⟨.refl t, fun _ content h => ⟨content, h⟩, fun _ _ h => .inl h⟩

theorem trans (h : t.GrowsBy New t') (h' : t'.GrowsBy New t'') : t.GrowsBy New t'' where
  directories := h.directories.trans h'.directories
  files q content hq := by
    obtain ⟨content', hq⟩ := h.files q content hq
    exact h'.files q content' hq
  contents q content hq := (h'.contents q content hq).elim (h.contents q content) .inr

theorem ensureDirectories (h : t.ensureDirectories p = .ok t') : t.GrowsBy New t' where
  directories := grows_ensureDirectories h
  files _ content hq := ⟨content, (file_congr (files_ensureDirectories h)).mpr hq⟩
  contents _ _ hq := .inl ((file_congr (files_ensureDirectories h)).mp hq)

theorem write (h : t.write p content = .ok t') (hnew : New content) : t.GrowsBy New t' where
  directories := grows_write h
  files q other hq := by
    obtain ⟨place, hplace, -, ht⟩ := write_eq_ok h
    by_cases hqp : q = place
    · subst hqp
      rw [ht]
      exact ⟨content, at?_insert_self t q content⟩
    · exact ⟨other, (file_write_of_ne h hplace hqp).mpr hq⟩
  contents q other hq := by
    obtain ⟨place, hplace, -, ht⟩ := write_eq_ok h
    by_cases hqp : q = place
    · subst hqp
      rw [ht, at?_insert_self] at hq
      cases hq
      exact .inr hnew
    · exact .inl ((file_write_of_ne h hplace hqp).mp hq)

theorem exists_find {o : Occupant} (h : t.GrowsBy New t') (hfind : t.find p = .ok o) :
    ∃ o', t'.find p = .ok o' := by
  obtain ⟨place, hplace, hat⟩ := find_eq_ok.mp hfind
  have hplace' := h.directories.locate hplace
  cases o with
  | directory => exact ⟨_, find_eq_ok.mpr ⟨place, hplace', h.directories place hat⟩⟩
  | file content =>
    obtain ⟨content', hat'⟩ := h.files place content hat
    exact ⟨_, find_eq_ok.mpr ⟨place, hplace', hat'⟩⟩

/-- What is read at a path where there was something was there before, or is new. -/
theorem read_or {o : Occupant} (h : t.GrowsBy New t') (hfind : t.find p = .ok o)
    (hread : t'.read p = .ok content) : t.read p = .ok content ∨ New content := by
  obtain ⟨place, hplace, -⟩ := find_eq_ok.mp hfind
  obtain ⟨place', hplace', hat'⟩ := read_eq_ok.mp hread
  rw [h.directories.locate hplace] at hplace'
  cases hplace'
  exact (h.contents place content hat').imp_left fun hat => read_eq_ok.mpr ⟨place, hplace, hat⟩

/-- What is read in the working directory under a name that nothing had is new. -/
theorem new_of_read {name : String} {f : FileFault} (h : t.GrowsBy New t')
    (hfind : t.find ⟨"", [name]⟩ = .error f) (hread : t'.read ⟨"", [name]⟩ = .ok content) : New content := by
  obtain ⟨place, hplace, hat⟩ := read_eq_ok.mp hread
  obtain ⟨hbase', hsame⟩ := locate_name hplace
  -- what is in the place of the working directory has not become a directory, so it was one
  have hbase : t.at? [] = some .directory := by
    obtain ⟨o, ho⟩ := exists_at?_nil t
    cases o with
    | directory => exact ho
    | file other =>
      obtain ⟨other', hfile⟩ := h.files [] other ho
      rw [hbase'] at hfile
      cases hfile
  refine (h.contents place content hat).resolve_left fun hold => ?_
  rw [find_eq_ok.mpr ⟨place, hsame t hbase, hold⟩] at hfind
  cases hfind

end GrowsBy

end HttpContract.FileTree
