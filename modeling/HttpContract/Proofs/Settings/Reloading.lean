import HttpContract.Proofs.Files.Growth
import HttpContract.Settings.Generation

/-!
# Settings that are loaded again

Files that are added to a tree change its settings only if settings can be read from them
(`layerOf_unique`). No settings can be read from a text that begins as a docstring does
(`HoldsNoSettings.of_quotes`): behind its first two quotes both formats expect something else than a
third.
-/

namespace HttpContract

/-! ### Documents -/

namespace Json

/-- A quote begins a string, and the string is one token. -/
theorem tokens?_quote {limits : Limits} {cs : List Char} {ts : List Token}
    (h : tokens? limits ('"' :: cs) = some ts) : ∃ ns rest value ts',
      stringUnits? cs = some (ns, rest) ∧ tokens? limits rest = some ts' ∧
        ts = .scalar value :: ts' := by
  have hspace : isSpace '"' = false := by decide
  rw [tokens?, hspace, if_neg Bool.false_ne_true, if_pos rfl] at h
  split at h
  · cases h
  · next ns rest hunits =>
    split at h
    · next value ts' hvalue hrest =>
      cases h
      exact ⟨ns, rest, _, ts', hunits, hrest, rfl⟩
    · cases h

theorem read?_of_quotes (limits : Limits) {s : String} {rest : List Char}
    (h : s.toList = '"' :: '"' :: '"' :: rest) : read? limits s = none := by
  rw [read?, h]
  cases hts : tokens? limits ('"' :: '"' :: '"' :: rest) with
  | none => rfl
  | some ts =>
    -- the first two quotes are an empty string, and nothing may follow that, least of all another one
    obtain ⟨ns, cs, value, ts', hunits, hrest, rfl⟩ := tokens?_quote hts
    have hempty : stringUnits? ('"' :: '"' :: rest) = some ([], '"' :: rest) := rfl
    rw [hempty] at hunits
    cases hunits
    obtain ⟨ns, cs, value', ts', -, -, rfl⟩ := tokens?_quote hrest
    rfl

end Json

namespace Toml

theorem read?_of_quotes {s : String} {rest : List Char}
    (h : s.toList = '"' :: '"' :: '"' :: rest) : read? s = none := by
  have hjoined : joinLineEnds s.toList = '"' :: '"' :: '"' :: joinLineEnds rest := by
    rw [h]
    rfl
  rw [read?, hjoined]
  rfl

end Toml

namespace GenerationSettings

/-- Bytes that no settings can be read from, whatever the name of the file. -/
def HoldsNoSettings (content : Bytes) : Prop := ∀ path layer, ofFile path content ≠ .ok layer

theorem HoldsNoSettings.of_quotes {text : String} {rest : List Char}
    (h : text.toList = '"' :: '"' :: '"' :: rest) : HoldsNoSettings (Utf8.encode text) := by
  intro path layer hfile
  rw [ofFile, Utf8.decode?_encode, Option.bind_some, Option.bind_some, Toml.read?_of_quotes h,
    Json.read?_of_quotes _ h] at hfile
  split_ifs at hfile

/-! ### The file that counts -/

variable {t t' : FileTree} {asked found found' : Option PathName} {directory : PathName}
  {layer layer' : Layer}

theorem exists?_eq_true_iff {p : PathName} : t.exists? p = .ok true ↔ ∃ o, t.find p = .ok o := by
  unfold FileTree.exists?
  split
  · next o ho => exact iff_of_true rfl ⟨o, ho⟩
  · next ho => exact iff_of_false nofun fun ⟨o, h⟩ => nomatch ho.symm.trans h
  · next f _ ho => exact iff_of_false nofun fun ⟨o, h⟩ => nomatch ho.symm.trans h

theorem exists_find_eq_error {p : PathName} (h : t.exists? p = .ok false) :
    ∃ f, t.find p = .error f := by
  cases hfind : t.find p with
  | error f => exact ⟨f, rfl⟩
  | ok o =>
    rw [exists?_eq_true_iff.mpr ⟨o, hfind⟩] at h
    cases h

/-- Of the files that are looked for in a directory the first counts. -/
inductive FirstOf (t : FileTree) (directory : PathName) : List String → Option PathName → Prop
  | none : FirstOf t directory [] none
  | here {name : String} {names : List String} (h : t.exists? (directory.join name) = .ok true) :
    FirstOf t directory (name :: names) (some (directory.join name))
  | later {name : String} {names : List String} {found : Option PathName}
    (h : t.exists? (directory.join name) = .ok false) (rest : FirstOf t directory names found) :
    FirstOf t directory (name :: names) found

/-- Looks for one more file, unless one has been found. -/
def look (t : FileTree) (directory : PathName) (found : Option PathName) (name : String) :
    Except FileError (Option PathName) :=
  match found with
  | some p => pure (some p)
  | none => do pure (if ← t.exists? (directory.join name) then some (directory.join name) else none)

theorem foldlM_look_some (p : PathName) (names : List String) :
    names.foldlM (look t directory) (some p) = .ok (some p) := by
  induction names with
  | nil => rfl
  | cons name names ih =>
    rw [List.foldlM_cons]
    exact ih

theorem firstOf_foldlM {names : List String} (h : names.foldlM (look t directory) none = .ok found) :
    FirstOf t directory names found := by
  induction names with
  | nil =>
    cases h
    exact .none
  | cons name names ih =>
    rw [List.foldlM_cons] at h
    obtain ⟨first, hfirst, hrest⟩ := bind_eq_ok.mp h
    obtain ⟨there, hthere, hfirst⟩ := bind_eq_ok.mp hfirst
    cases hfirst
    cases there with
    | false => exact .later hthere (ih hrest)
    | true =>
      rw [if_pos rfl, foldlM_look_some] at hrest
      cases hrest
      exact .here hthere

theorem firstOf_locate (h : locate t directory none = .ok found) : FirstOf t directory fileNames found :=
  firstOf_foldlM h

theorem locate_some_eq_ok {p : PathName} (h : locate t directory (some p) = .ok found) :
    t.exists? p = .ok true ∧ found = some p ∨ t.exists? p = .ok false ∧ found = none := by
  obtain ⟨there, hthere, h⟩ := bind_eq_ok.mp h
  cases h
  cases there with
  | false => exact .inr ⟨hthere, rfl⟩
  | true => exact .inl ⟨hthere, rfl⟩

theorem fileLayer_eq_ok (h : fileLayer t asked = .ok layer) :
    (asked = none ∧ locate t ⟨"", []⟩ none = .ok none ∧ layer = []) ∨
      ∃ p content, locate t ⟨"", []⟩ asked = .ok (some p) ∧ t.read p = .ok content ∧
        ofFile p content = .ok layer := by
  obtain ⟨found, hfound, h⟩ := bind_eq_ok.mp h
  replace hfound := mapError_eq_ok.mp hfound
  cases found with
  | some p =>
    have hread : ((t.read p).mapError SettingsError.unreadable >>= ofFile p) = .ok layer := by
      cases asked with
      | none => exact h
      | some _ => exact h
    obtain ⟨content, hcontent, hlayer⟩ := bind_eq_ok.mp hread
    exact .inr ⟨p, content, hfound, mapError_eq_ok.mp hcontent, hlayer⟩
  | none =>
    cases asked with
    | none =>
      cases h
      exact .inl ⟨rfl, hfound, rfl⟩
    | some p => cases h

/-- The file that counts still does, if settings can be read from the one that now does. -/
theorem FirstOf.unique {names : List String} (hgrows : t.GrowsBy HoldsNoSettings t')
    (h : FirstOf t ⟨"", []⟩ names found) (h' : FirstOf t' ⟨"", []⟩ names found')
    (hread : ∀ p, found' = some p → ∃ content layer, t'.read p = .ok content ∧ ofFile p content = .ok layer) :
    found' = found := by
  induction h generalizing found' with
  | none =>
    cases h'
    rfl
  | here hthere =>
    cases h' with
    | here => rfl
    | later hmissing =>
      obtain ⟨o, ho⟩ := exists?_eq_true_iff.mp hthere
      rw [exists?_eq_true_iff.mpr (hgrows.exists_find ho)] at hmissing
      cases hmissing
  | later hmissing _ ih =>
    cases h' with
    | here =>
      -- the file that counts now was not there before, so it is a new one
      obtain ⟨content, layer, hcontent, hlayer⟩ := hread _ rfl
      obtain ⟨f, hf⟩ := exists_find_eq_error hmissing
      exact absurd hlayer (hgrows.new_of_read hf hcontent _ _)
    | later _ rest => exact ih rest hread

theorem ofFile_unique {p : PathName} {content content' : Bytes} (hgrows : t.GrowsBy HoldsNoSettings t')
    (hread : t.read p = .ok content) (hread' : t'.read p = .ok content')
    (h : ofFile p content = .ok layer) (h' : ofFile p content' = .ok layer') : layer' = layer := by
  obtain ⟨place, hplace, hat⟩ := FileTree.read_eq_ok.mp hread
  rcases hgrows.read_or (FileTree.find_eq_ok.mpr ⟨place, hplace, hat⟩) hread' with hsame | hnew
  · rw [hread] at hsame
    cases hsame
    exact Except.ok.inj (h'.symm.trans h)
  · exact absurd h' (hnew p layer')

theorem fileLayer_unique (hgrows : t.GrowsBy HoldsNoSettings t') (h : fileLayer t asked = .ok layer)
    (h' : fileLayer t' asked = .ok layer') : layer' = layer := by
  cases asked with
  | some p =>
    rcases fileLayer_eq_ok h with ⟨hasked, -⟩ | ⟨q, content, hfound, hread, hlayer⟩
    · cases hasked
    rcases fileLayer_eq_ok h' with ⟨hasked, -⟩ | ⟨q', content', hfound', hread', hlayer'⟩
    · cases hasked
    have hq : ∀ {t : FileTree} {q : PathName}, locate t ⟨"", []⟩ (some p) = .ok (some q) → q = p := by
      intro t q hlocate
      rcases locate_some_eq_ok hlocate with ⟨-, hq⟩ | ⟨-, hq⟩
      · exact Option.some.inj hq
      · cases hq
    obtain rfl := hq hfound
    obtain rfl := hq hfound'
    exact ofFile_unique hgrows hread hread' hlayer hlayer'
  | none =>
    -- no file is named: the one that is found in the grown tree was found before, or none was
    rcases fileLayer_eq_ok h' with ⟨-, hfound', rfl⟩ | ⟨q', content', hfound', hread', hlayer'⟩
    · have hfirst := fun found (hfound : locate t ⟨"", []⟩ none = .ok found) =>
        (firstOf_locate hfound).unique hgrows (firstOf_locate hfound') nofun
      rcases fileLayer_eq_ok h with ⟨-, -, rfl⟩ | ⟨q, content, hfound, -⟩
      · rfl
      · cases hfirst _ hfound
    · have hfirst := fun found (hfound : locate t ⟨"", []⟩ none = .ok found) =>
        (firstOf_locate hfound).unique hgrows (firstOf_locate hfound') fun p hp => by
          cases hp
          exact ⟨content', layer', hread', hlayer'⟩
      rcases fileLayer_eq_ok h with ⟨-, hfound, -⟩ | ⟨q, content, hfound, hread, hlayer⟩
      · cases hfirst _ hfound
      · cases hfirst _ hfound
        exact ofFile_unique hgrows hread hread' hlayer hlayer'

/-- The values that are found again after files were added are the same, if there are any. -/
theorem layerOf_unique {arguments : Layer} (hgrows : t.GrowsBy HoldsNoSettings t')
    (h : layerOf t asked arguments = .ok layer) (h' : layerOf t' asked arguments = .ok layer') :
    layer' = layer := by
  obtain ⟨file, hfile, h⟩ := bind_eq_ok.mp h
  obtain ⟨file', hfile', h'⟩ := bind_eq_ok.mp h'
  rw [fileLayer_unique hgrows hfile hfile'] at h'
  exact Except.ok.inj (h'.symm.trans h)

end GenerationSettings

end HttpContract
