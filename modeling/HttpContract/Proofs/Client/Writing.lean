import HttpContract.Proofs.Client.Generation
import HttpContract.Proofs.PathTemplate.Segments

/-!
# Failed writes

A source that cannot be written is handed out all the same, with one warning, if it is the system that
refuses to write it (`failed_writes_keep_sources`). The system may do so for a reason that the files
do not show: it may refuse a directory or a file, or break off in the middle of one (`Storage`). A
file is changed by a write that fails only if it was open by then.
-/

namespace HttpContract

namespace PathName

/-- Whether a path holds a NUL, as no path that leads anywhere does. -/
def hasNul (p : PathName) : Bool := p.text.toList.contains '\x00'

theorem hasNul_iff {p : PathName} :
    p.hasNul ↔ '\x00' ∈ p.root.toList ∨ ∃ s ∈ p.segments, '\x00' ∈ s.toList := by
  have hpoint : '\x00' ∉ ".".toList := by decide
  have hslash : '\x00' ≠ '/' := by decide
  rw [hasNul, List.contains_iff_mem, text]
  split_ifs with hempty
  · rw [hempty.1, hempty.2]
    simp
  · rw [String.toList_append, List.mem_append, String.toList_intercalate]
    refine or_congr_right ⟨fun h => ?_, fun ⟨s, hs, h⟩ => ?_⟩
    · obtain ⟨part, hpart, h⟩ := (eq_or_exists_of_mem_intercalate h).resolve_left hslash
      obtain ⟨s, hs, rfl⟩ := List.mem_map.mp hpart
      exact ⟨s, hs, h⟩
    · exact mem_intercalate (List.mem_map_of_mem hs) h

theorem hasNul_mono {root : String} {segments segments' : List String} (h : segments ⊆ segments')
    (hnul : hasNul ⟨root, segments'⟩ = false) : hasNul ⟨root, segments⟩ = false := by
  rw [Bool.eq_false_iff, Ne, hasNul_iff, not_or] at hnul ⊢
  exact ⟨hnul.1, fun ⟨s, hs, hc⟩ => hnul.2 ⟨s, h hs, hc⟩⟩

end PathName

namespace FileTree
variable {t t' : FileTree} {p : PathName} {q place : Place} {e : FileError} {f : FileFault}

/-! ### Unusable paths -/

theorem walk_ne_unusable {segments : List String} (h : t.walk q segments = .error f) :
    f ≠ .unusable := by
  induction segments generalizing q with
  | nil => cases h
  | cons s segments ih =>
    rw [walk] at h
    split at h
    · cases h
      decide
    · cases h
      decide
    · split_ifs at h
      · cases h
        decide
      · exact ih h

theorem locate_of_hasNul (h : p.hasNul) : t.locate p = .error .unusable := if_pos h

theorem locate_ne_unusable (hp : p.hasNul = false) (h : t.locate p = .error f) : f ≠ .unusable := by
  have hnul : p.text.toList.contains '\x00' = false := hp
  unfold locate at h
  rw [hnul, if_neg Bool.false_ne_true] at h
  split_ifs at h
  · cases h
    decide
  · exact walk_ne_unusable h
  · exact walk_ne_unusable h

theorem ensureDirectory_of_hasNul (h : p.hasNul) : t.ensureDirectory p = .error ⟨.unusable, p⟩ := by
  have hmade : t.makeDirectory p = .error .unusable := by
    rw [makeDirectory, locate_of_hasNul h]
    rfl
  rw [ensureDirectory, hmade]

theorem makeDirectory_ne_unusable (hp : p.hasNul = false) (h : t.makeDirectory p = .error f) :
    f ≠ .unusable := by
  rcases bind_eq_error.mp h with h | ⟨place, -, h⟩
  · exact locate_ne_unusable hp h
  · split at h <;> cases h
    decide

theorem ensureDirectory_ne_unusable (hp : p.hasNul = false) (h : t.ensureDirectory p = .error e) :
    e.fault ≠ .unusable := by
  unfold ensureDirectory at h
  split at h
  · cases h
  · cases h
    exact FileFault.noConfusion
  · next hmade => exact absurd rfl (makeDirectory_ne_unusable hp hmade)
  · next f _ _ hmade =>
    split_ifs at h
    cases h
    exact makeDirectory_ne_unusable hp hmade

theorem write_ne_unusable {content : Bytes} (hp : p.hasNul = false) (h : t.write p content = .error e) :
    e.fault ≠ .unusable := by
  unfold write at h
  split at h
  · next hplace =>
    cases h
    exact locate_ne_unusable hp hplace
  · split at h <;> cases h
    exact FileFault.noConfusion

theorem ensureDirectories_of_hasNul (h : p.hasNul) : t.ensureDirectories p = .error ⟨.unusable, p⟩ := by
  obtain ⟨root, segments⟩ := p
  rw [ensureDirectories]
  cases hs : segments.reverse with
  | nil =>
    rw [List.reverse_eq_nil_iff.mp hs] at h ⊢
    exact ensureDirectory_of_hasNul h
  | cons s up =>
    have hp : (⟨root, (s :: up).reverse⟩ : PathName) = ⟨root, segments⟩ := by
      rw [← hs, List.reverse_reverse]
    simp only [ensureAbove]
    rw [hp, ensureDirectory_of_hasNul h]

theorem ensureAbove_ne_unusable {root : String} {up : List String}
    (hp : PathName.hasNul ⟨root, up.reverse⟩ = false) (h : t.ensureAbove root up = .error e) :
    e.fault ≠ .unusable := by
  induction up generalizing t e with
  | nil => exact ensureDirectory_ne_unusable hp h
  | cons s up ih =>
    rw [ensureAbove] at h
    have hup : PathName.hasNul ⟨root, up.reverse⟩ = false := PathName.hasNul_mono (by simp) hp
    split at h
    · rcases bind_eq_error.mp h with h | ⟨made, -, h⟩
      · exact ih hup h
      · exact ensureDirectory_ne_unusable hp h
    · exact ensureDirectory_ne_unusable hp h

theorem ensureDirectories_ne_unusable (hp : p.hasNul = false) (h : t.ensureDirectories p = .error e) :
    e.fault ≠ .unusable := by
  refine ensureAbove_ne_unusable ?_ h
  rwa [List.reverse_reverse]

/-! ### Files -/

theorem files_ensureDirectory (h : t.ensureDirectory p = .ok t') : t'.files = t.files := by
  unfold ensureDirectory at h
  split at h
  · next hmade =>
    cases h
    obtain ⟨place, -, hmade⟩ := bind_eq_ok.mp hmade
    split at hmade
    · cases hmade
    · cases hmade
      rfl
  · cases h
  · cases h
  · split_ifs at h
    cases h
    rfl

theorem files_ensureAbove {root : String} {up : List String} (h : t.ensureAbove root up = .ok t') :
    t'.files = t.files := by
  induction up generalizing t t' with
  | nil => exact files_ensureDirectory h
  | cons s up ih =>
    rw [ensureAbove] at h
    split at h
    · obtain ⟨made, hmade, h⟩ := bind_eq_ok.mp h
      rw [files_ensureDirectory h, ih hmade]
    · exact files_ensureDirectory h

theorem files_ensureDirectories (h : t.ensureDirectories p = .ok t') : t'.files = t.files :=
  files_ensureAbove h

theorem file_congr (h : t'.files = t.files) {content : Bytes} :
    t'.at? q = some (.file content) ↔ t.at? q = some (.file content) := by
  unfold at?
  rw [h]
  cases t.files.find? (fun f => f.1 = q) with
  | some f => rfl
  | none =>
    simp only
    split_ifs <;> simp

theorem file_write_of_locate {content other : Bytes} (h : t.write p content = .ok t')
    (hplace : t'.locate p = .ok place) (hne : q ≠ place) :
    t'.at? q = some (.file other) ↔ t.at? q = some (.file other) := by
  obtain ⟨target, htarget, -⟩ := write_eq_ok h
  have heq := (locate_write h htarget).symm.trans hplace
  cases heq
  exact file_write_of_ne h htarget hne

end FileTree

/-! ### Storages -/

namespace Generation

/-- Why a source is not written: the system refuses to, the path cannot be one, or some of the text
has no encoding. -/
inductive WriteError
  | system (reason : String)
  | badPath
  | badText

/-- The error of a write that fails as an operation on files does. -/
def WriteError.ofFile (e : FileError) : WriteError :=
  if e.fault = .unusable then .badPath else .system e.message

/-- What becomes of a write beyond what the files show. The system may refuse to make a directory or
to open the file, or break off when some of the bytes are in the file. A source may have half of a
surrogate pair, which has no encoding; texts here have none, so that this too is left to the storage. -/
inductive Storage
  | sound
  | noDirectory (reason : String)
  | noFile (reason : String)
  | noEncoding
  | breaksOff (reason : String) (written : Nat)

namespace Storage

/-- Whether a write can fail when its file is open. -/
def failsOpen : Storage → Bool
  | noEncoding => true
  | breaksOff .. => true
  | _ => false

/-- What goes wrong with a write that the files allow. -/
def failure? : Storage → Option WriteError
  | sound => none
  | noDirectory reason | noFile reason | breaksOff reason _ => some (.system reason)
  | noEncoding => some .badText

/-- As much of a source as gets into the file. It is encoded as a whole. -/
def kept : Storage → String → Bytes
  | noEncoding, _ => []
  | breaksOff _ written, source => (Utf8.encode source).take written
  | _, source => Utf8.encode source

/-- The files that a write leaves, and what went wrong. Opening a file empties it. -/
def store (storage : Storage) (tree : FileTree) (directory path : PathName) (source : String) :
    FileTree × Option WriteError :=
  match tree.ensureDirectories directory with
  | .error e => (tree, some (.ofFile e))
  | .ok made =>
    match storage, made.write path (storage.kept source) with
    | noDirectory reason, _ => (tree, some (.system reason))
    | _, .error e => (made, some (.ofFile e))
    | noFile reason, .ok _ => (made, some (.system reason))
    | noEncoding, .ok left => (left, some .badText)
    | breaksOff reason _, .ok left => (left, some (.system reason))
    | sound, .ok written => (written, none)

end Storage

/-- Where the source of a client goes. -/
def target (settings : GenerationSettings) (g : GeneratedClient) : PathName :=
  (PathName.ofText settings.directory).join (g.className ++ ".py")

/-- What is said of a source that the system does not write. -/
def unwritten (path : PathName) (reason : String) : String :=
  s!"Could not write generated source to {path.text}: {reason}"

/-- The records of a write, with those of its failure. -/
def writeRecords (label : String) (path : PathName) (failure : Option String) : List LogRecord :=
  record .debug label ("Writing source file: " ++ path.text) :: failure.toList.map fun reason =>
    record .warning label s!"Error writing source file {path.text}: {reason}"

/-- The generation of a source without the writing of it. -/
def inMemory (settings : GenerationSettings) (p : Program) (s : Subject) (tree : FileTree) :
    Report GeneratedClient :=
  generate { settings with writeSources := false } p s tree

/-- What a generation ends with once a write has left its files. -/
def handOut (label : String) (path : PathName) (g : GeneratedClient) (log : List LogRecord)
    (left : FileTree) : Option WriteError → Report GeneratedClient
  | none =>
    { result := .ok { g with path := some path }, tree := left
      log := log ++ writeRecords label path none }
  | some .badPath =>
    { result := .error (.broken .badValue), tree := left, log := log ++ writeRecords label path none }
  | some .badText =>
    { result := .error (.broken .unwritableText), tree := left
      log := log ++ writeRecords label path none }
  | some (.system reason) =>
    { result := .ok g, tree := left, log := log ++ writeRecords label path (some reason)
      warnings := [unwritten path reason] }

/-- A generation whose source is written to a storage. -/
def generateTo (storage : Storage) (settings : GenerationSettings) (p : Program) (s : Subject)
    (tree : FileTree) : Report GeneratedClient :=
  let memory := inMemory settings p s tree
  match memory.result with
  | .error _ => memory
  | .ok g =>
    let path := target settings g
    let stored := storage.store tree (PathName.ofText settings.directory) path g.source
    handOut (p.label s) path g memory.log stored.1 stored.2

section
variable {settings : GenerationSettings} {p : Program} {s : Subject} {tree : FileTree}
  {g : GeneratedClient} {storage : Storage}

theorem generate_eq_inMemory (settings : GenerationSettings) (p : Program) (s : Subject)
    (tree : FileTree) : generate settings p s tree = match (inMemory settings p s tree).result with
      | .error _ => inMemory settings p s tree
      | .ok g => deliver settings (p.label s) g tree (inMemory settings p s tree).log := by
  unfold inMemory generate
  cases p.candidateOf s with
  | error e => rfl
  | ok c =>
    have hsource : sourceOf { settings with writeSources := false } c = sourceOf settings c := rfl
    simp only [hsource]
    cases sourceOf settings c with
    | error e => rfl
    | ok g =>
      have hmemory : ({ settings with writeSources := false } : GenerationSettings).writeSources = false :=
        rfl
      simp only [deliver_of_not_writes hmemory]

theorem store_sound (tree : FileTree) (directory path : PathName) (source : String) :
    Storage.sound.store tree directory path source =
      ((writeSource tree directory path source).1,
        (writeSource tree directory path source).2.map .ofFile) := by
  unfold Storage.store writeSource
  cases tree.ensureDirectories directory with
  | error e => rfl
  | ok made =>
    have hkept : Storage.sound.kept source = Utf8.encode source := rfl
    simp only [hkept]
    cases made.write path (Utf8.encode source) <;> rfl

theorem generateTo_sound (hwrites : settings.writeSources) :
    generateTo .sound settings p s tree = generate settings p s tree := by
  rw [generate_eq_inMemory, generateTo]
  simp only
  cases (inMemory settings p s tree).result with
  | error e => rfl
  | ok g =>
    simp only [deliver, hwrites, Bool.not_true, Bool.false_eq_true, if_false, store_sound, target]
    rcases writeSource tree _ _ g.source with ⟨left, _ | e⟩
    · rfl
    · by_cases he : e.fault = .unusable
      · have hofFile : WriteError.ofFile e = .badPath := if_pos he
        simp only [Option.map_some, hofFile, if_pos he]
        rfl
      · have hofFile : WriteError.ofFile e = .system e.message := if_neg he
        simp only [Option.map_some, hofFile, if_neg he, List.append_assoc]
        rfl

/-- What can become of a write. -/
inductive Stored (storage : Storage) (tree : FileTree) (directory path : PathName) (source : String) :
    FileTree → Option WriteError → Prop
  | unmade {e : FileError} (h : tree.ensureDirectories directory = .error e) :
    Stored storage tree directory path source tree (some (.ofFile e))
  | noDirectory {made : FileTree} {reason : String} (hmade : tree.ensureDirectories directory = .ok made)
    (h : storage = .noDirectory reason) :
    Stored storage tree directory path source tree (some (.system reason))
  | unopened {made : FileTree} {e : FileError} (hmade : tree.ensureDirectories directory = .ok made)
    (h : made.write path (storage.kept source) = .error e) :
    Stored storage tree directory path source made (some (.ofFile e))
  | noFile {made : FileTree} {reason : String} (hmade : tree.ensureDirectories directory = .ok made)
    (h : storage = .noFile reason) :
    Stored storage tree directory path source made (some (.system reason))
  | unencoded {made left : FileTree} (hmade : tree.ensureDirectories directory = .ok made)
    (h : storage = .noEncoding) (hleft : made.write path [] = .ok left) :
    Stored storage tree directory path source left (some .badText)
  | brokenOff {made left : FileTree} {reason : String} {written : Nat}
    (hmade : tree.ensureDirectories directory = .ok made) (h : storage = .breaksOff reason written)
    (hleft : made.write path ((Utf8.encode source).take written) = .ok left) :
    Stored storage tree directory path source left (some (.system reason))
  | written {made left : FileTree} (hmade : tree.ensureDirectories directory = .ok made)
    (h : storage = .sound) (hleft : made.write path (Utf8.encode source) = .ok left) :
    Stored storage tree directory path source left none

theorem stored (storage : Storage) (tree : FileTree) (directory path : PathName) (source : String) :
    Stored storage tree directory path source (storage.store tree directory path source).1
      (storage.store tree directory path source).2 := by
  unfold Storage.store
  cases hmade : tree.ensureDirectories directory with
  | error e => exact .unmade hmade
  | ok made =>
    simp only
    cases hleft : made.write path (storage.kept source) with
    | error e =>
      cases storage with
      | noDirectory reason => exact .noDirectory hmade rfl
      | _ => exact .unopened hmade hleft
    | ok left =>
      cases storage with
      | sound => exact .written hmade rfl hleft
      | noDirectory reason => exact .noDirectory hmade rfl
      | noFile reason => exact .noFile hmade rfl
      | noEncoding => exact .unencoded hmade rfl hleft
      | breaksOff reason written => exact .brokenOff hmade rfl hleft

theorem exists_stored (storage : Storage) (hg : (inMemory settings p s tree).result = .ok g) :
    ∃ left failure,
      Stored storage tree (PathName.ofText settings.directory) (target settings g) g.source left failure ∧
      generateTo storage settings p s tree =
        handOut (p.label s) (target settings g) g (inMemory settings p s tree).log left failure := by
  refine ⟨_, _, stored .., ?_⟩
  rw [generateTo]
  simp only [hg]

section
variable {directory path : PathName} {source : String} {left : FileTree} {failure : Option WriteError}

theorem ofFile_eq_badPath_iff {e : FileError} :
    WriteError.ofFile e = .badPath ↔ e.fault = .unusable := by
  unfold WriteError.ofFile
  split_ifs with h <;> simp [h]

theorem ofFile_ne_badText {e : FileError} : WriteError.ofFile e ≠ .badText := by
  unfold WriteError.ofFile
  split_ifs <;> nofun

/-- A path that can be one is not refused as one that cannot. -/
theorem Stored.ne_badPath (h : Stored storage tree directory path source left failure)
    (hdirectory : directory.hasNul = false) (hpath : path.hasNul = false) :
    failure ≠ some .badPath := by
  cases h with
  | unmade h =>
    rw [Ne, Option.some.injEq, ofFile_eq_badPath_iff]
    exact FileTree.ensureDirectories_ne_unusable hdirectory h
  | unopened _ h =>
    rw [Ne, Option.some.injEq, ofFile_eq_badPath_iff]
    exact FileTree.write_ne_unusable hpath h
  | _ => simp

theorem Stored.eq_badPath (h : Stored storage tree directory path source left failure)
    (hdirectory : directory.hasNul) : failure = some .badPath := by
  have herror := FileTree.ensureDirectories_of_hasNul (t := tree) hdirectory
  cases h with
  | unmade h =>
    rw [herror] at h
    cases h
    rfl
  | _ => simp_all

theorem Stored.failure_eq (h : Stored storage tree directory path source left failure)
    {made left' : FileTree} (hmade : tree.ensureDirectories directory = .ok made)
    (hleft : made.write path (storage.kept source) = .ok left') : failure = storage.failure? := by
  cases h with
  | unmade h =>
    rw [hmade] at h
    cases h
  | unopened hmade' h =>
    rw [hmade] at hmade'
    cases hmade'
    rw [hleft] at h
    cases h
  | noDirectory _ h | noFile _ h | unencoded _ h | brokenOff _ h | written _ h =>
    rw [h]
    rfl

theorem Stored.eq_none_iff (h : Stored storage tree directory path source left failure) :
    failure = none ↔ storage = .sound ∧
      ∃ made, tree.ensureDirectories directory = .ok made ∧
        made.write path (Utf8.encode source) = .ok left := by
  constructor
  · rintro rfl
    cases h with
    | written hmade h hleft => exact ⟨h, _, hmade, hleft⟩
  · rintro ⟨rfl, made, hmade, hleft⟩
    exact h.failure_eq hmade hleft

theorem Stored.eq_badText_iff (h : Stored storage tree directory path source left failure) :
    failure = some .badText ↔ storage = .noEncoding ∧
      ∃ made, tree.ensureDirectories directory = .ok made ∧ made.write path [] = .ok left := by
  constructor
  · rintro rfl
    generalize herror : some WriteError.badText = failure at h
    cases h with
    | unencoded hmade h hleft => exact ⟨h, _, hmade, hleft⟩
    | unmade | unopened => exact absurd (Option.some.inj herror).symm ofFile_ne_badText
    | _ => cases herror
  · rintro ⟨rfl, made, hmade, hleft⟩
    exact h.failure_eq hmade hleft

/-- A write that fails changes no file unless one was open. Then it is the file of the path, and holds
as much as got into it. -/
theorem Stored.files_eq_or (h : Stored storage tree directory path source left failure)
    (hfailed : failure ≠ none) :
    left.files = tree.files ∨ storage.failsOpen ∧ left.read path = .ok (storage.kept source) := by
  cases h with
  | unmade => exact .inl rfl
  | noDirectory => exact .inl rfl
  | unopened hmade => exact .inl (FileTree.files_ensureDirectories hmade)
  | noFile hmade => exact .inl (FileTree.files_ensureDirectories hmade)
  | unencoded _ h hleft | brokenOff _ h hleft =>
    subst h
    exact .inr ⟨rfl, FileTree.read_write hleft⟩
  | written => exact absurd rfl hfailed

theorem Stored.file_of_ne (h : Stored storage tree directory path source left failure) {place q : Place}
    (hplace : left.locate path = .ok place) (hne : q ≠ place) {content : Bytes} :
    left.at? q = some (.file content) ↔ tree.at? q = some (.file content) := by
  cases h with
  | unmade => rfl
  | noDirectory => rfl
  | unopened hmade => exact FileTree.file_congr (FileTree.files_ensureDirectories hmade)
  | noFile hmade => exact FileTree.file_congr (FileTree.files_ensureDirectories hmade)
  | unencoded hmade _ hleft | brokenOff hmade _ hleft | written hmade _ hleft =>
    exact (FileTree.file_write_of_locate hleft hplace hne).trans
      (FileTree.file_congr (FileTree.files_ensureDirectories hmade))

end

theorem handOut_result_iff {label : String} {path : PathName} {log : List LogRecord} {left : FileTree}
    {failure : Option WriteError} (hg : g.path = none) :
    (handOut label path g log left failure).result = .ok { g with path := some path } ↔
      failure = none := by
  rcases failure with _ | reason | _ | _
  · simp [handOut]
  · have hne : g ≠ { g with path := some path } := by
      intro h
      have hpath := congrArg GeneratedClient.path h
      rw [hg] at hpath
      cases hpath
    simp [handOut, hne]
  · simp [handOut]
  · simp [handOut]

theorem handOut_unwritable_iff {label : String} {path : PathName} {log : List LogRecord}
    {left : FileTree} {failure : Option WriteError} :
    (handOut label path g log left failure).result = .error (.broken .unwritableText) ↔
      failure = some .badText := by
  rcases failure with _ | reason | _ | _ <;> simp [handOut]

theorem tree_handOut {label : String} {path : PathName} {log : List LogRecord} {left : FileTree}
    {failure : Option WriteError} : (handOut label path g log left failure).tree = left := by
  rcases failure with _ | reason | _ | _ <;> rfl

/-- A source that is to be written is handed out as it is in memory: with the path of a file that holds
it, or else with one warning and one record of it, which happens exactly if the directories or the file
cannot be made or the storage does not see to it. Only a NUL in the path and text without an encoding
are errors. A write that fails leaves every file as it is, but for one that was open by then, which
holds as much as got into it. -/
theorem failed_writes_keep_sources (storage : Storage) (hwrites : settings.writeSources)
    (hg : (inMemory settings p s tree).result = .ok g) :
    let directory := PathName.ofText settings.directory
    let path := target settings g
    let log failure := (inMemory settings p s tree).log ++ writeRecords (p.label s) path failure
    let r := generateTo storage settings p s tree
    generateTo .sound settings p s tree = generate settings p s tree ∧
      (path.hasNul = false → storage ≠ .noEncoding → ∃ g', r.result = .ok g') ∧
      (directory.hasNul → r.result = .error (.broken .badValue)) ∧
      (r.result = .error (.broken .unwritableText) ↔ storage = .noEncoding ∧
        ∃ made, tree.ensureDirectories directory = .ok made ∧ made.write path [] = .ok r.tree) ∧
      (∀ g', r.result = .ok g' →
        (g' = { g with path := some path } ∧ r.tree.read path = .ok (Utf8.encode g.source) ∧
          r.warnings = [] ∧ r.log = log none) ∨
        (g' = g ∧ g.path = none ∧
          ∃ reason, r.warnings = [unwritten path reason] ∧ r.log = log (some reason))) ∧
      (r.result = .ok { g with path := some path } ↔ storage = .sound ∧
        ∃ made, tree.ensureDirectories directory = .ok made ∧
          made.write path (Utf8.encode g.source) = .ok r.tree) ∧
      (r.result ≠ .ok { g with path := some path } → r.tree.files = tree.files ∨
        storage.failsOpen ∧ r.tree.read path = .ok (storage.kept g.source)) ∧
      ∀ place, r.tree.locate path = .ok place → ∀ q ≠ place, ∀ content,
        r.tree.at? q = some (.file content) ↔ tree.at? q = some (.file content) := by
  intro directory path log r
  obtain ⟨left, failure, hstored, hr⟩ := exists_stored storage hg
  have hnone : g.path = none := (generate_of_not_writes rfl).2 g hg
  have hdirectory (hpath : path.hasNul = false) : directory.hasNul = false :=
    PathName.hasNul_mono (List.subset_append_left ..) hpath
  have htree : r.tree = left := (congrArg Report.tree hr).trans tree_handOut
  have hresult : r.result = .ok { g with path := some path } ↔ failure = none :=
    (iff_of_eq (congrArg (·.result = _) hr)).trans (handOut_result_iff hnone)
  have hunwritable : r.result = .error (.broken .unwritableText) ↔ failure = some .badText :=
    (iff_of_eq (congrArg (·.result = _) hr)).trans handOut_unwritable_iff
  -- from here on only `failure` matters, which says how the write ended
  rw [htree, hresult, hunwritable]
  refine ⟨generateTo_sound hwrites, fun hpath hencoding => ?_, fun hnul => ?_,
    hstored.eq_badText_iff, fun g' hg' => ?_, hstored.eq_none_iff,
    fun hfailed => hstored.files_eq_or (hfailed ∘ hresult.mpr),
    fun place hplace q hne content => hstored.file_of_ne hplace hne⟩
  · have hsystem := hstored.ne_badPath (hdirectory hpath) hpath
    rcases failure with _ | reason | _ | _
    · exact ⟨_, congrArg Report.result hr⟩
    · exact ⟨_, congrArg Report.result hr⟩
    · exact absurd rfl hsystem
    · exact absurd (hstored.eq_badText_iff.mp rfl).1 hencoding
  · rw [hstored.eq_badPath hnul] at hr
    exact congrArg Report.result hr
  · rcases failure with _ | reason | _ | _
    · obtain ⟨-, made, -, hleft⟩ := hstored.eq_none_iff.mp rfl
      have heq : g' = _ := Except.ok.inj (hg'.symm.trans (congrArg Report.result hr))
      exact .inl ⟨heq, FileTree.read_write hleft, congrArg Report.warnings hr,
        congrArg Report.log hr⟩
    · have heq : g' = _ := Except.ok.inj (hg'.symm.trans (congrArg Report.result hr))
      exact .inr ⟨heq, hnone, reason, congrArg Report.warnings hr, congrArg Report.log hr⟩
    · cases hg'.symm.trans (congrArg Report.result hr)
    · cases hg'.symm.trans (congrArg Report.result hr)

end

/-- A file that cannot be opened again keeps its text, and the source is there with a warning. -/
theorem failed_writes_keep_sources_ping :
    let settings : GenerationSettings := { writeSources := true }
    let p := (usersRegistry ["ping"]).program
    let tree : FileTree := ⟨[(["declient-generated", "appUsers.py"], Utf8.encode "old")], []⟩
    let r := generateTo (.noFile "[Errno 13] Permission denied") settings p (.declared ⟨"app", "Users"⟩)
      tree
    ∃ g, (inMemory settings p (.declared ⟨"app", "Users"⟩) tree).result = .ok g ∧ r.result = .ok g ∧
      r.warnings.length = 1 ∧ r.tree.files = tree.files := by
  intro settings p tree r
  have hname : (inMemory settings p (.declared ⟨"app", "Users"⟩) tree).result.toOption.map
      (·.className) = some "appUsers" := by decide +kernel
  cases hg : (inMemory settings p (.declared ⟨"app", "Users"⟩) tree).result with
  | error e =>
    rw [hg] at hname
    cases hname
  | ok g =>
    rw [hg] at hname
    have hclass : g.className = "appUsers" := Option.some.inj hname
    have htarget : target settings g = ⟨"", ["declient-generated", "appUsers.py"]⟩ := by
      rw [target, hclass]
      decide +kernel
    have hpath : (target settings g).hasNul = false := by
      rw [htarget]
      decide +kernel
    obtain ⟨-, hsome, -, -, hsource, hwritten, hkept, -⟩ :=
      failed_writes_keep_sources (.noFile "[Errno 13] Permission denied") rfl hg
    have hfailed : r.result ≠ .ok { g with path := some (target settings g) } :=
      fun h => nomatch (hwritten.mp h).1
    obtain ⟨g', hg'⟩ := hsome hpath nofun
    refine ⟨g, rfl, ?_⟩
    rcases hsource g' hg' with ⟨rfl, -⟩ | ⟨rfl, -, reason, hwarnings, -⟩
    · exact absurd hg' hfailed
    · exact ⟨hg', by rw [hwarnings]; rfl, (hkept hfailed).resolve_right fun h => nomatch h.1⟩

/-- A directory with a NUL in it is an error, not a warning. -/
example : (generate { directory := "a\x00b", writeSources := true } (usersRegistry ["ping"]).program
    (.declared ⟨"app", "Users"⟩) ⟨[], []⟩).result.toOption.isNone = true := by decide +kernel

end Generation

end HttpContract
