import HttpContract.Proofs.CommandLine.Batches

/-!
# Endings

How a command ends. Its settings are loaded, or a report says why not, or the error is one that is not
handled (`LoadEscapes`): a settings file that holds a value but no table is of the last kind. Under
settings that are loaded each reference has a client, or a report says why not, or it escapes
(`Escapes`). The status is 0 if all is well and 1 if there was a report; what escapes ends the run
without one (`commands_end_unless_errors_escape`).
-/

namespace HttpContract

/-! ### Settings files -/

namespace GenerationSettings
variable {tree : FileTree} {asked : Option PathName} {environment : List (String × String)}
  {arguments entries : Layer} {path : PathName}

/-- A settings file with a value that is no table. -/
def HoldsNoTable (tree : FileTree) (asked : Option PathName) : Prop :=
  ∃ p content text j, locate tree ⟨"", []⟩ asked = .ok (some p) ∧ tree.read p = .ok content ∧
    p.suffix ≠ ".toml" ∧ Utf8.decode? content = some text ∧ Json.read? .configured text = some j ∧
      ∀ entries, j ≠ .object entries

theorem ofFile_eq_noTable_iff {content : Bytes} :
    ofFile path content = .error .noTable ↔ path.suffix ≠ ".toml" ∧
      ∃ text j, Utf8.decode? content = some text ∧ Json.read? .configured text = some j ∧
        ∀ entries, j ≠ .object entries := by
  unfold ofFile
  split_ifs with hsuffix
  · refine iff_of_false ?_ fun h => h.1 hsuffix
    cases (Utf8.decode? content).bind Toml.read? <;> nofun
  · rw [and_iff_right hsuffix]
    cases htext : Utf8.decode? content with
    | none => exact iff_of_false nofun fun ⟨_, _, h, _⟩ => nomatch h
    | some text =>
      rw [Option.bind_some]
      cases hj : Json.read? .configured text with
      | none =>
        refine iff_of_false nofun fun ⟨_, j, htext', hj', _⟩ => ?_
        cases htext'
        cases hj.symm.trans hj'
      | some j =>
        cases j with
        | object entries =>
          refine iff_of_false nofun fun ⟨_, j, htext', hj', hno⟩ => ?_
          cases htext'
          exact hno entries (Option.some.inj (hj'.symm.trans hj))
        | _ => exact iff_of_true rfl ⟨text, _, rfl, hj, nofun⟩

theorem fileLayer_of_locate (h : locate tree ⟨"", []⟩ asked = .ok (some path)) :
    fileLayer tree asked = (tree.read path).mapError .unreadable >>= ofFile path := by
  rw [fileLayer, h]
  cases asked <;> rfl

theorem fileLayer_eq_noTable_iff : fileLayer tree asked = .error .noTable ↔ HoldsNoTable tree asked := by
  constructor
  · intro h
    rcases bind_eq_error.mp h with h | ⟨found, hfound, hrest⟩
    · obtain ⟨e, -, he⟩ := mapError_eq_error.mp h
      cases he
    · replace hfound := mapError_eq_ok.mp hfound
      cases found with
      | none => cases asked <;> cases hrest
      | some p =>
        rw [fileLayer_of_locate hfound] at h
        rcases bind_eq_error.mp h with h | ⟨content, hcontent, hfile⟩
        · obtain ⟨e, -, he⟩ := mapError_eq_error.mp h
          cases he
        · obtain ⟨hsuffix, text, j, htext, hj, hno⟩ := ofFile_eq_noTable_iff.mp hfile
          exact ⟨p, content, text, j, hfound, mapError_eq_ok.mp hcontent, hsuffix, htext, hj, hno⟩
  · rintro ⟨p, content, text, j, hfound, hcontent, hsuffix, htext, hj, hno⟩
    rw [fileLayer_of_locate hfound, hcontent]
    exact ofFile_eq_noTable_iff.mpr ⟨hsuffix, text, j, htext, hj, hno⟩

theorem layerOf_eq_noTable_iff (arguments : Layer) :
    layerOf tree asked arguments = .error .noTable ↔ HoldsNoTable tree asked := by
  rw [← fileLayer_eq_noTable_iff, layerOf, bind_eq_error]
  exact or_iff_left fun ⟨_, _, h⟩ => nomatch h

theorem LoadFailure.ofError_eq_escapes_iff {e : SettingsError} {b : Breakdown} :
    ofError e = .escapes b ↔ e = .noTable ∧ b = .missingAttribute := by
  cases e <;> simp [ofError, eq_comm]

theorem ofValues_ne_escapes {b : Breakdown} :
    (ofValues environment entries).mapError LoadFailure.ofError ≠ .error (.escapes b) := by
  intro h
  obtain ⟨e, hvalues, he⟩ := mapError_eq_error.mp h
  obtain ⟨issues, -, rfl⟩ := mapError_eq_error.mp hvalues
  cases he

end GenerationSettings

/-! ### References -/

namespace Generation

/-- A subject has no source exactly if reading and checking it fails, and then for the same reason. -/
theorem candidateOf_sourceOf_eq_error_iff {settings : GenerationSettings} {p : Program} {s : Subject}
    {e : Failure} : p.candidateOf s >>= sourceOf settings = .error e ↔ p.describe s = .error e := by
  have hsource : ∀ c, sourceOf settings c = .error e ↔ Contract.ofCandidate c = .error e := by
    intro c
    rcases sourceOf_cases settings c with ⟨e', hk, he⟩ | ⟨g, hg⟩
    · rw [hk, he, Except.error.injEq, Except.error.injEq]
    · rw [hg, (sourceOf_eq_ok hg).1]
      exact iff_of_false nofun nofun
  rw [Program.describe, bind_eq_error, bind_eq_error]
  simp only [hsource]

end Generation

namespace CommandLine
open Generation GenerationSettings

variable {settings : GenerationSettings} {verbose : Bool} {p : Program} {reference r : String}
  {refs : List String} {s s' : Session} {ok : Bool} {b : Breakdown} {tree : FileTree}

/-- The errors that are not handled when settings are loaded: the stack is too small for reading the file,
the file holds a value that is no table, or entries for the library that reads settings end in one. -/
inductive LoadEscapes (p : Program) (environment : List (String × String)) (a : GenerateArguments)
    (tree : FileTree) : Breakdown → Prop
  | exhausted (h : exhausts p tree a.file) : LoadEscapes p environment a tree .endlessRecursion
  | noTable (room : exhausts p tree a.file = false) (h : HoldsNoTable tree a.file) :
    LoadEscapes p environment a tree .missingAttribute
  | steered {entries : Layer} {b : Breakdown} (room : exhausts p tree a.file = false)
    (found : layerOf tree a.file a.settings = .ok entries) (meant : entries.isPlain = false)
    (h : p.surroundings.steer? tree environment entries = some (.error (.escapes b))) :
    LoadEscapes p environment a tree b

theorem loadSettings_eq_escapes_iff {environment : List (String × String)} {a : GenerateArguments} :
    loadSettings p environment a tree = .error (.escapes b) ↔ LoadEscapes p environment a tree b := by
  unfold loadSettings
  by_cases hroom : exhausts p tree a.file = true
  · rw [if_pos hroom, Except.error.injEq, LoadFailure.escapes.injEq]
    constructor
    · rintro rfl
      exact .exhausted hroom
    · rintro (- | room | room)
      · rfl
      · cases hroom.symm.trans room
      · cases hroom.symm.trans room
  rw [if_neg hroom]
  replace hroom := Bool.eq_false_iff.mpr hroom
  cases hentries : layerOf tree a.file a.settings with
  | error e =>
    rw [Except.error.injEq, LoadFailure.ofError_eq_escapes_iff]
    constructor
    · rintro ⟨rfl, rfl⟩
      exact .noTable hroom ((layerOf_eq_noTable_iff a.settings).mp hentries)
    · rintro (h | ⟨-, h⟩ | ⟨-, found, -⟩)
      · cases hroom.symm.trans h
      · rw [(layerOf_eq_noTable_iff a.settings).mpr h] at hentries
        exact ⟨(Except.error.inj hentries).symm, rfl⟩
      · cases hentries.symm.trans found
  | ok entries =>
    -- what is found is loaded by the library if some of it is meant for it
    simp only
    constructor
    · intro h
      cases hplain : entries.isPlain with
      | true =>
        rw [if_pos hplain] at h
        exact absurd h ofValues_ne_escapes
      | false =>
        rw [hplain, if_neg Bool.false_ne_true] at h
        cases houtcome : p.surroundings.steer? tree environment entries with
        | none =>
          rw [houtcome] at h
          exact absurd h ofValues_ne_escapes
        | some outcome =>
          rw [houtcome] at h
          exact .steered hroom hentries hplain (houtcome.trans (congrArg some h))
    · rintro (h | ⟨-, h⟩ | ⟨-, found, meant, h⟩)
      · cases hroom.symm.trans h
      · cases ((layerOf_eq_noTable_iff a.settings).mpr h).symm.trans hentries
      · cases hentries.symm.trans found
        rw [meant, if_neg Bool.false_ne_true, h]

/-- The errors of a reference that are not handled: its look-up ends in one, a text in a type is one whose
problem is not reported, or the source cannot be written for a reason that is not the system's. -/
inductive Escapes (settings : GenerationSettings) (p : Program) (tree : FileTree) (reference : String) :
    Breakdown → Prop
  | lookup {e : LookupError} {b : Breakdown} (h : p.resolve reference = .error e)
    (kind : e.breakdown? = some b) : Escapes settings p tree reference b
  | unreadable {subject : Subject} {b : Breakdown} (found : p.resolve reference = .ok subject)
    (h : (p.after reference).BreaksOff subject b) : Escapes settings p tree reference b
  | unwritable {g : GeneratedClient} (client : clientOf settings p reference = .ok g)
    (h : BreaksWrite settings tree g) : Escapes settings p tree reference .badValue

theorem escapes_of_generateOne (h : generateOne settings verbose p s reference = .error b) :
    Escapes settings p s.tree reference b := by
  have hturn := turn settings verbose p reference s
  rw [h] at hturn
  cases hturn with
  | unwritable client path => exact .unwritable client path
  | breaks trouble kind =>
    unfold clientOf at trouble
    cases hresolve : p.resolve reference with
    | error e =>
      rw [hresolve] at trouble
      cases trouble
      exact .lookup hresolve kind
    | ok subject =>
      rw [hresolve] at trouble
      obtain ⟨e, he, rfl⟩ := mapError_eq_error.mp trouble
      cases e <;> cases kind
      exact .unreadable hresolve
        (Program.describe_eq_broken_iff.mp (candidateOf_sourceOf_eq_error_iff.mp he))

theorem generateOne_eq_error_iff :
    generateOne settings verbose p s reference = .error b ↔ Escapes settings p s.tree reference b := by
  refine ⟨escapes_of_generateOne, fun h => ?_⟩
  cases h with
  | lookup h kind =>
    rw [generateOne, h]
    simp only [kind]
  | unreadable found h =>
    rw [generateOne, found]
    simp only [generate_of_error (candidateOf_sourceOf_eq_error_iff.mpr
      (Program.describe_eq_broken_iff.mpr h))]
  | unwritable client h =>
    have hturn := turn settings verbose p reference s
    generalize generateOne settings verbose p s reference = x at hturn ⊢
    cases hturn with
    | breaks trouble => cases trouble.symm.trans client
    | fails trouble => cases trouble.symm.trans client
    | unwritable => rfl
    | generates client' path =>
      rw [client] at client'
      cases client'
      exact absurd h path

/-- References that all have a client, one generated after the other. -/
inductive GeneratedInTurn (settings : GenerationSettings) :
    Program → FileTree → List String → FileTree → Prop
  | nil (p : Program) (tree : FileTree) : GeneratedInTurn settings p tree [] tree
  | cons {p : Program} {tree tree' : FileTree} {reference : String} {refs : List String}
    {subject : Subject} {g : GeneratedClient} (found : p.resolve reference = .ok subject)
    (made : (generate settings (p.after reference) subject tree).result = .ok g)
    (others : GeneratedInTurn settings (p.after reference)
      (generate settings (p.after reference) subject tree).tree refs tree') :
    GeneratedInTurn settings p tree (reference :: refs) tree'

theorem generateOne_eq_ok_true_iff (verbose : Bool) :
    (∃ s', generateOne settings verbose p s reference = .ok (s', true) ∧ s'.tree = tree) ↔
      ∃ subject g, p.resolve reference = .ok subject ∧
        (generate settings (p.after reference) subject s.tree).result = .ok g ∧
        (generate settings (p.after reference) subject s.tree).tree = tree := by
  unfold generateOne
  cases p.resolve reference with
  | error e =>
    refine iff_of_false (fun ⟨s', h, _⟩ => ?_) fun ⟨subject, g, h, _⟩ => nomatch h
    cases hkind : e.breakdown? <;> simp only [hkind] at h <;> cases h
  | ok subject =>
    simp only
    cases hresult : (generate settings (p.after reference) subject s.tree).result with
    | error e =>
      refine iff_of_false (fun ⟨s', h, _⟩ => ?_) fun ⟨subject', g, hsubject, hg, _⟩ => ?_
      · cases e <;> cases h
      · cases hsubject
        cases hresult.symm.trans hg
    | ok g =>
      constructor
      · rintro ⟨s', h, rfl⟩
        cases h
        refine ⟨subject, g, rfl, hresult, ?_⟩
        rw [Session.tree_tell]
        rfl
      · rintro ⟨subject', g', hsubject, -, htree⟩
        cases hsubject
        exact ⟨_, rfl, Session.tree_tell.trans htree⟩

theorem generateAll_eq_ok_true_iff : (∃ s', generateAll settings verbose p s refs = .ok (s', true) ∧
      s'.tree = tree) ↔ GeneratedInTurn settings p s.tree refs tree := by
  induction refs generalizing p s with
  | nil =>
    constructor
    · rintro ⟨s', h, rfl⟩
      cases h
      exact .nil ..
    · intro h
      cases h
      exact ⟨s, rfl, rfl⟩
  | cons r refs ih =>
    constructor
    · rintro ⟨s', h, rfl⟩
      rw [generateAll_cons] at h
      obtain ⟨⟨s₁, ok₁⟩, hone, h⟩ := bind_eq_ok.mp h
      obtain ⟨⟨s₂, ok₂⟩, hall, h⟩ := map_eq_ok.mp h
      simp only [Prod.mk.injEq, Bool.and_eq_true] at h
      obtain ⟨rfl, rfl, rfl⟩ := h
      obtain ⟨subject, g, found, made, htree⟩ := (generateOne_eq_ok_true_iff verbose).mp ⟨s₁, hone, rfl⟩
      exact .cons found made (htree ▸ ih.mp ⟨s₂, hall, rfl⟩)
    · intro h
      cases h with
      | cons found made others =>
        obtain ⟨s₁, hone, htree⟩ := (generateOne_eq_ok_true_iff verbose).mpr
          ⟨_, _, found, made, rfl⟩
        obtain ⟨s₂, hall, htree'⟩ := ih.mpr (htree ▸ others)
        refine ⟨s₂, ?_, htree'⟩
        rw [generateAll_cons, hone, ok_bind, hall]
        rfl

theorem generateAll_eq_error_iff : generateAll settings verbose p s refs = .error b ↔
    ∃ before reference after s₁ ok, refs = before ++ reference :: after ∧
      generateAll settings verbose p s before = .ok (s₁, ok) ∧
      Escapes settings (p.afterAll before) s₁.tree reference b := by
  constructor
  · intro h
    induction refs generalizing p s with
    | nil => cases h
    | cons r refs ih =>
      -- either the first reference escapes, or it is handled and one of the others does
      rw [generateAll_cons] at h
      rcases bind_eq_error.mp h with h | ⟨⟨s₁, ok₁⟩, hone, h⟩
      · exact ⟨[], r, refs, s, true, rfl, rfl, generateOne_eq_error_iff.mp h⟩
      · obtain ⟨before, reference, after, s₂, ok₂, rfl, hbefore, hescapes⟩ := ih (map_eq_error.mp h)
        refine ⟨r :: before, reference, after, s₂, ok₁ && ok₂, rfl, ?_, hescapes⟩
        rw [generateAll_cons, hone, ok_bind, hbefore]
        rfl
  · rintro ⟨before, reference, after, s₁, ok, rfl, hbefore, hescapes⟩
    rw [generateAll_append, hbefore, ok_bind, generateAll_cons, generateOne_eq_error_iff.mpr hescapes]
    rfl

/-! ### Runs -/

theorem runUnder_eq_status_zero_iff : (runUnder settings verbose p refs s).2 = .status 0 ↔
    ∃ tree, GeneratedInTurn settings p s.tree refs tree := by
  have hzero : (runUnder settings verbose p refs s).2 = .status 0 ↔
      ∃ s', generateAll settings verbose p s refs = .ok (s', true) := by
    rw [runUnder]
    rcases generateAll settings verbose p s refs with b | ⟨s', _ | _⟩
    · simp
    · simp
    · simp
  rw [hzero]
  constructor
  · rintro ⟨s', h⟩
    exact ⟨s'.tree, generateAll_eq_ok_true_iff.mp ⟨s', h, rfl⟩⟩
  · rintro ⟨tree, h⟩
    obtain ⟨s', hs', -⟩ := generateAll_eq_ok_true_iff.mpr h
    exact ⟨s', hs'⟩

theorem runUnder_eq_crash_iff : (runUnder settings verbose p refs s).2 = .crash b ↔
    ∃ before reference after code, refs = before ++ reference :: after ∧
      (runUnder settings verbose p before s).2 = .status code ∧
      Escapes settings (p.afterAll before) (runUnder settings verbose p before s).1.tree reference b := by
  have hcrash : (runUnder settings verbose p refs s).2 = .crash b ↔
      generateAll settings verbose p s refs = .error b := by
    rw [runUnder]
    cases generateAll settings verbose p s refs with
    | error b' => simp
    | ok x => simp
  rw [hcrash, generateAll_eq_error_iff]
  constructor
  · rintro ⟨before, reference, after, s₁, ok, hrefs, hbefore, hescapes⟩
    refine ⟨before, reference, after, if ok then 0 else 1, hrefs, ?_⟩
    rw [runUnder, hbefore]
    exact ⟨rfl, hescapes⟩
  · rintro ⟨before, reference, after, code, hrefs, hstatus, hescapes⟩
    rw [runUnder] at hstatus hescapes
    cases hbefore : generateAll settings verbose p s before with
    | error b' =>
      rw [hbefore] at hstatus
      cases hstatus
    | ok x =>
      rw [hbefore] at hescapes
      exact ⟨before, reference, after, x.1, x.2, hrefs, hbefore, hescapes⟩

theorem runUnder_cases (settings : GenerationSettings) (verbose : Bool) (p : Program)
    (refs : List String) (s : Session) :
    (runUnder settings verbose p refs s).2 = .status 0 ∨
      (runUnder settings verbose p refs s).2 = .status 1 ∨
      ∃ b, (runUnder settings verbose p refs s).2 = .crash b := by
  rw [runUnder]
  rcases generateAll settings verbose p s refs with b | ⟨s', _ | _⟩
  · exact .inr (.inr ⟨b, rfl⟩)
  · exact .inr (.inl rfl)
  · exact .inl rfl

theorem runGenerate_of_reported {environment : List (String × String)} {a : GenerateArguments}
    {message : String} (h : loadSettings p environment a s.tree = .error (.reported message)) :
    runGenerate p environment a s =
      (s.complain ("Error: cannot load configuration: " ++ message), .status 1) := by
  rw [runGenerate, h]
  rfl

theorem runGenerate_of_escapes {environment : List (String × String)} {a : GenerateArguments}
    (h : loadSettings p environment a s.tree = .error (.escapes b)) :
    runGenerate p environment a s = (s, .crash b) := by
  rw [runGenerate, h]

/-- Whatever the bytes of the settings file, the environment, the references and the code of the modules
that they import: the command ends with status 0 or 1, or an error escapes it. Settings that cannot be
loaded are reported before anything else is done, and the status is 1; but some errors escape. The status
is 0 exactly if the settings are loaded and each reference in turn has a client. The first reference whose
error is not handled ends the run. -/
theorem commands_end_unless_errors_escape (p : Program) (environment : List (String × String))
    (a : GenerateArguments) (s : Session) :
    let loaded := loadSettings p environment a s.tree
    let out := runGenerate p environment a s
    (out.2 = .status 0 ∨ out.2 = .status 1 ∨ ∃ b, out.2 = .crash b) ∧
      (∀ message, loaded = .error (.reported message) →
        out = (s.complain ("Error: cannot load configuration: " ++ message), .status 1)) ∧
      (∀ b, loaded = .error (.escapes b) ↔ LoadEscapes p environment a s.tree b) ∧
      (∀ b, loaded = .error (.escapes b) → out = (s, .crash b)) ∧
      (out.2 = .status 0 ↔ ∃ settings tree,
        loaded = .ok settings ∧ GeneratedInTurn settings p s.tree a.contracts tree) ∧
      ∀ b, out.2 = .crash b ↔ loaded = .error (.escapes b) ∨ ∃ settings, loaded = .ok settings ∧
        ∃ before reference after code, a.contracts = before ++ reference :: after ∧
          (runUnder settings a.verbose p before s).2 = .status code ∧
          Escapes settings (p.afterAll before) (runUnder settings a.verbose p before s).1.tree
            reference b := by
  intro loaded out
  refine ⟨?_, fun _ => runGenerate_of_reported, fun b => loadSettings_eq_escapes_iff,
    fun _ => runGenerate_of_escapes, ?_, fun b => ?_⟩
  all_goals rcases hloaded : loaded with (message | b') | settings
  · exact .inr (.inl (congrArg Prod.snd (runGenerate_of_reported hloaded)))
  · exact .inr (.inr ⟨b', congrArg Prod.snd (runGenerate_of_escapes hloaded)⟩)
  · rw [show out = _ from runGenerate_of_load hloaded]
    exact runUnder_cases ..
  · rw [show out = _ from runGenerate_of_reported hloaded]
    exact iff_of_false nofun nofun
  · rw [show out = _ from runGenerate_of_escapes hloaded]
    exact iff_of_false nofun nofun
  · rw [show out = _ from runGenerate_of_load hloaded]
    simpa using runUnder_eq_status_zero_iff
  · rw [show out = _ from runGenerate_of_reported hloaded]
    exact iff_of_false nofun nofun
  · rw [show out = _ from runGenerate_of_escapes hloaded]
    simp
  · rw [show out = _ from runGenerate_of_load hloaded]
    simpa using runUnder_eq_crash_iff

/-- A settings file that is no JSON is reported; one that holds a list ends the run without a report. -/
theorem commands_end_unless_errors_escape_list :
    let a : GenerateArguments := { contracts := ["app:Users"] }
    let session (text : String) : Session := { tree := .ofFiles [(".declientrc", text)] }
    let run text := runGenerate (pingProgram [⟨"app", "Users"⟩]) [] a (session text)
    run "[" = ((session "[").complain ("Error: cannot load configuration: " ++ "The file is not JSON"),
        .status 1) ∧
      (run "[]").2 = .crash .missingAttribute := by
  intro a session run
  obtain ⟨-, hreported, -⟩ := commands_end_unless_errors_escape
    (pingProgram [⟨"app", "Users"⟩]) [] a (session "[")
  obtain ⟨-, -, hescapes, -, -, hcrash⟩ := commands_end_unless_errors_escape
    (pingProgram [⟨"app", "Users"⟩]) [] a (session "[]")
  have hlist : HoldsNoTable (session "[]").tree a.file :=
    ⟨⟨"", [".declientrc"]⟩, Utf8.encode "[]", "[]", .array [], eq_ok_of_toOption (by decide +kernel),
      eq_ok_of_toOption (by decide +kernel), by decide +kernel, Utf8.decode?_encode _, by cbv, nofun⟩
  exact ⟨hreported "The file is not JSON" (errorOf?_eq_some_iff.mp (by decide +kernel)),
    (hcrash _).mpr (.inl ((hescapes _).mpr (.noTable (by decide +kernel) hlist)))⟩

end CommandLine

end HttpContract
