import HttpContract.CommandLine.Command
import HttpContract.Proofs.Client.OutputFiles

/-!
# References

What becomes of one reference. Whether it has a client is a matter of the program alone (`clientOf`), and
so is the report of one that has none (`Trouble.line`). The files have a say in what becomes of a source:
where it is left (`Generation.leave`), and whether a path that cannot be one breaks the run off
(`Generation.BreaksWrite`). All ways in which a reference can end are those of `Turn`. A look-up imports
modules and changes nothing else in the program (`Program.exists_after`), but what later references lead
to may depend on that (`Program.Agrees`).
-/

namespace HttpContract

namespace Generation
variable {settings : GenerationSettings} {p : Program} {s : Subject} {tree : FileTree}
  {g g' : GeneratedClient} {label : String} {log : List LogRecord}

/-- The files that are left once a client is delivered. -/
def leave (settings : GenerationSettings) (tree : FileTree) (g : GeneratedClient) : FileTree :=
  if settings.writeSources then
    (writeSource tree (PathName.ofText settings.directory) (target settings g) g.source).1
  else tree

/-- A source cannot be written, for a reason that is not the system's. -/
def BreaksWrite (settings : GenerationSettings) (tree : FileTree) (g : GeneratedClient) : Prop :=
  settings.writeSources ∧ ∃ left e,
    writeSource tree (PathName.ofText settings.directory) (target settings g) g.source = (left, some e) ∧
      e.fault = .unusable

/-- What is logged of a subject until its source is there or it turns out to have none. -/
def begun (p : Program) (s : Subject) : List LogRecord :=
  record .debug (p.label s) "Beginning to generate source" ::
    match p.candidateOf s with
    | .ok c => p.recordsOf s c
    | .error _ => []

theorem generate_of_error {e : Failure} (h : p.candidateOf s >>= sourceOf settings = .error e)
    (tree : FileTree) : generate settings p s tree = { result := .error e, tree, log := begun p s } := by
  unfold generate begun
  rcases bind_eq_error.mp h with hc | ⟨c, hc, hsource⟩
  · rw [hc]
  · rw [hc]
    simp only [hsource]
    rfl

theorem generate_of_ok (h : p.candidateOf s >>= sourceOf settings = .ok g) (tree : FileTree) :
    generate settings p s tree = deliver settings (p.label s) g tree
      (begun p s ++ [record .debug (p.label s) "Source generated"]) := by
  obtain ⟨c, hc, hsource⟩ := bind_eq_ok.mp h
  unfold generate begun
  rw [hc]
  simp only [hsource]
  rfl

theorem tree_deliver : (deliver settings label g tree log).tree = leave settings tree g := by
  unfold leave
  simp only [deliver]
  by_cases hwrites : settings.writeSources = true
  · simp only [hwrites, Bool.not_true, Bool.false_eq_true, if_false, if_true]
    rw [target]
    rcases writeSource tree _ _ g.source with ⟨left, _ | e⟩
    · rfl
    · simp only
      split_ifs <;> rfl
  · simp only [Bool.not_eq_true] at hwrites
    simp [hwrites]

theorem result_deliver_of_breaks (h : BreaksWrite settings tree g) :
    (deliver settings label g tree log).result = .error (.broken .badValue) := by
  obtain ⟨hwrites, left, e, hleft, he⟩ := h
  rw [target] at hleft
  simp only [deliver, hwrites, Bool.not_true, Bool.false_eq_true, if_false, hleft, he, if_true]

theorem exists_result_deliver (label : String) (log : List LogRecord)
    (h : ¬ BreaksWrite settings tree g) :
    ∃ g', (deliver settings label g tree log).result = .ok g' := by
  cases hresult : (deliver settings label g tree log).result with
  | ok g' => exact ⟨g', rfl⟩
  | error e =>
    refine absurd ?_ h
    unfold deliver at hresult
    split_ifs at hresult with hwrites
    simp only at hresult
    split at hresult
    · cases hresult
    · next left e' hleft =>
      split_ifs at hresult with he
      exact ⟨by simpa using hwrites, left, e', hleft, he⟩

theorem not_breaksWrite (h : (target settings g).hasNul = false) : ¬ BreaksWrite settings tree g := by
  rintro ⟨-, left, e, hleft, he⟩
  have hdirectory : (PathName.ofText settings.directory).hasNul = false :=
    PathName.hasNul_mono (List.subset_append_left ..) h
  unfold writeSource at hleft
  split at hleft
  · next e' hmade =>
    cases hleft
    exact FileTree.ensureDirectories_ne_unusable hdirectory hmade he
  · split at hleft
    · next e' hwrite =>
      cases hleft
      exact FileTree.write_ne_unusable h hwrite he
    · cases hleft

/-- What one client leaves lets the others be written that could be before. -/
theorem not_breaksWrite_leave (h : ¬ BreaksWrite settings tree g) (g' : GeneratedClient) :
    ¬ BreaksWrite settings (leave settings tree g') g := by
  -- while the output directory cannot be made nothing changes; then only a NUL is in the way
  by_cases hwrites : settings.writeSources = true
  · cases hmade : tree.ensureDirectories (PathName.ofText settings.directory) with
    | error e =>
      have hleft : leave settings tree g' = tree := by
        rw [leave, if_pos hwrites, writeSource, hmade]
      rwa [hleft]
    | ok made =>
      refine not_breaksWrite (Bool.eq_false_iff.mpr fun hnul =>
        h ⟨hwrites, made, ⟨.unusable, target settings g⟩, ?_, rfl⟩)
      rw [writeSource, hmade]
      simp only
      rw [FileTree.write, FileTree.locate_of_hasNul hnul]
  · exact fun h => hwrites h.1

end Generation

/-! ### Programs that look-ups leave -/

namespace Program
variable {p q : Program} {reference : String}

theorem exists_importBelow (p : Program) (names : List String) :
    ∃ imported, (p.importBelow names).1 = { p with imported } := by
  induction names with
  | nil => exact ⟨p.imported, rfl⟩
  | cons name around ih =>
    obtain ⟨imported, hbelow⟩ := ih
    unfold importBelow
    split_ifs
    · exact ⟨p.imported, rfl⟩
    · rcases hp : p.importBelow around with ⟨q, _ | e⟩
      · rw [hp] at hbelow
        subst hbelow
        simp only
        split_ifs
        · exact ⟨imported, rfl⟩
        · exact ⟨_, rfl⟩
        · exact ⟨imported, rfl⟩
      · rw [hp] at hbelow
        exact ⟨imported, hbelow⟩

theorem exists_after (p : Program) (reference : String) :
    ∃ imported, p.after reference = { p with imported } := by
  have hmodule : ∀ name, ∃ imported, (p.importModule name).1 = { p with imported } := by
    intro name
    unfold importModule
    split_ifs
    · exact ⟨p.imported, rfl⟩
    · exact exists_importBelow p _
  unfold after lookUp
  simp only
  split_ifs
  · exact ⟨p.imported, rfl⟩
  · obtain ⟨imported, h⟩ := hmodule ((splitFirst? ':' reference).getD (splitLast '.' reference)).1
    refine ⟨imported, ?_⟩
    split
    · next heq => rw [← h, heq]
    · next heq => rw [← h, heq]

/-- The program that is left when references have been looked up one after the other. -/
def afterAll (p : Program) (refs : List String) : Program := refs.foldl after p

theorem afterAll_append (p : Program) (xs ys : List String) :
    p.afterAll (xs ++ ys) = (p.afterAll xs).afterAll ys := List.foldl_append

/-- A reference leads to the same in another program, and it is the same candidate there. -/
structure Agrees (p q : Program) (reference : String) : Prop where
  scope : q.scope = p.scope
  resolve : q.resolve reference = p.resolve reference
  candidate : ∀ s, p.resolve reference = .ok s →
    (q.after reference).candidateOf s = (p.after reference).candidateOf s

namespace Agrees

theorem symm (h : p.Agrees q reference) : q.Agrees p reference :=
  ⟨h.scope.symm, h.resolve.symm, fun s hs => (h.candidate s (h.resolve ▸ hs)).symm⟩

theorem trans {q' : Program} (h : p.Agrees q reference) (h' : q.Agrees q' reference) :
    p.Agrees q' reference :=
  ⟨h'.scope.trans h.scope, h'.resolve.trans h.resolve,
    fun s hs => (h'.candidate s (h.resolve ▸ hs)).trans (h.candidate s hs)⟩

theorem generate {s : Subject} (h : p.Agrees q reference) (hs : p.resolve reference = .ok s)
    (settings : GenerationSettings) (tree : FileTree) :
    Generation.generate settings (q.after reference) s tree =
      Generation.generate settings (p.after reference) s tree := by
  obtain ⟨_, hp⟩ := exists_after p reference
  obtain ⟨_, hq⟩ := exists_after q reference
  have hscope : (q.after reference).scope = (p.after reference).scope := by rw [hp, hq, h.scope]
  unfold Generation.generate label recordsOf isClassSubject isClass
  rw [h.candidate s hs, hscope]

end Agrees

end Program

namespace CommandLine
open Generation

/-! ### Clients -/

/-- Why a reference has no client. -/
inductive Trouble
  | lookup (error : LookupError)
  | generation (failure : Failure)

namespace Trouble

/-- The error that ends the run, if it is one that is not handled. -/
def breakdown? : Trouble → Option Breakdown
  | lookup e => e.breakdown?
  | generation (.broken b) => some b
  | _ => none

/-- What is said of a reference that has no client. -/
def line (reference : String) : Trouble → String
  | lookup e => s!"Error: cannot load {reference}: {e.message}"
  | generation f => "Error: " ++ ((f.diagnostic?.map Diagnostic.format).getD "")

end Trouble

/-- The client of a reference. No file has a say in it. -/
def clientOf (settings : GenerationSettings) (p : Program) (reference : String) :
    Except Trouble GeneratedClient :=
  match p.resolve reference with
  | .error e => .error (.lookup e)
  | .ok s => ((p.after reference).candidateOf s >>= sourceOf settings).mapError .generation

/-- What is logged of a reference that has no client. -/
def recordsOf (p : Program) (reference : String) : List LogRecord :=
  match p.resolve reference with
  | .error _ => []
  | .ok s => begun (p.after reference) s

/-- What a reference prints: the full name of its client, if it has one. -/
def printed (settings : GenerationSettings) (p : Program) (reference : String) : String :=
  match clientOf settings p reference with
  | .ok g => g.fullClassName ++ "\n"
  | .error _ => ""

/-- The files that a reference leaves. -/
def filesAfter (settings : GenerationSettings) (p : Program) (tree : FileTree) (reference : String) :
    FileTree :=
  match clientOf settings p reference with
  | .ok g => leave settings tree g
  | .error _ => tree

/-- Whether a reference leads to a client. -/
def hasClient (settings : GenerationSettings) (p : Program) (reference : String) : Bool :=
  (clientOf settings p reference).isOk

/-! ### Sessions -/

namespace Session
variable {s : Session} {verbose : Bool} {records : List LogRecord} {line : String}

/-- A session, and then another one that began with the files of the first. -/
def followedBy (first later : Session) : Session where
  stdout := first.stdout ++ later.stdout
  stderr := first.stderr ++ later.stderr
  tree := later.tree
  warnings := first.warnings ++ later.warnings

/-- The lines of the records that the level lets through. -/
def told (verbose : Bool) (records : List LogRecord) : String :=
  String.join ((records.filter fun r => verbose || r.level != .debug).map fun r => r.line ++ "\n")

theorem tell_eq (s : Session) (verbose : Bool) (records : List LogRecord) :
    s.tell verbose records = { s with stderr := s.stderr ++ told verbose records } := by
  unfold tell told
  induction records.filter (fun r => verbose || r.level != .debug) generalizing s with
  | nil => simp
  | cons r rs ih =>
    rw [List.foldl_cons, ih, List.map_cons, String.join_cons, complain]
    simp only [String.append_assoc]

@[simp] theorem stdout_tell : (s.tell verbose records).stdout = s.stdout := by rw [tell_eq]
@[simp] theorem tree_tell : (s.tell verbose records).tree = s.tree := by rw [tell_eq]

@[simp] theorem stdout_complain : (s.complain line).stdout = s.stdout := rfl
@[simp] theorem tree_complain : (s.complain line).tree = s.tree := rfl

theorem followedBy_tell (first : Session) : (first.followedBy s).tell verbose records =
    first.followedBy (s.tell verbose records) := by
  simp only [tell_eq, followedBy, String.append_assoc]

theorem followedBy_complain (first : Session) : (first.followedBy s).complain line =
    first.followedBy (s.complain line) := by
  simp only [complain, followedBy, String.append_assoc]

theorem followedBy_print (first : Session) : (first.followedBy s).print line =
    first.followedBy (s.print line) := by
  simp only [print, followedBy, String.append_assoc]

theorem followedBy_start (s : Session) : s.followedBy { tree := s.tree } = s := by
  simp [followedBy]

end Session

/-! ### One reference -/

variable {settings : GenerationSettings} {verbose : Bool} {p : Program} {reference : String}
  {s s' : Session} {ok : Bool} {b : Breakdown} {tree : FileTree}

/-- What a reference comes to in a session. -/
inductive Turn (settings : GenerationSettings) (verbose : Bool) (p : Program) (reference : String)
    (s : Session) : Except Breakdown (Session × Bool) → Prop
  | breaks {t : Trouble} {b : Breakdown} (trouble : clientOf settings p reference = .error t)
    (kind : t.breakdown? = some b) : Turn settings verbose p reference s (.error b)
  | fails {t : Trouble} (trouble : clientOf settings p reference = .error t)
    (kind : t.breakdown? = none) :
    Turn settings verbose p reference s
      (.ok ((s.tell verbose (recordsOf p reference)).complain (t.line reference), false))
  | unwritable {g : GeneratedClient} (client : clientOf settings p reference = .ok g)
    (path : BreaksWrite settings s.tree g) : Turn settings verbose p reference s (.error .badValue)
  | generates {g : GeneratedClient} {stderr : String} {warnings : List String}
    (client : clientOf settings p reference = .ok g) (path : ¬ BreaksWrite settings s.tree g) :
    Turn settings verbose p reference s
      (.ok (⟨s.stdout ++ (g.fullClassName ++ "\n"), stderr, leave settings s.tree g, warnings⟩, true))

theorem turn (settings : GenerationSettings) (verbose : Bool) (p : Program) (reference : String)
    (s : Session) :
    Turn settings verbose p reference s (generateOne settings verbose p s reference) := by
  unfold generateOne
  cases hresolve : p.resolve reference with
  | error e =>
    have htrouble : clientOf settings p reference = .error (.lookup e) := by rw [clientOf, hresolve]
    have hrecords : recordsOf p reference = [] := by rw [recordsOf, hresolve]
    cases hkind : e.breakdown? with
    | some b =>
      simp only [hkind]
      exact .breaks htrouble hkind
    | none =>
      have hturn : Turn settings verbose p reference s _ := .fails htrouble hkind
      rw [hrecords] at hturn
      simp only [hkind]
      exact hturn
  | ok subject =>
    have hclient : clientOf settings p reference =
        ((p.after reference).candidateOf subject >>= sourceOf settings).mapError .generation := by
      rw [clientOf, hresolve]
    simp only
    cases hmade : (p.after reference).candidateOf subject >>= sourceOf settings with
    | error e =>
      rw [hmade] at hclient
      have hrecords : recordsOf p reference = begun (p.after reference) subject := by
        rw [recordsOf, hresolve]
      rw [generate_of_error hmade]
      cases e with
      | broken b => exact .breaks hclient rfl
      | _ =>
        have hturn : Turn settings verbose p reference s _ := .fails hclient rfl
        rw [hrecords, Session.tell_eq] at hturn
        simp only [Session.tell_eq, List.append_nil]
        exact hturn
    | ok g =>
      rw [hmade] at hclient
      rw [generate_of_ok hmade]
      by_cases hpath : BreaksWrite settings s.tree g
      · rw [result_deliver_of_breaks hpath]
        exact .unwritable hclient hpath
      · obtain ⟨g', hg'⟩ := exists_result_deliver ((p.after reference).label subject)
          (begun (p.after reference) subject ++
            [record .debug ((p.after reference).label subject) "Source generated"]) hpath
        have hname : g'.fullClassName = g.fullClassName := by
          rcases deliver_eq_self_or hg' with rfl | ⟨path, rfl⟩
          · rfl
          · rfl
        have hturn : ∀ stderr warnings, Turn settings verbose p reference s (.ok (⟨s.stdout ++
            (g.fullClassName ++ "\n"), stderr, leave settings s.tree g, warnings⟩, true)) :=
          fun _ _ => .generates hclient hpath
        simp only [hg', Session.tell_eq, Session.print, tree_deliver, hname, String.append_assoc]
        exact hturn _ _

end CommandLine

end HttpContract
