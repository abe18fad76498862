import HttpContract.Proofs.CommandLine.References
import HttpContract.Proofs.Settings.Reloading

/-!
# Batches

A command with several references does what it does with each of them alone (`batches_are_sums`): what a
reference prints and whether it has a client does not depend on the others, and each one finds the files
that those before it have left. For that the references must be independent (`Program.Independent`): what
one of them leads to may depend on the modules that others have imported. A list of references can be cut
in two and run in two parts, unless the first part leaves files that the settings cannot be loaded from
any more. Neither is a matter of course (`batches_can_differ_from_parts`).
-/

namespace HttpContract

/-! ### References that do not depend on each other -/

namespace Program
variable {p q : Program} {refs xs ys : List String} {r : String}

/-- Another program agrees on references that are looked up in it one after the other. -/
def AgreesOn (p q : Program) (refs : List String) : Prop :=
  ∀ before r, before ++ [r] <+: refs → p.Agrees (q.afterAll before) r

/-- What a reference of a list leads to is the same behind the look-ups of any others that stand together
right before it. -/
def Independent (p : Program) (refs : List String) : Prop :=
  ∀ before r, before ++ [r] <:+: refs → p.Agrees (p.afterAll before) r

theorem AgreesOn.head (h : p.AgreesOn q (r :: refs)) : p.Agrees q r :=
  h [] r ⟨refs, rfl⟩

theorem AgreesOn.tail (h : p.AgreesOn q (r :: refs)) : p.AgreesOn (q.after r) refs :=
  fun before r' hbefore => h (r :: before) r' (List.cons_prefix_cons.mpr ⟨rfl, hbefore⟩)

theorem AgreesOn.left (h : p.AgreesOn q (xs ++ ys)) : p.AgreesOn q xs :=
  fun before r hbefore => h before r (hbefore.trans (List.prefix_append xs ys))

theorem AgreesOn.right (h : p.AgreesOn q (xs ++ ys)) : p.AgreesOn (q.afterAll xs) ys := by
  intro before r hbefore
  rw [← afterAll_append]
  refine h (xs ++ before) r ?_
  rw [List.append_assoc]
  exact (List.prefix_append_right_inj xs).mpr hbefore

theorem agreesOn_singleton (p : Program) (r : String) : p.AgreesOn p [r] := by
  intro before r' hbefore
  have hnone : before = [] := by
    rcases before with _ | ⟨b, before⟩
    · rfl
    · exact absurd hbefore.length_le (by simp)
  subst hnone
  exact ⟨rfl, rfl, fun _ _ => rfl⟩

theorem Independent.agreesOn (h : p.Independent refs) (hpart : ys <:+: refs) : p.AgreesOn p ys :=
  fun before r hbefore => h before r (hbefore.isInfix.trans hpart)

theorem after_eq_self (h : ∀ name, p.isModule name = true → p.isImported name = true)
    (reference : String) : p.after reference = p := by
  have hbelow : ∀ names, (p.importBelow names).1 = p := by
    intro names
    induction names with
    | nil => rfl
    | cons name around ih =>
      unfold importBelow
      split_ifs with hname
      · rfl
      · rcases hp : p.importBelow around with ⟨q, _ | e⟩
        · rw [hp] at ih
          subst ih
          simp only [hname, if_false, Bool.false_eq_true]
          rw [if_neg fun hmodule => hname (h name hmodule)]
        · rw [hp] at ih
          exact ih
  unfold after lookUp importModule
  simp only
  split_ifs
  · rfl
  · rfl
  · split
    · next heq => exact (congrArg Prod.fst heq).symm.trans (hbelow _)
    · next heq => exact (congrArg Prod.fst heq).symm.trans (hbelow _)

theorem independent_of_imported (h : ∀ name, p.isModule name = true → p.isImported name = true)
    (refs : List String) : p.Independent refs := by
  have hall : ∀ before, p.afterAll before = p := fun before => by
    induction before with
    | nil => rfl
    | cons r before ih => rw [afterAll, List.foldl_cons, after_eq_self h]; exact ih
  intro before r _
  rw [hall]
  exact ⟨rfl, rfl, fun _ _ => rfl⟩

end Program

namespace CommandLine
open Generation

variable {settings : GenerationSettings} {verbose : Bool} {p q q' : Program} {reference r : String}
  {refs xs ys : List String} {s s' : Session} {ok : Bool} {b : Breakdown} {tree : FileTree}

/-! ### One session behind another -/

/-- What a reference adds to a session does not depend on what was there before. -/
theorem generateOne_followedBy (first later : Session) :
    generateOne settings verbose p (first.followedBy later) reference =
      (generateOne settings verbose p later reference).map fun x => (first.followedBy x.1, x.2) := by
  unfold generateOne
  cases p.resolve reference with
  | error e =>
    cases hkind : e.breakdown? with
    | some b =>
      simp only [hkind]
      rfl
    | none =>
      simp only [hkind, Session.followedBy_complain]
      rfl
  | ok subject =>
    have htree : (first.followedBy later).tree = later.tree := rfl
    simp only [htree]
    generalize generate settings (p.after reference) subject later.tree = report
    have hsession : ({ (first.followedBy later).tell verbose report.log with
        tree := report.tree
        warnings := (first.followedBy later).warnings ++ report.warnings } : Session) =
        first.followedBy { later.tell verbose report.log with
          tree := report.tree, warnings := later.warnings ++ report.warnings } := by
      simp only [Session.tell_eq, Session.followedBy, String.append_assoc, List.append_assoc]
    rw [hsession]
    cases report.result with
    | ok g =>
      simp only [Session.followedBy_print, Session.followedBy_tell]
      rfl
    | error e =>
      cases e with
      | broken b => rfl
      | _ =>
        simp only [Session.followedBy_complain]
        rfl

theorem generateAll_cons (s : Session) (r : String) (refs : List String) :
    generateAll settings verbose p s (r :: refs) = generateOne settings verbose p s r >>= fun x =>
      (generateAll settings verbose (p.after r) x.1 refs).map fun y => (y.1, x.2 && y.2) := by
  rw [generateAll]
  cases generateOne settings verbose p s r with
  | error b => rfl
  | ok x =>
    show (generateAll settings verbose (p.after r) x.1 refs >>= _) =
      (generateAll settings verbose (p.after r) x.1 refs).map _
    cases generateAll settings verbose (p.after r) x.1 refs <;> rfl

theorem generateAll_followedBy (first later : Session) :
    generateAll settings verbose p (first.followedBy later) refs =
      (generateAll settings verbose p later refs).map fun x => (first.followedBy x.1, x.2) := by
  induction refs generalizing p later with
  | nil => rfl
  | cons r refs ih =>
    rw [generateAll_cons, generateAll_cons, generateOne_followedBy]
    cases generateOne settings verbose p later r with
    | error b => rfl
    | ok x =>
      show (generateAll settings verbose (p.after r) (first.followedBy x.1) refs).map _ =
        ((generateAll settings verbose (p.after r) x.1 refs).map _).map _
      rw [ih]
      cases generateAll settings verbose (p.after r) x.1 refs <;> rfl

theorem generateAll_append (s : Session) (xs ys : List String) :
    generateAll settings verbose p s (xs ++ ys) = generateAll settings verbose p s xs >>= fun x =>
      (generateAll settings verbose (p.afterAll xs) x.1 ys).map fun y => (y.1, x.2 && y.2) := by
  induction xs generalizing p s with
  | nil =>
    show generateAll settings verbose p s ys = (generateAll settings verbose p s ys).map _
    cases generateAll settings verbose p s ys <;> rfl
  | cons x xs ih =>
    rw [List.cons_append, generateAll_cons, generateAll_cons]
    cases generateOne settings verbose p s x with
    | error b => rfl
    | ok y =>
      show (generateAll settings verbose (p.after x) y.1 (xs ++ ys)).map _ =
        ((generateAll settings verbose (p.after x) y.1 xs).map _ >>= _)
      rw [ih]
      cases generateAll settings verbose (p.after x) y.1 xs with
      | error b => rfl
      | ok z =>
        show ((generateAll settings verbose ((p.after x).afterAll xs) z.1 ys).map _).map _ =
          (generateAll settings verbose ((p.after x).afterAll xs) z.1 ys).map _
        cases generateAll settings verbose ((p.after x).afterAll xs) z.1 ys with
        | error b => rfl
        | ok w => exact congrArg (fun ok => Except.ok (w.1, ok)) (Bool.and_assoc ..).symm

theorem generateOne_of_agrees (h : p.Agrees q reference) :
    generateOne settings verbose q s reference = generateOne settings verbose p s reference := by
  unfold generateOne
  rw [h.resolve]
  cases hresolve : p.resolve reference with
  | error e => rfl
  | ok subject => simp only [h.generate hresolve]

theorem generateAll_congr (hq : p.AgreesOn q refs) (hq' : p.AgreesOn q' refs) :
    generateAll settings verbose q s refs = generateAll settings verbose q' s refs := by
  induction refs generalizing q q' s with
  | nil => rfl
  | cons r refs ih =>
    rw [generateAll_cons, generateAll_cons, generateOne_of_agrees hq.head, generateOne_of_agrees hq'.head]
    simp only [ih hq.tail hq'.tail]

/-! ### References that end in a status -/

/-- A reference has a client that can be delivered, or it has none and the reason is handled. -/
inductive Handled (settings : GenerationSettings) (p : Program) (tree : FileTree)
    (reference : String) : Prop
  | fails {t : Trouble} (trouble : clientOf settings p reference = .error t)
    (kind : t.breakdown? = none)
  | generates {g : GeneratedClient} (client : clientOf settings p reference = .ok g)
    (path : ¬ BreaksWrite settings tree g)

theorem handled_of_generateOne (h : generateOne settings verbose p s reference = .ok (s', ok)) :
    Handled settings p s.tree reference := by
  have hturn := turn settings verbose p reference s
  rw [h] at hturn
  cases hturn with
  | fails trouble kind => exact .fails trouble kind
  | generates client path => exact .generates client path

/-- A reference that is handled stays so, whatever others leave. -/
theorem Handled.filesAfter (h : Handled settings p tree reference) (r : String) :
    Handled settings p (filesAfter settings p tree r) reference := by
  cases h with
  | fails trouble kind => exact .fails trouble kind
  | generates client path =>
    refine .generates client ?_
    unfold CommandLine.filesAfter
    cases clientOf settings p r with
    | error t => exact path
    | ok g => exact not_breaksWrite_leave path g

theorem Handled.foldl_filesAfter (h : Handled settings p tree reference) (refs : List String) :
    Handled settings p (refs.foldl (CommandLine.filesAfter settings p) tree) reference := by
  induction refs generalizing tree with
  | nil => exact h
  | cons r refs ih => exact ih (h.filesAfter r)

theorem generateOne_of_handled (verbose : Bool) (h : Handled settings p s.tree reference) :
    ∃ s', generateOne settings verbose p s reference = .ok (s', hasClient settings p reference) ∧
      s'.stdout = s.stdout ++ printed settings p reference ∧
      s'.tree = filesAfter settings p s.tree reference := by
  have hturn := turn settings verbose p reference s
  generalize generateOne settings verbose p s reference = x at hturn ⊢
  -- of the four turns, the two that end the run are those that a handled reference does not take
  cases h with
  | fails trouble kind =>
    cases hturn with
    | breaks trouble' kind' =>
      rw [trouble] at trouble'
      cases trouble'
      rw [kind] at kind'
      cases kind'
    | fails trouble' =>
      refine ⟨_, by rw [hasClient, trouble]; rfl, ?_, ?_⟩
      · rw [printed, trouble, String.append_empty, Session.stdout_complain, Session.stdout_tell]
      · rw [filesAfter, trouble, Session.tree_complain, Session.tree_tell]
    | unwritable client => cases trouble.symm.trans client
    | generates client => cases trouble.symm.trans client
  | generates client path =>
    cases hturn with
    | breaks trouble => cases trouble.symm.trans client
    | fails trouble => cases trouble.symm.trans client
    | unwritable client' path' =>
      rw [client] at client'
      cases client'
      exact absurd path' path
    | generates client' =>
      rw [client] at client'
      cases client'
      refine ⟨_, by rw [hasClient, client]; rfl, ?_, ?_⟩
      · rw [printed, client]
      · rw [filesAfter, client]

theorem generateAll_of_handled (verbose : Bool) (hq : p.AgreesOn q refs)
    (h : ∀ r ∈ refs, Handled settings p s.tree r) :
    ∃ s', generateAll settings verbose q s refs = .ok (s', refs.all (hasClient settings p)) ∧
      s'.stdout = s.stdout ++ String.join (refs.map (printed settings p)) ∧
      s'.tree = refs.foldl (filesAfter settings p) s.tree := by
  induction refs generalizing q s with
  | nil => exact ⟨s, rfl, by simp, rfl⟩
  | cons r refs ih =>
    rw [List.forall_mem_cons] at h
    obtain ⟨s₁, hone, hstdout, htree⟩ := generateOne_of_handled verbose h.1
    obtain ⟨s₂, hall, hstdout', htree'⟩ :=
      ih (s := s₁) hq.tail fun r' hr' => htree ▸ (h.2 r' hr').filesAfter r
    refine ⟨s₂, ?_, ?_, ?_⟩
    · rw [generateAll_cons, generateOne_of_agrees hq.head, hone, ok_bind, hall]
      rfl
    · rw [hstdout', hstdout, List.map_cons, String.join_cons, String.append_assoc]
    · rw [htree', htree]
      rfl

/-! ### Commands whose settings are loaded -/

/-- The command under settings that have been loaded. -/
def runUnder (settings : GenerationSettings) (verbose : Bool) (p : Program) (refs : List String)
    (s : Session) : Session × Ending :=
  match generateAll settings verbose p s refs with
  | .ok (s, ok) => (s, .status (if ok then 0 else 1))
  | .error b => (s, .crash b)

theorem runGenerate_of_load {environment : List (String × String)} {a : GenerateArguments}
    (h : loadSettings p environment a s.tree = .ok settings) :
    runGenerate p environment a s = runUnder settings a.verbose p a.contracts s := by
  rw [runGenerate, h]
  rfl

theorem handled_of_status {code : Nat} (h : (runUnder settings verbose p [r] s).2 = .status code) :
    Handled settings p s.tree r := by
  rw [runUnder, generateAll_cons] at h
  cases hone : generateOne settings verbose p s r with
  | error b =>
    rw [hone] at h
    cases h
  | ok x => exact handled_of_generateOne hone

theorem runUnder_of_handled (verbose : Bool) (hq : p.AgreesOn q refs)
    (h : ∀ r ∈ refs, Handled settings p tree r) :
    (runUnder settings verbose q refs { tree }).1.stdout = String.join (refs.map (printed settings p)) ∧
      (runUnder settings verbose q refs { tree }).1.tree = refs.foldl (filesAfter settings p) tree ∧
      (runUnder settings verbose q refs { tree }).2 =
        .status (if refs.all (hasClient settings p) then 0 else 1) := by
  obtain ⟨s, hall, hstdout, htree⟩ := generateAll_of_handled verbose (s := { tree }) hq h
  rw [runUnder, hall]
  exact ⟨hstdout.trans (String.empty_append ..), htree, rfl⟩

theorem status_runUnder_iff (hq : p.AgreesOn q refs) (h : ∀ r ∈ refs, Handled settings p tree r) :
    (runUnder settings verbose q refs { tree }).2 = .status 1 ↔
      ∃ r ∈ refs, hasClient settings p r = false := by
  rw [(runUnder_of_handled verbose hq h).2.2, Ending.status.injEq]
  cases hall : refs.all (hasClient settings p) with
  | true =>
    rw [List.all_eq_true] at hall
    refine iff_of_false (by decide) fun ⟨r, hr, hnone⟩ => ?_
    rw [hall r hr] at hnone
    cases hnone
  | false =>
    rw [List.all_eq_false] at hall
    simpa using hall

theorem stdout_runUnder (h : Handled settings p tree r) :
    (runUnder settings verbose p [r] { tree }).1.stdout = printed settings p r := by
  have hone : ∀ r' ∈ [r], Handled settings p tree r' := List.forall_mem_singleton.mpr h
  rw [(runUnder_of_handled verbose (p.agreesOn_singleton r) hone).1, List.map_singleton, String.join_cons]
  exact String.append_empty

/-- References in two parts: the second goes on with the files of the first. -/
theorem runUnder_append (verbose : Bool) (hp : p.AgreesOn p (xs ++ ys)) (hq : p.AgreesOn q ys)
    (h : ∀ r ∈ xs ++ ys, Handled settings p tree r) :
    let first := runUnder settings verbose p xs { tree }
    let second := runUnder settings verbose q ys { tree := first.1.tree }
    runUnder settings verbose p (xs ++ ys) { tree } = (first.1.followedBy second.1,
      .status (if (xs ++ ys).all (hasClient settings p) then 0 else 1)) := by
  intro first second
  obtain ⟨s₁, hxs, -, htree⟩ := generateAll_of_handled verbose (s := { tree }) hp.left
    fun r hr => h r (List.mem_append_left ys hr)
  have hlater : ∀ r ∈ ys, Handled settings p s₁.tree r := fun r hr =>
    htree ▸ (h r (List.mem_append_right xs hr)).foldl_filesAfter xs
  obtain ⟨s₂, hys, -⟩ := generateAll_of_handled verbose (s := { tree := s₁.tree }) hq hlater
  have hfirst : first.1 = s₁ := by
    show (runUnder settings verbose p xs { tree }).1 = s₁
    rw [runUnder, hxs]
  have hsecond : second.1 = s₂ := by
    show (runUnder settings verbose q ys { tree := first.1.tree }).1 = s₂
    rw [hfirst, runUnder, hys]
  have hbehind : generateAll settings verbose (p.afterAll xs) (s₁.followedBy { tree := s₁.tree }) ys = _ :=
    generateAll_followedBy s₁ _
  rw [Session.followedBy_start, generateAll_congr (s := { tree := s₁.tree }) hp.right hq, hys] at hbehind
  rw [hfirst, hsecond, runUnder, generateAll_append, hxs, ok_bind, hbehind, List.all_append]
  rfl

theorem status_runUnder_append_iff (hp : p.AgreesOn p (xs ++ ys)) (hq : p.AgreesOn q ys)
    (h : ∀ r ∈ xs ++ ys, Handled settings p tree r) :
    (runUnder settings verbose p (xs ++ ys) { tree }).2 = .status 1 ↔
      (runUnder settings verbose p xs { tree }).2 = .status 1 ∨ (runUnder settings verbose q ys
        { tree := (runUnder settings verbose p xs { tree }).1.tree }).2 = .status 1 := by
  have hxs : ∀ r ∈ xs, Handled settings p tree r := fun r hr => h r (List.mem_append_left ys hr)
  have hys : ∀ r ∈ ys, Handled settings p (runUnder settings verbose p xs { tree }).1.tree r := fun r hr =>
    (runUnder_of_handled verbose hp.left hxs).2.1 ▸
      (h r (List.mem_append_right xs hr)).foldl_filesAfter xs
  rw [status_runUnder_iff hp h, status_runUnder_iff hp.left hxs, status_runUnder_iff hq hys]
  simp only [List.mem_append, or_and_right, exists_or]

/-! ### Sources and settings -/

/-- A source begins with a docstring. -/
theorem quotes_of_clientOf {g : GeneratedClient} (h : clientOf settings p r = .ok g) :
    ∃ rest, g.source.toList = '"' :: '"' :: '"' :: rest := by
  unfold clientOf at h
  split at h
  · cases h
  · obtain ⟨c, -, hsource⟩ := bind_eq_ok.mp (mapError_eq_ok.mp h)
    obtain ⟨-, -, hemit, -⟩ := sourceOf_eq_ok hsource
    unfold ClientSource.emit at hemit
    simp only at hemit
    split_ifs at hemit
    have hlines : ∀ options k planned, ∃ doc rest,
        ClientSource.lines options k planned = ClientSource.docstring doc :: "" :: rest :=
      fun _ _ _ => ⟨_, _, rfl⟩
    obtain ⟨doc, rest, hlines⟩ := hlines (options settings) g.contract _
    rw [← Except.ok.inj hemit, hlines, String.intercalate_cons_cons, String.toList_append,
      String.toList_append, Docstring.toList_docstring]
    exact ⟨_, rfl⟩

/-- The files that references leave hold no settings but those that were there. -/
theorem growsBy_filesAfter (settings : GenerationSettings) (p : Program) (tree : FileTree) (r : String) :
    tree.GrowsBy GenerationSettings.HoldsNoSettings (filesAfter settings p tree r) := by
  unfold filesAfter
  cases hclient : clientOf settings p r with
  | error t => exact .refl tree
  | ok g =>
    obtain ⟨rest, hquotes⟩ := quotes_of_clientOf hclient
    simp only [leave, writeSource]
    split_ifs
    · cases hmade : tree.ensureDirectories (PathName.ofText settings.directory) with
      | error e => exact .refl tree
      | ok made =>
        simp only
        cases hwrite : made.write (target settings g) (Utf8.encode g.source) with
        | error e => exact .ensureDirectories hmade
        | ok written =>
          exact (FileTree.GrowsBy.ensureDirectories hmade).trans (.write hwrite (.of_quotes hquotes))
    · exact .refl tree

theorem growsBy_foldl (settings : GenerationSettings) (p : Program) (tree : FileTree)
    (refs : List String) : tree.GrowsBy GenerationSettings.HoldsNoSettings
      (refs.foldl (filesAfter settings p) tree) := by
  induction refs generalizing tree with
  | nil => exact .refl tree
  | cons r refs ih => exact (growsBy_filesAfter settings p tree r).trans (ih _)

/-! ### The whole and its parts -/

/-- What a command with one reference comes to: it prints the full name of the client and leaves its
files, or says why there is none and leaves the files as they are. -/
inductive Alone (settings : GenerationSettings) (verbose : Bool) (p : Program) (tree : FileTree)
    (reference : String) : Session × Ending → Prop
  | generates {g : GeneratedClient} {s : Session} (client : clientOf settings p reference = .ok g)
    (stdout : s.stdout = g.fullClassName ++ "\n") (files : s.tree = leave settings tree g) :
    Alone settings verbose p tree reference (s, .status 0)
  | fails {t : Trouble} (trouble : clientOf settings p reference = .error t)
    (kind : t.breakdown? = none) :
    Alone settings verbose p tree reference
      (⟨"", Session.told verbose (recordsOf p reference) ++ (t.line reference ++ "\n"), tree, []⟩,
        .status 1)

theorem alone_of_handled (h : Handled settings p tree reference) :
    Alone settings verbose p tree reference (runUnder settings verbose p [reference] { tree }) := by
  obtain ⟨s, hone, hstdout, htree⟩ := generateOne_of_handled verbose (s := { tree }) h
  have hrun : runUnder settings verbose p [reference] { tree } =
      (s, .status (if hasClient settings p reference then 0 else 1)) := by
    rw [runUnder, generateAll_cons, hone]
    simp [ok_bind, generateAll, Except.map]
  rw [hrun]
  cases h with
  | generates client =>
    rw [hasClient, client]
    refine .generates client ?_ ?_
    · rw [hstdout, printed, client]
      exact String.empty_append ..
    · rw [htree, filesAfter, client]
  | fails trouble kind =>
    have hfails : hasClient settings p reference = false := by
      rw [hasClient, trouble]
      rfl
    have hturn := turn settings verbose p reference { tree }
    rw [hone, hfails] at hturn
    cases hturn with
    | fails trouble' =>
      rw [trouble] at trouble'
      cases trouble'
      rw [hfails, Session.tell_eq, Session.complain]
      simp only [String.empty_append, String.append_assoc]
      exact .fails trouble kind

/-- Among others a reference comes to what it comes to alone with the files that those before it leave. -/
theorem exists_followedBy_runUnder (verbose : Bool) (hp : p.AgreesOn p (before ++ r :: after))
    (h : ∀ r' ∈ before ++ r :: after, Handled settings p tree r') :
    let done := (runUnder settings verbose p before { tree }).1
    let one := runUnder settings verbose p [r] { tree := done.tree }
    Alone settings verbose p done.tree r one ∧
      ∃ later, (runUnder settings verbose p (before ++ r :: after) { tree }).1 =
        (done.followedBy one.1).followedBy later := by
  intro done one
  -- the list is cut behind the reference, and what is in front of the cut once more before it
  rw [List.append_cons] at hp h ⊢
  have hupto : ∀ r' ∈ before ++ [r], Handled settings p tree r' := fun r' hr' =>
    h r' (List.mem_append_left after hr')
  have hfiles : done.tree = before.foldl (filesAfter settings p) tree :=
    (runUnder_of_handled verbose hp.left.left fun r' hr' =>
      hupto r' (List.mem_append_left [r] hr')).2.1
  have hone : Handled settings p done.tree r :=
    hfiles ▸ (hupto r (by simp)).foldl_filesAfter before
  have hwhole := congrArg Prod.fst (runUnder_append verbose hp hp.right h)
  rw [runUnder_append verbose hp.left (p.agreesOn_singleton r) hupto] at hwhole
  exact ⟨alone_of_handled hone, _, hwhole⟩

theorem loadSettings_eq_ok {environment : List (String × String)} {a : GenerateArguments}
    (h : loadSettings p environment a tree = .ok settings) : ∃ entries,
      GenerationSettings.layerOf tree a.file a.settings = .ok entries ∧
        (entries.isPlain → GenerationSettings.ofValues environment entries = .ok settings) := by
  unfold loadSettings at h
  split_ifs at h
  cases hentries : GenerationSettings.layerOf tree a.file a.settings with
  | error e =>
    rw [hentries] at h
    cases h
  | ok entries =>
    refine ⟨entries, rfl, fun hplain => ?_⟩
    simp only [hentries, hplain, if_true] at h
    exact mapError_eq_ok.mp h

/-- Settings that are loaded once more among files that have grown are the same, as long as the library
that reads them has no part in it. -/
theorem loadSettings_unique {environment : List (String × String)} {a : GenerateArguments}
    {again : GenerationSettings} {grown : FileTree} {entries : Layer}
    (hgrows : tree.GrowsBy GenerationSettings.HoldsNoSettings grown)
    (h : loadSettings p environment a tree = .ok settings)
    (hagain : loadSettings q environment a grown = .ok again)
    (hentries : GenerationSettings.layerOf tree a.file a.settings = .ok entries)
    (hplain : entries.isPlain) : again = settings := by
  obtain ⟨_, hfound, hvalues⟩ := loadSettings_eq_ok h
  obtain ⟨_, hfoundAgain, hvaluesAgain⟩ := loadSettings_eq_ok hagain
  cases hentries.symm.trans hfound
  cases GenerationSettings.layerOf_unique hgrows hentries hfoundAgain
  exact Except.ok.inj ((hvaluesAgain hplain).symm.trans (hvalues hplain))

/-- A command with several references whose settings are loaded, of which none depends on the others, and
each ends in a status when it is run alone: it prints what they print alone, in their order; it leaves the
files that they leave one after another; its status is 1 exactly if that of one of them is; and in its
place each of them says and does what it does alone. In two parts the command says and leaves the same,
whether or not the second part finds the modules of the first imported, if the same settings are loaded
for it; and if any are, and no entry is meant for the library that reads them, they are the same. -/
theorem batches_are_sums {environment : List (String × String)} {a : GenerateArguments}
    (hload : loadSettings p environment a tree = .ok settings)
    (hindependent : p.Independent a.contracts)
    (halone : ∀ r ∈ a.contracts, ∃ code,
      (runGenerate p environment { a with contracts := [r] } { tree }).2 = .status code) :
    let run q refs tree := runGenerate q environment { a with contracts := refs } { tree }
    let batch := run p a.contracts tree
    (∀ r ∈ a.contracts, Alone settings a.verbose p tree r (run p [r] tree)) ∧
      batch.1.stdout = String.join (a.contracts.map fun r => (run p [r] tree).1.stdout) ∧
      batch.1.tree = a.contracts.foldl (filesAfter settings p) tree ∧
      (batch.2 = .status 0 ∨ batch.2 = .status 1) ∧
      (batch.2 = .status 1 ↔ ∃ r ∈ a.contracts, (run p [r] tree).2 = .status 1) ∧
      (∀ before r after, a.contracts = before ++ r :: after →
        let done := (run p before tree).1
        let one := runUnder settings a.verbose p [r] { tree := done.tree }
        Alone settings a.verbose p done.tree r one ∧
          ∃ later, batch.1 = (done.followedBy one.1).followedBy later) ∧
      ∀ xs ys, a.contracts = xs ++ ys → ∀ q, q = p ∨ q = p.afterAll xs →
        let first := run p xs tree
        let second := runUnder settings a.verbose q ys { tree := first.1.tree }
        batch.1 = first.1.followedBy second.1 ∧
        (batch.2 = .status 1 ↔ first.2 = .status 1 ∨ second.2 = .status 1) ∧
        ∀ again, loadSettings q environment a first.1.tree = .ok again →
          (again = settings → run q ys first.1.tree = second) ∧
          ∀ entries, GenerationSettings.layerOf tree a.file a.settings = .ok entries →
            entries.isPlain → again = settings := by
  intro run batch
  have hrun : ∀ refs, run p refs tree = runUnder settings a.verbose p refs { tree } := fun refs =>
    runGenerate_of_load (s := { tree }) (a := { a with contracts := refs }) hload
  have hhandled : ∀ r ∈ a.contracts, Handled settings p tree r := by
    intro r hr
    obtain ⟨code, hcode⟩ := halone r hr
    exact handled_of_status ((congrArg Prod.snd (hrun [r])).symm.trans hcode)
  have hsingle : ∀ r ∈ a.contracts, Alone settings a.verbose p tree r (run p [r] tree) := fun r hr =>
    hrun [r] ▸ alone_of_handled (hhandled r hr)
  have hbatch : batch = runUnder settings a.verbose p a.contracts { tree } := hrun a.contracts
  have hall : p.AgreesOn p a.contracts := hindependent.agreesOn List.infix_rfl
  obtain ⟨hstdout, htree, hstatus⟩ := runUnder_of_handled a.verbose hall hhandled
  rw [← hbatch] at hstdout htree hstatus
  refine ⟨hsingle, ?_, htree, ?_, ?_, fun before r after hsplit => ?_, fun xs ys hsplit q hq => ?_⟩
  · rw [hstdout]
    refine congrArg String.join (List.map_congr_left fun r hr => ?_)
    rw [hrun, stdout_runUnder (hhandled r hr)]
  · rw [hstatus]
    split_ifs
    · exact .inl rfl
    · exact .inr rfl
  · rw [hbatch, status_runUnder_iff hall hhandled]
    refine exists_congr fun r => and_congr_right fun hr => ?_
    rw [hrun, status_runUnder_iff (p.agreesOn_singleton r)
      (List.forall_mem_singleton.mpr (hhandled r hr))]
    simp
  · rw [hbatch, hsplit]
    simp only [hrun]
    exact exists_followedBy_runUnder a.verbose (hsplit ▸ hall) (hsplit ▸ hhandled)
  · have hcontracts : p.AgreesOn p (xs ++ ys) := hsplit ▸ hall
    have hlater : p.AgreesOn q ys := by
      rcases hq with rfl | rfl
      · exact hindependent.agreesOn (hsplit ▸ List.suffix_append xs ys).isInfix
      · exact hcontracts.right
    have hparts : ∀ r ∈ xs ++ ys, Handled settings p tree r := hsplit ▸ hhandled
    refine ⟨?_, ?_, fun again hagain => ⟨fun hsame => ?_, fun entries hentries hplain => ?_⟩⟩
    · rw [hbatch, hsplit, runUnder_append a.verbose hcontracts hlater hparts, ← hrun xs]
    · rw [hbatch, hsplit, status_runUnder_append_iff hcontracts hlater hparts, ← hrun xs]
    · subst hsame
      exact runGenerate_of_load (s := { tree := (run p xs tree).1.tree })
        (a := { a with contracts := ys }) hagain
    · have hfiles : (run p xs tree).1.tree = xs.foldl (filesAfter settings p) tree := by
        rw [hrun]
        exact (runUnder_of_handled a.verbose hcontracts.left fun r hr =>
          hparts r (List.mem_append_left ys hr)).2.1
      exact loadSettings_unique (hfiles ▸ growsBy_foldl settings p tree xs) hload hagain hentries
        hplain

/-- Two contracts of one module. -/
def usersAndOrders : Program := pingProgram [⟨"app", "Users"⟩, ⟨"app", "Orders"⟩]

/-- A reference to nothing does not keep another one from its client. -/
theorem batches_are_sums_users_missing :
    let a : GenerateArguments := { contracts := ["app:Missing", "app:Users"] }
    let batch := runGenerate usersAndOrders [] a { tree := ⟨[], []⟩ }
    batch.1.stdout = "declient.generated.appUsers\n" ∧ batch.2 = .status 1 := by
  intro a batch
  have hload : loadSettings usersAndOrders [] a ⟨[], []⟩ = .ok {} :=
    eq_ok_of_toOption (by decide +kernel)
  have hindependent : usersAndOrders.Independent a.contracts :=
    Program.independent_of_imported (fun _ h => by rw [Program.isImported, h]; rfl) a.contracts
  have hmissing : (runGenerate usersAndOrders [] { a with contracts := ["app:Missing"] }
      { tree := ⟨[], []⟩ }).2 = .status 1 := by decide +kernel
  have husers : (runGenerate usersAndOrders [] { a with contracts := ["app:Users"] }
      { tree := ⟨[], []⟩ }).2 = .status 0 := by decide +kernel
  obtain ⟨-, hstdout, -, -, hstatus, -⟩ := batches_are_sums (p := usersAndOrders) hload hindependent
    (List.forall_mem_cons.mpr ⟨⟨1, hmissing⟩, List.forall_mem_singleton.mpr ⟨0, husers⟩⟩)
  refine ⟨hstdout.trans ?_, hstatus.mpr ⟨_, List.mem_cons_self, hmissing⟩⟩
  decide +kernel

/-- A contract in a module of a package; neither has been imported yet. -/
def packagedUsers : Program :=
  { pingProgram [⟨"app.api", "Users"⟩] with surroundings := { isLoaded := fun _ => false } }

/-- An output directory in the place of the settings: run at once, both contracts have their clients; in
two parts, the second part cannot load its settings any more. And a module that is asked for as an
attribute of its package: it is there only behind a reference that imports it. -/
theorem batches_can_differ_from_parts :
    let a : GenerateArguments := { out := some "declient.toml", write := some true }
    let run refs tree := runGenerate usersAndOrders [] { a with contracts := refs } { tree }
    let whole := run ["app:Users", "app:Orders"] ⟨[], []⟩
    let first := run ["app:Users"] ⟨[], []⟩
    let second := run ["app:Orders"] first.1.tree
    let status refs := (runGenerate packagedUsers [] { contracts := refs } { tree := ⟨[], []⟩ }).2
    (whole.2 = .status 0 ∧ first.2 = .status 0 ∧ second.2 = .status 1 ∧ second.1.stdout = "" ∧
      whole.1.stdout = first.1.stdout ++ "declient.generated.appOrders\n") ∧
    status ["app.api:Users"] = .status 0 ∧ status ["app:api.Users"] = .status 1 ∧
      status ["app.api:Users", "app:api.Users"] = .status 0 := by
  decide +kernel

end CommandLine

end HttpContract
