import HttpContract.Proofs.Client.Refusals
import HttpContract.Proofs.Client.Writing
import HttpContract.Proofs.Files.Growth

/-!
# Output files

The client of a contract is called by the full name of the contract without its dots
(`ClassName.dotless`), and so is the file that it goes to. Clients that are generated one after another
(`WrittenInTurn`) leave each other's files alone unless these names agree
(`clients_keep_their_files`), which they may do although the contracts are different ones
(`dotless_names_collide`).
-/

namespace HttpContract

namespace ClassName
variable {n n' : ClassName}

/-- The full name without its dots. -/
def dotless (n : ClassName) : String := String.ofList (n.full.toList.filter (· != '.'))

/-- At the top of one module, classes of different names have different names without dots too. -/
theorem dotless_eq_iff (hmodule : n.module = n'.module) (hn : '.' ∉ n.qualname.toList)
    (hn' : '.' ∉ n'.qualname.toList) : n.dotless = n'.dotless ↔ n = n' := by
  have hkept : ∀ n : ClassName, '.' ∉ n.qualname.toList → n.full.toList.filter (· != '.') =
      n.module.toList.filter (· != '.') ++ n.qualname.toList := by
    intro n hn
    have hown : n.qualname.toList.filter (· != '.') = n.qualname.toList := by
      rw [List.filter_eq_self]
      exact fun c hc => bne_iff_ne.mpr fun h => hn (h ▸ hc)
    rw [full, String.toList_append, String.toList_append, List.filter_append, List.filter_append, hown]
    simp
  constructor
  · intro h
    have hlist := String.ofList_injective h
    rw [hkept n hn, hkept n' hn', hmodule, List.append_cancel_left_eq, String.toList_inj] at hlist
    cases n
    cases n'
    simp only [ClassName.mk.injEq]
    exact ⟨hmodule, hlist⟩
  · rintro rfl
    rfl

end ClassName

namespace Generation
variable {settings : GenerationSettings} {p : Program} {s : Subject} {n : ClassName}
  {tree tree' : FileTree} {g g' : GeneratedClient} {done rest : List (ClassName × GeneratedClient)}

/-! ### Names -/

theorem deliver_eq_self_or {label : String} {log : List LogRecord}
    (h : (deliver settings label g tree log).result = .ok g') :
    g' = g ∨ ∃ path, g' = { g with path := some path } := by
  simp only [deliver] at h
  split_ifs at h
  · exact .inl (Except.ok.inj h).symm
  · split at h
    · exact .inr ⟨_, (Except.ok.inj h).symm⟩
    · split_ifs at h
      exact .inl (Except.ok.inj h).symm

theorem names_of_generate (h : (generate settings p s tree).result = .ok g) :
    g.className = g.contract.className ∧
      g.fullClassName = settings.rootNamespace ++ "." ++ g.contract.className := by
  obtain ⟨log, hlog⟩ := generate_eq settings p s tree
  rw [hlog] at h
  cases hmade : p.candidateOf s >>= sourceOf settings with
  | error e =>
    rw [hmade] at h
    cases h
  | ok made =>
    rw [hmade] at h
    obtain ⟨c, -, hsource⟩ := bind_eq_ok.mp hmade
    obtain ⟨contract, -, hsource⟩ := bind_eq_ok.mp hsource
    obtain ⟨plans, -, hsource⟩ := bind_eq_ok.mp hsource
    obtain ⟨source, -, hsource⟩ := bind_eq_ok.mp hsource
    cases hsource
    rcases deliver_eq_self_or h with rfl | ⟨path, rfl⟩
    · exact ⟨rfl, rfl⟩
    · exact ⟨rfl, rfl⟩

theorem fullName_of_generate (h : (generate settings p (.declared n) tree).result = .ok g) :
    g.contract.fullName = n.full := by
  obtain ⟨c, hc, hcontract, -⟩ := generate_eq_ok h
  have hname : g.contract.fullName = c.fullName := by
    obtain ⟨service, -, hk⟩ := bind_eq_ok.mp hcontract
    obtain ⟨operations, -, hk⟩ := bind_eq_ok.mp hk
    rw [← Except.ok.inj hk]
    rfl
  rw [hname]
  rcases p.candidateOf_cases (.declared n) with ⟨c', v, hc', hv, -⟩ | ⟨n', body, hn, -, -, -, hc'⟩
  · rw [hc] at hc'
    cases hc'
    have hrefused : Contract.ofCandidate c = .error (.ineligible v c.fullName) := by
      rw [Contract.ofCandidate, Candidate.eligible, hv]
      rfl
    rw [hrefused] at hcontract
    cases hcontract
  · cases hn
    rw [hc] at hc'
    obtain ⟨methods, -, rfl⟩ := map_eq_ok.mp hc'.symm
    rfl

theorem className_of_generate (h : (generate settings p (.declared n) tree).result = .ok g) :
    g.className = n.dotless := by
  rw [(names_of_generate h).1, Contract.className, fullName_of_generate h]
  rfl

theorem fullClassName_of_generate (h : (generate settings p (.declared n) tree).result = .ok g) :
    g.fullClassName = settings.rootNamespace ++ "." ++ n.dotless := by
  rw [(names_of_generate h).2, ← (names_of_generate h).1, className_of_generate h]

/-- The name of the file that a client is written to. -/
def fileName (g : GeneratedClient) : String := g.className ++ ".py"

theorem fileName_ne_up (g : GeneratedClient) : fileName g ≠ ".." := by
  intro h
  have hlast := congrArg (fun s : String => s.toList.getLast?) h
  simp [fileName, String.toList_append] at hlast

theorem target_eq_iff : target settings g = target settings g' ↔ g.className = g'.className := by
  unfold target PathName.join
  simp only [PathName.mk.injEq, true_and, List.append_cancel_left_eq, List.cons.injEq, and_true]
  exact String.append_left_inj ".py"

/-! ### Files -/

theorem write_of_generate (h : (generate settings p s tree).result = .ok g) (hpath : g.path.isSome) :
    g.path = some (target settings g) ∧ ∃ made,
      tree.ensureDirectories (PathName.ofText settings.directory) = .ok made ∧
      made.write (target settings g) (Utf8.encode g.source) = .ok (generate settings p s tree).tree := by
  have hwrites : settings.writeSources = true := by
    by_contra hwrites
    have hnone := (generate_of_not_writes (Bool.eq_false_iff.mpr hwrites)).2 g h
    rw [hnone] at hpath
    cases hpath
  rw [← generateTo_sound hwrites] at h ⊢
  cases hmemory : (inMemory settings p s tree).result with
  | error e =>
    rw [generateTo] at h
    simp only [hmemory] at h
    cases h
  | ok made =>
    have hnone : made.path = none := (generate_of_not_writes rfl).2 made hmemory
    obtain ⟨left, failure, hstored, hr⟩ := exists_stored .sound hmemory
    rw [hr, tree_handOut]
    rw [hr] at h
    rcases failure with _ | reason | _ | _
    · cases h
      exact ⟨rfl, (hstored.eq_none_iff.mp rfl).2⟩
    · cases h
      rw [hnone] at hpath
      cases hpath
    · cases h
    · cases h

/-- Clients that are generated one after another, each of them written. -/
inductive WrittenInTurn (settings : GenerationSettings) (p : Program) :
    FileTree → List (ClassName × GeneratedClient) → FileTree → Prop
  | nil (tree : FileTree) : WrittenInTurn settings p tree [] tree
  | cons {tree tree' : FileTree} {n : ClassName} {g : GeneratedClient}
    {rest : List (ClassName × GeneratedClient)}
    (made : (generate settings p (.declared n) tree).result = .ok g) (written : g.path.isSome)
    (others : WrittenInTurn settings p (generate settings p (.declared n) tree).tree rest tree') :
    WrittenInTurn settings p tree ((n, g) :: rest) tree'

namespace WrittenInTurn

theorem of_append {before : List (ClassName × GeneratedClient)}
    (h : WrittenInTurn settings p tree (before ++ rest) tree') :
    ∃ between, WrittenInTurn settings p tree before between ∧
      WrittenInTurn settings p between rest tree' := by
  induction before generalizing tree with
  | nil => exact ⟨tree, .nil tree, h⟩
  | cons done before ih =>
    cases h with
    | cons made written others =>
      obtain ⟨between, hbefore, hrest⟩ := ih others
      exact ⟨between, .cons made written hbefore, hrest⟩

/-- Clients of other names leave a file in the output directory as it is. -/
theorem read_of_ne {name : String} {content : Bytes} (h : WrittenInTurn settings p tree done tree')
    (hname : name ≠ "..") (hother : ∀ d ∈ done, name ≠ d.1.dotless ++ ".py")
    (hread : tree.read ((PathName.ofText settings.directory).join name) = .ok content) :
    tree'.read ((PathName.ofText settings.directory).join name) = .ok content := by
  induction h with
  | nil => exact hread
  | @cons tree tree' n g rest made written others ih =>
    rw [List.forall_mem_cons] at hother
    obtain ⟨-, above, habove, hwrite⟩ := write_of_generate made written
    refine ih hother.2 ?_
    have hne : name ≠ fileName g := by
      rw [fileName, className_of_generate made]
      exact hother.1
    exact FileTree.read_write_join (fileName_ne_up g) hname hne hwrite
      (FileTree.read_ensureDirectories habove hread)

end WrittenInTurn

theorem exists_written (settings : GenerationSettings) (p : Program) (n : ClassName) (tree : FileTree)
    (h : ((generate settings p (.declared n) tree).result.toOption.bind (·.path)).isSome = true) :
    ∃ g, (generate settings p (.declared n) tree).result = .ok g ∧ g.path.isSome := by
  cases hg : (generate settings p (.declared n) tree).result with
  | error e =>
    rw [hg] at h
    cases h
  | ok g =>
    rw [hg] at h
    exact ⟨g, rfl, h⟩

/-- Two contracts have clients of one class name, of one full name and in one file exactly if their full
names agree once the dots are taken out, which no two at the top of one module do. Of clients that are
written one after another each file holds the source that was generated last under its name. -/
theorem clients_keep_their_files (settings : GenerationSettings) (p : Program) :
    (∀ n n' tree tree' g g', (generate settings p (.declared n) tree).result = .ok g →
      (generate settings p (.declared n') tree').result = .ok g' →
      (g.className = g'.className ↔ n.dotless = n'.dotless) ∧
      (g.fullClassName = g'.fullClassName ↔ n.dotless = n'.dotless) ∧
      (target settings g = target settings g' ↔ n.dotless = n'.dotless)) ∧
    (∀ n n' : ClassName, n.module = n'.module → '.' ∉ n.qualname.toList → '.' ∉ n'.qualname.toList →
      (n.dotless = n'.dotless ↔ n = n')) ∧
    ∀ tree tree' before n g after,
      WrittenInTurn settings p tree (before ++ (n, g) :: after) tree' →
      (∀ later ∈ after, later.1.dotless ≠ n.dotless) →
      g.path = some (target settings g) ∧
        tree'.read (target settings g) = .ok (Utf8.encode g.source) := by
  refine ⟨fun n n' tree tree' g g' hg hg' => ⟨?_, ?_, ?_⟩,
    fun n n' => ClassName.dotless_eq_iff, fun tree tree' before n g after hrun hlater => ?_⟩
  · rw [className_of_generate hg, className_of_generate hg']
  · rw [fullClassName_of_generate hg, fullClassName_of_generate hg']
    exact String.append_right_inj _
  · rw [target_eq_iff, className_of_generate hg, className_of_generate hg']
  · -- the source is written, and from there on only clients of other names are
    obtain ⟨between, -, hrun⟩ := hrun.of_append
    cases hrun with
    | cons made written others =>
      obtain ⟨hpath, above, -, hwrite⟩ := write_of_generate made written
      have hother : ∀ later ∈ after, fileName g ≠ later.1.dotless ++ ".py" := by
        intro later hmem h
        rw [fileName, className_of_generate made, String.append_left_inj] at h
        exact hlater later hmem h.symm
      exact ⟨hpath, others.read_of_ne (fileName_ne_up g) hother (FileTree.read_write hwrite)⟩

/-- A contract of a service with one method that answers nothing. -/
def pingContract (service : String) : ContractClass where
  kind := .protocol
  service := some ⟨service, ""⟩
  members := [("ping", .method { endpoint := some ⟨"GET", "/ping"⟩, returns := some .nothing } false)]

/-- Contracts, each of the service of its own name. -/
def pingProgram (names : List ClassName) : Program :=
  let scope : Scope := names.map fun n => ⟨n, .contract (pingContract n.qualname)⟩
  { scope, lineages := (scope.declare.toOption).getD [] }

/-- Of two clients that are written, the file of the first holds its source behind the second too. -/
theorem clients_keep_their_files_users_orders :
    let settings : GenerationSettings := { writeSources := true }
    let p := pingProgram [⟨"app", "Users"⟩, ⟨"app", "Orders"⟩]
    ∃ g g' tree',
      WrittenInTurn settings p ⟨[], []⟩ [(⟨"app", "Users"⟩, g), (⟨"app", "Orders"⟩, g')] tree' ∧
      g.className ≠ g'.className ∧ tree'.read (target settings g) = .ok (Utf8.encode g.source) ∧
      tree'.read (target settings g') = .ok (Utf8.encode g'.source) := by
  intro settings p
  obtain ⟨g, hg, hpath⟩ := exists_written settings p ⟨"app", "Users"⟩ ⟨[], []⟩ (by decide +kernel)
  obtain ⟨g', hg', hpath'⟩ := exists_written settings p ⟨"app", "Orders"⟩
    (generate settings p (.declared ⟨"app", "Users"⟩) ⟨[], []⟩).tree (by decide +kernel)
  have hrun := WrittenInTurn.cons hg hpath (.cons hg' hpath' (.nil _))
  obtain ⟨hnames, htop, hfiles⟩ := clients_keep_their_files settings p
  have hne : (⟨"app", "Users"⟩ : ClassName).dotless ≠ (⟨"app", "Orders"⟩ : ClassName).dotless :=
    (not_congr (htop ⟨"app", "Users"⟩ ⟨"app", "Orders"⟩ rfl (by decide) (by decide))).mpr (by decide)
  refine ⟨g, g', _, hrun, (not_congr (hnames _ _ _ _ _ _ hg hg').1).mpr hne,
    (hfiles _ _ [] _ _ _ hrun ?_).2, (hfiles _ _ [_] _ _ [] hrun nofun).2⟩
  rw [List.forall_mem_singleton]
  exact hne.symm

/-- The names of different contracts can agree without their dots; the client that is generated last then
takes the file of the other. -/
theorem dotless_names_collide :
    let settings : GenerationSettings := { writeSources := true }
    let p := pingProgram [⟨"app.api", "Users"⟩, ⟨"app", "apiUsers"⟩]
    ∃ g g' tree',
      WrittenInTurn settings p ⟨[], []⟩ [(⟨"app.api", "Users"⟩, g), (⟨"app", "apiUsers"⟩, g')] tree' ∧
      g.className = g'.className ∧ g.fullClassName = g'.fullClassName ∧
      target settings g = target settings g' ∧
      tree'.read (target settings g) = .ok (Utf8.encode g'.source) ∧ g.source ≠ g'.source := by
  intro settings p
  obtain ⟨g, hg, hpath⟩ := exists_written settings p ⟨"app.api", "Users"⟩ ⟨[], []⟩ (by decide +kernel)
  obtain ⟨g', hg', hpath'⟩ := exists_written settings p ⟨"app", "apiUsers"⟩
    (generate settings p (.declared ⟨"app.api", "Users"⟩) ⟨[], []⟩).tree (by decide +kernel)
  have hsources : (generate settings p (.declared ⟨"app.api", "Users"⟩) ⟨[], []⟩).result.toOption.map
      (·.source) ≠ (generate settings p (.declared ⟨"app", "apiUsers"⟩)
        (generate settings p (.declared ⟨"app.api", "Users"⟩) ⟨[], []⟩).tree).result.toOption.map
      (·.source) := by decide +kernel
  rw [hg, hg'] at hsources
  have hclass : g.className = g'.className := by
    rw [className_of_generate hg, className_of_generate hg']
    decide +kernel
  have hfull : g.fullClassName = g'.fullClassName := by
    rw [(names_of_generate hg).2, (names_of_generate hg').2, ← (names_of_generate hg).1,
      ← (names_of_generate hg').1, hclass]
  obtain ⟨-, above, -, hwrite⟩ := write_of_generate hg' hpath'
  refine ⟨g, g', _, .cons hg hpath (.cons hg' hpath' (.nil _)), hclass, hfull, target_eq_iff.mpr hclass,
    ?_, fun h => hsources (congrArg some h)⟩
  rw [target_eq_iff.mpr hclass]
  exact FileTree.read_write hwrite

end Generation

end HttpContract
