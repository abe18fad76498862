import HttpContract.Proofs.Client.Attributes
import HttpContract.Proofs.Declaration.Eligibility
import HttpContract.Proofs.Files.FileTree
import HttpContract.Proofs.Text.Docstring

/-!
# All or nothing

A contract is made of all its methods or of none (`Contract.ofCandidate_eq_ok_iff`,
`Contract.ofCandidate_eq_error_iff`), and its source is written only once it is complete: a contract
that is refused leaves every file as it is, and a source that is said to be written is what the file
holds (`generation_all_or_nothing`). The source defines the constructor and one method for each
operation (`ClientSource.Defines`).
-/

namespace HttpContract

/-! ### Contracts -/

namespace Contract
variable {c : Candidate} {k : Contract}

theorem operations_ofCandidate (h : ofCandidate c = .ok k) :
    List.Forall₂ (fun m o => Operation.ofSignature m c.fullName = .ok o) c.methods k.operations := by
  obtain ⟨service, -, h⟩ := bind_eq_ok.mp h
  obtain ⟨operations, hoperations, h⟩ := bind_eq_ok.mp h
  cases h
  exact mapM_eq_ok_iff.mp hoperations

/-- An eligible candidate is a contract if each of its methods would be accepted alone. -/
theorem exists_ofCandidate_iff (hc : c.violation? = none) :
    (∃ k, ofCandidate c = .ok k) ↔
      ∀ m ∈ c.methods, ∃ o, Operation.ofSignature m c.fullName = .ok o := by
  constructor
  · rintro ⟨k, hk⟩ m hm
    obtain ⟨o, -, ho⟩ := exists_of_mem_forall₂ (operations_ofCandidate hk) m hm
    exact ⟨o, ho⟩
  · intro h
    obtain ⟨service, hservice⟩ := Candidate.exists_eligible hc
    cases hm : c.methods.mapM fun m => Operation.ofSignature m c.fullName with
    | ok operations =>
      have hk : ofCandidate c = .ok ⟨c.module, c.qualname, service.name, service.route, operations⟩ := by
        rw [ofCandidate, hservice, hm]
        rfl
      exact ⟨_, hk⟩
    | error e =>
      obtain ⟨before, m, after, hmethods, -, hrejected⟩ := mapM_eq_error_iff.mp hm
      obtain ⟨o, ho⟩ := h m (by simp [hmethods])
      rw [ho] at hrejected
      cases hrejected

/-- Otherwise the first method that would not is what is reported. -/
theorem ofCandidate_eq_error_iff (hc : c.violation? = none) {e : Failure} :
    ofCandidate c = .error e ↔ ∃ before m after, c.methods = before ++ m :: after ∧
      (∀ m' ∈ before, ∃ o, Operation.ofSignature m' c.fullName = .ok o) ∧
        Operation.ofSignature m c.fullName = .error e := by
  obtain ⟨service, hservice⟩ := Candidate.exists_eligible hc
  rw [← mapM_eq_error_iff]
  constructor
  · intro h
    rcases bind_eq_error.mp h with h | ⟨service', -, h⟩
    · rw [hservice] at h
      cases h
    · rcases bind_eq_error.mp h with h | ⟨operations, -, h⟩
      · exact h
      · cases h
  · intro h
    exact bind_eq_error.mpr (.inr ⟨service, hservice, bind_eq_error.mpr (.inl h)⟩)

end Contract

/-! ### Sources -/

namespace ClientSource
variable {options : SourceOptions} {c : Contract} {plans : List CallPlan}

/-- Whether a line begins a definition in the body of a class. -/
def beginsDefinition (line : String) : Bool :=
  "    def ".toList.isPrefixOf line.toList || "    async def ".toList.isPrefixOf line.toList

/-- The lines of a method in the body of a class. -/
def methodBlock (o : Operation) (plan : CallPlan) : List String :=
  "" :: (methodLines "    " o plan).map ("    " ++ ·)

/-- The line that a constructor begins with. -/
def constructorStart : String :=
  "    " ++ (s!"def __init__(self, client: {supportModule}.HttpClient, " ++
    "logger: typing.Optional[logging.Logger] = None) -> None:")

/-- The source defines a constructor and then, for each operation in order, the method that performs
its plan. No other line of it begins a definition. -/
def Defines (source : String) (operations : List Operation) : Prop :=
  ∃ lines front plans, source = String.intercalate "\n" lines ∧
    List.Forall₂ (fun o plan => o.plan = .ok plan) operations plans ∧
    lines = front ++ (operations.zip plans).flatMap (fun p => methodBlock p.1 p.2) ++ [""] ∧
    lines.filter beginsDefinition =
      constructorStart :: operations.map fun o => "    " ++ signatureLine o

theorem beginsDefinition_empty : beginsDefinition "" = false := by
  simp [beginsDefinition]

theorem beginsDefinition_indented (line : String) : beginsDefinition ("    " ++ line) =
    ("def ".toList.isPrefixOf line.toList || "async def ".toList.isPrefixOf line.toList) := by
  simp [beginsDefinition, List.isPrefixOf]

theorem beginsDefinition_deeper (line : String) :
    beginsDefinition ("    " ++ ("    " ++ line)) = false := by
  rw [beginsDefinition_indented]
  simp [List.isPrefixOf]

theorem beginsDefinition_signatureLine (o : Operation) :
    beginsDefinition ("    " ++ signatureLine o) = true := by
  have hstart : ∃ rest, (signatureLine o).toList =
      (if o.isAsync then "async def" else "def").toList ++ ' ' :: rest := by
    simp only [signatureLine, String.toList_append, List.append_assoc]
    exact ⟨_, rfl⟩
  obtain ⟨rest, hrest⟩ := hstart
  rw [beginsDefinition_indented, hrest]
  cases o.isAsync with
  | false => simp [List.isPrefixOf]
  | true => simp [List.isPrefixOf]

theorem beginsDefinition_constructorStart : beginsDefinition constructorStart = true := by
  have hstart : ∃ rest, (s!"def __init__(self, client: {supportModule}.HttpClient, " ++
      "logger: typing.Optional[logging.Logger] = None) -> None:").toList =
        "def __init__(self, client: ".toList ++ rest := by
    simp only [String.toList_append, List.append_assoc]
    exact ⟨_, rfl⟩
  obtain ⟨rest, hrest⟩ := hstart
  rw [constructorStart, beginsDefinition_indented, hrest]
  simp [List.isPrefixOf]

theorem filter_methodBlock (o : Operation) (plan : CallPlan) :
    (methodBlock o plan).filter beginsDefinition = ["    " ++ signatureLine o] := by
  have hbody : ∀ lines : List String, ((lines.map ("    " ++ ·)).map ("    " ++ ·)).filter
      beginsDefinition = [] := by
    intro lines
    simp only [List.filter_eq_nil_iff, List.mem_map]
    rintro line ⟨_, ⟨inner, -, rfl⟩, rfl⟩
    rw [beginsDefinition_deeper]
    exact Bool.false_ne_true
  unfold methodBlock methodLines
  rw [List.map_cons, List.map_cons,
    List.filter_cons_of_neg (by rw [beginsDefinition_empty]; exact Bool.false_ne_true),
    List.filter_cons_of_pos (beginsDefinition_signatureLine o),
    List.filter_cons_of_neg (by rw [beginsDefinition_deeper]; exact Bool.false_ne_true), hbody]

theorem filter_methodBlocks {operations : List Operation} {own : List CallPlan}
    (h : operations.length = own.length) :
    ((operations.zip own).flatMap fun p => methodBlock p.1 p.2).filter beginsDefinition =
      operations.map fun o => "    " ++ signatureLine o :=
  calc ((operations.zip own).flatMap fun p => methodBlock p.1 p.2).filter beginsDefinition
    _ = (operations.zip own).map fun p => "    " ++ signatureLine p.1 := by
      simp only [List.filter_flatMap, filter_methodBlock]
      exact List.map_eq_flatMap.symm
    _ = ((operations.zip own).map Prod.fst).map fun o => "    " ++ signatureLine o := by
      rw [List.map_map]
      rfl
    _ = operations.map fun o => "    " ++ signatureLine o := by
      rw [List.map_fst_zip (Nat.le_of_eq h)]

/-- What stands above the methods. -/
def front (options : SourceOptions) (c : Contract) : List String :=
  [docstring (moduleDoc options c), ""] ++ (imports c).map ("import " ++ ·) ++ ["", ""] ++
    classLines options c []

theorem beginsDefinition_of_head {line : String} {c : Char} (h : line.toList.head? = some c)
    (hc : c ≠ ' ') : beginsDefinition line = false := by
  obtain ⟨rest, hrest⟩ := List.head?_eq_some_iff.mp h
  rw [beginsDefinition, hrest]
  simp [List.isPrefixOf, hc.symm]

theorem filter_front (settings : GenerationSettings) (c : Contract) :
    (front (Generation.options settings) c).filter beginsDefinition = [constructorStart] := by
  have himports : ((imports c).map ("import " ++ ·)).filter beginsDefinition = [] := by
    simp only [List.filter_eq_nil_iff, List.mem_map]
    rintro line ⟨module, -, rfl⟩
    have himport : beginsDefinition ("import " ++ module) = false := by
      refine beginsDefinition_of_head (c := 'i') ?_ (by decide)
      rw [String.toList_append]
      rfl
    rw [himport]
    exact Bool.false_ne_true
  have hdoc : beginsDefinition (docstring (moduleDoc (Generation.options settings) c)) = false := by
    refine beginsDefinition_of_head (c := '"') ?_ (by decide)
    rw [Docstring.toList_docstring]
    rfl
  have hclassDoc : beginsDefinition ("    " ++ docstring (classDoc c)) = false := by
    rw [beginsDefinition_indented, Docstring.toList_docstring]
    simp [Docstring.mark, List.isPrefixOf]
  have hclass : beginsDefinition s!"class {c.className}({baseClass}, {c.fullName}):" = false := by
    refine beginsDefinition_of_head (c := 'c') ?_ (by decide)
    simp only [String.toList_append, List.append_assoc]
    rfl
  have hfinal : beginsDefinition "@typing.final" = false :=
    beginsDefinition_of_head (c := '@') (by simp) (by decide)
  have hlines : (constructorLines "    " c).map ("    " ++ ·) = [constructorStart, "    " ++
      ("    " ++ ("super().__init__(client, " ++
        s!"{Quoted.text c.serviceName}, {Quoted.text c.baseRoute}, logger=logger)"))] := rfl
  have hsealed : ∀ b : Bool, (if b then ["@typing.final"] else []).filter beginsDefinition = [] := by
    intro b
    cases b with
    | false => rfl
    | true =>
      show ["@typing.final"].filter beginsDefinition = []
      rw [List.filter_cons_of_neg (by rw [hfinal]; exact Bool.false_ne_true), List.filter_nil]
  have hindent : (Generation.options settings).indent = "    " := rfl
  simp only [front, classLines, hindent, hlines, List.flatMap_nil, List.filter_append, himports,
    hsealed, List.filter_cons, hdoc, beginsDefinition_empty, hclass, hclassDoc,
    beginsDefinition_constructorStart, beginsDefinition_deeper, List.filter_nil, Bool.false_eq_true,
    if_false, if_true, List.nil_append, List.append_nil]

theorem lines_eq (settings : GenerationSettings) (c : Contract)
    (planned : List (Operation × CallPlan)) : lines (Generation.options settings) c planned =
      front (Generation.options settings) c ++ planned.flatMap (fun p => methodBlock p.1 p.2) ++
        [""] := by
  simp only [lines, front, classLines, List.append_assoc, List.flatMap_nil, List.append_nil]
  rfl

theorem zip_planFor? {operations : List Operation} {own : List CallPlan}
    (hown : List.Forall₂ (fun o plan => o.plan = .ok plan) operations own)
    (hplans : ∀ o ∈ operations, ∃ plan, planFor? plans o.name = some plan ∧ o.plan = .ok plan) :
    operations.filterMap (fun o => (planFor? plans o.name).map (o, ·)) = operations.zip own := by
  induction hown with
  | nil => rfl
  | cons ho _ ih =>
    rw [List.forall_mem_cons] at hplans
    obtain ⟨⟨plan, hplan, ho'⟩, hplans⟩ := hplans
    rw [ho] at ho'
    cases ho'
    rw [List.filterMap_cons_some (by rw [hplan]; rfl), List.zip_cons_cons, ih hplans]

theorem eq_of_emit {source : String} (hn : (c.operations.map (·.name)).Nodup)
    (hplans : c.plans = .ok plans) (h : emit options c plans = .ok source) :
    source = String.intercalate "\n" (lines options c (c.operations.zip plans)) := by
  have hfound := fun o ho => planFor?_name hn hplans (o := o) ho
  unfold emit at h
  simp only at h
  split_ifs at h
  cases h
  rw [zip_planFor? (mapM_eq_ok_iff.mp hplans) hfound]

theorem defines_of_emit {settings : GenerationSettings} {source : String}
    (hn : (c.operations.map (·.name)).Nodup) (hplans : c.plans = .ok plans)
    (h : emit (Generation.options settings) c plans = .ok source) : Defines source c.operations := by
  have hown := mapM_eq_ok_iff.mp hplans
  rw [eq_of_emit hn hplans h, lines_eq]
  refine ⟨_, _, plans, rfl, hown, rfl, ?_⟩
  have hempty : [""].filter beginsDefinition = [] := by
    rw [List.filter_cons_of_neg (by rw [beginsDefinition_empty]; exact Bool.false_ne_true),
      List.filter_nil]
  rw [List.filter_append, List.filter_append, filter_front, filter_methodBlocks hown.length_eq, hempty,
    List.append_nil, List.singleton_append]

end ClientSource

/-! ### Delivery -/

namespace Generation
variable {settings : GenerationSettings} {g g' : GeneratedClient} {tree tree' : FileTree}
  {label : String} {log : List LogRecord} {path : PathName}

theorem read_writeSource {directory : PathName} {source : String}
    (h : writeSource tree directory path source = (tree', none)) :
    tree'.read path = .ok (Utf8.encode source) := by
  unfold writeSource at h
  split at h
  · cases h
  · split at h
    · cases h
    · next hwrite =>
      cases h
      exact FileTree.read_write hwrite

theorem read_deliver (hg : g.path = none) (h : (deliver settings label g tree log).result = .ok g')
    (hpath : g'.path = some path) :
    (deliver settings label g tree log).tree.read path = .ok (Utf8.encode g'.source) := by
  unfold deliver at h ⊢
  by_cases hwrites : settings.writeSources = true
  · simp only [hwrites, Bool.not_true, Bool.false_eq_true, if_false] at h ⊢
    split at h
    · next tree' hwritten =>
      cases h
      cases hpath
      exact read_writeSource hwritten
    · next e hfailed =>
      split_ifs at h
      cases h
      rw [hg] at hpath
      cases hpath
  · simp only [Bool.not_eq_true] at hwrites
    simp only [hwrites, Bool.not_false, if_true] at h
    cases h
    rw [hg] at hpath
    cases hpath

/-- Nothing that fails once the source is complete is reported as a fault of the contract. -/
theorem diagnostic?_deliver {e : Failure} (h : (deliver settings label g tree log).result = .error e) :
    e.diagnostic? = none := by
  unfold deliver at h
  split_ifs at h
  simp only at h
  split at h
  · cases h
  · split_ifs at h
    cases h
    rfl

theorem deliver_of_not_writes (h : settings.writeSources = false) :
    deliver settings label g tree log = { result := .ok g, tree, log } := by
  rw [deliver, h]
  rfl

end Generation

theorem Program.nodup_methods_candidateOf {p : Program} {s : Subject} {c : Candidate}
    (h : p.candidateOf s = .ok c) : (c.methods.map (·.name)).Nodup := by
  cases s with
  | declared n => exact nodup_methods_candidate h
  | _ =>
    cases h
    exact List.nodup_nil

/-- A client whose contract has an operation for each method of the subject, in order, and whose
source defines those. -/
def GeneratedClient.IsComplete (g : GeneratedClient) (p : Program) (s : Subject) : Prop :=
  ∃ c, p.candidateOf s = .ok c ∧
    List.Forall₂ (fun m o => Operation.ofSignature m c.fullName = .ok o) c.methods
      g.contract.operations ∧
    g.contract.operations.map (·.name) = c.methods.map (·.name) ∧
    ClientSource.Defines g.source g.contract.operations

namespace Generation
variable {settings : GenerationSettings} {p : Program} {s : Subject} {tree : FileTree}
  {g : GeneratedClient}

theorem isComplete_of_generate (h : (generate settings p s tree).result = .ok g) :
    g.IsComplete p s := by
  obtain ⟨c, hc, hcontract, hplans, hemit⟩ := generate_eq_ok h
  have hnames := Contract.names_operations hcontract
  have hn : (g.contract.operations.map (·.name)).Nodup := by
    rw [hnames]
    exact Program.nodup_methods_candidateOf hc
  exact ⟨c, hc, Contract.operations_ofCandidate hcontract, hnames,
    ClientSource.defines_of_emit hn hplans hemit⟩

theorem operations_load {name : ClassName} {c : ClientClass}
    (h : (generate settings p s tree).result = .ok g) (hc : ClientClass.load p settings name g = .ok c) :
    c.contract.operations = g.contract.operations ∧
      ∀ o ∈ g.contract.operations, c.operation? o.name = some o ∧ o.plan = .ok (c.plan o) := by
  obtain ⟨-, hcontract, hplans⟩ := ClientClass.load_eq_ok hc
  obtain ⟨candidate, hcandidate, hk, hown, -⟩ := generate_eq_ok h
  have hn : (g.contract.operations.map (·.name)).Nodup := by
    rw [Contract.names_operations hk]
    exact Program.nodup_methods_candidateOf hcandidate
  refine ⟨by rw [hcontract], fun o ho => ⟨?_, ?_⟩⟩
  · rw [ClientClass.operation?, hcontract]
    exact find?_name hn ho
  · obtain ⟨plan, hfind, ho⟩ := ClientSource.planFor?_name hn hown ho
    rw [ClientClass.plan, hplans, hfind, ho, Option.getD_some]

theorem tree_generate_of_diagnostic {e : Failure} (h : (generate settings p s tree).result = .error e)
    (he : e.diagnostic?.isSome) : (generate settings p s tree).tree = tree := by
  obtain ⟨log, hlog⟩ := generate_eq settings p s tree
  rw [hlog] at h ⊢
  cases hmade : p.candidateOf s >>= sourceOf settings with
  | error e' => rfl
  | ok made =>
    rw [hmade] at h
    rw [diagnostic?_deliver h] at he
    cases he

theorem read_generate {path : PathName} (h : (generate settings p s tree).result = .ok g)
    (hpath : g.path = some path) :
    (generate settings p s tree).tree.read path = .ok (Utf8.encode g.source) := by
  obtain ⟨log, hlog⟩ := generate_eq settings p s tree
  rw [hlog] at h ⊢
  cases hmade : p.candidateOf s >>= sourceOf settings with
  | error e =>
    rw [hmade] at h
    cases h
  | ok made =>
    rw [hmade] at h
    obtain ⟨c, -, hsource⟩ := bind_eq_ok.mp hmade
    obtain ⟨-, -, -, hnone⟩ := sourceOf_eq_ok hsource
    exact read_deliver hnone h hpath

theorem generate_of_not_writes (hwrites : settings.writeSources = false) :
    (generate settings p s tree).tree = tree ∧
      ∀ g, (generate settings p s tree).result = .ok g → g.path = none := by
  obtain ⟨log, hlog⟩ := generate_eq settings p s tree
  rw [hlog]
  cases hmade : p.candidateOf s >>= sourceOf settings with
  | error e =>
    refine ⟨rfl, fun g hg => ?_⟩
    cases hg
  | ok made =>
    obtain ⟨c, -, hsource⟩ := bind_eq_ok.mp hmade
    obtain ⟨-, -, -, hnone⟩ := sourceOf_eq_ok hsource
    simp only [deliver_of_not_writes hwrites]
    refine ⟨trivial, fun g hg => ?_⟩
    cases hg
    exact hnone

end Generation

/-- An eligible candidate is a contract exactly if each of its methods would be accepted alone, and
the first that would not is what is reported. A contract that is refused leaves the files as they are.
The source of one that is not defines a method for each of its methods in order, as does the class that
it loads as; the file whose path is handed out holds the source, and none is written unless asked
for. -/
theorem generation_all_or_nothing (settings : GenerationSettings) (p : Program) (s : Subject)
    (tree : FileTree) :
    (∀ c : Candidate, c.violation? = none →
      ((∃ k, Contract.ofCandidate c = .ok k) ↔
        ∀ m ∈ c.methods, ∃ o, Operation.ofSignature m c.fullName = .ok o) ∧
      ∀ e, Contract.ofCandidate c = .error e ↔ ∃ before m after, c.methods = before ++ m :: after ∧
        (∀ m' ∈ before, ∃ o, Operation.ofSignature m' c.fullName = .ok o) ∧
          Operation.ofSignature m c.fullName = .error e) ∧
      (∀ e, (Generation.generate settings p s tree).result = .error e → e.diagnostic?.isSome →
        (Generation.generate settings p s tree).tree = tree) ∧
      (∀ g, (Generation.generate settings p s tree).result = .ok g → g.IsComplete p s ∧
        (∀ path, g.path = some path →
          (Generation.generate settings p s tree).tree.read path = .ok (Utf8.encode g.source)) ∧
        ∀ name c, ClientClass.load p settings name g = .ok c →
          c.contract.operations = g.contract.operations ∧
            ∀ o ∈ g.contract.operations, c.operation? o.name = some o ∧ o.plan = .ok (c.plan o)) ∧
      (settings.writeSources = false → (Generation.generate settings p s tree).tree = tree ∧
        ∀ g, (Generation.generate settings p s tree).result = .ok g → g.path = none) := by
  refine ⟨fun c hc => ⟨Contract.exists_ofCandidate_iff hc, fun e =>
    Contract.ofCandidate_eq_error_iff hc⟩, fun e => Generation.tree_generate_of_diagnostic,
    fun g hg => ⟨Generation.isComplete_of_generate hg, fun path => Generation.read_generate hg,
      fun name c => Generation.operations_load hg⟩, Generation.generate_of_not_writes⟩

/-- What generating and writing the client of a class leaves of an empty directory. -/
def produced (p : Program) (name : ClassName) : Report GeneratedClient :=
  Generation.generate { writeSources := true } p (.declared name) ⟨[], []⟩

/-- What a piece of work that failed says of the contract. -/
def Report.refusal? {α : Type} (r : Report α) : Option Diagnostic :=
  match r.result with
  | .error e => e.diagnostic?
  | .ok _ => none

/-- A contract with one method is written, and one whose method cannot be read leaves no file. -/
theorem generation_writes_ping :
    (∃ g path, (produced (usersRegistry ["ping"]).program ⟨"app", "Users"⟩).result = .ok g ∧
        g.path = some path ∧
        g.IsComplete (usersRegistry ["ping"]).program (.declared ⟨"app", "Users"⟩) ∧
        (produced (usersRegistry ["ping"]).program ⟨"app", "Users"⟩).tree.read path =
          .ok (Utf8.encode g.source)) ∧
      (∃ e, (produced (Program.draftProgram (some ⟨"drafts", ""⟩)) ⟨"app", "Drafts"⟩).result =
        .error e) ∧
      (produced (Program.draftProgram (some ⟨"drafts", ""⟩)) ⟨"app", "Drafts"⟩).tree = ⟨[], []⟩ := by
  have hwritten : ((produced (usersRegistry ["ping"]).program ⟨"app", "Users"⟩).result.toOption.bind
      (·.path)).isSome = true := by decide +kernel
  have hrefused : (produced (Program.draftProgram (some ⟨"drafts", ""⟩))
      ⟨"app", "Drafts"⟩).refusal?.isSome = true := by decide +kernel
  unfold Report.refusal? at hrefused
  obtain ⟨-, -, hcomplete, -⟩ := generation_all_or_nothing { writeSources := true }
    (usersRegistry ["ping"]).program (.declared ⟨"app", "Users"⟩) ⟨[], []⟩
  obtain ⟨-, hkept, -⟩ := generation_all_or_nothing { writeSources := true }
    (Program.draftProgram (some ⟨"drafts", ""⟩)) (.declared ⟨"app", "Drafts"⟩) ⟨[], []⟩
  refine ⟨?_, ?_⟩
  · cases hg : (produced (usersRegistry ["ping"]).program ⟨"app", "Users"⟩).result with
    | error e =>
      rw [hg] at hwritten
      cases hwritten
    | ok g =>
      rw [hg] at hwritten
      obtain ⟨path, hpath⟩ := Option.isSome_iff_exists.mp hwritten
      obtain ⟨hg, hread, -⟩ := hcomplete g hg
      exact ⟨g, path, rfl, hpath, hg, hread path hpath⟩
  · cases he : (produced (Program.draftProgram (some ⟨"drafts", ""⟩)) ⟨"app", "Drafts"⟩).result with
    | ok g =>
      rw [he] at hrefused
      cases hrefused
    | error e =>
      rw [he] at hrefused
      exact ⟨⟨e, rfl⟩, hkept e he hrefused⟩

end HttpContract
