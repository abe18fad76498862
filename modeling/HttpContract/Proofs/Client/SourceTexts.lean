import HttpContract.Proofs.Client.SourceOutline
import HttpContract.Proofs.Plan.Placeholders

/-!
# Texts in sources

The texts of a contract stand in its source as literals and in docstrings, and nowhere else. A literal is
read back as its text whatever the text is. A docstring is one literal only if what it is made of allows
for it: the name of a service if it has no three quotes in a row, a path if the quotes behind it close it
and its escapes are well formed. Where all docstrings are, whether the source can be read is a matter of
the contract without its texts (`texts_stay_inside_literals`).
-/

namespace HttpContract

namespace ClientSource
variable {ps : List Piece} {options : SourceOptions} {c : Contract} {plans : List CallPlan}
  {names : CharacterNames}

/-! ### Docstrings of contracts -/

theorem toList_classDoc (c : Contract) : (classDoc c).toList =
    "HTTP client for the ".toList ++ (Quoted.encode c.serviceName.toList ++ " service.".toList) := by
  have hdoc : classDoc c = "HTTP client for the " ++ Quoted.text c.serviceName ++ " service." := rfl
  have htext : (Quoted.text c.serviceName).toList = Quoted.encode c.serviceName.toList :=
    String.toList_ofList
  rw [hdoc, String.toList_append, String.toList_append, htext, List.append_assoc]

/-- What the client class says of its service is one literal unless there are three quotes in a row in
the name of the service. -/
theorem exists_says_classDoc_iff (c : Contract) :
    (∃ said, Docstring.Says names (classDoc c) said) ↔ ¬ Docstring.mark <:+: c.serviceName.toList :=
  Docstring.exists_says_encode_iff (by decide +kernel) (by decide +kernel) (by decide +kernel)
    (toList_classDoc c)

/-- What a method says of its request is one literal if the path by itself is. -/
theorem exists_says_methodDoc_iff {o : Operation} (hverb : '"' ∉ o.verb.toList ∧ '\\' ∉ o.verb.toList) :
    (∃ said, Docstring.Says names (o.verb ++ " " ++ o.path) said) ↔ ∃ said, Docstring.Says names o.path said := by
  refine Docstring.exists_says_append_iff ?_
  rw [String.toList_append]
  simpa using hverb

theorem moduleDoc_eq (options : SourceOptions) (c : Contract) : moduleDoc options c =
    ("Client for " ++ c.fullName ++ ".\n\nGenerated by declient into ") ++
      (options.rootNamespace ++ ". DO NOT EDIT.\n") := by
  have h : moduleDoc options c = "Client for " ++ c.fullName ++ ".\n\nGenerated by declient into " ++
      options.rootNamespace ++ ". DO NOT EDIT.\n" := rfl
  rw [h, String.append_assoc]

/-- What the module says is one literal if what it says from the root namespace on is. -/
theorem exists_says_moduleDoc_iff (hname : '"' ∉ c.fullName.toList ∧ '\\' ∉ c.fullName.toList) :
    (∃ said, Docstring.Says names (moduleDoc options c) said) ↔
      ∃ said, Docstring.Says names (options.rootNamespace ++ ". DO NOT EDIT.\n") said := by
  rw [moduleDoc_eq]
  refine Docstring.exists_says_append_iff ?_
  have hfront : '"' ∉ "Client for ".toList ∧ '\\' ∉ "Client for ".toList := by decide +kernel
  have hbehind : '"' ∉ ".\n\nGenerated by declient into ".toList ∧
      '\\' ∉ ".\n\nGenerated by declient into ".toList := by decide +kernel
  simp only [String.toList_append, List.mem_append, not_or]
  exact ⟨⟨⟨hfront.1, hname.1⟩, hbehind.1⟩, ⟨hfront.2, hname.2⟩, hbehind.2⟩

/-! ### Pieces of contracts -/

/-- The operations of a contract, each with the plan of its name. -/
def planned (c : Contract) (plans : List CallPlan) : List (Operation × CallPlan) :=
  c.operations.filterMap fun o => (planFor? plans o.name).map (o, ·)

/-- The pieces of the source of a contract with certain plans. -/
def pieces (options : SourceOptions) (c : Contract) (plans : List CallPlan) : List Piece :=
  sourcePieces options c (planned c plans)

theorem isSome_planFor? (hplans : c.plans = .ok plans) :
    ∀ o ∈ c.operations, (planFor? plans o.name).isSome = true := by
  intro o ho
  obtain ⟨plan, hplan, hown⟩ := exists_of_mem_forall₂ (mapM_eq_ok_iff.mp hplans) o ho
  rw [planFor?, List.find?_isSome]
  exact ⟨plan, List.mem_reverse.mpr hplan, by rw [Operation.method_plan hown, beq_self_eq_true]⟩

theorem map_fst_planned (hplans : c.plans = .ok plans) : (planned c plans).map (·.1) = c.operations := by
  have hsome := isSome_planFor? hplans
  unfold planned
  generalize c.operations = operations at hsome ⊢
  induction operations with
  | nil => rfl
  | cons o os ih =>
    rw [List.forall_mem_cons] at hsome
    obtain ⟨plan, hplan⟩ := Option.isSome_iff_exists.mp hsome.1
    rw [List.filterMap_cons_some (by rw [hplan]; rfl), List.map_cons, ih hsome.2]

theorem emit_eq (options : SourceOptions) (hplans : c.plans = .ok plans) :
    emit options c plans = .ok (writeAll (pieces options c plans)) := by
  have hmissing : c.operations.filter (fun o => (planFor? plans o.name).isNone) = [] := by
    rw [List.filter_eq_nil_iff]
    intro o ho
    rw [Option.isNone_iff_eq_none]
    exact Option.isSome_iff_ne_none.mp (isSome_planFor? hplans o ho)
  rw [pieces, write_sourcePieces, emit, hmissing]
  rfl

theorem emit_eq_lines (options : SourceOptions) (hplans : c.plans = .ok plans) :
    emit options c plans = .ok (String.intercalate "\n" (lines options c (planned c plans))) := by
  rw [emit_eq options hplans, pieces, write_sourcePieces]

theorem exists_of_mem_planned (hplans : c.plans = .ok plans) {p : Operation × CallPlan}
    (hp : p ∈ planned c plans) :
    p.1 ∈ c.operations ∧ ∃ o ∈ c.operations, o.plan = .ok p.2 := by
  obtain ⟨o, ho, hfound⟩ := List.mem_filterMap.mp hp
  obtain ⟨plan, hplan, rfl⟩ := Option.map_eq_some_iff.mp hfound
  refine ⟨ho, ?_⟩
  have hmem : plan ∈ plans := List.mem_reverse.mp (List.mem_of_find?_eq_some hplan)
  exact exists_of_mem_mapM hplans plan hmem

theorem docs_pieces (options : SourceOptions) (hplans : c.plans = .ok plans) :
    docs (pieces options c plans) = docTexts options c := by
  have hdocs : (planned c plans).map (fun p => p.1.verb ++ " " ++ p.1.path) =
      c.operations.map fun o => o.verb ++ " " ++ o.path := by
    rw [← map_fst_planned hplans, List.map_map]
    rfl
  rw [pieces, docs_sourcePieces, hdocs]
  rfl

theorem planFor?_withoutTexts (plans : List CallPlan) (name : String) :
    planFor? (plans.map CallPlan.withoutTexts) name =
      (planFor? plans name).map CallPlan.withoutTexts := by
  rw [planFor?, planFor?, ← List.map_reverse, List.find?_map]
  rfl

theorem outline_pieces (options : SourceOptions) (c : Contract) (plans : List CallPlan) :
    outline (pieces options c.withoutTexts (plans.map CallPlan.withoutTexts)) =
      outline (pieces options c plans) := by
  have hplanned : planned c.withoutTexts (plans.map CallPlan.withoutTexts) =
      (planned c plans).map fun p => (p.1.withoutTexts, p.2.withoutTexts) := by
    show (c.operations.map Operation.withoutTexts).filterMap _ = _
    rw [planned, List.filterMap_map, List.map_filterMap]
    refine List.filterMap_congr fun o _ => ?_
    show (planFor? (plans.map CallPlan.withoutTexts) o.name).map (o.withoutTexts, ·) = _
    rw [planFor?_withoutTexts, Option.map_map, Option.map_map]
    rfl
  rw [pieces, hplanned, outline_sourcePieces, pieces]

/-! ### Characters of sources -/

theorem mem_writeAll {x : Char} : x ∈ (writeAll ps).toList ↔ ∃ p ∈ ps, x ∈ p.write.toList := by
  induction ps with
  | nil => simp
  | cons p ps ih =>
    rw [writeAll_cons, String.toList_append, List.mem_append, ih]
    simp

theorem code_mem_outline {s : String} : .code s ∈ outline ps ↔ .code s ∈ ps := by
  unfold outline
  rw [List.mem_map]
  constructor
  · rintro ⟨p, hp, he⟩
    cases p with
    | code t =>
      cases he
      exact hp
    | literal t => cases he
    | doc t => cases he
  · intro h
    exact ⟨_, h, rfl⟩

/-- A NUL that is in no docstring is in the code. -/
theorem nul_mem_writeAll (hdocs : ∀ t ∈ docs ps, '\x00' ∉ t.toList) :
    '\x00' ∈ (writeAll ps).toList ↔ ∃ s, .code s ∈ outline ps ∧ '\x00' ∈ s.toList := by
  rw [mem_writeAll]
  constructor
  · rintro ⟨p, hp, hmem⟩
    cases p with
    | code s => exact ⟨s, code_mem_outline.mpr hp, hmem⟩
    | literal t =>
      rw [Piece.write_literal, Quoted.text, String.toList_ofList] at hmem
      exact absurd hmem (Quoted.not_mem_encode (by decide +kernel) _)
    | doc t =>
      rw [Piece.write_doc, Docstring.toList_docstring, List.mem_append, List.mem_append] at hmem
      have hmark : '\x00' ∉ Docstring.mark := by decide
      have ht : t ∈ docs ps := List.mem_filterMap.mpr ⟨_, hp, rfl⟩
      rcases hmem with hmem | hmem | hmem
      · exact absurd hmem hmark
      · exact absurd hmem (hdocs t ht)
      · exact absurd hmem hmark
  · rintro ⟨s, hs, hmem⟩
    exact ⟨_, code_mem_outline.mp hs, hmem⟩

end ClientSource

/-! ### Readable sources -/

theorem Operation.isReadable_withoutTexts (o : Operation) :
    o.withoutTexts.isReadable = o.isReadable := by
  simp only [isReadable, withoutTexts, signatureTypes, List.map_map, List.filterMap_map]
  rfl

namespace Contract
variable {c : Contract} {options : SourceOptions} {plans : List CallPlan} {names : CharacterNames}

/-- Whether the names, types and defaults of a contract can be read. -/
def hasReadableNames (c : Contract) : Bool :=
  (c.fullName :: ClientSource.imports c).all TypeReference.isNameChain &&
    Text.isIdentifier c.className && c.operations.all Operation.isReadable

theorem hasReadableNames_withoutTexts (c : Contract) :
    c.withoutTexts.hasReadableNames = c.hasReadableNames := by
  have hoperations : c.withoutTexts.operations.all Operation.isReadable =
      c.operations.all Operation.isReadable := by
    show (c.operations.map Operation.withoutTexts).all Operation.isReadable = _
    rw [List.all_map]
    exact congrArg c.operations.all (funext Operation.isReadable_withoutTexts)
  unfold hasReadableNames
  rw [hoperations, ClientSource.imports_withoutTexts]
  rfl

theorem plans_withoutTexts (c : Contract) :
    c.withoutTexts.plans = c.plans.map (·.map CallPlan.withoutTexts) := by
  show (c.operations.map Operation.withoutTexts).mapM Operation.plan =
    (c.operations.mapM Operation.plan).map _
  induction c.operations with
  | nil => rfl
  | cons o os ih =>
    rw [List.map_cons, List.mapM_cons, List.mapM_cons, Operation.plan_withoutTexts, ih]
    cases o.plan with
    | error e => rfl
    | ok plan => cases os.mapM Operation.plan <;> rfl

/-- Every docstring of a contract is one literal, and none of them holds a NUL. -/
def SaysAll (names : CharacterNames) (c : Contract) (options : SourceOptions) : Prop :=
  ∀ t ∈ ClientSource.docTexts options c, (∃ said, Docstring.Says names t said) ∧ '\x00' ∉ t.toList

theorem SaysAll.withoutTexts (h : c.SaysAll names options) : c.withoutTexts.SaysAll names options := by
  have hmodule := h _ List.mem_cons_self
  have hclass : (∃ said, Docstring.Says names (ClientSource.classDoc c.withoutTexts) said) ∧
      '\x00' ∉ (ClientSource.classDoc c.withoutTexts).toList := by
    have hdoc : ClientSource.classDoc c.withoutTexts = "HTTP client for the '' service." := by
      show "HTTP client for the " ++ Quoted.text "" ++ " service." = _
      decide +kernel
    refine ⟨(ClientSource.exists_says_classDoc_iff _).mpr ?_, ?_⟩
    · show ¬ Docstring.mark <:+: "".toList
      decide
    · rw [hdoc]
      decide +kernel
  have hmethod : (∃ said, Docstring.Says names ("" ++ " " ++ "") said) ∧ '\x00' ∉ ("" ++ " " ++ "").toList :=
    ⟨Docstring.exists_says_of_plain (by decide +kernel), by decide +kernel⟩
  intro t ht
  rcases List.mem_cons.mp ht with rfl | ht
  · exact hmodule
  · rcases List.mem_cons.mp ht with rfl | ht
    · exact hclass
    · obtain ⟨o, ho, rfl⟩ := List.mem_map.mp ht
      obtain ⟨o, -, rfl⟩ := List.mem_map.mp ho
      exact hmethod

theorem isReadable_eq (h : c.SaysAll names options) (source : String) :
    ClientSource.isReadable names options c source =
      (!source.toList.contains '\x00' && c.hasReadableNames) := by
  have hdocs : (ClientSource.docTexts options c).all
      (fun t => (Docstring.read? names (ClientSource.docstring t)).isSome) = true := by
    rw [List.all_eq_true]
    intro t ht
    obtain ⟨⟨said, hsaid⟩, -⟩ := h t ht
    rw [Docstring.read?_docstring hsaid]
    rfl
  rw [ClientSource.isReadable, hdocs, Bool.and_true, hasReadableNames, Bool.and_assoc, Bool.and_assoc,
    Bool.and_assoc]

theorem contains_nul_withoutTexts (h : c.SaysAll names options) (hplans : c.plans = .ok plans) :
    (ClientSource.writeAll (ClientSource.pieces options c.withoutTexts
        (plans.map CallPlan.withoutTexts))).toList.contains '\x00' =
      (ClientSource.writeAll (ClientSource.pieces options c plans)).toList.contains '\x00' := by
  have hplans' : c.withoutTexts.plans = .ok (plans.map CallPlan.withoutTexts) := by
    rw [plans_withoutTexts, hplans]
    rfl
  rw [Bool.eq_iff_iff, List.contains_iff_mem, List.contains_iff_mem, ClientSource.nul_mem_writeAll,
    ClientSource.nul_mem_writeAll, ClientSource.outline_pieces]
  · rw [ClientSource.docs_pieces options hplans]
    exact fun t ht => (h t ht).2
  · rw [ClientSource.docs_pieces options hplans']
    exact fun t ht => (h.withoutTexts t ht).2

end Contract

/-! ### Accepted contracts -/

namespace ClientSource
variable {options : SourceOptions} {c : Contract} {plans : List CallPlan} {ps : List Piece}
  {names : CharacterNames}

/-- The texts among pieces are literals of their own: each literal ends where it was written to end and
reads as its text, and so does each docstring that says something, and no other. -/
def KeepsTexts (names : CharacterNames) (ps : List Piece) : Prop :=
  (∀ front t rest, ps = front ++ .literal t :: rest →
    Docstring.literal? names (writeAll (.literal t :: rest)).toList = some (t.toList, (writeAll rest).toList)) ∧
  ∀ front t rest said, ps = front ++ .doc t :: rest →
    (Docstring.literal? names (writeAll (.doc t :: rest)).toList = some (said, (writeAll rest).toList) ↔
      Docstring.Says names t said)

theorem spaced_pieces (options : SourceOptions) (c : Contract) (plans : List CallPlan) :
    Spaced (pieces options c plans) :=
  spaced_sourcePieces options c (planned c plans)

theorem keepsTexts_pieces (options : SourceOptions) (c : Contract) (plans : List CallPlan) :
    KeepsTexts names (pieces options c plans) := by
  refine ⟨fun front t rest h => ?_, fun front t rest said _ => literal?_writeAll_doc⟩
  have hs : Spaced (front ++ .literal t :: rest) := h ▸ spaced_pieces options c plans
  exact literal?_writeAll hs.of_append.1

/-- A source without quotes in its code is read as its pieces and in no other way. -/
theorem reads_iff (hs : Spaced ps) (hcode : ∀ s, .code s ∈ ps → ∀ x ∈ s.toList, isCode x = true)
    (hdocs : ∀ t ∈ docs ps, ∃ said, Docstring.Says names t said) {ts : List Token} :
    Reads names (writeAll ps).toList ts ↔ ts = ps.flatMap (Piece.tokens names) := by
  have hreads := reads_pieces hs hcode hdocs
  exact ⟨fun h => h.unique hreads, fun h => h ▸ hreads⟩

end ClientSource

theorem Contract.exists_plans {candidate : Candidate} {c : Contract}
    (hc : Contract.ofCandidate candidate = .ok c) : ∃ plans, c.plans = .ok plans := by
  have hplan : ∀ o ∈ c.operations, ∃ plan, o.plan = .ok plan := by
    intro o ho
    obtain ⟨m, -, hm⟩ := Contract.exists_of_mem_operations hc ho
    obtain ⟨e, -, -, rfl⟩ := Signature.ofSignature_eq_ok hm
    obtain ⟨plan, hplan, -⟩ := Signature.exists_plan m e
    exact ⟨plan, hplan⟩
  cases hplans : c.plans with
  | ok plans => exact ⟨plans, rfl⟩
  | error e =>
    obtain ⟨before, o, after, hoperations, -, ho⟩ := mapM_eq_error_iff.mp hplans
    obtain ⟨plan, hplan⟩ := hplan o (by simp [hoperations])
    rw [ho] at hplan
    cases hplan

section
open ClientSource

/-- The source of an accepted contract is made of code, literals and docstrings. Its literals are read
back as their texts; its docstrings are those of the module, the class and the methods, each one literal
exactly if it says something, which is a matter of the service's name, of the path of the method, and of
the root namespace. The code is that of the source of the contract without its texts. So, where every
docstring says something, the source can be read if that one can, and a reader finds the pieces that it
was made of. All of this holds whatever the names are that characters have. -/
theorem texts_stay_inside_literals {candidate : Candidate} {c : Contract}
    (hc : Contract.ofCandidate candidate = .ok c) (options : SourceOptions) (names : CharacterNames) :
    ∃ plans plain, c.plans = .ok plans ∧ c.withoutTexts.plans = .ok plain ∧
      ∃ ps ps' : List Piece, emit options c plans = .ok (writeAll ps) ∧
        emit options c.withoutTexts plain = .ok (writeAll ps') ∧
        outline ps = outline ps' ∧ docs ps = docTexts options c ∧ KeepsTexts names ps ∧
        ((∃ said, Docstring.Says names (classDoc c) said) ↔ ¬ Docstring.mark <:+: c.serviceName.toList) ∧
        (∀ o ∈ c.operations, '"' ∉ o.verb.toList ∧ '\\' ∉ o.verb.toList →
          ((∃ said, Docstring.Says names (o.verb ++ " " ++ o.path) said) ↔
            ∃ said, Docstring.Says names o.path said)) ∧
        ('"' ∉ c.fullName.toList ∧ '\\' ∉ c.fullName.toList →
          ((∃ said, Docstring.Says names (moduleDoc options c) said) ↔
            ∃ said, Docstring.Says names (options.rootNamespace ++ ". DO NOT EDIT.\n") said)) ∧
        (c.SaysAll names options →
          isReadable names options c (writeAll ps) =
            isReadable names options c.withoutTexts (writeAll ps') ∧
          ((∀ s, .code s ∈ ps → ∀ x ∈ s.toList, isCode x = true) → ∀ ts,
            Reads names (writeAll ps).toList ts ↔ ts = ps.flatMap (Piece.tokens names))) := by
  obtain ⟨plans, hplans⟩ := Contract.exists_plans hc
  have hplain : c.withoutTexts.plans = .ok (plans.map CallPlan.withoutTexts) := by
    rw [Contract.plans_withoutTexts, hplans]
    rfl
  refine ⟨plans, _, hplans, hplain, pieces options c plans, pieces options c.withoutTexts _,
    emit_eq options hplans, emit_eq options hplain, (outline_pieces options c plans).symm,
    docs_pieces options hplans, keepsTexts_pieces options c plans, exists_says_classDoc_iff c,
    fun o _ => exists_says_methodDoc_iff, exists_says_moduleDoc_iff, fun h => ⟨?_, fun hcode ts => ?_⟩⟩
  · rw [Contract.isReadable_eq h, Contract.isReadable_eq h.withoutTexts,
      Contract.contains_nul_withoutTexts h hplans, Contract.hasReadableNames_withoutTexts]
  · refine reads_iff (spaced_pieces options c plans) hcode fun t ht => ?_
    rw [docs_pieces options hplans] at ht
    exact (h t ht).1

theorem saysAll_documentContract : documentContract.SaysAll names {} := by
  have hplain : ∀ t ∈ docTexts {} documentContract,
      ('"' ∉ t.toList ∧ '\\' ∉ t.toList) ∧ '\x00' ∉ t.toList := by decide +kernel
  exact fun t ht => ⟨Docstring.exists_says_of_plain (hplain t ht).1, (hplain t ht).2⟩

/-- The texts of a contract without quotes keep to their literals. -/
theorem texts_stay_inside_literals_documents :
    Contract.ofCandidate documents = .ok documentContract ∧ documentContract.SaysAll .none {} ∧
      ∃ plans plain ps ps', documentContract.plans = .ok plans ∧
        emit {} documentContract plans = .ok (writeAll ps) ∧
        emit {} documentContract.withoutTexts plain = .ok (writeAll ps') ∧ KeepsTexts .none ps ∧
        outline ps = outline ps' ∧
        isReadable .none {} documentContract (writeAll ps) =
          isReadable .none {} documentContract.withoutTexts (writeAll ps') := by
  obtain ⟨plans, plain, hplans, -, ps, ps', hps, hps', houtline, -, hkeeps, -, -, -, hsaid⟩ :=
    texts_stay_inside_literals ofCandidate_documents {} .none
  exact ⟨ofCandidate_documents, saysAll_documentContract, plans, plain, ps, ps', hplans, hps, hps',
    hkeeps, houtline, (hsaid saysAll_documentContract).1⟩

/-- A contract with a path that ends in a quote. -/
def quotedPath : Candidate :=
  { documents with
    methods := [{ name := "ping", returns := .none, endpoint := some ⟨"GET", "/x\""⟩ }] }

def quotedContract : Contract := ((Contract.ofCandidate quotedPath).toOption).getD default

/-- The quote ends the docstring of the method early, so the source cannot be read. -/
example : Contract.ofCandidate quotedPath = .ok quotedContract ∧
    ∃ plans source, quotedContract.plans = .ok plans ∧ emit {} quotedContract plans = .ok source ∧
      isReadable names {} quotedContract source = false := by
  have hc : Contract.ofCandidate quotedPath = .ok quotedContract := eq_ok_getD (by decide +kernel) _
  obtain ⟨plans, hplans⟩ := Contract.exists_plans hc
  have hdoc : "GET /x\"" ∈ docTexts {} quotedContract := by decide +kernel
  have hread : Docstring.read? names (docstring "GET /x\"") = none := by with_unfolding_all rfl
  refine ⟨hc, plans, _, hplans, emit_eq {} hplans, ?_⟩
  have hdocs : (docTexts {} quotedContract).all
      (fun t => (Docstring.read? names (docstring t)).isSome) = false := by
    rw [List.all_eq_false]
    exact ⟨_, hdoc, by rw [hread]; decide⟩
  rw [isReadable, hdocs, Bool.and_false]
  rfl

end

end HttpContract
