import HttpContract.Client.Registry
import HttpContract.Proofs.Client.Call
import HttpContract.Proofs.Declaration.Methods

/-!
# Loaded classes

What a class that has been loaded was made from: the contract of a candidate that the program has, and
the plans of its operations (`exists_isClientOf`). The names of the operations are distinct, so each
one has a plan of its own.
-/

namespace HttpContract

/-- A class that was made from a candidate of a program. -/
structure ClientClass.IsClientOf (c : ClientClass) (p : Program) (candidate : Candidate) : Prop where
  declared : p.candidate c.subject = .ok candidate
  contract : Contract.ofCandidate candidate = .ok c.contract
  plans : c.contract.plans = .ok c.plans

/-! ### From the declaration to the class -/

namespace Generation
variable {settings : GenerationSettings} {g g' : GeneratedClient}

theorem sourceOf_eq_ok {candidate : Candidate} (h : sourceOf settings candidate = .ok g) :
    Contract.ofCandidate candidate = .ok g.contract ∧ g.contract.plans = .ok g.plans ∧
      ClientSource.emit (options settings) g.contract g.plans = .ok g.source ∧ g.path = none := by
  unfold sourceOf at h
  obtain ⟨contract, hcontract, h⟩ := bind_eq_ok.mp h
  obtain ⟨plans, hplans, h⟩ := bind_eq_ok.mp h
  obtain ⟨source, hsource, h⟩ := bind_eq_ok.mp h
  rw [← Except.ok.inj h]
  exact ⟨hcontract, hplans, hsource, rfl⟩

theorem deliver_eq_ok {label : String} {tree : FileTree} {log : List LogRecord}
    (h : (deliver settings label g tree log).result = .ok g') :
    g'.contract = g.contract ∧ g'.plans = g.plans ∧ g'.source = g.source := by
  simp only [deliver] at h
  split_ifs at h
  · rw [← Except.ok.inj h]
    exact ⟨rfl, rfl, rfl⟩
  · split at h
    · rw [← Except.ok.inj h]
      exact ⟨rfl, rfl, rfl⟩
    · split_ifs at h
      rw [← Except.ok.inj h]
      exact ⟨rfl, rfl, rfl⟩

/-- What is delivered is what the candidate of the subject comes to; an error before that ends the
work with every file as it was. -/
theorem generate_eq (settings : GenerationSettings) (p : Program) (s : Subject) (tree : FileTree) :
    ∃ log, generate settings p s tree = match p.candidateOf s >>= sourceOf settings with
      | .error e => { result := .error e, tree, log }
      | .ok g => deliver settings (p.label s) g tree log := by
  unfold generate
  cases hc : p.candidateOf s with
  | error e => exact ⟨_, rfl⟩
  | ok candidate =>
    have hbind : (.ok candidate >>= sourceOf settings) = sourceOf settings candidate := rfl
    rw [hbind]
    simp only
    cases sourceOf settings candidate with
    | error e => exact ⟨_, rfl⟩
    | ok made => exact ⟨_, rfl⟩

theorem generate_eq_ok {p : Program} {s : Subject} {tree : FileTree}
    (h : (generate settings p s tree).result = .ok g) : ∃ candidate,
    p.candidateOf s = .ok candidate ∧ Contract.ofCandidate candidate = .ok g.contract ∧
      g.contract.plans = .ok g.plans ∧
      ClientSource.emit (options settings) g.contract g.plans = .ok g.source := by
  obtain ⟨log, hlog⟩ := generate_eq settings p s tree
  rw [hlog] at h
  cases hmade : p.candidateOf s >>= sourceOf settings with
  | error e =>
    rw [hmade] at h
    cases h
  | ok made =>
    rw [hmade] at h
    obtain ⟨candidate, hcandidate, hsource⟩ := bind_eq_ok.mp hmade
    obtain ⟨hcontract, hplans, hemit, -⟩ := sourceOf_eq_ok hsource
    obtain ⟨hc, hp, hs⟩ := deliver_eq_ok h
    rw [hc, hp, hs]
    exact ⟨candidate, hcandidate, hcontract, hplans, hemit⟩

end Generation

theorem ClientClass.load_eq_ok {p : Program} {settings : GenerationSettings} {name : ClassName}
    {g : GeneratedClient} {c : ClientClass} (h : load p settings name g = .ok c) :
    c.subject = name ∧ c.contract = g.contract ∧ c.plans = g.plans := by
  simp only [load] at h
  split_ifs at h
  · cases h
  · cases h
  · cases h
  · obtain ⟨-, -, h⟩ := bind_eq_ok.mp h
    rw [← Except.ok.inj h]
    exact ⟨rfl, rfl, rfl⟩

theorem ClientRegistry.exists_isClientOf {f : ClientRegistry} {name : ClassName} {t : Traffic}
    {c : ClientClass} (h : (f.loadClass name t).1 = .ok c) :
    c.subject = name ∧ ∃ candidate, c.IsClientOf f.program candidate := by
  simp only [loadClass] at h
  cases hg : (Generation.generate f.settings f.program (.declared name) f.tree).result with
  | error e => rw [hg] at h; cases h
  | ok g =>
    rw [hg] at h
    simp only at h
    cases hl : ClientClass.load f.program f.settings name g with
    | error b => rw [hl] at h; cases h
    | ok loaded =>
      rw [hl] at h
      rw [← Except.ok.inj h]
      obtain ⟨rfl, hcontract, hplans⟩ := ClientClass.load_eq_ok hl
      obtain ⟨candidate, hcandidate, hc, hp, -⟩ := Generation.generate_eq_ok hg
      exact ⟨rfl, candidate, hcandidate, hc.trans (congrArg Except.ok hcontract.symm), by
        show loaded.contract.plans = .ok loaded.plans
        rw [hcontract, hplans, hp]⟩

/-! ### Operations and their plans -/

theorem Operation.method_plan {o : Operation} {plan : CallPlan} (h : o.plan = .ok plan) :
    plan.method = o.name := by
  unfold Operation.plan at h
  obtain ⟨body, -, h⟩ := bind_eq_ok.mp h
  obtain ⟨returns, -, h⟩ := bind_eq_ok.mp h
  rw [← Except.ok.inj h]

theorem Contract.names_operations {candidate : Candidate} {k : Contract}
    (h : Contract.ofCandidate candidate = .ok k) :
    k.operations.map (·.name) = candidate.methods.map (·.name) := by
  unfold ofCandidate at h
  obtain ⟨service, -, h⟩ := bind_eq_ok.mp h
  obtain ⟨operations, hm, h⟩ := bind_eq_ok.mp h
  rw [← Except.ok.inj h]
  refine map_of_mapM (fun m o ho => ?_) hm
  obtain ⟨e, -, -, rfl⟩ := Signature.ofSignature_eq_ok ho
  rfl

theorem ClientSource.planFor?_name {operations : List Operation} {plans : List CallPlan}
    (hn : (operations.map (·.name)).Nodup) (h : operations.mapM Operation.plan = .ok plans)
    {o : Operation} (ho : o ∈ operations) :
    ∃ plan, planFor? plans o.name = some plan ∧ o.plan = .ok plan := by
  have hnames : plans.map (·.method) = operations.map (·.name) :=
    map_of_mapM (fun _ _ => Operation.method_plan) h
  have hname : o.name ∈ plans.map (·.method) := hnames ▸ List.mem_map_of_mem ho
  obtain ⟨plan, hplan, hmethod⟩ := List.mem_map.mp hname
  obtain ⟨o', ho', hown⟩ := exists_of_mem_mapM h plan hplan
  have hsame : o' = o := List.inj_on_of_nodup_map hn ho' ho
    ((Operation.method_plan hown).symm.trans hmethod)
  have hreverse : (plans.reverse.map (·.method)).Nodup := by
    rw [List.map_reverse, List.nodup_reverse, hnames]
    exact hn
  have hfind := find?_name hreverse (List.mem_reverse.mpr hplan)
  rw [hmethod] at hfind
  exact ⟨plan, hfind, hsame ▸ hown⟩

namespace ClientClass.IsClientOf
variable {c : ClientClass} {p : Program} {candidate : Candidate}

theorem nodup_names (h : c.IsClientOf p candidate) :
    (c.contract.operations.map (·.name)).Nodup := by
  rw [Contract.names_operations h.contract]
  exact Program.nodup_methods_candidate h.declared

theorem operation?_name (h : c.IsClientOf p candidate) {o : Operation}
    (ho : o ∈ c.contract.operations) : c.operation? o.name = some o :=
  find?_name h.nodup_names ho

theorem exists_plan (h : c.IsClientOf p candidate) {o : Operation}
    (ho : o ∈ c.contract.operations) : o.plan = .ok (c.plan o) := by
  obtain ⟨plan, hfind, hown⟩ := ClientSource.planFor?_name h.nodup_names h.plans ho
  rw [ClientClass.plan, hfind, hown, Option.getD_some]

end ClientClass.IsClientOf

end HttpContract
