import HttpContract.Contract.Roles
import HttpContract.Declaration.Extraction
import HttpContract.Proofs.Decision
import HttpContract.Proofs.Entries

/-!
# Methods of declared classes

The methods of a class are what its ancestors publish, merged from the furthest to the nearest
(`Program.methods_eq_merge`). So the methods of a candidate are told apart by their names
(`nodup_methods_candidate`), however often a name is given again in a class or in the classes that it
comes from.
-/

namespace HttpContract

/-! ### What is collected -/

/-- The public entries whose value passes a test. -/
def publicEntries {α β : Type} (pass? : α → Option β) (members : List (String × α)) :
    List (String × β) :=
  members.filterMap fun m => if m.1.startsWith "_" then none else (pass? m.2).map (m.1, ·)

section
variable {α β : Type} {pass? : α → Option β} {members : List (String × α)} {x : String} {b : β}

theorem collect_eq (pass? : α → Option β) (found : List (String × β)) (members : List (String × α)) :
    collect pass? found members =
      (publicEntries pass? members).foldl (fun es e => Entries.insert es e.1 e.2) found := by
  rw [publicEntries, List.foldl_filterMap, collect]
  congr
  funext found m
  by_cases h : m.1.startsWith "_" = true
  · simp only [h, if_true]
    cases pass? m.2 <;> rfl
  · simp only [h]
    cases pass? m.2 <;> rfl

theorem mem_publicEntries : (x, b) ∈ publicEntries pass? members ↔
    x.startsWith "_" = false ∧ ∃ a, (x, a) ∈ members ∧ pass? a = some b := by
  rw [publicEntries, List.mem_filterMap]
  constructor
  · rintro ⟨⟨y, a⟩, hmem, h⟩
    simp only at h
    split_ifs at h with hprivate
    obtain ⟨b', hb, h⟩ := Option.map_eq_some_iff.mp h
    cases h
    exact ⟨by simpa using hprivate, a, hmem, hb⟩
  · rintro ⟨hpublic, a, hmem, hb⟩
    exact ⟨(x, a), hmem, by simp [hpublic, hb]⟩

end

namespace Program
variable {p : Program} {l : Lineage} {a : Ancestor} {x : String}

/-- The methods that an ancestor has of its own. -/
def published (p : Program) (a : Ancestor) : List (String × Function) :=
  publicEntries MemberBody.method? (p.contributed a)

theorem mem_keys_published : x ∈ (p.published a).map (·.1) ↔
    x.startsWith "_" = false ∧ ∃ m f, (x, m) ∈ p.contributed a ∧ m.method? = some f := by
  constructor
  · intro h
    obtain ⟨⟨_, f⟩, hf, rfl⟩ := List.mem_map.mp h
    obtain ⟨hpublic, m, hm, hf⟩ := mem_publicEntries.mp hf
    exact ⟨hpublic, m, f, hm, hf⟩
  · rintro ⟨hpublic, m, f, hm, hf⟩
    exact List.mem_map.mpr ⟨(x, f), mem_publicEntries.mpr ⟨hpublic, m, hm, hf⟩, rfl⟩

/-- The methods of a class are the entries of its ancestors, merged from the furthest to the nearest. -/
theorem methods_eq_merge (p : Program) (l : Lineage) :
    p.methods l = Entries.merge (l.order.reverse.flatMap p.published) := by
  unfold methods Entries.merge
  rw [List.foldl_flatMap]
  congr
  funext found a
  exact collect_eq MemberBody.method? found (p.contributed a)

theorem nodup_keys_methods (p : Program) (l : Lineage) : ((p.methods l).map (·.1)).Nodup := by
  rw [methods_eq_merge]
  exact Entries.nodup_keys_merge _

theorem mem_keys_methods_iff : x ∈ (p.methods l).map (·.1) ↔ x.startsWith "_" = false ∧
    ∃ a ∈ l.order, ∃ m f, (x, m) ∈ p.contributed a ∧ m.method? = some f := by
  rw [methods_eq_merge, Entries.keys_merge, List.mem_eraseDups, List.map_flatMap, List.mem_flatMap]
  simp only [List.mem_reverse, mem_keys_published]
  constructor
  · rintro ⟨a, ha, hpublic, hm⟩
    exact ⟨hpublic, a, ha, hm⟩
  · rintro ⟨hpublic, a, ha, hm⟩
    exact ⟨a, ha, hpublic, hm⟩

end Program

/-! ### Candidates -/

theorem Function.name_signature {f : Function} {meaning : Forward.Evaluation} {contract name : String}
    {m : Signature} (h : f.signature meaning contract name = .ok m) : m.name = name := by
  unfold signature at h
  obtain ⟨f', -, h⟩ := bind_eq_ok.mp h
  obtain ⟨parameters, -, h⟩ := bind_eq_ok.mp h
  obtain ⟨returns, -, h⟩ := bind_eq_ok.mp h
  rw [← Except.ok.inj h]

/-- The operation of a declared function, if it can be described and its marks are acceptable. -/
def Function.operation (f : Function) (meaning : Forward.Evaluation) (contract name : String) :
    Except Failure Operation :=
  f.signature meaning contract name >>= fun m => Operation.ofSignature m contract

theorem Program.nodup_methods_candidate {p : Program} {name : ClassName} {c : Candidate}
    (h : p.candidate name = .ok c) : (c.methods.map (·.name)).Nodup := by
  unfold candidate at h
  split at h
  · next contract hfind =>
    simp only at h
    split_ifs at h
    · obtain ⟨methods, hm, h⟩ := bind_eq_ok.mp h
      rw [← Except.ok.inj h, map_of_mapM (fun m s => Function.name_signature) hm]
      exact p.nodup_keys_methods _
    · rw [← Except.ok.inj h]
      exact List.nodup_nil
  · next kind _ =>
    rw [← Except.ok.inj h]
    cases kind <;> exact List.nodup_nil
  · rw [← Except.ok.inj h]
    exact List.nodup_nil
  · rw [← Except.ok.inj h]
    exact List.nodup_nil

end HttpContract
