import HttpContract.Proofs.Declaration.Methods

/-!
# Overrides

Which function a class has under a name, and the order of its methods. The ancestors that count are the
interfaces outside the framework (`Program.interfaceBody?`). Of those that bind a name to a plain function
in their own body the nearest one wins, while the furthest one decides where the name stands
(`Program.methods_follow_order`).
-/

namespace HttpContract

namespace ContractClass

/-- The plain function that a body binds a name to; the last member of the name counts. -/
def function? (c : ContractClass) (name : String) : Option Function :=
  (Entries.get? c.members.reverse name).bind MemberBody.method?

/-- The names that a body binds to plain functions. A name that is bound again keeps its place. -/
def functionNames (c : ContractClass) : List String :=
  (c.members.map (·.1)).eraseDups.filter fun name => (c.function? name).isSome

end ContractClass

namespace Program

/-- The body of an ancestor, if it is an interface outside the framework. -/
def interfaceBody? (p : Program) : Ancestor → Option ContractClass
  | .declared name =>
    if name.isFramework then none
    else (p.lineage? name).bind fun l => if l.isInterface then p.scope.contract? name else none
  | _ => none

/-- An interface outside the framework binds a name to a plain function in its own body. -/
def Defines (p : Program) (a : Ancestor) (x : String) (f : Function) : Prop :=
  ∃ c, p.interfaceBody? a = some c ∧ c.function? x = some f

/-- The names that an ancestor defines, in the order of its body. -/
def definedNames (p : Program) (a : Ancestor) : List String :=
  ((p.interfaceBody? a).map ContractClass.functionNames).getD []

/-- The public names that some ancestors define, from the furthest ancestor to the nearest. -/
def walk (p : Program) (ancestors : List Ancestor) : List String :=
  (ancestors.reverse.flatMap p.definedNames).filter fun x => !x.startsWith "_"

/-- The nearest of some ancestors that defines a name, defines it as a function. -/
def NearestDefines (p : Program) (ancestors : List Ancestor) (x : String) (f : Function) : Prop :=
  ∃ nearer a further, ancestors = nearer ++ a :: further ∧ p.Defines a x f ∧
    ∀ b ∈ nearer, ∀ g, ¬ p.Defines b x g

end Program

/-! ### Bodies -/

section
variable {α β : Type} {pass? : α → Option β} {members : List (String × α)}

/-- Which names are kept can be told from the names, if their values can. -/
theorem keys_publicEntries (kept : String → Bool)
    (h : ∀ e ∈ members, (pass? e.2).isSome = kept e.1) : (publicEntries pass? members).map (·.1) =
      ((members.map (·.1)).filter kept).filter fun x => !x.startsWith "_" := by
  unfold publicEntries
  induction members with
  | nil => rfl
  | cons e es ih =>
    rw [List.forall_mem_cons] at h
    rw [List.map_cons, List.filter_cons, List.filterMap_cons, ← h.1]
    by_cases hprivate : e.1.startsWith "_" = true
    · simp only [hprivate, if_true, ih h.2]
      split_ifs
      · rw [List.filter_cons_of_neg (by simp only [hprivate]; decide)]
      · rfl
    · cases pass? e.2 with
      | none =>
        simp only [hprivate]
        exact ih h.2
      | some b =>
        simp only [hprivate, Option.isSome_some, if_true, Option.map_some]
        rw [List.filter_cons_of_pos (by simp only [hprivate]; decide), ← ih h.2]
        rfl

end

namespace Program
variable {p : Program} {l : Lineage} {a : Ancestor} {x : String} {f : Function}

theorem contributed_eq (p : Program) (a : Ancestor) : p.contributed a =
    ((p.interfaceBody? a).map fun c => Entries.merge c.members).getD [] := by
  cases a with
  | declared name =>
    simp only [contributed, interfaceBody?]
    by_cases hframework : name.isFramework = true
    · simp only [hframework, Bool.true_or, if_true, Option.map_none, Option.getD_none]
    · rw [Bool.not_eq_true] at hframework
      cases p.lineage? name with
      | none => simp only [hframework, Option.map_none, Option.getD_none, Bool.not_false,
          Bool.or_true, if_true, Option.bind_none, ite_self]
      | some l =>
        cases hinterface : l.isInterface <;>
          simp [hframework, hinterface]
  | _ => rfl

theorem mem_contributed {m : MemberBody} : (x, m) ∈ p.contributed a ↔
    ∃ c, p.interfaceBody? a = some c ∧ Entries.get? c.members.reverse x = some m := by
  rw [contributed_eq]
  cases hc : p.interfaceBody? a with
  | none => simp
  | some c => simp [Entries.mem_merge_iff]

theorem mem_published : (x, f) ∈ p.published a ↔ x.startsWith "_" = false ∧ p.Defines a x f := by
  rw [published, mem_publicEntries]
  refine and_congr_right fun _ => ⟨?_, ?_⟩
  · rintro ⟨m, hm, hf⟩
    obtain ⟨c, hc, hm⟩ := mem_contributed.mp hm
    exact ⟨c, hc, by rw [ContractClass.function?, hm, Option.bind_some, hf]⟩
  · rintro ⟨c, hc, hf⟩
    obtain ⟨m, hm, hf⟩ := Option.bind_eq_some_iff.mp hf
    exact ⟨m, mem_contributed.mpr ⟨c, hc, hm⟩, hf⟩

theorem keys_published (p : Program) (a : Ancestor) : (p.published a).map (·.1) =
    (p.definedNames a).filter fun x => !x.startsWith "_" := by
  unfold published definedNames
  rw [contributed_eq]
  cases hc : p.interfaceBody? a with
  | none => rfl
  | some c =>
    simp only [Option.map_some, Option.getD_some]
    rw [keys_publicEntries fun x => (c.function? x).isSome, Entries.keys_merge,
      ContractClass.functionNames]
    rintro ⟨x, m⟩ hm
    rw [ContractClass.function?, Entries.mem_merge_iff.mp hm, Option.bind_some]

theorem nodup_definedNames (p : Program) (a : Ancestor) : (p.definedNames a).Nodup := by
  unfold definedNames
  cases p.interfaceBody? a with
  | none => exact List.nodup_nil
  | some c =>
    have hn : ((c.members.map (·.1)).eraseDups).Nodup :=
      Entries.keys_merge c.members ▸ Entries.nodup_keys_merge c.members
    exact hn.filter _

theorem keys_methods (p : Program) (l : Lineage) :
    (p.methods l).map (·.1) = (p.walk l.order).eraseDups := by
  rw [methods_eq_merge, Entries.keys_merge, List.map_flatMap, walk, List.filter_flatMap]
  simp only [keys_published]

theorem mem_definedNames : x ∈ p.definedNames a ↔ ∃ f, p.Defines a x f := by
  unfold definedNames Defines
  cases p.interfaceBody? a with
  | none => simp
  | some c =>
    simp only [Option.map_some, Option.getD_some, Option.some.injEq, exists_eq_left',
      ContractClass.functionNames, List.mem_filter, List.mem_eraseDups, Option.isSome_iff_exists]
    refine and_iff_right_of_imp ?_
    rintro ⟨f, hf⟩
    obtain ⟨m, hm, -⟩ := Option.bind_eq_some_iff.mp hf
    exact List.mem_map_of_mem (List.mem_reverse.mp (Entries.mem_of_get? hm))

theorem mem_walk {ancestors : List Ancestor} : x ∈ p.walk ancestors ↔
    x.startsWith "_" = false ∧ ∃ a ∈ ancestors, ∃ f, p.Defines a x f := by
  rw [walk, List.mem_filter, and_comm, Bool.not_eq_true', List.mem_flatMap]
  simp only [List.mem_reverse, mem_definedNames]

theorem get?_published : Entries.get? (p.published a).reverse x = some f ↔
    x.startsWith "_" = false ∧ p.Defines a x f := by
  have hn : ((p.published a).reverse.map (·.1)).Nodup := by
    rw [List.map_reverse, List.nodup_reverse, keys_published]
    exact (p.nodup_definedNames a).filter _
  rw [← Entries.mem_iff_get? hn, List.mem_reverse, mem_published]

theorem mem_methods : (x, f) ∈ p.methods l ↔
    x.startsWith "_" = false ∧ p.NearestDefines l.order x f := by
  rw [methods_eq_merge, Entries.mem_merge_iff, List.reverse_flatMap, List.reverse_reverse,
    Entries.get?_flatMap, List.findSome?_eq_some_iff]
  constructor
  · rintro ⟨nearer, a, further, horder, ha, hnearer⟩
    obtain ⟨hpublic, hf⟩ := get?_published.mp ha
    refine ⟨hpublic, nearer, a, further, horder, hf, fun b hb g hg => ?_⟩
    have hsome := get?_published.mpr ⟨hpublic, hg⟩
    rw [show Entries.get? (p.published b).reverse x = none from hnearer b hb] at hsome
    cases hsome
  · rintro ⟨hpublic, nearer, a, further, horder, hf, hnearer⟩
    refine ⟨nearer, a, further, horder, get?_published.mpr ⟨hpublic, hf⟩, fun b hb => ?_⟩
    exact Option.eq_none_iff_forall_ne_some.mpr fun g hg => hnearer b hb g (get?_published.mp hg).2

/-- Each name is a method once, if it is public and an interface of the search order defines it. The
method is the function of the nearest definition, and it stands where the furthest definition comes
in the walk over the bodies. So a class adds its new names behind those that it inherits, which stay
where they are. -/
theorem methods_follow_order (p : Program) (l : Lineage) :
    ((p.methods l).map (·.1)).Nodup ∧
    (∀ x, x ∈ (p.methods l).map (·.1) ↔
      x.startsWith "_" = false ∧ ∃ a ∈ l.order, ∃ f, p.Defines a x f) ∧
    (∀ x f, (x, f) ∈ p.methods l ↔ x.startsWith "_" = false ∧ p.NearestDefines l.order x f) ∧
    (p.methods l).map (·.1) = (p.walk l.order).eraseDups ∧
    ∀ own ancestors, l.order = own :: ancestors →
      let inherited := (p.methods { l with order := ancestors }).map (·.1)
      (p.methods l).map (·.1) = inherited ++
        ((p.definedNames own).filter fun x => !x.startsWith "_").filter (!inherited.contains ·) := by
  refine ⟨p.nodup_keys_methods l, fun x => ?_, fun x f => mem_methods, p.keys_methods l, ?_⟩
  · rw [keys_methods, List.mem_eraseDups, mem_walk]
  · intro own ancestors horder inherited
    have hwalk : p.walk l.order =
        p.walk ancestors ++ (p.definedNames own).filter fun x => !x.startsWith "_" := by
      rw [horder, walk, List.reverse_cons, List.flatMap_append, List.filter_append,
        List.flatMap_singleton, walk]
    have hown : ((p.definedNames own).filter fun x => !x.startsWith "_").Nodup :=
      (p.nodup_definedNames own).filter _
    have hinherited : inherited = (p.walk ancestors).eraseDups := p.keys_methods _
    rw [keys_methods, hwalk, List.eraseDups_append, hinherited, List.removeAll,
      eraseDups_of_nodup (hown.filter _)]
    simp only [List.elem_eq_contains, List.contains_eq_mem, List.mem_eraseDups]

/-- A method on a path. -/
def pathMember (name path : String) : String × MemberBody :=
  (name, .method { endpoint := some ⟨"GET", path⟩ } false)

/-- An archive lists its documents in its own way, and what it has under the name `get` is no function. -/
def archiveScope : Scope :=
  [{ name := ⟨"app", "Shelf"⟩
     body := .contract {
       kind := .protocol, members := [pathMember "get" "/shelf", pathMember "list" "/shelf"] } },
    { name := ⟨"app", "Archive"⟩
      body := .contract {
        kind := .protocol, bases := [(⟨"app", "Shelf"⟩, [])]
        members := [pathMember "add" "/archive", ("get", .attribute .null),
          pathMember "list" "/archive"] } }]

example : ((archiveScope.declare.toOption.bind fun known =>
    (Lineage.find? known ⟨"app", "Archive"⟩).map fun l =>
      (({ scope := archiveScope, lineages := known } : Program).methods l).map fun m =>
        (m.1, m.2.endpoint.map (·.path)))) =
    some [("get", some "/shelf"), ("list", some "/archive"), ("add", some "/archive")] := by
  decide +kernel

end Program

end HttpContract
