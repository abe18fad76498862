import HttpContract.Proofs.Client.Annotations
import HttpContract.Proofs.Declaration.RenderedTypes

/-!
# References in types

The text that a type is rendered as is made of dotted names, the literals of values, and brackets and
commas (`ClientSource.typeParts`). Its dotted names are those that the type looks up, in order
(`references_typeParts`), and where they are names and the values literals, a reader of the text finds just
them (`TypeReference.IsLegible.read?_render`).
-/

namespace HttpContract

/-! ### Parts of lines -/

namespace ClientSource

/-- A part of a line of the client class. -/
inductive Part
  /-- Keywords and punctuation. -/
  | mark (text : String)
  /-- The indentation. -/
  | blank (indent : String)
  /-- A name that the class gives or that a method has as an argument or a local. -/
  | name (n : String)
  /-- The source of a value. -/
  | value (source : String)
  /-- A docstring. -/
  | doc (text : String)
  /-- A type that needs no import. -/
  | bare (name : String)
  /-- Something in a module. -/
  | reference (module name : String)
  /-- An attribute of something that a method has a name for. -/
  | field (object name : String)
deriving DecidableEq

namespace Part

/-- A part as it stands in the source. -/
def write : Part → String
  | mark s | blank s | name s | value s | bare s => s
  | doc text => docstring text
  | reference module n => module ++ "." ++ n
  | field object n => object ++ "." ++ n

@[simp] theorem write_mark (s : String) : (mark s).write = s := rfl

@[simp] theorem write_blank (s : String) : (blank s).write = s := rfl

@[simp] theorem write_name (n : String) : (name n).write = n := rfl

@[simp] theorem write_value (s : String) : (value s).write = s := rfl

@[simp] theorem write_doc (t : String) : (doc t).write = docstring t := rfl

@[simp] theorem write_reference (module n : String) :
    (reference module n).write = module ++ "." ++ n := rfl

@[simp] theorem write_field (object n : String) : (field object n).write = object ++ "." ++ n := rfl

/-- The dotted name that leads to a type, or to something else outside the class. -/
def dotted? : Part → Option String
  | bare n => some n
  | reference module n => some (module ++ "." ++ n)
  | _ => none

/-- The part that a reference is rendered as, without its arguments. -/
def ofReference (r : TypeReference) : Part :=
  if r.module = builtinModule then bare r.qualname else reference r.module r.qualname

@[simp] theorem write_ofReference (r : TypeReference) : (ofReference r).write = r.fullName := by
  unfold ofReference TypeReference.fullName
  split_ifs <;> rfl

theorem dotted?_ofReference (r : TypeReference) : (ofReference r).dotted? = some r.fullName := by
  unfold ofReference TypeReference.fullName
  split_ifs <;> rfl

end Part

/-- The text of parts. -/
def writeParts (ps : List Part) : String := (ps.map Part.write).foldr (· ++ ·) ""

/-- The dotted names among parts. -/
def references (ps : List Part) : List String := ps.filterMap Part.dotted?

section
variable {p : Part} {ps qs : List Part}

@[simp] theorem writeParts_nil : writeParts [] = "" := rfl

@[simp] theorem writeParts_cons : writeParts (p :: ps) = p.write ++ writeParts ps := rfl

@[simp] theorem writeParts_append : writeParts (ps ++ qs) = writeParts ps ++ writeParts qs := by
  induction ps with
  | nil => rw [List.nil_append, writeParts_nil, String.empty_append]
  | cons p ps ih => rw [List.cons_append, writeParts_cons, writeParts_cons, ih, String.append_assoc]

theorem writeParts_intercalate (s : String) (pss : List (List Part)) :
    writeParts ([Part.mark s].intercalate pss) = String.intercalate s (pss.map writeParts) :=
  write_intercalate writeParts_nil (fun _ _ => writeParts_append) String.append_empty pss

theorem references_intercalate (s : String) (pss : List (List Part)) :
    references ([Part.mark s].intercalate pss) = pss.flatMap references :=
  filterMap_intercalate rfl pss

end

/-! ### Parts of types -/

mutual

/-- A rendered type. -/
def typeParts : TypeReference → List Part
  | ⟨module, qualname, args, awaitable, rawForm, literal⟩ =>
    match literal with
    | some source => [.value source]
    | none =>
      let base := Part.ofReference ⟨module, qualname, [], awaitable, rawForm, none⟩
      if args.isEmpty then [base]
      else base :: .mark "[" :: ([.mark ", "].intercalate (typePartsAll args) ++ [.mark "]"])

def typePartsAll : List TypeReference → List (List Part)
  | [] => []
  | t :: ts => typeParts t :: typePartsAll ts

end

mutual

theorem write_typeParts : (t : TypeReference) → writeParts (typeParts t) = t.render
  | ⟨module, qualname, args, awaitable, rawForm, literal⟩ => by
    unfold typeParts TypeReference.render
    cases literal with
    | some source => exact String.append_empty
    | none =>
      simp only
      split_ifs
      · exact String.append_empty.trans (Part.write_ofReference _)
      · simp [writeParts_intercalate, write_typePartsAll args, String.append_assoc]

theorem write_typePartsAll :
    (ts : List TypeReference) → (typePartsAll ts).map writeParts = TypeReference.renderAll ts
  | [] => by rw [typePartsAll, TypeReference.renderAll, List.map_nil]
  | t :: ts => by
    rw [typePartsAll, TypeReference.renderAll, List.map_cons, write_typeParts t, write_typePartsAll ts]

end

mutual

/-- The dotted names in a rendered type are those of the references that it looks up. -/
theorem references_typeParts :
    (t : TypeReference) → references (typeParts t) = t.lookedUp.map TypeReference.fullName
  | ⟨module, qualname, args, awaitable, rawForm, literal⟩ => by
    unfold typeParts TypeReference.lookedUp
    cases literal with
    | some source => rfl
    | none =>
      have hname : Part.dotted? (.ofReference ⟨module, qualname, [], awaitable, rawForm, none⟩) =
          some (TypeReference.fullName ⟨module, qualname, args, awaitable, rawForm, none⟩) :=
        Part.dotted?_ofReference _
      have hargs := references_typePartsAll args
      simp only
      rw [List.map_cons, ← hargs]
      split_ifs with hempty
      · obtain rfl := List.isEmpty_iff.mp hempty
        exact List.filterMap_cons_some hname
      · refine (List.filterMap_cons_some hname).trans (congrArg _ ?_)
        rw [List.filterMap_cons_none rfl, List.filterMap_append]
        exact (congrArg (· ++ _) (references_intercalate ", " _)).trans (List.append_nil _)

theorem references_typePartsAll : (ts : List TypeReference) →
    (typePartsAll ts).flatMap references = (TypeReference.lookedUpAll ts).map TypeReference.fullName
  | [] => rfl
  | t :: ts => by
    rw [typePartsAll, TypeReference.lookedUpAll, List.flatMap_cons, references_typeParts t,
      references_typePartsAll ts, List.map_append]

end

mutual

theorem exists_of_mem_typeParts {p : Part} : (t : TypeReference) → p ∈ typeParts t →
    p ∈ [Part.mark "[", .mark ", ", .mark "]"] ∨ (∃ source, p = .value source) ∨
      ∃ r ∈ t.lookedUp, p = .ofReference r
  | ⟨module, qualname, args, awaitable, rawForm, literal⟩, h => by
    unfold typeParts at h
    unfold TypeReference.lookedUp
    cases literal with
    | some source => exact .inr (.inl ⟨source, List.mem_singleton.mp h⟩)
    | none =>
      have hbase : p = .ofReference ⟨module, qualname, [], awaitable, rawForm, none⟩ →
          ∃ r ∈ ⟨module, qualname, args, awaitable, rawForm, none⟩ :: TypeReference.lookedUpAll args,
            p = .ofReference r :=
        fun hp => ⟨_, List.mem_cons_self, hp⟩
      simp only at h ⊢
      split_ifs at h
      · exact .inr (.inr (hbase (List.mem_singleton.mp h)))
      · rcases List.mem_cons.mp h with hp | h
        · exact .inr (.inr (hbase hp))
        rcases List.mem_cons.mp h with rfl | h
        · exact .inl (by simp)
        rcases List.mem_append.mp h with h | h
        · rcases eq_or_exists_of_mem_intercalate h with rfl | ⟨ps, hps, hp⟩
          · exact .inl (by simp)
          · rcases exists_of_mem_typePartsAll args hps hp with hmark | hvalue | ⟨r, hr, hp⟩
            · exact .inl hmark
            · exact .inr (.inl hvalue)
            · exact .inr (.inr ⟨r, List.mem_cons_of_mem _ hr, hp⟩)
        · rw [List.mem_singleton.mp h]
          exact .inl (by simp)

theorem exists_of_mem_typePartsAll {p : Part} {ps : List Part} : (ts : List TypeReference) →
    ps ∈ typePartsAll ts → p ∈ ps →
      p ∈ [Part.mark "[", .mark ", ", .mark "]"] ∨ (∃ source, p = .value source) ∨
        ∃ r ∈ TypeReference.lookedUpAll ts, p = .ofReference r
  | [], h, _ => nomatch h
  | t :: ts, h, hp => by
    unfold typePartsAll at h
    unfold TypeReference.lookedUpAll
    rcases List.mem_cons.mp h with rfl | h
    · rcases exists_of_mem_typeParts t hp with hmark | hvalue | ⟨r, hr, hp⟩
      · exact .inl hmark
      · exact .inr (.inl hvalue)
      · exact .inr (.inr ⟨r, List.mem_append_left _ hr, hp⟩)
    · rcases exists_of_mem_typePartsAll ts h hp with hmark | hvalue | ⟨r, hr, hp⟩
      · exact .inl hmark
      · exact .inr (.inl hvalue)
      · exact .inr (.inr ⟨r, List.mem_append_right _ hr, hp⟩)

end

end ClientSource

/-! ### Names and modules -/

namespace TypeReference

theorem fullName_eq_none_iff (t : TypeReference) : t.fullName = "None" ↔ t.isNone = true := by
  unfold fullName isNone
  split_ifs with h
  · rw [h, beq_self_eq_true, Bool.true_and, beq_iff_eq]
  · have hdot : '.' ∈ (t.module ++ "." ++ t.qualname).toList := by simp
    refine iff_of_false (fun hnone => ?_) (by simp [h])
    rw [hnone] at hdot
    exact absurd hdot (by decide)

/-- The names that look-ups start with are the leading ones of all dotted names but `None`. -/
theorem mem_heads_iff {t : TypeReference} {n : String} : n ∈ t.heads ↔
    ∃ d ∈ ClientSource.references (ClientSource.typeParts t), d ≠ "None" ∧ leading d = n := by
  rw [ClientSource.references_typeParts, heads, List.mem_map]
  constructor
  · rintro ⟨r, hr, rfl⟩
    obtain ⟨hr, hnone⟩ := List.mem_filter.mp hr
    refine ⟨r.fullName, List.mem_map_of_mem hr, fun h => ?_, rfl⟩
    rw [(fullName_eq_none_iff r).mp h] at hnone
    cases hnone
  · rintro ⟨d, hd, hnone, rfl⟩
    obtain ⟨r, hr, rfl⟩ := List.mem_map.mp hd
    refine ⟨r, List.mem_filter.mpr ⟨hr, ?_⟩, rfl⟩
    rw [Bool.not_eq_true', ← Bool.not_eq_true, ← fullName_eq_none_iff]
    exact hnone

mutual

/-- Whether every reference but those that are values has a module. -/
def hasModules : TypeReference → Bool
  | ⟨module, _, args, _, _, literal⟩ => (literal.isSome || module != "") && haveModules args

def haveModules : List TypeReference → Bool
  | [] => true
  | t :: ts => hasModules t && haveModules ts

end

mutual

theorem module_mem_modules {r : TypeReference} (hbuiltin : r.module ≠ builtinModule) :
    (t : TypeReference) → t.hasModules = true → r ∈ t.lookedUp → r.module ∈ t.modules
  | ⟨module, qualname, args, awaitable, rawForm, literal⟩, h, hr => by
    unfold hasModules at h
    obtain ⟨hmodule, hargs⟩ := Bool.and_eq_true_iff.mp h
    unfold lookedUp at hr
    unfold modules
    cases literal with
    | some source => cases hr
    | none =>
      rcases List.mem_cons.mp hr with rfl | hr
      · refine List.mem_append_left _ ?_
        have hown : (module != builtinModule) = true := bne_iff_ne.mpr hbuiltin
        have hnamed : (module != "") = true := by simpa using hmodule
        rw [hnamed, hown]
        exact List.mem_singleton_self _
      · exact List.mem_append_right _ (module_mem_modulesOfAll hbuiltin args hargs hr)

theorem module_mem_modulesOfAll {r : TypeReference} (hbuiltin : r.module ≠ builtinModule) :
    (ts : List TypeReference) → haveModules ts = true → r ∈ lookedUpAll ts → r.module ∈ modulesOfAll ts
  | [], _, hr => nomatch hr
  | t :: ts, h, hr => by
    unfold haveModules at h
    obtain ⟨ht, hts⟩ := Bool.and_eq_true_iff.mp h
    unfold lookedUpAll at hr
    unfold modulesOfAll
    rcases List.mem_append.mp hr with hr | hr
    · exact List.mem_append_left _ (module_mem_modules hbuiltin t ht hr)
    · exact List.mem_append_right _ (module_mem_modulesOfAll hbuiltin ts hts hr)

end

mutual

theorem builtin_not_mem_modules : (t : TypeReference) → builtinModule ∉ t.modules
  | ⟨module, qualname, args, awaitable, rawForm, literal⟩ => by
    unfold modules
    rw [List.mem_append, not_or]
    refine ⟨fun h => ?_, builtin_not_mem_modulesOfAll args⟩
    split_ifs at h with hown
    · rw [List.mem_singleton.mp h, bne_self_eq_false, Bool.and_false] at hown
      cases hown
    · cases h

theorem builtin_not_mem_modulesOfAll : (ts : List TypeReference) → builtinModule ∉ modulesOfAll ts
  | [] => List.not_mem_nil
  | t :: ts => by
    unfold modulesOfAll
    rw [List.mem_append, not_or]
    exact ⟨builtin_not_mem_modules t, builtin_not_mem_modulesOfAll ts⟩

end

/-! ### Reading a rendered type -/

mutual

/-- The tree that a reference is rendered as. -/
def tree : TypeReference → TypeTree
  | ⟨module, qualname, args, awaitable, rawForm, literal⟩ =>
    match literal with
    | some source =>
      if source = "..." then .ellipsis
      else ((Literal.read? source).map TypeTree.literal).getD (.name source)
    | .none =>
      let base := fullName ⟨module, qualname, [], awaitable, rawForm, .none⟩
      if args.isEmpty then .name base else .subscript base (trees args)

def trees : List TypeReference → List TypeTree
  | [] => []
  | t :: ts => tree t :: trees ts

end

mutual

/-- Whether all dotted names are made of identifiers, and all values are literals. -/
def IsLegible : TypeReference → Prop
  | ⟨module, qualname, args, awaitable, rawForm, literal⟩ =>
    match literal with
    | some source => source = "..." ∨ ∃ v : Value, v.IsLiteral ∧ v.literal = source
    | .none => isNameChain (fullName ⟨module, qualname, [], awaitable, rawForm, .none⟩) = true ∧
        AreLegible args

def AreLegible : List TypeReference → Prop
  | [] => True
  | t :: ts => IsLegible t ∧ AreLegible ts

end

end TypeReference

namespace TypeTree

mutual

/-- The dotted names in a tree. -/
def references : TypeTree → List String
  | name dotted => [dotted]
  | ellipsis | literal _ => []
  | subscript base args => base :: referencesOfAll args

def referencesOfAll : List TypeTree → List String
  | [] => []
  | t :: ts => references t ++ referencesOfAll ts

end

end TypeTree

namespace TypeReference

mutual

theorem IsLegible.tree_spec : (t : TypeReference) → t.IsLegible → t.tree.IsClean ∧
    t.tree.text = t.render ∧ t.tree.references = t.lookedUp.map fullName
  | ⟨module, qualname, args, awaitable, rawForm, literal⟩, h => by
    unfold IsLegible at h
    unfold tree render lookedUp
    cases literal with
    | some source =>
      dsimp only at h ⊢
      split_ifs with hdots
      · exact ⟨trivial, hdots.symm, rfl⟩
      · obtain ⟨v, hv, rfl⟩ := h.resolve_left hdots
        rw [Literal.read?_literal hv]
        exact ⟨hv, rfl, rfl⟩
    | none =>
      obtain ⟨hname, hargs⟩ := h
      obtain ⟨hclean, htext, hreferences⟩ := AreLegible.trees_spec args hargs
      dsimp only
      split_ifs with hempty
      · obtain rfl := List.isEmpty_iff.mp hempty
        exact ⟨hname, rfl, rfl⟩
      · have hne : ¬ (trees args).isEmpty = true := by
          rw [← isEmpty_texts, htext, isEmpty_renderAll]
          exact hempty
        refine ⟨⟨hname, fun h => hne (List.isEmpty_iff.mpr h), hclean⟩, ?_, ?_⟩
        · rw [TypeTree.text, if_neg hne, htext]
        · rw [TypeTree.references, hreferences]
          rfl

theorem AreLegible.trees_spec : (ts : List TypeReference) → AreLegible ts →
    TypeTree.AreClean (trees ts) ∧ TypeTree.texts (trees ts) = renderAll ts ∧
      TypeTree.referencesOfAll (trees ts) = (lookedUpAll ts).map fullName
  | [], _ => by
    unfold trees
    exact ⟨trivial, rfl, rfl⟩
  | t :: ts, h => by
    unfold AreLegible at h
    obtain ⟨hclean, htext, hreferences⟩ := IsLegible.tree_spec t h.1
    obtain ⟨hcleanAll, htextAll, hreferencesAll⟩ := AreLegible.trees_spec ts h.2
    unfold trees
    refine ⟨⟨hclean, hcleanAll⟩, ?_, ?_⟩
    · rw [TypeTree.texts, htext, htextAll, renderAll]
    · rw [TypeTree.referencesOfAll, hreferences, hreferencesAll, lookedUpAll, List.map_append]

end

/-- A reader of a rendered type finds the dotted names that are its parts. -/
theorem IsLegible.read?_render {t : TypeReference} (h : t.IsLegible) :
    ∃ tree, TypeTree.read? t.render = some tree ∧
      tree.references = ClientSource.references (ClientSource.typeParts t) := by
  obtain ⟨hclean, htext, hreferences⟩ := IsLegible.tree_spec t h
  refine ⟨t.tree, ?_, hreferences.trans (ClientSource.references_typeParts t).symm⟩
  rw [← htext, TypeTree.read?_text_iff]
  exact hclean

end TypeReference

end HttpContract
