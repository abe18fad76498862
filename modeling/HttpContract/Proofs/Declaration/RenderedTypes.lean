import HttpContract.Proofs.Declaration.Parameters
import HttpContract.Proofs.Declaration.TypeTrees

/-!
# Rendered types

A type that is accepted has a tree, without the marks inside it, and its reference is rendered as the text
of that tree, so it reads back as the tree exactly if this is clean
(`TypeExpr.rendered_types_read_back_iff`). Nothing is refused for what its tree is made of: a choice of
values among which are members of enumerations is accepted, and what it is rendered as is no expression.
-/

namespace HttpContract

namespace TypeExpr

mutual

/-- The tree of a type, if its form can be described: the name that it goes by, and its arguments. -/
def tree? : TypeExpr → Option TypeTree
  | nothing => some (.literal .null)
  | named n =>
    if n = "Ellipsis" then some .ellipsis
    else if isSpecial n then none
    else some (.name (lookup n).ref.fullName)
  | declared cls _ _ => some (.name (if cls.module = builtinModule then cls.qualname else cls.full))
  | subscript b args =>
    match tree? b, trees? args with
    | some (.name base), some args => some (.subscript base args)
    | _, _ => none
  | union ms | bars ms => (trees? ms).map (.subscript "typing.Union")
  | literal vs => some (.subscript "typing.Literal" (vs.map .literal))
  | annotated b _ => tree? b
  | callable none r => (tree? r).map fun r => .subscript "collections.abc.Callable" [.ellipsis, r]
  | callable (some _) _ | typeVar _ | newType _ | forward _ | alien _ => none

def trees? : List TypeExpr → Option (List TypeTree)
  | [] => some []
  | a :: as => (tree? a).bind fun t => (trees? as).map (t :: ·)

end

/-- Whether a type goes by a name. -/
def isNamed : TypeExpr → Bool
  | named n => n != "Ellipsis"
  | declared .. => true
  | annotated b _ => isNamed b
  | _ => false

mutual

/-- Whether arguments stand behind names only, as in every type that there is: what takes arguments is a
class. -/
def hasNamedBases : TypeExpr → Bool
  | subscript b args => isNamed b && haveNamedBases args
  | union ms | bars ms => haveNamedBases ms
  | annotated b _ => hasNamedBases b
  | callable none r => hasNamedBases r
  | _ => true

def haveNamedBases : List TypeExpr → Bool
  | [] => true
  | a :: as => hasNamedBases a && haveNamedBases as

end

end TypeExpr

/-! ### Rendered references -/

namespace TypeReference

theorem render_of_literal {r : TypeReference} {source : String} (h : r.literal = some source) :
    r.render = source := by
  cases r
  cases h
  unfold render
  rfl

theorem render_of_name {r : TypeReference} (hliteral : r.literal = Option.none) (hargs : r.args = []) :
    r.render = r.fullName := by
  cases r
  cases hliteral
  cases hargs
  unfold render
  rfl

theorem isEmpty_renderAll (rs : List TypeReference) : (renderAll rs).isEmpty = rs.isEmpty := by
  cases rs with
  | nil => rw [renderAll, List.isEmpty_nil, List.isEmpty_nil]
  | cons r rs => rw [renderAll, List.isEmpty_cons, List.isEmpty_cons]

theorem isEmpty_texts (ts : List TypeTree) : (TypeTree.texts ts).isEmpty = ts.isEmpty := by
  cases ts with
  | nil => rw [TypeTree.texts, List.isEmpty_nil, List.isEmpty_nil]
  | cons t ts => rw [TypeTree.texts, List.isEmpty_cons, List.isEmpty_cons]

theorem render_of_args {r : TypeReference} {ts : List TypeTree} (hliteral : r.literal = Option.none)
    (hargs : renderAll r.args = TypeTree.texts ts) :
    r.render = (TypeTree.subscript r.fullName ts).text := by
  cases r with
  | mk module qualname args awaitable rawForm literal =>
    cases hliteral
    have hempty : args.isEmpty = ts.isEmpty := by
      rw [← isEmpty_renderAll, ← isEmpty_texts, ← hargs]
    unfold render TypeTree.text
    rw [hempty, hargs]
    rfl

end TypeReference

namespace TypeExpr

theorem ref_lookup (n : String) : (lookup n).ref.args = [] ∧ (lookup n).ref.literal = none := by
  unfold lookup
  split <;> exact ⟨rfl, rfl⟩

theorem exists_reference?_of_name {dotted : String} :
    (a : TypeExpr) → a.tree? = some (.name dotted) →
      ∃ r, a.reference? = .ok r ∧ r.args = [] ∧ r.literal = none ∧ r.fullName = dotted
  | named n, h => by
    rw [tree?] at h
    split_ifs at h with hdots hspecial
    · cases h
    · obtain rfl := TypeTree.name.inj (Option.some.inj h)
      rw [reference?, if_neg hdots, if_neg hspecial]
      exact ⟨_, rfl, (ref_lookup n).1, (ref_lookup n).2, rfl⟩
  | declared cls awaitable stream, h => by
    rw [tree?] at h
    obtain rfl := TypeTree.name.inj (Option.some.inj h)
    rw [reference?]
    by_cases hmodule : cls.module = builtinModule
    · rw [if_pos hmodule, if_pos hmodule]
      exact ⟨_, rfl, rfl, rfl, rfl⟩
    · rw [if_neg hmodule, if_neg hmodule]
      exact ⟨_, rfl, rfl, rfl, if_neg hmodule⟩
  | annotated b _, h => by
    rw [tree?] at h
    rw [reference?]
    exact exists_reference?_of_name b h
  | subscript b args, h => by
    rw [tree?] at h
    split at h
    · cases Option.some.inj h
    · cases h
  | union ms, h | bars ms, h => by
    rw [tree?] at h
    obtain ⟨_, -, heq⟩ := Option.map_eq_some_iff.mp h
    cases heq
  | callable none r, h => by
    rw [tree?] at h
    obtain ⟨_, -, heq⟩ := Option.map_eq_some_iff.mp h
    cases heq
  | nothing, h | literal _, h | callable (some _) _, h | typeVar _, h | newType _, h | forward _, h
  | alien _, h => by
    rw [tree?] at h
    cases h

theorem renderAll_literals (vs : List Value) :
    TypeReference.renderAll (vs.map valueArgument) = TypeTree.texts (vs.map .literal) := by
  induction vs with
  | nil => rw [List.map_nil, List.map_nil, TypeReference.renderAll, TypeTree.texts]
  | cons v vs ih =>
    rw [List.map_cons, List.map_cons, TypeReference.renderAll, TypeTree.texts, ih, TypeTree.text,
      TypeReference.render_of_literal (r := valueArgument v) rfl]

mutual

/-- A type with a tree is accepted, and rendered as the tree says. -/
theorem exists_reference?_of_tree? : (a : TypeExpr) → ∀ t, a.tree? = some t →
    ∃ r, a.reference? = .ok r ∧ r.render = t.text
  | nothing, t, h => by
    rw [tree?] at h
    obtain rfl := Option.some.inj h
    rw [reference?]
    exact ⟨_, rfl, rfl⟩
  | named n, t, h => by
    by_cases hdots : n = "Ellipsis"
    · rw [tree?, if_pos hdots] at h
      obtain rfl := Option.some.inj h
      rw [reference?, if_pos hdots]
      exact ⟨_, rfl, TypeReference.render_of_literal rfl⟩
    · have htree := h
      rw [tree?, if_neg hdots] at h
      split_ifs at h
      obtain rfl := Option.some.inj h
      obtain ⟨r, hr, hargs, hliteral, hname⟩ := exists_reference?_of_name (named n) htree
      refine ⟨r, hr, ?_⟩
      rw [TypeReference.render_of_name hliteral hargs, hname, TypeTree.text]
  | declared cls awaitable stream, t, h => by
    have htree := h
    rw [tree?] at h
    obtain rfl := Option.some.inj h
    obtain ⟨r, hr, hargs, hliteral, hname⟩ :=
      exists_reference?_of_name (declared cls awaitable stream) htree
    refine ⟨r, hr, ?_⟩
    rw [TypeReference.render_of_name hliteral hargs, hname, TypeTree.text]
  | subscript b args, t, h => by
    rw [tree?] at h
    split at h
    · next base ts hbase hargs =>
      obtain rfl := Option.some.inj h
      obtain ⟨r, hr, -, hliteral, rfl⟩ := exists_reference?_of_name b hbase
      obtain ⟨rs, hrs, htexts⟩ := exists_references?_of_trees? args ts hargs
      refine ⟨{ r with args := rs }, ?_, TypeReference.render_of_args hliteral htexts⟩
      rw [reference?, hr, hrs]
      rfl
    · cases h
  | union ms, t, h | bars ms, t, h => by
    rw [tree?] at h
    obtain ⟨ts, hts, rfl⟩ := Option.map_eq_some_iff.mp h
    obtain ⟨rs, hrs, htexts⟩ := exists_references?_of_trees? ms ts hts
    rw [reference?, hrs]
    exact ⟨_, rfl, TypeReference.render_of_args rfl htexts⟩
  | literal vs, t, h => by
    rw [tree?] at h
    obtain rfl := Option.some.inj h
    rw [reference?]
    exact ⟨_, rfl, TypeReference.render_of_args rfl (renderAll_literals vs)⟩
  | annotated b marks, t, h => by
    rw [tree?] at h
    rw [reference?]
    exact exists_reference?_of_tree? b t h
  | callable none result, t, h => by
    rw [tree?] at h
    obtain ⟨u, hu, rfl⟩ := Option.map_eq_some_iff.mp h
    obtain ⟨r, hr, htext⟩ := exists_reference?_of_tree? result u hu
    rw [reference?, hr]
    refine ⟨_, rfl, TypeReference.render_of_args rfl ?_⟩
    rw [TypeReference.renderAll, TypeReference.renderAll, TypeReference.renderAll, TypeTree.texts,
      TypeTree.texts, TypeTree.texts, TypeTree.text, htext, TypeReference.render_of_literal rfl]
  | callable (some _) _, t, h | typeVar _, t, h | newType _, t, h | forward _, t, h | alien _, t, h => by
    rw [tree?] at h
    cases h

theorem exists_references?_of_trees? : (as : List TypeExpr) → ∀ ts, trees? as = some ts →
    ∃ rs, references? as = .ok rs ∧ TypeReference.renderAll rs = TypeTree.texts ts
  | [], ts, h => by
    rw [trees?] at h
    obtain rfl := Option.some.inj h
    rw [references?]
    exact ⟨[], rfl, by rw [TypeReference.renderAll, TypeTree.texts]⟩
  | a :: as, ts, h => by
    rw [trees?] at h
    obtain ⟨t, ht, h⟩ := Option.bind_eq_some_iff.mp h
    obtain ⟨us, hus, rfl⟩ := Option.map_eq_some_iff.mp h
    obtain ⟨r, hr, htext⟩ := exists_reference?_of_tree? a t ht
    obtain ⟨rs, hrs, htexts⟩ := exists_references?_of_trees? as us hus
    rw [references?, hr, hrs]
    refine ⟨r :: rs, rfl, ?_⟩
    rw [TypeReference.renderAll, TypeTree.texts, htext, htexts]

end

theorem tree?_of_isNamed : (a : TypeExpr) → a.isNamed = true → ∀ r, a.reference? = .ok r →
    ∃ dotted, a.tree? = some (.name dotted)
  | named n, hnamed, r, h => by
    rw [isNamed, bne_iff_ne] at hnamed
    rw [reference?, if_neg hnamed] at h
    rw [tree?, if_neg hnamed]
    split_ifs at h with hspecial
    rw [if_neg hspecial]
    exact ⟨_, rfl⟩
  | declared cls awaitable stream, _, _, _ => by
    rw [tree?]
    exact ⟨_, rfl⟩
  | annotated b _, hnamed, r, h => by
    rw [isNamed] at hnamed
    rw [reference?] at h
    rw [tree?]
    exact tree?_of_isNamed b hnamed r h
  | nothing, hnamed, _, _ | subscript .., hnamed, _, _ | union _, hnamed, _, _ | bars _, hnamed, _, _
  | literal _, hnamed, _, _ | callable .., hnamed, _, _ | typeVar _, hnamed, _, _
  | newType _, hnamed, _, _ | forward _, hnamed, _, _ | alien _, hnamed, _, _ => by
    unfold isNamed at hnamed
    cases hnamed

mutual

theorem exists_tree? : (a : TypeExpr) → a.hasNamedBases = true → ∀ r, a.reference? = .ok r →
    ∃ t, a.tree? = some t
  | nothing, _, _, _ => by
    rw [tree?]
    exact ⟨_, rfl⟩
  | named n, _, r, h => by
    rw [reference?] at h
    rw [tree?]
    split_ifs at h ⊢
    · exact ⟨_, rfl⟩
    · exact ⟨_, rfl⟩
  | declared cls awaitable stream, _, _, _ => by
    rw [tree?]
    exact ⟨_, rfl⟩
  | subscript b args, hbases, r, h => by
    rw [hasNamedBases, Bool.and_eq_true] at hbases
    rw [reference?] at h
    obtain ⟨base, hbase, h⟩ := bind_eq_ok.mp h
    obtain ⟨rs, hrs, -⟩ := bind_eq_ok.mp h
    obtain ⟨dotted, hdotted⟩ := tree?_of_isNamed b hbases.1 base hbase
    obtain ⟨ts, hts⟩ := exists_trees? args hbases.2 rs hrs
    rw [tree?, hdotted, hts]
    exact ⟨_, rfl⟩
  | union ms, hbases, r, h | bars ms, hbases, r, h => by
    rw [hasNamedBases] at hbases
    rw [reference?] at h
    obtain ⟨rs, hrs, -⟩ := bind_eq_ok.mp h
    obtain ⟨ts, hts⟩ := exists_trees? ms hbases rs hrs
    rw [tree?, hts]
    exact ⟨_, rfl⟩
  | literal vs, _, _, _ => by
    rw [tree?]
    exact ⟨_, rfl⟩
  | annotated b _, hbases, r, h => by
    rw [hasNamedBases] at hbases
    rw [reference?] at h
    rw [tree?]
    exact exists_tree? b hbases r h
  | callable none result, hbases, r, h => by
    rw [hasNamedBases] at hbases
    rw [reference?] at h
    obtain ⟨r', hr', -⟩ := bind_eq_ok.mp h
    obtain ⟨t, ht⟩ := exists_tree? result hbases r' hr'
    rw [tree?, ht]
    exact ⟨_, rfl⟩
  | callable (some _) _, _, r, h | typeVar _, _, r, h | newType _, _, r, h | forward _, _, r, h
  | alien _, _, r, h => by
    rw [reference?] at h
    cases h

theorem exists_trees? : (as : List TypeExpr) → haveNamedBases as = true →
    ∀ rs, references? as = .ok rs → ∃ ts, trees? as = some ts
  | [], _, _, _ => by
    rw [trees?]
    exact ⟨_, rfl⟩
  | a :: as, hbases, rs, h => by
    rw [haveNamedBases, Bool.and_eq_true] at hbases
    rw [references?] at h
    obtain ⟨r, hr, h⟩ := bind_eq_ok.mp h
    obtain ⟨rs', hrs, -⟩ := bind_eq_ok.mp h
    obtain ⟨t, ht⟩ := exists_tree? a hbases.1 r hr
    obtain ⟨ts, hts⟩ := exists_trees? as hbases.2 rs' hrs
    rw [trees?, ht, Option.bind_some, hts]
    exact ⟨_, rfl⟩

end

/-- A type, with arguments behind names only, is accepted if and only if it has a tree, whatever its
names and values are. What it is rendered as reads back as the tree exactly if that is clean. If nothing
but members of enumerations keeps the tree from being clean, it is rendered as no expression at all. -/
theorem rendered_types_read_back_iff (a : TypeExpr) (hbases : a.hasNamedBases = true) :
    ((∃ r, a.reference? = .ok r) ↔ ∃ t, a.tree? = some t) ∧
      ∀ r t, a.reference? = .ok r → a.tree? = some t →
        (TypeTree.read? r.render = some t ↔ t.IsClean) ∧
        (t.IsProper → ¬ t.IsClean → TypeTree.read? r.render = none) := by
  refine ⟨⟨fun ⟨r, hr⟩ => exists_tree? a hbases r hr, fun ⟨t, ht⟩ => ?_⟩, fun r t hr ht => ?_⟩
  · obtain ⟨r, hr, -⟩ := exists_reference?_of_tree? a t ht
    exact ⟨r, hr⟩
  · obtain ⟨r', hr', htext⟩ := exists_reference?_of_tree? a t ht
    obtain rfl := Except.ok.inj (hr.symm.trans hr')
    rw [htext]
    exact ⟨TypeTree.read?_text_iff t, TypeTree.read?_text_eq_none⟩

/-- The member of an enumeration of texts. -/
def redMember : Value := .member ⟨"app.api", "Color"⟩ .text "RED" (.text "red")

/-- A list of choices between a text and a member of an enumeration. -/
def choices : TypeExpr := subscript (.named "List") [.literal [.text "any", redMember]]

/-- It is accepted, and rendered as no expression. -/
theorem rendered_types_read_back_iff_choices : choices.hasNamedBases = true ∧
    ∃ r, choices.reference? = .ok r ∧ TypeTree.read? r.render = none := by
  have hbases : choices.hasNamedBases = true := rfl
  have htree : choices.tree? = some (.subscript "list"
      [.subscript "typing.Literal" [.literal (.text "any"), .literal redMember]]) := by
    with_unfolding_all rfl
  obtain ⟨haccepted, hread⟩ := rendered_types_read_back_iff choices hbases
  obtain ⟨r, hr⟩ := haccepted.mpr ⟨_, htree⟩
  have hlist : TypeReference.isNameChain "list" = true := by decide +kernel
  have hliteral : TypeReference.isNameChain "typing.Literal" = true := by decide +kernel
  refine ⟨hbases, r, hr, (hread r _ hr htree).2 ?_ ?_⟩
  · exact ⟨hlist, List.cons_ne_nil _ _,
      ⟨hliteral, List.cons_ne_nil _ _, .inl trivial, .inr rfl, trivial⟩, trivial⟩
  · exact fun h => h.2.2.1.2.2.2.1

end TypeExpr

end HttpContract
