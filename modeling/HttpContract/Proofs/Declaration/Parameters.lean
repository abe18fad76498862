import HttpContract.Client.Loading
import HttpContract.Proofs.Declaration.Methods
import HttpContract.Proofs.PathTemplate.Segments
import HttpContract.Proofs.Roles.Acceptance
import HttpContract.Proofs.Value.Literal

/-!
# Declared parameters and their defaults

What an operation keeps of the parameters of its method: the names in order, which ones go by name only,
and the source of each default (`Function.carried`). A default is refused, or its source reads back as it,
unless it is a member of an enumeration of texts or integers: the source of such a member is no literal
(`Value.defaultFate`), so no class with such a method can be loaded (`Function.defaults_survive_generation`).
-/

namespace HttpContract

/-! ### Sources of default values -/

namespace TypeExpr
variable {s : String} {cs : List Char}

theorem float?_of_angle (hs : s.toList = '<' :: cs) : Number.float? s = none := by
  have hhead : (Text.trimBoth Text.isBlank s.toList).head? = some '<' := by
    rw [head?_trimBoth, hs, List.dropWhile_cons_of_neg (by decide), List.head?_cons]
  obtain ⟨rest, hrest⟩ := List.head?_eq_some_iff.mp hhead
  have hword : ∀ word : String, word.toList.head? ≠ some '<' →
      String.ofList (('<' :: rest).map Char.toLower) ≠ word := by
    rintro word hne rfl
    rw [String.toList_ofList] at hne
    exact hne rfl
  have hsign : Number.splitSign ('<' :: rest) = (false, '<' :: rest) := rfl
  simp only [Number.float?, hrest, hsign]
  rw [if_neg (not_or.mpr ⟨hword "inf" (by decide), hword "infinity" (by decide)⟩),
    if_neg (hword "nan" (by decide)), Number.unsigned?]
  rw [List.takeWhile_cons_of_pos (by decide), List.takeWhile_cons_of_pos (by decide)]
  have hgroup : ∀ ds, Number.optionalDigits? ('<' :: ds) = none := by
    intro ds
    cases ds with
    | nil => rfl
    | cons d ds =>
      show Number.groupedDigits? ('<' :: d :: ds) = none
      by_cases hd : d = '_'
      · subst hd
        rfl
      · rw [Number.groupedDigits?]
        · rfl
        · exact List.cons_ne_nil d ds
        · exact fun rest h => hd (List.cons.inj h).1
  simp only [List.isEmpty_cons, Bool.false_and, Bool.false_eq_true, if_false, hgroup]

theorem literalValue?_of_angle (hs : s.toList = '<' :: cs) : literalValue? s = none := by
  have hmem : '<' ∈ s.toList := by
    rw [hs]
    exact List.mem_cons_self
  have hquote : ¬ Quoted.IsDelimiter '<' := by
    unfold Quoted.IsDelimiter
    decide
  rw [literalValue?_of_head hs (by decide), read?_of_head hs hquote, readBytes?_of_head hs (by decide),
    Value.toInt?_eq_none_of_mem hmem (by decide) (by decide), float?_of_angle hs]
  rfl

end TypeExpr

theorem Literal.read?_of_angle {s : String} {cs : List Char} (hs : s.toList = '<' :: cs) :
    Literal.read? s = none := by
  have htoken : Literal.token? ('<' :: cs) = none := by
    rw [token?, if_neg (by decide), if_neg (fun h => absurd h.1 (by decide)), if_neg (by decide),
      if_neg (by decide)]
  rw [read?, hs, scan?, htoken]
  rfl

namespace Value

/-- Whether a value is a member of an enumeration. -/
def isMember : Value → Bool
  | .member .. => true
  | _ => false

/-- What becomes of a default value: it is kept, accepted with a source that is no literal, or refused. -/
inductive DefaultFate (parameter : String) : Value → Prop
  | kept {v : Value} (hliteral : v.IsLiteral) (haccepted : v.defaultSource parameter = .ok v.literal)
    (hread : Literal.read? v.literal = some v) (hloaded : TypeExpr.literalValue? v.literal = some v) :
    DefaultFate parameter v
  | unreadable {v : Value} (hmember : v.isMember = true)
    (haccepted : v.defaultSource parameter = .ok v.literal) (hread : Literal.read? v.literal = none)
    (hloaded : TypeExpr.literalValue? v.literal = none) : DefaultFate parameter v
  | notFinite {x : Binary64} (hx : x.isFinite = false)
    (hrefused : (Value.float x).defaultSource parameter =
      .error (.defaultNotFinite parameter (Value.float x).literal)) : DefaultFate parameter (.float x)
  | noLiteral {v : Value} (hliteral : ¬ v.IsLiteral)
    (hrefused : v.defaultSource parameter = .error (.defaultNoLiteral parameter v.typeName)) :
    DefaultFate parameter v

theorem literal_member (cls : ClassName) (kind : EnumKind) (name : String) (value : Value) :
    (Value.member cls kind name value).literal = s!"<{cls.simple}.{name}: " ++ value.literal ++ ">" :=
  rfl

theorem toList_literal_member (cls : ClassName) (kind : EnumKind) (name : String) (value : Value) :
    ∃ cs, (Value.member cls kind name value).literal.toList = '<' :: cs := by
  have happend : s!"<{cls.simple}.{name}: " ++ value.literal ++ ">" =
      "<" ++ (cls.simple ++ ("." ++ (name ++ (": " ++ (value.literal ++ ">"))))) := by
    simp only [String.append_assoc]
    rfl
  rw [literal_member, happend, String.toList_append]
  exact ⟨_, rfl⟩

theorem defaultSource_of_literalType {v : Value} (parameter : String) (h : v.hasLiteralType = true)
    (hfloat : ∀ x, v = .float x → x.isFinite = true) :
    v.defaultSource parameter = .ok v.literal := by
  have hnot : ¬ (!v.hasLiteralType) = true := by
    rw [h]
    exact Bool.false_ne_true
  unfold defaultSource
  rw [if_neg hnot]
  cases v with
  | float x => exact if_pos (hfloat x rfl)
  | _ => rfl

theorem defaultSource_of_no_literalType {v : Value} (parameter : String) (h : v.hasLiteralType = false) :
    v.defaultSource parameter = .error (.defaultNoLiteral parameter v.typeName) := by
  unfold defaultSource
  rw [h]
  rfl

theorem isMember_of_literalType {v : Value} (h : v.hasLiteralType = true) :
    v.IsLiteral ∨ v.isMember = true ∨ ∃ x, v = .float x ∧ x.isFinite = false := by
  cases v with
  | float x =>
    cases hx : x.isFinite with
    | true => exact .inl hx
    | false => exact .inr (.inr ⟨x, rfl, hx⟩)
  | member => exact .inr (.inl rfl)
  | null | bool | int | text | bytes => exact .inl trivial
  | _ => cases h

theorem defaultFate (parameter : String) (v : Value) : DefaultFate parameter v := by
  cases htype : v.hasLiteralType with
  | false =>
    refine .noLiteral (fun h => ?_) (defaultSource_of_no_literalType parameter htype)
    cases v with
    | null | bool | int | float | text | bytes => cases htype
    | _ => exact h
  | true =>
    rcases isMember_of_literalType htype with hliteral | hmember | ⟨x, rfl, hx⟩
    · refine .kept hliteral (defaultSource_of_literalType parameter htype ?_)
        (Literal.read?_literal hliteral) (literalValue?_literal hliteral)
      rintro x rfl
      exact hliteral
    · cases v with
      | member cls kind name value =>
        obtain ⟨cs, hcs⟩ := toList_literal_member cls kind name value
        exact .unreadable rfl (defaultSource_of_literalType parameter htype fun x hx => nomatch hx)
          (Literal.read?_of_angle hcs) (TypeExpr.literalValue?_of_angle hcs)
      | _ => cases hmember
    · refine .notFinite hx ?_
      show (if x.isFinite then _ else _) = _
      rw [hx]
      rfl

theorem literalValue?_of_defaultSource {parameter source : String} {v : Value}
    (h : v.defaultSource parameter = .ok source) :
    TypeExpr.literalValue? source = if v.isMember then none else some v := by
  rcases defaultFate parameter v with ⟨hliteral, haccepted, -, hloaded⟩ |
    ⟨hmember, haccepted, -, hloaded⟩ | ⟨-, hrefused⟩ | ⟨-, hrefused⟩
  · have hmember : ¬ v.isMember = true := fun hmember => by cases v <;> cases hmember; exact hliteral
    rw [haccepted] at h
    rw [← Except.ok.inj h, hloaded, if_neg hmember]
  · rw [haccepted] at h
    rw [← Except.ok.inj h, hloaded, if_pos hmember]
  · rw [hrefused] at h
    cases h
  · rw [hrefused] at h
    cases h

end Value

/-! ### What an operation keeps of its parameters -/

namespace DeclaredParameter

/-- A parameter of an operation that stands for a declared one. -/
structure Carried (p : DeclaredParameter) (b : Binding) : Prop where
  name : b.name = p.name
  single : p.kind ≠ .variadic ∧ p.kind ≠ .variadicKeyword
  keywordOnly : b.keywordOnly = (p.kind == .keywordOnly)
  default : p.default.mapM (Value.defaultSource p.name) = .ok b.default

theorem carried_of_signature {p : DeclaredParameter} {q : Parameter} (h : p.signature = .ok q) :
    p.Carried q.binding := by
  unfold signature at h
  simp only at h
  split_ifs at h with hkind
  · cases h
  · obtain ⟨type, -, h⟩ := bind_eq_ok.mp h
    obtain ⟨default, hdefault, h⟩ := bind_eq_ok.mp h
    obtain rfl := Except.ok.inj h
    exact ⟨rfl, not_or.mp hkind, rfl, hdefault⟩

/-- The same parameter with another type. -/
def Retyped (p p' : DeclaredParameter) : Prop := ∃ type, p' = { p with type }

theorem Retyped.carried {p p' : DeclaredParameter} {b : Binding} (h : p.Retyped p')
    (hb : p'.Carried b) : p.Carried b := by
  obtain ⟨type, rfl⟩ := h
  exact ⟨hb.name, hb.single, hb.keywordOnly, hb.default⟩

theorem Retyped.refl (p : DeclaredParameter) : p.Retyped p := ⟨p.type, rfl⟩

theorem Carried.loaded {p : DeclaredParameter} {b : Binding} (h : p.Carried b) :
    b.default.bind TypeExpr.literalValue? = p.default.filter (!·.isMember) := by
  have hdefault := h.default
  cases hp : p.default with
  | none =>
    rw [hp] at hdefault
    rw [← Except.ok.inj hdefault]
    rfl
  | some v =>
    rw [hp] at hdefault
    obtain ⟨source, hsource, hb⟩ := bind_eq_ok.mp hdefault
    rw [← Except.ok.inj hb, Option.bind_some, Value.literalValue?_of_defaultSource hsource]
    cases hmember : v.isMember with
    | false => rw [Option.filter_some_pos (by rw [hmember]; rfl), if_neg Bool.false_ne_true]
    | true => rw [Option.filter_some_neg (by rw [hmember]; rfl), if_pos rfl]

end DeclaredParameter

namespace Function
variable {f : Function} {meaning : Forward.Evaluation} {contract name : String} {o : Operation}
open DeclaredParameter

theorem retyped_visible {f' : Function} (h : f.resolved meaning = .ok f') :
    List.Forall₂ Retyped f.visible f'.visible := by
  unfold resolved at h
  obtain ⟨ps, hps, h⟩ := bind_eq_ok.mp h
  obtain ⟨returns, -, h⟩ := bind_eq_ok.mp h
  obtain rfl := Except.ok.inj h
  have hparameters : List.Forall₂ Retyped f.parameters ps := by
    refine (mapM_eq_ok_iff.mp hps).imp fun p p' hp => ?_
    obtain ⟨type, -, hp⟩ := bind_eq_ok.mp hp
    exact ⟨type, (Except.ok.inj hp).symm⟩
  cases f
  unfold visible
  simp only at hparameters ⊢
  split
  · exact hparameters
  · exact hparameters
  · exact .cons (.refl _) hparameters
  · cases hparameters with
    | nil => exact .nil
    | cons hp hrest =>
      obtain ⟨type, rfl⟩ := hp
      simp only
      split_ifs
      · exact hrest
      · exact .cons ⟨type, rfl⟩ hrest

/-- The parameters of an operation are those that callers fill, in order. -/
theorem carried (ho : f.operation meaning contract name = .ok o) :
    List.Forall₂ Carried f.visible o.parameters := by
  obtain ⟨m, hm, ho⟩ := bind_eq_ok.mp ho
  obtain ⟨e, -, -, rfl⟩ := Signature.ofSignature_eq_ok ho
  unfold signature at hm
  obtain ⟨f', hf', hm⟩ := bind_eq_ok.mp hm
  obtain ⟨parameters, hparameters, hm⟩ := bind_eq_ok.mp hm
  obtain ⟨returns, -, hm⟩ := bind_eq_ok.mp hm
  show List.Forall₂ Carried f.visible (m.parameters.map Parameter.binding)
  rw [← Except.ok.inj hm, List.forall₂_map_right_iff]
  refine forall₂_comp (fun p p' q hp hq => hp.carried ?_) (retyped_visible (mapError_eq_ok.mp hf'))
    (mapM_eq_ok_iff.mp hparameters)
  exact carried_of_signature (mapError_eq_ok.mp hq)

end Function

/-! ### Defaults of generated methods -/

theorem Operation.defaults_formals (o : Operation) : o.formals.map (fun a => (a.name, a.default)) =
    o.parameters.map fun b => (b.name, b.default.bind TypeExpr.literalValue?) := by
  conv_rhs => rw [← List.takeWhile_append_dropWhile (p := (!·.keywordOnly)) (l := o.parameters)]
  simp only [formals, List.map_append, List.map_map]
  rfl

namespace DeclaredParameter
variable {p : DeclaredParameter} {b : Binding} {v : Value}

theorem Carried.defaultSource (h : p.Carried b) (hv : p.default = some v) :
    ∃ source, v.defaultSource p.name = .ok source ∧ b.default = some source := by
  have hdefault := h.default
  rw [hv] at hdefault
  obtain ⟨source, hsource, hb⟩ := bind_eq_ok.mp hdefault
  exact ⟨source, hsource, (Except.ok.inj hb).symm⟩

theorem Carried.source (h : p.Carried b) : b.default = p.default.map Value.literal := by
  cases hp : p.default with
  | none =>
    have hdefault := h.default
    rw [hp] at hdefault
    exact (Except.ok.inj hdefault).symm
  | some v =>
    obtain ⟨source, hsource, hb⟩ := h.defaultSource hp
    rcases v.defaultFate p.name with ⟨-, haccepted, -, -⟩ | ⟨-, haccepted, -, -⟩ | ⟨-, hrefused⟩ |
      ⟨-, hrefused⟩
    · rw [hb, Option.map_some, ← Except.ok.inj (haccepted.symm.trans hsource)]
    · rw [hb, Option.map_some, ← Except.ok.inj (haccepted.symm.trans hsource)]
    · cases hrefused.symm.trans hsource
    · cases hrefused.symm.trans hsource

/-- A default that is accepted is a value with a literal or a member of an enumeration. -/
theorem Carried.isLiteral_or_isMember (h : p.Carried b) (hv : p.default = some v) :
    v.IsLiteral ∨ v.isMember = true := by
  obtain ⟨source, hsource, -⟩ := h.defaultSource hv
  rcases v.defaultFate p.name with ⟨hliteral, -, -, -⟩ | ⟨hmember, -, -, -⟩ | ⟨-, hrefused⟩ |
    ⟨-, hrefused⟩
  · exact .inl hliteral
  · exact .inr hmember
  · cases hrefused.symm.trans hsource
  · cases hrefused.symm.trans hsource

end DeclaredParameter

/-- Every default of a parameter is refused unless it has a literal or is a member of an enumeration. An
accepted method records the source form of each default. What it is loaded with is the default itself,
unless this is a member: then its source is no literal, and the method cannot be read at all. -/
theorem Function.defaults_survive_generation (f : Function) (meaning : Forward.Evaluation)
    (contract name : String) :
    (∀ p ∈ f.visible, ∀ v ∈ p.default, v.DefaultFate p.name) ∧
      ∀ o, f.operation meaning contract name = .ok o →
        (∀ p ∈ f.visible, ∀ v ∈ p.default, v.IsLiteral ∨ v.isMember = true) ∧
        (o.parameters.map fun b => (b.name, b.default)) =
          f.visible.map (fun p => (p.name, p.default.map Value.literal)) ∧
        (o.formals.map fun a => (a.name, a.default)) =
          f.visible.map (fun p => (p.name, p.default.filter (!·.isMember))) ∧
        ((∃ p ∈ f.visible, ∃ v ∈ p.default, v.isMember = true) → o.isReadable = false) := by
  refine ⟨fun p _ v _ => v.defaultFate p.name, fun o ho => ?_⟩
  have hcarried := Function.carried ho
  refine ⟨?_, ?_, ?_, ?_⟩
  · intro p hp v hv
    obtain ⟨b, -, hb⟩ := exists_of_mem_forall₂ hcarried p hp
    exact hb.isLiteral_or_isMember hv
  · refine (map_eq_of_forall₂ (hcarried.imp fun p b h => ?_)).symm
    rw [h.name, h.source]
  · rw [Operation.defaults_formals]
    refine (map_eq_of_forall₂ (hcarried.imp fun p b h => ?_)).symm
    rw [h.name, h.loaded]
  · rintro ⟨p, hp, v, hv, hmember⟩
    obtain ⟨b, hmem, hb⟩ := exists_of_mem_forall₂ hcarried p hp
    obtain ⟨source, hsource, hbdefault⟩ := hb.defaultSource hv
    have hloaded := Value.literalValue?_of_defaultSource hsource
    rw [if_pos hmember] at hloaded
    have hdefaults : (o.parameters.filterMap (·.default)).all
        (fun d => (TypeExpr.literalValue? d).isSome) = false := by
      rw [List.all_eq_false]
      refine ⟨source, List.mem_filterMap.mpr ⟨b, hmem, hbdefault⟩, ?_⟩
      rw [hloaded]
      exact Bool.false_ne_true
    simp only [Operation.isReadable, hdefaults, Bool.and_false, Bool.false_and]

/-- A method with a member of an enumeration as a default, next to a number. -/
def paintMethod : Function where
  parameters := [
    { name := "color", type := some (.named "str"),
      default := some (.member ⟨"app.api", "Color"⟩ .text "RED" (.text "red")) },
    { name := "width", type := some (.named "int"), default := some (.int 3) }]
  endpoint := some ⟨"GET", "/paint"⟩

theorem defaults_survive_generation_paint : ∃ o,
    paintMethod.operation Forward.resolve "app.api.Shapes" "paint" = .ok o ∧
      (o.formals.map fun a => (a.name, a.default)) = [("color", none), ("width", some (.int 3))] ∧
      o.isReadable = false := by
  have ho := eq_ok_getD (x := paintMethod.operation Forward.resolve "app.api.Shapes" "paint") (by decide +kernel) default
  obtain ⟨-, -, hformals, hreadable⟩ :=
    (Function.defaults_survive_generation paintMethod Forward.resolve "app.api.Shapes" "paint").2 _ ho
  exact ⟨_, ho, hformals, hreadable ⟨_, List.mem_cons_self, _, rfl, rfl⟩⟩

end HttpContract
