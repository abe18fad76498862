import HttpContract.Proofs.Client.BodyNames
import HttpContract.Proofs.Client.TypeParts

/-!
# Imports

Each line of the client class is made of parts (`ClientSource.write_classParts`): punctuation, sources of
values, names that the class and its methods have, and references to what stands in a module. The types
that the lines mention are those of the signature and those that the steps of a plan convert to
(`RequestStep.types`, `ResponseStep.types`), so each reference finds its module among the imports
(`imports_cover_references`).
-/

namespace HttpContract
open ClientSource

namespace Expression

mutual

/-- The parts of an expression. -/
def parts : Expression → List Part
  | name n => [.name n]
  | text t => [.value (Quoted.text t)]
  | nothing => [.mark "None"]
  | mapping entries =>
    .mark "\x7b" :: ([.mark ", "].intercalate
      (entries.map fun b => [.value (Quoted.text b.1), .mark ": ", .name b.2]) ++ [.mark "\x7d"])
  | type t => typeParts t
  | member object field =>
    match object with
    | name n => [.field n field]
    | _ => parts object ++ [.mark ("." ++ field)]
  | item object key => parts object ++ [.mark "[", .value (Quoted.text key), .mark "]"]
  | call function args =>
    parts function ++ .mark "(" :: ([.mark ", "].intercalate (partsAll args) ++ [.mark ")"])
  | awaited e => .mark "await " :: parts e

def partsAll : List Expression → List (List Part)
  | [] => []
  | e :: es => parts e :: partsAll es

end

mutual

theorem write_parts : (e : Expression) → writeParts e.parts = e.write
  | name n => by simp [parts, write]
  | text t => by simp [parts, write]
  | nothing => by simp [parts, write]
  | mapping entries => by
    simp [parts, write, ClientSource.mapping, writeParts_intercalate, Function.comp_def,
      String.append_assoc]
  | type t => by rw [parts, write, write_typeParts]
  | member object field => by
    have hobject := write_parts object
    cases object with
    | name n => simp [parts, write]
    | _ =>
      rw [parts, write, writeParts_append, hobject]
      · simp [String.append_assoc]
      · exact fun _ h => nomatch h
  | item object key => by
    rw [parts, write, writeParts_append, write_parts object]
    simp [String.append_assoc]
  | call function args => by
    rw [parts, write, writeParts_append, write_parts function]
    simp [writeParts_intercalate, write_partsAll args, String.append_assoc]
  | awaited e => by rw [parts, write, writeParts_cons, write_parts e, Part.write_mark]

theorem write_partsAll : (es : List Expression) → (partsAll es).map writeParts = writeAll es
  | [] => by rw [partsAll, writeAll, List.map_nil]
  | e :: es => by rw [partsAll, writeAll, List.map_cons, write_parts e, write_partsAll es]

end

end Expression

namespace Statement

/-- The parts of the lines of a statement. -/
def parts (indent : String) : Statement → List (List Part)
  | assign target value => [.name target :: .mark " = " :: value.parts]
  | store place value => [place.parts ++ .mark " = " :: value.parts]
  | whenGiven parameter inner =>
    [.mark "if ", .name parameter, .mark " is not None:"] ::
      (inner.parts indent).map (.blank indent :: ·)
  | give value => [.mark "return " :: value.parts]

theorem write_parts (indent : String) (s : Statement) :
    (s.parts indent).map writeParts = s.lines indent := by
  induction s with
  | assign target value => simp [parts, lines, value.write_parts, String.append_assoc]
  | store place value => simp [parts, lines, place.write_parts, value.write_parts, String.append_assoc]
  | whenGiven parameter inner ih =>
    simp [parts, lines, ← ih, Function.comp_def, String.append_assoc]
  | give value => simp [parts, lines, value.write_parts]

end Statement

namespace ClientSource

/-! ### Lines of the class -/

/-- The parts of a parameter. -/
def parameterParts (b : Binding) : List Part :=
  .name b.name :: .mark ": " :: (typeParts b.type ++
    match b.default with
    | some d => [.mark " = ", .value d]
    | none => [])

def parametersParts (bs : List Binding) : List (List Part) :=
  let rest := bs.dropWhile (!·.keywordOnly)
  (bs.takeWhile (!·.keywordOnly)).map parameterParts ++
    if rest.isEmpty then [] else [.mark "*"] :: rest.map parameterParts

/-- The parts of the line that a method begins with. -/
def signatureParts (o : Operation) : List Part :=
  let start := if o.isAsync then "async def" else "def"
  let returns := if o.isVoid then [.mark "None"] else typeParts o.returns
  [.mark start, .mark " ", .name o.name, .mark "("] ++
    ([.mark ", "].intercalate ([.name "self"] :: parametersParts o.parameters) ++
      (.mark ") -> " :: (returns ++ [.mark ":"])))

/-- The parts of the lines of a method. -/
def methodParts (indent : String) (o : Operation) (plan : CallPlan) : List (List Part) :=
  signatureParts o :: [.blank indent, .doc (o.verb ++ " " ++ o.path)] ::
    ((o.statements plan.steps).flatMap (Statement.parts indent)).map (.blank indent :: ·)

/-- The parts of the lines of the constructor. -/
def constructorParts (indent : String) (c : Contract) : List (List Part) :=
  [[.mark "def __init__(", .name "self", .mark ", client: ", .reference supportModule "HttpClient",
      .mark ", logger: ", .reference "typing" "Optional", .mark "[", .reference "logging" "Logger",
      .mark "] = None) -> None:"],
    [.blank indent, .field "super()" "__init__", .mark "(client, ", .value (Quoted.text c.serviceName),
      .mark ", ", .value (Quoted.text c.baseRoute), .mark ", logger=logger)"]]

/-- The parts of the lines of the client class. -/
def classParts (options : SourceOptions) (c : Contract) (planned : List (Operation × CallPlan)) :
    List (List Part) :=
  (if options.isSealed then [[.mark "@", .reference "typing" "final"]] else []) ++
  [[.mark "class ", .name c.className, .mark "(", .reference supportModule "DiscoveryAwareBase",
      .mark ", ", .reference c.module c.qualname, .mark "):"],
   [.blank options.indent, .doc (classDoc c)],
   []] ++
  (constructorParts options.indent c).map (.blank options.indent :: ·) ++
  planned.flatMap fun p =>
    [] :: (methodParts options.indent p.1 p.2).map (.blank options.indent :: ·)

theorem write_parameterParts (b : Binding) : writeParts (parameterParts b) = parameterText b := by
  cases hdefault : b.default <;>
    simp [parameterParts, parameterText, hdefault, write_typeParts, String.append_assoc]

theorem write_parametersParts (bs : List Binding) :
    (parametersParts bs).map writeParts = parameterTexts bs := by
  have hparameters : ∀ bs : List Binding, (bs.map parameterParts).map writeParts =
      bs.map parameterText := by
    intro bs
    rw [List.map_map]
    exact List.map_congr_left fun b _ => write_parameterParts b
  simp only [parametersParts, parameterTexts, List.map_append, hparameters]
  split_ifs
  · rfl
  · simp [hparameters]

theorem write_signatureParts (o : Operation) : writeParts (signatureParts o) = signatureLine o := by
  have hreturns : writeParts (if o.isVoid then [.mark "None"] else typeParts o.returns) =
      if o.isVoid then "None" else o.returns.render := by
    split_ifs <;> simp [write_typeParts]
  simp only [signatureParts, signatureLine, writeParts_append, writeParts_cons, writeParts_nil,
    writeParts_intercalate, List.map_cons, write_parametersParts, hreturns, Part.write_mark,
    Part.write_name, toString, String.append_assoc, String.append_empty]

theorem writeParts_indented (indent : String) (lines : List (List Part)) :
    (lines.map (.blank indent :: ·)).map writeParts = (lines.map writeParts).map (indent ++ ·) := by
  rw [List.map_map, List.map_map]
  rfl

theorem write_methodParts (indent : String) (o : Operation) (plan : CallPlan) :
    (methodParts indent o plan).map writeParts = methodLines indent o plan := by
  have hsteps : ((o.statements plan.steps).flatMap (Statement.parts indent)).map writeParts =
      plan.steps.flatMap (stepLines indent o) := by
    rw [List.map_flatMap, Operation.statements, List.flatMap_assoc]
    refine List.flatMap_congr fun step _ => ?_
    rw [← Step.flatMap_lines_statements]
    exact List.flatMap_congr fun s _ => s.write_parts indent
  rw [methodParts, methodLines, List.map_cons, List.map_cons, write_signatureParts,
    writeParts_indented, hsteps]
  simp

theorem write_classParts (options : SourceOptions) (c : Contract)
    (planned : List (Operation × CallPlan)) :
    (classParts options c planned).map writeParts = classLines options c planned := by
  have hconstructor : (constructorParts options.indent c).map writeParts =
      constructorLines options.indent c := by
    simp [constructorParts, constructorLines, toString, ← String.toList_inj]
  have hsealed : (if options.isSealed then [[Part.mark "@", .reference "typing" "final"]] else []).map
      writeParts = if options.isSealed then ["@typing.final"] else [] := by
    split_ifs <;> simp
  have hmethods : (planned.flatMap fun p => [] ::
      (methodParts options.indent p.1 p.2).map (.blank options.indent :: ·)).map writeParts =
        planned.flatMap fun p => "" :: (methodLines options.indent p.1 p.2).map (options.indent ++ ·) := by
    rw [List.map_flatMap]
    refine List.flatMap_congr fun p _ => ?_
    rw [List.map_cons, writeParts_indented, write_methodParts, writeParts_nil]
  simp only [classParts, classLines, List.map_append, hmethods, hsealed, writeParts_indented,
    hconstructor]
  simp [baseClass, Contract.fullName, toString, ← String.toList_inj]

/-! ### Imports -/

theorem mem_insertOnce {name n : String} {names : List String} :
    n ∈ insertOnce name names ↔ n = name ∨ n ∈ names := by
  induction names with
  | nil => rw [insertOnce, List.mem_singleton, or_iff_left List.not_mem_nil]
  | cons m ms ih =>
    rw [insertOnce]
    split_ifs with hlt heq
    · exact List.mem_cons
    · rw [heq]
      exact (or_iff_right_of_imp fun h => h ▸ List.mem_cons_self).symm
    · rw [List.mem_cons, ih, List.mem_cons, or_left_comm]

theorem mem_sortedOnce {n : String} {names : List String} : n ∈ sortedOnce names ↔ n ∈ names := by
  induction names with
  | nil => rfl
  | cons m ms ih => rw [sortedOnce, List.foldr_cons, mem_insertOnce, List.mem_cons, ← ih, sortedOnce]

theorem pairwise_insertOnce (name : String) {names : List String} (h : names.Pairwise (· < ·)) :
    (insertOnce name names).Pairwise (· < ·) := by
  induction names with
  | nil => exact List.pairwise_singleton _ _
  | cons m ms ih =>
    obtain ⟨hm, hms⟩ := List.pairwise_cons.mp h
    rw [insertOnce]
    split_ifs with hlt heq
    · refine List.pairwise_cons.mpr ⟨fun n hn => ?_, h⟩
      rcases List.mem_cons.mp hn with rfl | hn
      · exact hlt
      · exact lt_trans hlt (hm n hn)
    · exact h
    · refine List.pairwise_cons.mpr ⟨fun n hn => ?_, ih hms⟩
      rcases mem_insertOnce.mp hn with rfl | hn
      · exact lt_of_le_of_ne (not_lt.mp hlt) (Ne.symm heq)
      · exact hm n hn

theorem nodup_sortedOnce (names : List String) : (sortedOnce names).Nodup := by
  have hsorted : (sortedOnce names).Pairwise (· < ·) := by
    induction names with
    | nil => exact List.Pairwise.nil
    | cons m ms ih => exact pairwise_insertOnce m ih
  exact hsorted.imp ne_of_lt

end ClientSource

namespace Operation

/-- The types of an operation, those that headers are converted to among them. -/
def types (o : Operation) : List TypeReference :=
  o.returns :: o.parameters.flatMap fun b => [b.type, b.valueType]

theorem mem_types_of_mem_bodyTypes {o : Operation} {t : TypeReference} (h : t ∈ o.bodyTypes) :
    t ∈ o.types := by
  rcases List.mem_append.mp h with h | h
  · split_ifs at h
    · cases h
    · rw [List.mem_singleton.mp h]
      exact List.mem_cons_self
  · obtain ⟨b, hb, rfl⟩ := List.mem_map.mp h
    refine List.mem_cons_of_mem _ (List.mem_flatMap.mpr ⟨b, (List.mem_filter.mp hb).1, ?_⟩)
    exact List.mem_cons_of_mem _ (List.mem_singleton_self _)

end Operation

namespace ClientSource

/-- The modules that are imported: those that every client needs, that of the contract, and those of its
types. -/
theorem mem_imports {c : Contract} {module : String} : module ∈ imports c ↔
    module ∈ ["logging", "typing", supportModule, c.module] ∨
      ∃ o ∈ c.operations, ∃ t ∈ o.types, module ∈ t.modules := by
  have htypes : ∀ o : Operation, o.types.flatMap TypeReference.modules = o.returns.modules ++
      o.parameters.flatMap fun b => b.type.modules ++ b.valueType.modules := by
    intro o
    rw [Operation.types, List.flatMap_cons, List.flatMap_assoc]
    simp only [List.flatMap_cons, List.flatMap_nil, List.append_nil]
  rw [imports, mem_sortedOnce, List.mem_append, List.mem_flatMap]
  refine or_congr_right (exists_congr fun o => and_congr_right fun _ => ?_)
  rw [← htypes, List.mem_flatMap]

theorem common_mem_imports (c : Contract) : "logging" ∈ imports c ∧ "typing" ∈ imports c ∧
    supportModule ∈ imports c ∧ c.module ∈ imports c := by
  have h : ∀ module ∈ ["logging", "typing", supportModule, c.module], module ∈ imports c :=
    fun _ h => mem_imports.mpr (.inl h)
  simpa using h

end ClientSource

/-! ### What the imports cover -/

namespace Contract

/-- The names that the class gives or that its methods have for arguments and locals. -/
def ownNames (c : Contract) : List String :=
  [c.className, "self", "super()"] ++ ClientSource.locals ++
    c.operations.flatMap fun o => o.name :: o.parameters.map (·.name)

/-- Whether a type can be named where the modules of a contract are imported. -/
def Imports (c : Contract) (t : TypeReference) : Prop :=
  t.hasModules = true ∧ ∀ module ∈ t.modules, module ∈ imports c

end Contract

namespace ClientSource

/-- Whether a part finds what it names: a module among the imports, or a name of the class. -/
def Part.IsCovered (c : Contract) : Part → Prop
  | reference module _ => module ∈ imports c
  | name n | field n _ => n ∈ c.ownNames
  | mark text => '.' ∉ text.toList
  | blank _ | value _ | doc _ | bare _ => True

/-- Whether each of several parts does. -/
def Covers (c : Contract) (ps : List Part) : Prop := ∀ p ∈ ps, p.IsCovered c

variable {c : Contract} {p : Part} {ps qs : List Part} {pss : List (List Part)} {t : TypeReference}
  {n : String}

@[simp] theorem covers_nil : Covers c [] := List.forall_mem_nil _

@[simp] theorem covers_cons : Covers c (p :: ps) ↔ p.IsCovered c ∧ Covers c ps := List.forall_mem_cons

@[simp] theorem covers_append : Covers c (ps ++ qs) ↔ Covers c ps ∧ Covers c qs := List.forall_mem_append

theorem covers_intercalate (h : ∀ ps ∈ pss, Covers c ps) : Covers c ([.mark ", "].intercalate pss) := by
  intro p hp
  rcases eq_or_exists_of_mem_intercalate hp with rfl | ⟨ps, hps, hp⟩
  · exact fun h => absurd h (by decide)
  · exact h ps hps p hp

@[simp] theorem isCovered_mark {text : String} :
    (Part.mark text).IsCovered c ↔ '.' ∉ text.toList := Iff.rfl

@[simp] theorem isCovered_name : (Part.name n).IsCovered c ↔ n ∈ c.ownNames := Iff.rfl

@[simp] theorem isCovered_field {field : String} :
    (Part.field n field).IsCovered c ↔ n ∈ c.ownNames := Iff.rfl

@[simp] theorem isCovered_reference {module : String} :
    (Part.reference module n).IsCovered c ↔ module ∈ imports c := Iff.rfl

@[simp] theorem isCovered_value {source : String} : (Part.value source).IsCovered c := trivial

@[simp] theorem isCovered_blank {indent : String} : (Part.blank indent).IsCovered c := trivial

@[simp] theorem isCovered_doc {text : String} : (Part.doc text).IsCovered c := trivial

theorem covers_typeParts (h : c.Imports t) : Covers c (typeParts t) := by
  intro p hp
  rcases exists_of_mem_typeParts t hp with hmark | ⟨source, rfl⟩ | ⟨r, hr, rfl⟩
  · simp only [List.mem_cons, List.not_mem_nil, or_false] at hmark
    rcases hmark with rfl | rfl | rfl <;> exact fun hdot => absurd hdot (by decide)
  · trivial
  · unfold Part.ofReference
    split_ifs with hbuiltin
    · trivial
    · exact h.2 _ (TypeReference.module_mem_modules hbuiltin t h.1 hr)

theorem self_mem_ownNames (c : Contract) : "self" ∈ c.ownNames := by
  simp [Contract.ownNames]

theorem mem_ownNames_of_mem_locals (c : Contract) (h : n ∈ locals) : n ∈ c.ownNames :=
  List.mem_append_left _ (List.mem_append_right _ h)

section
variable {e : Expression} {es args : List Expression}

theorem mem_partsAll : ps ∈ Expression.partsAll es ↔ ∃ e ∈ es, e.parts = ps := by
  induction es with
  | nil => simp [Expression.partsAll]
  | cons e es ih => rw [Expression.partsAll, List.mem_cons, ih, List.exists_mem_cons_iff, eq_comm]

theorem covers_clientCall (function : String) (h : ∀ e ∈ args, Covers c e.parts) :
    Covers c (Step.clientCall function args).parts := by
  have hargs : ∀ ps ∈ Expression.partsAll args, Covers c ps := by
    intro ps hps
    obtain ⟨e, he, rfl⟩ := mem_partsAll.mp hps
    exact h e he
  rw [Step.clientCall, Expression.parts, Expression.parts]
  simp [self_mem_ownNames, covers_intercalate hargs]

theorem covers_mapping {bs : List (String × String)} (h : ∀ n ∈ bs.map (·.2), n ∈ c.ownNames) :
    Covers c (Expression.mapping bs).parts := by
  have hentries : ∀ ps ∈ bs.map fun b => [.value (Quoted.text b.1), .mark ": ", .name b.2],
      Covers c ps :=
    List.forall_mem_map.mpr fun b hb => by simp [h _ (List.mem_map_of_mem hb)]
  rw [Expression.parts]
  simp [covers_intercalate hentries]

end

/-- Whether all lines of a statement find what they name. -/
def CoversStatement (c : Contract) (indent : String) (s : Statement) : Prop :=
  ∀ line ∈ s.parts indent, Covers c line

section
variable {place value : Expression} {inner : Statement} {indent : String}

theorem covers_assign (hn : n ∈ c.ownNames) (h : Covers c value.parts) :
    CoversStatement c indent (.assign n value) :=
  List.forall_mem_singleton.mpr (by simp [hn, h])

theorem covers_store (hplace : Covers c place.parts) (h : Covers c value.parts) :
    CoversStatement c indent (.store place value) :=
  List.forall_mem_singleton.mpr (by simp [hplace, h])

theorem covers_whenGiven (hn : n ∈ c.ownNames) (h : CoversStatement c indent inner) :
    CoversStatement c indent (.whenGiven n inner) :=
  List.forall_mem_cons.mpr ⟨by simp [hn],
    List.forall_mem_map.mpr fun line hline => covers_cons.mpr ⟨trivial, h line hline⟩⟩

theorem covers_give (h : Covers c value.parts) : CoversStatement c indent (.give value) :=
  List.forall_mem_singleton.mpr (by simp [h])

theorem covers_header {object : String} (hobject : object ∈ c.ownNames) (hn : n ∈ c.ownNames)
    (header : String) : CoversStatement c indent (.whenGiven n
      (.store (.item (.member (.name object) "headers") header)
        (Step.clientCall "format_value" [.name n]))) := by
  have hplace : Covers c (Expression.item (.member (.name object) "headers") header).parts := by
    simp [Expression.parts, hobject]
  have hvalue : ∀ e ∈ [Expression.name n], Covers c e.parts :=
    List.forall_mem_singleton.mpr (by simp [Expression.parts, hn])
  exact covers_whenGiven hn (covers_store hplace (covers_clientCall _ hvalue))

end

/-- The statements of a step find what they name if its arguments are names of the class and its types
can be named. -/
theorem covers_statements {o : Operation} {s : Step} (harguments : ∀ n ∈ s.arguments, n ∈ c.ownNames)
    (htypes : ∀ t ∈ s.types, c.Imports t) (indent : String) :
    ∀ statement ∈ s.statements o, CoversStatement c indent statement := by
  have hname : ∀ n ∈ c.ownNames, Covers c (Expression.name n).parts := fun n hn => by
    simp [Expression.parts, hn]
  have htext : ∀ t, Covers c (Expression.text t).parts := fun t => by simp [Expression.parts]
  have hlocal : ∀ n ∈ locals, n ∈ c.ownNames := fun n hn => mem_ownNames_of_mem_locals c hn
  have htype : ∀ t ∈ s.types, Covers c (Expression.type t).parts := fun t ht => by
    rw [Expression.parts]
    exact covers_typeParts (htypes t ht)
  -- what a statement names is a local, an argument of its step, or in a type of its step
  cases s with
  | bindPath bs =>
    exact List.forall_mem_singleton.mpr (covers_assign (hlocal _ (by decide)) (covers_mapping harguments))
  | bindQuery bs =>
    exact List.forall_mem_singleton.mpr (covers_assign (hlocal _ (by decide)) (covers_mapping harguments))
  | construct verb path =>
    have hempty : Covers c (Expression.mapping []).parts := covers_mapping (List.forall_mem_nil _)
    refine List.forall_mem_singleton.mpr
      (covers_assign (hlocal _ (by decide)) (covers_clientCall _ ?_))
    simp only [List.forall_mem_cons, List.not_mem_nil, false_implies, implies_true, and_true]
    refine ⟨htext verb, htext path, ?_, ?_⟩
    · split_ifs
      · exact hempty
      · exact hname _ (hlocal _ (by decide))
    · split_ifs
      · exact hempty
      · exact hname _ (hlocal _ (by decide))
  | attachHeader header p =>
    exact List.forall_mem_singleton.mpr (covers_header (hlocal _ (by decide))
      (harguments _ (List.mem_singleton_self _)) header)
  | attachBody p format contentType =>
    have hargs : ∀ e ∈ Expression.name p :: (Location.given contentType).toList.map .text,
        Covers c e.parts :=
      List.forall_mem_cons.mpr ⟨hname _ (harguments _ (List.mem_singleton_self _)),
        List.forall_mem_map.mpr fun t _ => htext t⟩
    have hplace : Covers c (Expression.member (.name requestLocal) "content").parts := by
      simp [Expression.parts, hlocal requestLocal (by decide)]
    exact List.forall_mem_cons.mpr ⟨covers_assign (hlocal _ (by decide)) (covers_clientCall _ hargs),
      List.forall_mem_singleton.mpr (covers_store hplace (hname _ (hlocal _ (by decide))))⟩
  | attachContentHeader header p =>
    exact List.forall_mem_singleton.mpr (covers_header (hlocal _ (by decide))
      (harguments _ (List.mem_singleton_self _)) header)
  | invoke mode =>
    have hargs : ∀ e ∈ [Expression.name requestLocal], Covers c e.parts :=
      List.forall_mem_singleton.mpr (hname _ (hlocal _ (by decide)))
    refine List.forall_mem_singleton.mpr (covers_assign (hlocal _ (by decide)) ?_)
    split_ifs
    · have hcall := covers_clientCall "invoke_async" hargs
      rw [Expression.parts]
      simp [hcall]
    · exact covers_clientCall _ hargs
  | extractHeader header p type =>
    have hp := harguments p (List.mem_singleton_self _)
    have hplace : Covers c (Expression.member (.name p) "value").parts := by simp [Expression.parts, hp]
    refine List.forall_mem_singleton.mpr
      (covers_whenGiven hp (covers_store hplace (covers_clientCall _ ?_)))
    simp only [List.forall_mem_cons, List.not_mem_nil, false_implies, implies_true, and_true]
    exact ⟨hname _ (hlocal _ (by decide)), htext header, htype type (List.mem_singleton_self _)⟩
  | returnHeader type header =>
    refine List.forall_mem_singleton.mpr (covers_give (covers_clientCall _ ?_))
    simp only [List.forall_mem_cons, List.not_mem_nil, false_implies, implies_true, and_true]
    refine ⟨hname _ (hlocal _ (by decide)), ?_, htype type (List.mem_singleton_self _)⟩
    cases header with
    | none => simp [Expression.parts]
    | some header => exact htext header
  | returnBody type format =>
    have hresponse := hname responseLocal (hlocal _ (by decide))
    rw [Step.statements]
    split_ifs
    · exact List.forall_mem_singleton.mpr (covers_give (covers_clientCall _
        (List.forall_mem_cons.mpr ⟨hresponse, List.forall_mem_singleton.mpr (htext _)⟩)))
    · exact List.forall_mem_singleton.mpr (covers_give (covers_clientCall _ (List.forall_mem_cons.mpr
        ⟨hresponse, List.forall_mem_singleton.mpr (htype type (List.mem_singleton_self _))⟩)))

/-! ### Contracts -/

section
variable {o : Operation}

theorem name_mem_ownNames (ho : o ∈ c.operations) : o.name ∈ c.ownNames :=
  List.mem_append_right _ (List.mem_flatMap.mpr ⟨o, ho, List.mem_cons_self⟩)

theorem parameter_mem_ownNames (ho : o ∈ c.operations) {b : Binding} (hb : b ∈ o.parameters) :
    b.name ∈ c.ownNames :=
  List.mem_append_right _ (List.mem_flatMap.mpr
    ⟨o, ho, List.mem_cons_of_mem _ (List.mem_map_of_mem hb)⟩)

theorem imports_of_mem_types (ho : o ∈ c.operations) (ht : t ∈ o.types) (h : t.hasModules = true) :
    c.Imports t :=
  ⟨h, fun _ hm => mem_imports.mpr (.inr ⟨o, ho, t, ht, hm⟩)⟩

theorem type_mem_types {b : Binding} (hb : b ∈ o.parameters) : b.type ∈ o.types :=
  List.mem_cons_of_mem _ (List.mem_flatMap.mpr ⟨b, hb, List.mem_cons_self⟩)

theorem covers_signatureParts (ho : o ∈ c.operations) (htypes : ∀ t ∈ o.types, c.Imports t) :
    Covers c (signatureParts o) := by
  have hparameter : ∀ b ∈ o.parameters, Covers c (parameterParts b) := by
    intro b hb
    have hname := parameter_mem_ownNames ho hb
    have htype := covers_typeParts (htypes _ (type_mem_types hb))
    cases hdefault : b.default <;> simp [parameterParts, hdefault, hname, htype]
  have hparameters : ∀ ps ∈ parametersParts o.parameters, Covers c ps := by
    intro ps hps
    have hplain := List.takeWhile_subset (p := fun b : Binding => !b.keywordOnly) (l := o.parameters)
    have hrest := List.dropWhile_subset (p := fun b : Binding => !b.keywordOnly) (l := o.parameters)
    rcases List.mem_append.mp hps with hps | hps
    · obtain ⟨b, hb, rfl⟩ := List.mem_map.mp hps
      exact hparameter b (hplain hb)
    · split_ifs at hps
      · cases hps
      · rcases List.mem_cons.mp hps with rfl | hps
        · simp
        · obtain ⟨b, hb, rfl⟩ := List.mem_map.mp hps
          exact hparameter b (hrest hb)
  have hself : Covers c [.name "self"] := by simp [self_mem_ownNames]
  have hlist := covers_intercalate (List.forall_mem_cons.mpr ⟨hself, hparameters⟩)
  have hreturns : Covers c (if o.isVoid then [.mark "None"] else typeParts o.returns) := by
    split_ifs
    · simp
    · exact covers_typeParts (htypes _ List.mem_cons_self)
  have hstart : '.' ∉ (if o.isAsync then "async def" else "def").toList := by
    split_ifs <;> decide +kernel
  refine covers_append.mpr ⟨?_, covers_append.mpr ⟨hlist, ?_⟩⟩
  · simp [name_mem_ownNames ho, hstart]
  · simp [hreturns]

end

theorem covers_constructorParts (indent : String) (c : Contract) :
    ∀ line ∈ constructorParts indent c, Covers c line := by
  have hsuper : "super()" ∈ c.ownNames := by simp [Contract.ownNames]
  simp [constructorParts, hsuper, common_mem_imports c, self_mem_ownNames]

theorem covers_indented {indent : String} {lines : List (List Part)}
    (h : ∀ line ∈ lines, Covers c line) :
    ∀ line ∈ lines.map (.blank indent :: ·), Covers c line :=
  List.forall_mem_map.mpr fun line hline => covers_cons.mpr ⟨trivial, h line hline⟩

/-- The lines of a class find what they name if those of its methods do. -/
theorem covers_classParts {options : SourceOptions} {planned : List (Operation × CallPlan)}
    (h : ∀ p ∈ planned, ∀ line ∈ methodParts options.indent p.1 p.2, Covers c line) :
    ∀ line ∈ classParts options c planned, Covers c line := by
  have hclass : c.className ∈ c.ownNames := by simp [Contract.ownNames]
  refine List.forall_mem_append.mpr ⟨List.forall_mem_append.mpr ⟨List.forall_mem_append.mpr ⟨?_, ?_⟩,
    covers_indented (covers_constructorParts options.indent c)⟩, ?_⟩
  · split_ifs <;> simp [common_mem_imports c]
  · simp [hclass, common_mem_imports c]
  · intro line hline
    obtain ⟨p, hp, hline⟩ := List.mem_flatMap.mp hline
    rcases List.mem_cons.mp hline with rfl | hline
    · exact covers_nil
    · exact covers_indented (h p hp) line hline

end ClientSource

/-! ### Accepted contracts -/

namespace TypeReference

theorem hasModules_of_mem {t : TypeReference} {ts : List TypeReference} (h : haveModules ts = true)
    (ht : t ∈ ts) : t.hasModules = true := by
  induction ts with
  | nil => cases ht
  | cons u us ih =>
    unfold haveModules at h
    obtain ⟨hu, hus⟩ := Bool.and_eq_true_iff.mp h
    rcases List.mem_cons.mp ht with rfl | ht
    · exact hu
    · exact ih hus ht

theorem hasModules_of_mem_args {t arg : TypeReference} (h : t.hasModules = true) (harg : arg ∈ t.args) :
    arg.hasModules = true := by
  cases t
  rw [hasModules] at h
  exact hasModules_of_mem (Bool.and_eq_true_iff.mp h).2 harg

end TypeReference

namespace Signature
variable {m : Signature} {e : Endpoint} {c : Contract}

theorem hasModules_operation (h : ∀ t ∈ m.types, t.hasModules = true) :
    ∀ t ∈ (m.operation e).types, t.hasModules = true := by
  have hargs : ∀ t : TypeReference, t.hasModules = true → ∀ arg ∈ t.args, arg.hasModules = true :=
    fun t ht arg harg => TypeReference.hasModules_of_mem_args ht harg
  refine List.forall_mem_cons.mpr ⟨returns_of_types hargs rfl h, fun t ht => ?_⟩
  obtain ⟨b, hb, ht⟩ := List.mem_flatMap.mp ht
  obtain ⟨p, hp, rfl⟩ := List.mem_map.mp hb
  rcases List.mem_pair.mp ht with rfl | rfl
  · exact h _ (List.mem_cons_of_mem _ (List.mem_map_of_mem hp))
  · exact targetType_of_types hargs rfl h hp

end Signature

namespace ClientSource

theorem covers_methodParts {c : Contract} {o : Operation} {plan : CallPlan}
    (ho : o ∈ c.operations) (htypes : ∀ t ∈ o.types, c.Imports t)
    (hsteps : ∀ s ∈ plan.steps, (∀ n ∈ s.arguments, n ∈ c.ownNames) ∧ ∀ t ∈ s.types, c.Imports t)
    (indent : String) : ∀ line ∈ methodParts indent o plan, Covers c line := by
  refine List.forall_mem_cons.mpr ⟨covers_signatureParts ho htypes,
    List.forall_mem_cons.mpr ⟨by simp, covers_indented fun line hline => ?_⟩⟩
  obtain ⟨statement, hstatement, hline⟩ := List.mem_flatMap.mp hline
  obtain ⟨s, hs, hstatement⟩ := List.mem_flatMap.mp hstatement
  obtain ⟨harguments, hstep⟩ := hsteps s hs
  exact covers_statements harguments hstep indent statement hstatement line hline

end ClientSource

theorem Contract.steps_covered {candidate : Candidate} {c : Contract}
    (hc : Contract.ofCandidate candidate = .ok c)
    (hn : ∀ m ∈ candidate.methods, (m.parameters.map (·.name)).Nodup)
    (hmodules : ∀ m ∈ candidate.methods, ∀ t ∈ m.types, t.hasModules = true) {o : Operation}
    (ho : o ∈ c.operations) : (∀ t ∈ o.types, c.Imports t) ∧ ∀ plan, o.plan = .ok plan →
      ∀ s ∈ plan.steps, (∀ n ∈ s.arguments, n ∈ c.ownNames) ∧ ∀ t ∈ s.types, c.Imports t := by
  obtain ⟨m, hm, ho'⟩ := Contract.exists_of_mem_operations hc ho
  obtain ⟨e, -, -, rfl⟩ := Signature.ofSignature_eq_ok ho'
  have htypes : ∀ t ∈ (m.operation e).types, c.Imports t := fun t ht =>
    imports_of_mem_types ho ht (Signature.hasModules_operation (hmodules m hm) t ht)
  refine ⟨htypes, fun plan hplan s hs => ?_⟩
  rw [Signature.plan_operation (hn m hm) e] at hplan
  obtain rfl := Except.ok.inj hplan
  have hparameter : ∀ n, (∃ b ∈ (m.operation e).parameters, b.name = n) → n ∈ c.ownNames := by
    rintro _ ⟨b, hb, rfl⟩
    exact parameter_mem_ownNames ho hb
  exact ⟨fun n hn => hparameter n (Signature.arguments_of_mem_steps hs n hn), fun t ht =>
    htypes t (Operation.mem_types_of_mem_bodyTypes (Signature.types_of_mem_steps hs t ht))⟩

/-- The text of a type is made of its parts, and where its names and values are well-formed a reader finds
the dotted names among them. The names that they start with, `None` apart, are among the names of the type,
and are all of them if no value has arguments. Each is a type that needs no import or stands in a module
of the type, and the module of the former is not among these. So each line of the class of an accepted
contract is made of parts that find what they name: modules that are imported, once each, and names of the
class itself. -/
theorem imports_cover_references :
    (∀ t : TypeReference,
      writeParts (typeParts t) = t.render ∧
      (t.IsLegible → ∃ tree, TypeTree.read? t.render = some tree ∧
        tree.references = references (typeParts t)) ∧
      (∀ d ∈ references (typeParts t), d ≠ "None" → TypeReference.leading d ∈ t.names) ∧
      (t.literalsAreBare = true → ∀ n ∈ t.names,
        ∃ d ∈ references (typeParts t), d ≠ "None" ∧ TypeReference.leading d = n) ∧
      (t.hasModules = true → ∀ p ∈ typeParts t, p.dotted?.isSome = true →
        (∃ r ∈ t.lookedUp, r.module = builtinModule ∧ p = .bare r.qualname) ∨
          ∃ module ∈ t.modules, ∃ n, p = .reference module n) ∧
      builtinModule ∉ t.modules) ∧
    ∀ {candidate : Candidate} {c : Contract}, Contract.ofCandidate candidate = .ok c →
      (∀ m ∈ candidate.methods, (m.parameters.map (·.name)).Nodup) →
      (∀ m ∈ candidate.methods, ∀ t ∈ m.types, t.hasModules = true) →
      ∀ options, ∃ plans, c.plans = .ok plans ∧
        emit options c plans = .ok (String.intercalate "\n"
          ([docstring (moduleDoc options c), ""] ++ (imports c).map ("import " ++ ·) ++ ["", ""] ++
            (classParts options c (planned c plans)).map writeParts ++ [""])) ∧
        (imports c).Nodup ∧ ∀ line ∈ classParts options c (planned c plans), Covers c line := by
  refine ⟨fun t => ⟨write_typeParts t, fun h => h.read?_render, fun d hd hnone => ?_,
    fun hbare n hn => ?_, fun hmodules p hp hdotted => ?_, TypeReference.builtin_not_mem_modules t⟩,
    fun {candidate c} hc hn hmodules options => ?_⟩
  · exact t.heads_subset_names (TypeReference.mem_heads_iff.mpr ⟨d, hd, hnone, rfl⟩)
  · rw [← TypeReference.heads_eq_names t hbare] at hn
    exact TypeReference.mem_heads_iff.mp hn
  · rcases exists_of_mem_typeParts t hp with hmark | ⟨source, rfl⟩ | ⟨r, hr, rfl⟩
    · simp only [List.mem_cons, List.not_mem_nil, or_false] at hmark
      rcases hmark with rfl | rfl | rfl <;> cases hdotted
    · cases hdotted
    · by_cases hbuiltin : r.module = builtinModule
      · exact .inl ⟨r, hr, hbuiltin, if_pos hbuiltin⟩
      · exact .inr ⟨r.module, TypeReference.module_mem_modules hbuiltin t hmodules hr, r.qualname,
          if_neg hbuiltin⟩
  · obtain ⟨plans, hplans⟩ := Contract.exists_plans hc
    refine ⟨plans, hplans, ?_, nodup_sortedOnce _, covers_classParts fun p hp => ?_⟩
    · rw [emit_eq_lines options hplans, write_classParts]
      rfl
    · obtain ⟨ho, o, ho', hplan⟩ := exists_of_mem_planned hplans hp
      have htypes := (Contract.steps_covered hc hn hmodules ho).1
      have hsteps := (Contract.steps_covered hc hn hmodules ho').2 p.2 hplan
      exact covers_methodParts ho htypes hsteps options.indent

def statusDocuments : Candidate := { documents with methods := [storeStatus] }

theorem ofCandidate_statusDocuments : Contract.ofCandidate statusDocuments =
    .ok { documentContract with operations := [storeStatus.operation ⟨"PUT", "/docs/{id}"⟩] } :=
  Contract.ofCandidate_of_methods (c := statusDocuments) rfl
    (mapM_singleton_of_eq_ok (f := fun m => Operation.ofSignature m statusDocuments.fullName)
      (ofSignature_of_isSome rfl (by decide +kernel)))

/-- The client of the documents imports what its lines name. -/
theorem imports_cover_references_statusDocuments : ∃ c plans,
    Contract.ofCandidate statusDocuments = .ok c ∧ c.plans = .ok plans ∧
    imports c = ["app", "declient_sdk", "declient_sdk.messages", "logging", "typing"] ∧
    ∀ line ∈ classParts {} c (planned c plans), Covers c line := by
  obtain ⟨plans, hplans, -, -, hcovers⟩ := imports_cover_references.2 ofCandidate_statusDocuments
    (List.forall_mem_singleton.mpr (by decide)) (List.forall_mem_singleton.mpr (by decide +kernel)) {}
  exact ⟨_, plans, ofCandidate_statusDocuments, hplans, by decide +kernel, hcovers⟩

end HttpContract
