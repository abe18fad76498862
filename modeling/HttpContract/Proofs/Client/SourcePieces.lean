import HttpContract.Proofs.Client.Generation

/-!
# Pieces of sources

The source of a client cut into code, literals and docstrings: `sourcePieces` follows the emission part
by part, and is the source once its pieces are written (`write_sourcePieces`). The texts of a contract
stand in literals and docstrings alone. Behind every literal there is code (`spaced_sourcePieces`), so
none runs into another.
-/

namespace HttpContract.ClientSource

/-- A part of a source. -/
inductive Piece
  | code (s : String)
  /-- The literal of a text. -/
  | literal (t : String)
  /-- A docstring that says a text. -/
  | doc (t : String)
deriving DecidableEq

namespace Piece

/-- A piece as it stands in the source. -/
def write : Piece → String
  | code s => s
  | literal t => Quoted.text t
  | doc t => docstring t

@[simp] theorem write_code (s : String) : (code s).write = s := rfl

@[simp] theorem write_literal (t : String) : (literal t).write = Quoted.text t := rfl

@[simp] theorem write_doc (t : String) : (doc t).write = docstring t := rfl

/-- The text of a docstring. -/
def doc? : Piece → Option String
  | doc t => some t
  | _ => none

/-- The source of a value: the literal of a text, or code. -/
def ofSource (source : String) : Piece :=
  match Quoted.read? .none source with
  | some t => if Quoted.text t = source then literal t else code source
  | none => code source

@[simp] theorem write_ofSource (source : String) : (ofSource source).write = source := by
  unfold ofSource
  split
  · split_ifs with h
    · exact h
    · rfl
  · rfl

end Piece

/-- The texts of the docstrings among pieces. -/
def docs (ps : List Piece) : List String := ps.filterMap Piece.doc?

def writeAll (ps : List Piece) : String := (ps.map Piece.write).foldr (· ++ ·) ""

section
variable {p : Piece} {ps qs : List Piece}

@[simp] theorem docs_nil : docs [] = [] := rfl

@[simp] theorem docs_code {s : String} : docs (.code s :: ps) = docs ps := rfl

@[simp] theorem docs_literal {t : String} : docs (.literal t :: ps) = docs ps := rfl

@[simp] theorem docs_doc {t : String} : docs (.doc t :: ps) = t :: docs ps := rfl

@[simp] theorem docs_append : docs (ps ++ qs) = docs ps ++ docs qs := List.filterMap_append

theorem docs_intercalate (s : String) (pss : List (List Piece)) :
    docs ([Piece.code s].intercalate pss) = pss.flatMap docs :=
  filterMap_intercalate rfl pss

@[simp] theorem writeAll_nil : writeAll [] = "" := rfl

@[simp] theorem writeAll_cons : writeAll (p :: ps) = p.write ++ writeAll ps := rfl

@[simp] theorem writeAll_append : writeAll (ps ++ qs) = writeAll ps ++ writeAll qs := by
  induction ps with
  | nil => rw [List.nil_append, writeAll_nil, String.empty_append]
  | cons p ps ih => rw [List.cons_append, writeAll_cons, writeAll_cons, ih, String.append_assoc]

theorem writeAll_intercalate (s : String) (pss : List (List Piece)) :
    writeAll ([Piece.code s].intercalate pss) = String.intercalate s (pss.map writeAll) :=
  write_intercalate writeAll_nil (fun _ _ => writeAll_append) String.append_empty pss

end

/-! ### Types -/

mutual

/-- A rendered type. -/
def typePieces : TypeReference → List Piece
  | ⟨module, qualname, args, awaitable, rawForm, literal⟩ =>
    match literal with
    | some source => [.ofSource source]
    | none =>
      let base := TypeReference.fullName ⟨module, qualname, [], awaitable, rawForm, none⟩
      if args.isEmpty then [.code base]
      else .code base :: .code "[" :: ([.code ", "].intercalate (typePiecesAll args) ++ [.code "]"])

def typePiecesAll : List TypeReference → List (List Piece)
  | [] => []
  | t :: ts => typePieces t :: typePiecesAll ts

end

mutual

@[simp] theorem write_typePieces : (t : TypeReference) → writeAll (typePieces t) = t.render
  | ⟨module, qualname, args, awaitable, rawForm, literal⟩ => by
    unfold typePieces TypeReference.render
    cases literal with
    | some source => exact String.append_empty.trans (Piece.write_ofSource source)
    | none =>
      simp only
      split_ifs
      · exact String.append_empty
      · simp [writeAll_intercalate, write_typePiecesAll args, String.append_assoc]

theorem write_typePiecesAll :
    (ts : List TypeReference) → (typePiecesAll ts).map writeAll = TypeReference.renderAll ts
  | [] => by rw [typePiecesAll, TypeReference.renderAll, List.map_nil]
  | t :: ts => by
    rw [typePiecesAll, TypeReference.renderAll, List.map_cons, write_typePieces t,
      write_typePiecesAll ts]

end

/-! ### Methods -/

/-- The pieces of a mapping. -/
def mappingPieces (bindings : List (String × String)) : List Piece :=
  .code "\x7b" :: ([.code ", "].intercalate
    (bindings.map fun b => [.literal b.1, .code ": ", .code b.2]) ++ [.code "\x7d"])

/-- The piece of a text that may be left out. -/
def optionalPiece (s : Option String) : Piece := (s.map Piece.literal).getD (.code "None")

/-- The pieces of a line that is carried out where a parameter is given. -/
def whenGivenPieces (indent parameter : String) (line : List Piece) : List (List Piece) :=
  [[.code "if ", .code parameter, .code " is not None:"], .code indent :: line]

/-- The pieces of the lines of a step. -/
def stepPieces (indent : String) (o : Operation) : Step → List (List Piece)
  | .bindPath bs => [.code variablesLocal :: .code " = " :: mappingPieces bs]
  | .bindQuery bs => [.code paramsLocal :: .code " = " :: mappingPieces bs]
  | .construct verb path =>
    let bound := if (o.withRole .pathVariable).isEmpty then "\x7b\x7d" else variablesLocal
    let params := if (o.withRole .queryParameter).isEmpty then "\x7b\x7d" else paramsLocal
    [[.code requestLocal, .code " = self.create_request(", .literal verb, .code ", ", .literal path,
      .code ", ", .code bound, .code ", ", .code params, .code ")"]]
  | .attachHeader header p =>
    whenGivenPieces indent p
      [.code requestLocal, .code ".headers[", .literal header, .code "] = self.format_value(", .code p,
        .code ")"]
  | .attachBody p format contentType =>
    let encoder := if format = some .raw then "raw_content" else "json_content"
    let args := match Location.given contentType with
      | some t => [.code ", ", .literal t]
      | none => []
    [[.code contentLocal, .code " = self.", .code encoder, .code "(", .code p] ++
        (args ++ [.code ")"]),
      [.code requestLocal, .code ".content = ", .code contentLocal]]
  | .attachContentHeader header p =>
    whenGivenPieces indent p
      [.code contentLocal, .code ".headers[", .literal header, .code "] = self.format_value(", .code p,
        .code ")"]
  | .invoke _ =>
    let call := if o.isAsync then "await self.invoke_async" else "self.invoke"
    [[.code responseLocal, .code " = ", .code call, .code "(", .code requestLocal, .code ")"]]
  | .extractHeader header p type =>
    whenGivenPieces indent p ([.code p, .code ".value = self.get_header_value(", .code responseLocal,
      .code ", ", .literal header, .code ", "] ++ (typePieces type ++ [.code ")"]))
  | .returnHeader type header =>
    [[.code "return self.get_header_value(", .code responseLocal, .code ", ", optionalPiece header,
      .code ", "] ++ (typePieces type ++ [.code ")"])]
  | .returnBody type format =>
    if format = some .raw then
      [[.code "return self.read_raw(", .code responseLocal, .code ", ",
        .literal (type.rawForm.getD .bytes).name, .code ")"]]
    else
      [[.code "return self.read_json(", .code responseLocal, .code ", "] ++
        (typePieces type ++ [.code ")"])]

/-- The pieces of a parameter. -/
def parameterPieces (b : Binding) : List Piece :=
  .code b.name :: .code ": " :: (typePieces b.type ++
    match b.default with
    | some d => [.code " = ", .ofSource d]
    | none => [])

def parametersPieces (bs : List Binding) : List (List Piece) :=
  let rest := bs.dropWhile (!·.keywordOnly)
  (bs.takeWhile (!·.keywordOnly)).map parameterPieces ++
    if rest.isEmpty then [] else [.code "*"] :: rest.map parameterPieces

/-- The pieces of the line that a method begins with. -/
def signaturePieces (o : Operation) : List Piece :=
  let start := if o.isAsync then "async def" else "def"
  let returns := if o.isVoid then [.code "None"] else typePieces o.returns
  [.code start, .code " ", .code o.name, .code "("] ++
    ([.code ", "].intercalate ([.code "self"] :: parametersPieces o.parameters) ++
      (.code ") -> " :: (returns ++ [.code ":"])))

/-- The pieces of the lines of a method. -/
def methodPieces (indent : String) (o : Operation) (plan : CallPlan) : List (List Piece) :=
  signaturePieces o :: [.code indent, .doc (o.verb ++ " " ++ o.path)] ::
    (plan.steps.flatMap (stepPieces indent o)).map (.code indent :: ·)

@[simp] theorem write_mappingPieces (bs : List (String × String)) :
    writeAll (mappingPieces bs) = mapping bs := by
  simp [mappingPieces, mapping, writeAll_intercalate, Function.comp_def, String.append_assoc]

@[simp] theorem write_optionalPiece (s : Option String) :
    (optionalPiece s).write = optionalLiteral s := by
  cases s <;> rfl

@[simp] theorem write_whenGivenPieces (indent parameter : String) (line : List Piece) :
    (whenGivenPieces indent parameter line).map writeAll =
      whenGiven indent parameter (writeAll line) := by
  simp [whenGivenPieces, whenGiven, toString, String.append_assoc]

theorem write_stepPieces (indent : String) (o : Operation) (step : Step) :
    (stepPieces indent o step).map writeAll = stepLines indent o step := by
  cases step with
  | bindPath bs => simp [stepPieces, stepLines, toString, String.append_assoc]
  | bindQuery bs => simp [stepPieces, stepLines, toString, String.append_assoc]
  | construct verb path =>
    simp [stepPieces, stepLines, toString, String.append_assoc, String.intercalate_cons_cons]
  | attachHeader header p => simp [stepPieces, stepLines, toString, String.append_assoc]
  | attachBody p format contentType =>
    cases hgiven : Location.given contentType with
    | none => simp [stepPieces, stepLines, hgiven, toString, String.append_assoc]
    | some t => simp [stepPieces, stepLines, hgiven, toString, String.append_assoc]
  | attachContentHeader header p => simp [stepPieces, stepLines, toString, String.append_assoc]
  | invoke mode => simp [stepPieces, stepLines, toString, String.append_assoc]
  | extractHeader header p type => simp [stepPieces, stepLines, toString, String.append_assoc]
  | returnHeader type header => simp [stepPieces, stepLines, toString, String.append_assoc]
  | returnBody type format =>
    by_cases hraw : format = some .raw
    · simp [stepPieces, stepLines, hraw, toString, String.append_assoc]
    · simp [stepPieces, stepLines, hraw, toString, String.append_assoc]

theorem write_parameterPieces (b : Binding) : writeAll (parameterPieces b) = parameterText b := by
  cases hdefault : b.default with
  | none => simp [parameterPieces, parameterText, hdefault, String.append_assoc]
  | some d => simp [parameterPieces, parameterText, hdefault, String.append_assoc]

theorem write_parametersPieces (bs : List Binding) :
    (parametersPieces bs).map writeAll = parameterTexts bs := by
  have hparameters : ∀ bs : List Binding, (bs.map parameterPieces).map writeAll =
      bs.map parameterText := by
    intro bs
    rw [List.map_map]
    exact List.map_congr_left fun b _ => write_parameterPieces b
  simp only [parametersPieces, parameterTexts, List.map_append, hparameters]
  split_ifs
  · rfl
  · simp [hparameters]

theorem write_signaturePieces (o : Operation) : writeAll (signaturePieces o) = signatureLine o := by
  have hreturns : writeAll (if o.isVoid then [.code "None"] else typePieces o.returns) =
      if o.isVoid then "None" else o.returns.render := by
    split_ifs <;> simp
  simp only [signaturePieces, signatureLine, writeAll_append, writeAll_cons, writeAll_nil,
    writeAll_intercalate, List.map_cons, write_parametersPieces, hreturns, Piece.write_code, toString,
    String.append_assoc, String.append_empty]

theorem write_indented (indent : String) (lines : List (List Piece)) :
    (lines.map (.code indent :: ·)).map writeAll = (lines.map writeAll).map (indent ++ ·) := by
  rw [List.map_map, List.map_map]
  rfl

theorem write_methodPieces (indent : String) (o : Operation) (plan : CallPlan) :
    (methodPieces indent o plan).map writeAll = methodLines indent o plan := by
  have hsteps : (plan.steps.flatMap (stepPieces indent o)).map writeAll =
      plan.steps.flatMap (stepLines indent o) := by
    rw [List.map_flatMap]
    exact List.flatMap_congr fun step _ => write_stepPieces indent o step
  rw [methodPieces, methodLines, List.map_cons, List.map_cons, write_signaturePieces, write_indented,
    hsteps]
  simp

/-! ### Modules -/

/-- The pieces of the lines of the constructor. -/
def constructorPieces (indent : String) (c : Contract) : List (List Piece) :=
  [[.code (s!"def __init__(self, client: {supportModule}.HttpClient, " ++
      "logger: typing.Optional[logging.Logger] = None) -> None:")],
    [.code indent, .code "super().__init__(client, ", .literal c.serviceName, .code ", ",
      .literal c.baseRoute, .code ", logger=logger)"]]

/-- The pieces of the lines of the client class. -/
def classPieces (options : SourceOptions) (c : Contract) (planned : List (Operation × CallPlan)) :
    List (List Piece) :=
  (if options.isSealed then [[.code "@typing.final"]] else []) ++
  [[.code s!"class {c.className}({baseClass}, {c.fullName}):"],
   [.code options.indent, .doc (classDoc c)],
   []] ++
  (constructorPieces options.indent c).map (.code options.indent :: ·) ++
  planned.flatMap fun p =>
    [] :: (methodPieces options.indent p.1 p.2).map (.code options.indent :: ·)

/-- The lines of the source. -/
def linePieces (options : SourceOptions) (c : Contract) (planned : List (Operation × CallPlan)) :
    List (List Piece) :=
  [[.doc (moduleDoc options c)], []] ++
  (imports c).map (fun module => [.code "import ", .code module]) ++
  [[], []] ++
  classPieces options c planned ++
  [[]]

/-- The source as a whole. -/
def sourcePieces (options : SourceOptions) (c : Contract) (planned : List (Operation × CallPlan)) :
    List Piece :=
  [.code "\n"].intercalate (linePieces options c planned)

theorem write_linePieces (options : SourceOptions) (c : Contract)
    (planned : List (Operation × CallPlan)) :
    (linePieces options c planned).map writeAll = lines options c planned := by
  have hconstructor : (constructorPieces options.indent c).map writeAll =
      constructorLines options.indent c := by
    simp [constructorPieces, constructorLines, toString, String.append_assoc]
  have hsealed : (if options.isSealed then [[Piece.code "@typing.final"]] else []).map writeAll =
      if options.isSealed then ["@typing.final"] else [] := by
    split_ifs <;> simp
  have hmethods : (planned.flatMap fun p => [] ::
      (methodPieces options.indent p.1 p.2).map (.code options.indent :: ·)).map writeAll =
        planned.flatMap fun p => "" :: (methodLines options.indent p.1 p.2).map (options.indent ++ ·) := by
    rw [List.map_flatMap]
    refine List.flatMap_congr fun p _ => ?_
    rw [List.map_cons, write_indented, write_methodPieces, writeAll_nil]
  have himports : ((imports c).map fun module => [Piece.code "import ", .code module]).map writeAll =
      (imports c).map ("import " ++ ·) := by
    rw [List.map_map]
    exact List.map_congr_left fun module _ => by simp
  simp only [linePieces, lines, classPieces, classLines, List.map_append, hmethods, himports, hsealed,
    write_indented, hconstructor]
  simp

theorem write_sourcePieces (options : SourceOptions) (c : Contract)
    (planned : List (Operation × CallPlan)) :
    writeAll (sourcePieces options c planned) =
      String.intercalate "\n" (lines options c planned) := by
  rw [sourcePieces, writeAll_intercalate, write_linePieces]

/-! ### Docstrings -/

@[simp] theorem docs_ofSource {ps : List Piece} (source : String) :
    docs (.ofSource source :: ps) = docs ps := by
  unfold Piece.ofSource
  split
  · split_ifs <;> rfl
  · rfl

mutual

@[simp] theorem docs_typePieces : (t : TypeReference) → docs (typePieces t) = []
  | ⟨module, qualname, args, awaitable, rawForm, literal⟩ => by
    unfold typePieces
    cases literal with
    | some source => exact docs_ofSource source
    | none =>
      simp only
      split_ifs
      · rfl
      · simp [docs_intercalate, flatMap_docs_typePiecesAll args]

theorem flatMap_docs_typePiecesAll : (ts : List TypeReference) → (typePiecesAll ts).flatMap docs = []
  | [] => by rw [typePiecesAll, List.flatMap_nil]
  | t :: ts => by
    rw [typePiecesAll, List.flatMap_cons, docs_typePieces t, flatMap_docs_typePiecesAll ts,
      List.append_nil]

end

theorem flatMap_docs_stepPieces (indent : String) (o : Operation) (step : Step) :
    (stepPieces indent o step).flatMap docs = [] := by
  have hmapping : ∀ bs : List (String × String), docs (mappingPieces bs) = [] := by
    intro bs
    simp [mappingPieces, docs_intercalate, List.flatMap_map]
  cases step with
  | bindPath bs => simp [stepPieces, hmapping]
  | bindQuery bs => simp [stepPieces, hmapping]
  | construct verb path => simp [stepPieces]
  | attachHeader header p => simp [stepPieces, whenGivenPieces]
  | attachBody p format contentType =>
    cases hgiven : Location.given contentType <;> simp [stepPieces, hgiven]
  | attachContentHeader header p => simp [stepPieces, whenGivenPieces]
  | invoke mode => simp [stepPieces]
  | extractHeader header p type => simp [stepPieces, whenGivenPieces]
  | returnHeader type header => cases header <;> simp [stepPieces, optionalPiece]
  | returnBody type format =>
    by_cases hraw : format = some .raw
    · simp [stepPieces, hraw]
    · simp [stepPieces, hraw]

theorem docs_signaturePieces (o : Operation) : docs (signaturePieces o) = [] := by
  have hparameter : ∀ b : Binding, docs (parameterPieces b) = [] := by
    intro b
    cases hdefault : b.default <;> simp [parameterPieces, hdefault]
  have hparameters : (parametersPieces o.parameters).flatMap docs = [] := by
    unfold parametersPieces
    simp only
    split_ifs <;> simp [List.flatMap_map, hparameter]
  have hreturns : docs (if o.isVoid then [.code "None"] else typePieces o.returns) = [] := by
    split_ifs <;> simp
  simp [signaturePieces, docs_intercalate, hparameters, hreturns]

theorem flatMap_docs_indented (indent : String) (lines : List (List Piece)) :
    (lines.map (.code indent :: ·)).flatMap docs = lines.flatMap docs := by
  rw [List.flatMap_map]
  rfl

theorem docs_sourcePieces (options : SourceOptions) (c : Contract)
    (planned : List (Operation × CallPlan)) :
    docs (sourcePieces options c planned) =
      moduleDoc options c :: classDoc c :: planned.map fun p => p.1.verb ++ " " ++ p.1.path := by
  have hmethod : ∀ p : Operation × CallPlan, (methodPieces options.indent p.1 p.2).flatMap docs =
      [p.1.verb ++ " " ++ p.1.path] := by
    intro p
    simp [methodPieces, docs_signaturePieces, flatMap_docs_indented, List.flatMap_assoc,
      flatMap_docs_stepPieces]
  have hmethods : (planned.flatMap fun p => [] ::
      (methodPieces options.indent p.1 p.2).map (.code options.indent :: ·)).flatMap docs =
        planned.map fun p => p.1.verb ++ " " ++ p.1.path := by
    rw [List.flatMap_assoc, List.map_eq_flatMap]
    refine List.flatMap_congr fun p _ => ?_
    rw [List.flatMap_cons, docs_nil, List.nil_append, flatMap_docs_indented, hmethod]
  have hconstructor : (constructorPieces options.indent c).flatMap docs = [] := by
    simp [constructorPieces]
  have hsealed : (if options.isSealed then [[Piece.code "@typing.final"]] else []).flatMap docs =
      [] := by
    split_ifs <;> simp
  have himports : ((imports c).map fun module => [Piece.code "import ", .code module]).flatMap docs =
      [] := by
    simp [List.flatMap_map]
  rw [sourcePieces, docs_intercalate]
  simp only [linePieces, classPieces, List.flatMap_append, himports, hsealed, flatMap_docs_indented,
    hconstructor, hmethods]
  simp

end HttpContract.ClientSource
