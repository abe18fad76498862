import HttpContract.Proofs.Client.SourceReading

/-!
# Outlines of sources

What is left of a source when its texts are left out is what is left of the source of the contract
without texts (`outline_sourcePieces`): no text of a contract has a part in the code around it.
-/

namespace HttpContract

/-! ### Contracts without texts -/

/-- The text that stands for any that is not empty. -/
def placeholder : String := "text"

/-- Whether there is a text, as far as the emission asks for it. -/
def withoutText (s : Option String) : Option String := (Location.given s).map fun _ => placeholder

theorem given_placeholder : Location.given (some placeholder) = some placeholder := rfl

namespace Binding

/-- The parameter without the texts that its marks give. -/
def withoutTexts (b : Binding) : Binding :=
  { b with key := "", contentType := withoutText b.contentType }

end Binding

namespace ResultPlace

def withoutTexts : ResultPlace → ResultPlace
  | body format contentType => body format contentType
  | header name => header (name.map fun _ => "")

end ResultPlace

namespace Operation

/-- The operation without its verb, its path, its keys and the names of its headers. -/
def withoutTexts (o : Operation) : Operation where
  name := o.name
  verb := ""
  path := ""
  completion := o.completion
  returns := o.returns
  isVoid := o.isVoid
  parameters := o.parameters.map Binding.withoutTexts
  requestHeaders := o.requestHeaders.map fun h => ("", h.2)
  contentHeaders := o.contentHeaders.map fun h => ("", h.2)
  body := o.body
  resultPlace := o.resultPlace.map ResultPlace.withoutTexts

end Operation

namespace Step

/-- The step without the texts that it is carried out with. -/
def withoutTexts : Step → Step
  | bindPath bs => bindPath (bs.map fun b => ("", b.2))
  | bindQuery bs => bindQuery (bs.map fun b => ("", b.2))
  | construct _ _ => construct "" ""
  | attachHeader _ p => attachHeader "" p
  | attachBody p format contentType => attachBody p format (withoutText contentType)
  | attachContentHeader _ p => attachContentHeader "" p
  | invoke mode => invoke mode
  | extractHeader _ p type => extractHeader "" p type
  | returnBody type format => returnBody type format
  | returnHeader type header => returnHeader type (header.map fun _ => "")

end Step

namespace CallPlan

/-- The plan without the texts of its steps. -/
def withoutTexts (plan : CallPlan) : CallPlan := { plan with steps := plan.steps.map Step.withoutTexts }

end CallPlan

namespace Contract

/-- The contract without the name and the route of its service and the texts of its operations. -/
def withoutTexts (c : Contract) : Contract :=
  { c with serviceName := "", baseRoute := "", operations := c.operations.map Operation.withoutTexts }

end Contract

namespace Operation

theorem withRole_withoutTexts (o : Operation) (r : Role) :
    o.withoutTexts.withRole r = (o.withRole r).map Binding.withoutTexts := by
  unfold withRole withoutTexts
  rw [List.filter_map]
  rfl

theorem bindingSteps_withoutTexts (o : Operation) (r : Role) {make : List (String × String) → Step}
    (hmake : ∀ bs, (make bs).withoutTexts = make (bs.map fun b => ("", b.2))) :
    o.withoutTexts.bindingSteps r make = (o.bindingSteps r make).map Step.withoutTexts := by
  unfold bindingSteps
  rw [withRole_withoutTexts]
  cases o.withRole r with
  | nil => rfl
  | cons b bs =>
    simp only [List.map_cons, List.map_nil, hmake, List.map_map]
    rfl

theorem bodySteps_withoutTexts (o : Operation) :
    o.withoutTexts.bodySteps = o.bodySteps.map (·.map Step.withoutTexts) := by
  have hparameter : ∀ name, o.withoutTexts.parameter? name =
      (o.parameter? name).map Binding.withoutTexts := by
    intro name
    unfold parameter? withoutTexts
    rw [List.find?_map]
    rfl
  have hbody : o.withoutTexts.body = o.body := rfl
  unfold bodySteps
  rw [hbody]
  cases o.body with
  | none => rfl
  | some name =>
    simp only [hparameter]
    cases o.parameter? name with
    | none => rfl
    | some b =>
      simp only [Option.map_some, Except.map, List.map_cons, withoutTexts, List.map_map]
      rfl

theorem returnSteps_withoutTexts (o : Operation) :
    o.withoutTexts.returnSteps = o.returnSteps.map (·.map Step.withoutTexts) := by
  unfold returnSteps withoutTexts
  simp only
  split_ifs
  · rfl
  · cases o.resultPlace with
    | none => rfl
    | some place => cases place <;> rfl

theorem plan_withoutTexts (o : Operation) :
    o.withoutTexts.plan = o.plan.map CallPlan.withoutTexts := by
  unfold plan
  rw [bodySteps_withoutTexts, returnSteps_withoutTexts]
  cases o.bodySteps with
  | error e => rfl
  | ok body =>
    cases o.returnSteps with
    | error e => rfl
    | ok returns =>
      have hholders : (o.withoutTexts.withRole .responseHeader).map
          (fun b => Step.extractHeader b.key b.name b.valueType) =
            ((o.withRole .responseHeader).map fun b =>
              Step.extractHeader b.key b.name b.valueType).map Step.withoutTexts := by
        rw [withRole_withoutTexts, List.map_map, List.map_map]
        rfl
      have hheaders : o.withoutTexts.requestHeaders.map (fun h => Step.attachHeader h.1 h.2) =
          (o.requestHeaders.map fun h => Step.attachHeader h.1 h.2).map Step.withoutTexts := by
        unfold withoutTexts
        rw [List.map_map, List.map_map]
        rfl
      have hpath : ∀ bs, (Step.bindPath bs).withoutTexts = .bindPath (bs.map fun b => ("", b.2)) :=
        fun _ => rfl
      have hquery : ∀ bs, (Step.bindQuery bs).withoutTexts = .bindQuery (bs.map fun b => ("", b.2)) :=
        fun _ => rfl
      simp only [Except.map, ok_bind]
      refine congrArg Except.ok (congrArg (CallPlan.mk o.name) ?_)
      simp only [List.map_append, bindingSteps_withoutTexts o .pathVariable hpath,
        bindingSteps_withoutTexts o .queryParameter hquery, hholders, hheaders]
      rfl

end Operation

namespace ClientSource

/-! ### Outlines -/

/-- The piece with its text left out. -/
def Piece.blank : Piece → Piece
  | code s => code s
  | literal _ => literal ""
  | doc _ => doc ""

/-- What is left of pieces when their texts are left out. -/
def outline (ps : List Piece) : List Piece := ps.map Piece.blank

section
variable {ps qs : List Piece}

@[simp] theorem outline_nil : outline [] = [] := rfl

@[simp] theorem outline_code {s : String} : outline (.code s :: ps) = .code s :: outline ps := rfl

@[simp] theorem outline_literal {t : String} :
    outline (.literal t :: ps) = .literal "" :: outline ps := rfl

@[simp] theorem outline_doc {t : String} : outline (.doc t :: ps) = .doc "" :: outline ps := rfl

@[simp] theorem outline_append : outline (ps ++ qs) = outline ps ++ outline qs := List.map_append

theorem outline_intercalate (s : String) (pss : List (List Piece)) :
    outline ([Piece.code s].intercalate pss) = [Piece.code s].intercalate (pss.map outline) := by
  induction pss with
  | nil => rfl
  | cons ps pss ih =>
    cases pss with
    | nil => simp
    | cons qs pss =>
      rw [List.intercalate_cons_cons, outline_append, outline_append, ih]
      simp [List.intercalate_cons_cons]

end

theorem outline_mappingPieces (bs : List (String × String)) :
    outline (mappingPieces (bs.map fun b => ("", b.2))) = outline (mappingPieces bs) := by
  simp [mappingPieces, outline_intercalate, Function.comp_def]

theorem outline_optionalPiece (s : Option String) (ps : List Piece) :
    outline (optionalPiece (s.map fun _ => "") :: ps) = outline (optionalPiece s :: ps) := by
  cases s <;> rfl

theorem outline_stepPieces (indent : String) (o : Operation) (step : Step) :
    (stepPieces indent o.withoutTexts step.withoutTexts).map outline =
      (stepPieces indent o step).map outline := by
  cases step with
  | bindPath bs => simp [stepPieces, Step.withoutTexts, outline_mappingPieces]
  | bindQuery bs => simp [stepPieces, Step.withoutTexts, outline_mappingPieces]
  | construct verb path =>
    simp [stepPieces, Step.withoutTexts, Operation.withRole_withoutTexts]
  | attachHeader header p => rfl
  | attachBody p format contentType =>
    cases hgiven : Location.given contentType with
    | none =>
      have hnone : Location.given none = none := rfl
      simp [stepPieces, Step.withoutTexts, withoutText, hgiven, hnone]
    | some t => simp [stepPieces, Step.withoutTexts, withoutText, hgiven, given_placeholder]
  | attachContentHeader header p => rfl
  | invoke mode => rfl
  | extractHeader header p type => rfl
  | returnHeader type header =>
    simp [stepPieces, Step.withoutTexts, outline_optionalPiece]
  | returnBody type format =>
    by_cases hraw : format = some .raw
    · simp [stepPieces, Step.withoutTexts, hraw]
    · simp [stepPieces, Step.withoutTexts, hraw]

theorem outline_parametersPieces (bs : List Binding) :
    parametersPieces (bs.map Binding.withoutTexts) = parametersPieces bs := by
  have hplain : ((fun b => !b.keywordOnly) ∘ Binding.withoutTexts) = fun b : Binding => !b.keywordOnly :=
    rfl
  have hpieces : parameterPieces ∘ Binding.withoutTexts = parameterPieces := rfl
  simp only [parametersPieces, List.takeWhile_map, List.dropWhile_map, hplain, List.map_map, hpieces,
    List.isEmpty_map]

theorem outline_signaturePieces (o : Operation) :
    signaturePieces o.withoutTexts = signaturePieces o := by
  have hparameters : parametersPieces o.withoutTexts.parameters = parametersPieces o.parameters :=
    outline_parametersPieces o.parameters
  unfold signaturePieces
  rw [hparameters]
  rfl

theorem outline_indented (indent : String) (lines : List (List Piece)) :
    (lines.map (.code indent :: ·)).map outline =
      (lines.map outline).map (.code indent :: ·) := by
  rw [List.map_map, List.map_map]
  rfl

theorem outline_methodPieces (indent : String) (o : Operation) (plan : CallPlan) :
    (methodPieces indent o.withoutTexts plan.withoutTexts).map outline =
      (methodPieces indent o plan).map outline := by
  have hsteps : (plan.withoutTexts.steps.flatMap (stepPieces indent o.withoutTexts)).map outline =
      (plan.steps.flatMap (stepPieces indent o)).map outline := by
    show ((plan.steps.map Step.withoutTexts).flatMap _).map outline = _
    rw [List.flatMap_map, List.map_flatMap, List.map_flatMap]
    exact List.flatMap_congr fun step _ => outline_stepPieces indent o step
  unfold methodPieces
  rw [outline_signaturePieces, List.map_cons, List.map_cons, List.map_cons, List.map_cons,
    outline_indented, outline_indented, hsteps]
  simp

theorem imports_withoutTexts (c : Contract) : imports c.withoutTexts = imports c := by
  simp only [imports, Contract.withoutTexts, Operation.withoutTexts, Binding.withoutTexts,
    List.flatMap_map]

theorem outline_linePieces (options : SourceOptions) (c : Contract)
    (planned : List (Operation × CallPlan)) :
    (linePieces options c.withoutTexts
        (planned.map fun p => (p.1.withoutTexts, p.2.withoutTexts))).map outline =
      (linePieces options c planned).map outline := by
  have hconstructor : (constructorPieces options.indent c.withoutTexts).map outline =
      (constructorPieces options.indent c).map outline := by
    simp [constructorPieces]
  have hmethods : ((planned.map fun p => (p.1.withoutTexts, p.2.withoutTexts)).flatMap fun p => [] ::
      (methodPieces options.indent p.1 p.2).map (.code options.indent :: ·)).map outline =
        (planned.flatMap fun p => [] ::
          (methodPieces options.indent p.1 p.2).map (.code options.indent :: ·)).map outline := by
    rw [List.flatMap_map, List.map_flatMap, List.map_flatMap]
    refine List.flatMap_congr fun p _ => ?_
    rw [List.map_cons, List.map_cons, outline_indented, outline_indented, outline_methodPieces]
  have hname : c.withoutTexts.className = c.className := rfl
  have hfullName : c.withoutTexts.fullName = c.fullName := rfl
  simp only [linePieces, classPieces, List.map_append, hmethods, outline_indented, hconstructor,
    imports_withoutTexts, hname, hfullName, List.map_cons, List.map_nil, outline_doc, outline_nil,
    outline_code]

/-- Only the texts of a source depend on the texts of its contract. -/
theorem outline_sourcePieces (options : SourceOptions) (c : Contract)
    (planned : List (Operation × CallPlan)) :
    outline (sourcePieces options c.withoutTexts
        (planned.map fun p => (p.1.withoutTexts, p.2.withoutTexts))) =
      outline (sourcePieces options c planned) := by
  rw [sourcePieces, sourcePieces, outline_intercalate, outline_intercalate, outline_linePieces]

end ClientSource

end HttpContract
