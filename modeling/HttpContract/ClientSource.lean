import HttpContract.Plan
import HttpContract.Text.Quoted

/-!
# Client source

The source text of the client class of a contract. Each method's body follows its plan step by step,
imports are sorted, and nothing but the contract, the plans and the options enters the text.
-/

namespace HttpContract

/-- Puts a name in its place among names in ascending order, unless it is there. -/
def insertOnce (name : String) : List String → List String
  | [] => [name]
  | n :: ns =>
    if name < n then name :: n :: ns
    else if name = n then n :: ns
    else n :: insertOnce name ns

/-- The elements of a list in ascending order, each one once. -/
def sortedOnce (names : List String) : List String := names.foldr insertOnce []

namespace Contract

/-- The class name: the full name without its dots. -/
def className (c : Contract) : String := String.ofList (c.fullName.toList.filter (· != '.'))

end Contract

/-- What sources depend on beside the contract. -/
structure SourceOptions where
  indent : String := "    "
  rootNamespace : String := "declient.generated"
  isSealed : Bool := false
deriving Repr, Inhabited

namespace ClientSource

/-- The class that all client classes extend. -/
def baseClass : String := supportModule ++ ".DiscoveryAwareBase"

/-- The locals of generated bodies. -/
def variablesLocal : String := reservedStart ++ "variables"

/-- The local for the query parameters. -/
def paramsLocal : String := reservedStart ++ "params"
def requestLocal : String := reservedStart ++ "request"
def contentLocal : String := reservedStart ++ "content"
def responseLocal : String := reservedStart ++ "response"

def docQuote : String := "\"\"\""

/-- A docstring on one line. -/
def docstring (text : String) : String := docQuote ++ text ++ docQuote

/-- A dictionary display from quoted keys to names. -/
def mapping (bindings : List (String × String)) : String :=
  "\x7b" ++ String.intercalate ", " (bindings.map fun b => Quoted.text b.1 ++ ": " ++ b.2) ++ "\x7d"

/-- A text as a literal, or the literal for none. -/
def optionalLiteral (s : Option String) : String := (s.map Quoted.text).getD "None"

/-- Lines that run unless an argument is none. -/
def whenGiven (indent parameter line : String) : List String :=
  [s!"if {parameter} is not None:", indent ++ line]

/-- The lines that carry out a step in the body of a method. -/
def stepLines (indent : String) (o : Operation) : Step → List String
  | .bindPath bs => [s!"{variablesLocal} = {mapping bs}"]
  | .bindQuery bs => [s!"{paramsLocal} = {mapping bs}"]
  | .construct verb path =>
    let bound := if (o.withRole .pathVariable).isEmpty then "\x7b\x7d" else variablesLocal
    let params := if (o.withRole .queryParameter).isEmpty then "\x7b\x7d" else paramsLocal
    [s!"{requestLocal} = self.create_request(" ++
      String.intercalate ", " [Quoted.text verb, Quoted.text path, bound, params] ++ ")"]
  | .attachHeader header p =>
    whenGiven indent p s!"{requestLocal}.headers[{Quoted.text header}] = self.format_value({p})"
  | .attachBody p format contentType =>
    let encoder := if format = some .raw then "raw_content" else "json_content"
    let args := match Location.given contentType with
      | some t => p ++ ", " ++ Quoted.text t
      | none => p
    [s!"{contentLocal} = self.{encoder}({args})", s!"{requestLocal}.content = {contentLocal}"]
  | .attachContentHeader header p =>
    whenGiven indent p s!"{contentLocal}.headers[{Quoted.text header}] = self.format_value({p})"
  | .invoke _ =>
    let call := if o.isAsync then "await self.invoke_async" else "self.invoke"
    [s!"{responseLocal} = {call}({requestLocal})"]
  | .extractHeader header p type =>
    whenGiven indent p
      (s!"{p}.value = self.get_header_value({responseLocal}, {Quoted.text header}, " ++
        type.render ++ ")")
  | .returnHeader type header =>
    [s!"return self.get_header_value({responseLocal}, {optionalLiteral header}, {type.render})"]
  | .returnBody type format =>
    if format = some .raw then
      let kind := type.rawForm.getD .bytes
      [s!"return self.read_raw({responseLocal}, {Quoted.text kind.name})"]
    else [s!"return self.read_json({responseLocal}, {type.render})"]

/-- A parameter as the signature has it. -/
def parameterText (b : Binding) : String :=
  b.name ++ ": " ++ b.type.render ++ ((b.default.map (" = " ++ ·)).getD "")

/-- The parameters in order, with a star in front of the first one that is keyword-only. -/
def parameterTexts (bs : List Binding) : List String :=
  let plain := bs.takeWhile (!·.keywordOnly)
  let rest := bs.dropWhile (!·.keywordOnly)
  plain.map parameterText ++ (if rest.isEmpty then [] else "*" :: rest.map parameterText)

/-- The line that a method begins with. -/
def signatureLine (o : Operation) : String :=
  let returns := if o.isVoid then "None" else o.returns.render
  let start := if o.isAsync then "async def" else "def"
  s!"{start} {o.name}(" ++ String.intercalate ", " ("self" :: parameterTexts o.parameters) ++
    s!") -> {returns}:"

/-- The lines of a method: its signature, its docstring, and its body step by step. -/
def methodLines (indent : String) (o : Operation) (plan : CallPlan) : List String :=
  signatureLine o ::
    (indent ++ docstring (o.verb ++ " " ++ o.path)) ::
    (plan.steps.flatMap (stepLines indent o)).map (indent ++ ·)

/-- The modules that the client imports. -/
def imports (c : Contract) : List String :=
  sortedOnce (["logging", "typing", supportModule, c.module] ++
    c.operations.flatMap fun o =>
      o.returns.modules ++ o.parameters.flatMap fun b => b.type.modules ++ b.valueType.modules)

/-- What the docstring of the client class says. -/
def classDoc (c : Contract) : String := s!"HTTP client for the {Quoted.text c.serviceName} service."

/-- The lines of the constructor, which hands the service and its route to the base class. -/
def constructorLines (indent : String) (c : Contract) : List String :=
  [s!"def __init__(self, client: {supportModule}.HttpClient, " ++
      "logger: typing.Optional[logging.Logger] = None) -> None:",
   indent ++ "super().__init__(client, " ++
      s!"{Quoted.text c.serviceName}, {Quoted.text c.baseRoute}, logger=logger)"]

/-- The lines of the client class, which extends the contract. -/
def classLines (options : SourceOptions) (c : Contract) (planned : List (Operation × CallPlan)) :
    List String :=
  (if options.isSealed then ["@typing.final"] else []) ++
  [s!"class {c.className}({baseClass}, {c.fullName}):",
   options.indent ++ docstring (classDoc c),
   ""] ++
  (constructorLines options.indent c).map (options.indent ++ ·) ++
  planned.flatMap fun p =>
    "" :: (methodLines options.indent p.1 p.2).map (options.indent ++ ·)

/-- What the docstring of the module says. -/
def moduleDoc (options : SourceOptions) (c : Contract) : String :=
  s!"Client for {c.fullName}.\n\nGenerated by declient into {options.rootNamespace}. DO NOT EDIT.\n"

/-- The lines of the whole module: its docstring, its imports, its class. -/
def lines (options : SourceOptions) (c : Contract) (planned : List (Operation × CallPlan)) :
    List String :=
  [docstring (moduleDoc options c), ""] ++
  (imports c).map ("import " ++ ·) ++
  ["", ""] ++
  classLines options c planned ++
  [""]

/-- The plan of a method, the last one counting. -/
def planFor? (plans : List CallPlan) (name : String) : Option CallPlan :=
  plans.reverse.find? (·.method == name)

/-- The source of the client; every operation needs its plan. -/
def emit (options : SourceOptions) (c : Contract) (plans : List CallPlan) :
    Except Failure String :=
  let missing := (c.operations.filter fun o => (planFor? plans o.name).isNone).map (·.name)
  if missing.isEmpty then
    let planned := c.operations.filterMap fun o => (planFor? plans o.name).map (o, ·)
    .ok (String.intercalate "\n" (lines options c planned))
  else .error (.rejected (.noPlan missing) c.fullName none)

end ClientSource

end HttpContract
