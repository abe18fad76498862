import HttpContract.CommandLine.Arguments
import HttpContract.CommandLine.Help
import HttpContract.Generation

/-!
# Commands

The command line as a function: from arguments, declared classes, files and environment to what is
printed, the files that are left and the exit status. The command `generate` loads the settings
once, then treats its references one by one; one that fails leaves the others alone.
-/

namespace HttpContract.CommandLine

/-- What a run has done so far. -/
structure Session where
  stdout : String := ""
  stderr : String := ""
  tree : FileTree
  warnings : List String := []
deriving Repr, Inhabited

namespace Session

/-- Prints a line. -/
def print (s : Session) (line : String) : Session := { s with stdout := s.stdout ++ line ++ "\n" }

/-- Prints a line to the error stream. -/
def complain (s : Session) (line : String) : Session :=
  { s with stderr := s.stderr ++ line ++ "\n" }

/-- Shows the log records that the level lets through. -/
def tell (s : Session) (verbose : Bool) (records : List LogRecord) : Session :=
  (records.filter fun r => verbose || r.level != .debug).foldl (fun s r => s.complain r.line) s

end Session

/-- How a run ends. -/
inductive Ending
  | status (code : Nat)
  /-- The arguments end the run themselves: after help, or with an error. -/
  | exit (code : Nat)
  /-- An error that is not handled. -/
  | crash (breakdown : Breakdown)
deriving DecidableEq, Repr, Inhabited

/-! ## Arguments of the commands -/

def helpOption : OptionSpec := { names := ["-h", "--help"] }
def namespaceOption : OptionSpec := { names := ["--namespace"], takesValue := true }
def outOption : OptionSpec := { names := ["--out", "-o"], takesValue := true }
def sealedOption : OptionSpec := { names := ["--sealed", "--no-sealed"] }
def writeOption : OptionSpec := { names := ["--write", "--no-write"] }
def configOption : OptionSpec := { names := ["--config"], takesValue := true }
def verboseOption : OptionSpec := { names := ["--verbose", "-v"] }

/-- The command line up to the name of the subcommand. -/
def mainGrammar : Grammar := ⟨[helpOption], .command⟩

/-- The command line of the generation. -/
def generateGrammar : Grammar where
  options := [helpOption, namespaceOption, outOption, sealedOption, writeOption, configOption,
    verboseOption]
  plain := .several

/-- The name of the one command. -/
def generateName : String := "generate"

/-- How messages name the plain arguments. -/
def contractsTitle : String := "module:Contract"

/-- The arguments of the generation, as they are given. -/
structure GenerateArguments where
  contracts : List String := []
  rootNamespace : Option String := none
  out : Option String := none
  sealedClasses : Option Bool := none
  write : Option Bool := none
  config : Option String := none
  verbose : Bool := false
deriving DecidableEq, Repr, Inhabited

namespace GenerateArguments

/-- Whether a flag is set by the name it was given under. -/
def isPositive (name : String) : Bool := !name.startsWith "--no-"

/-- The arguments with one more of those read. -/
def add (a : GenerateArguments) : Found → GenerateArguments
  | .plain contracts => { a with contracts }
  | .option spec name value =>
    if spec = namespaceOption then { a with rootNamespace := value }
    else if spec = outOption then { a with out := value }
    else if spec = sealedOption then { a with sealedClasses := some (isPositive name) }
    else if spec = writeOption then { a with write := some (isPositive name) }
    else if spec = configOption then { a with config := value }
    else if spec = verboseOption then { a with verbose := true }
    else a

/-- What is handed to the settings; what was not given is null there. -/
def settings (a : GenerateArguments) : Layer :=
  let text (s : Option String) : Value := (s.map Value.text).getD .null
  let flag (b : Option Bool) : Value := (b.map Value.bool).getD .null
  [("root_namespace", text a.rootNamespace), ("source_file_path", text a.out),
    ("generate_sealed_classes", flag a.sealedClasses), ("output_source_files", flag a.write)]

/-- The settings file that is asked for; an empty name asks for none. -/
def file (a : GenerateArguments) : Option PathName :=
  (a.config.filter (· != "")).map PathName.ofText

end GenerateArguments

/-- What the arguments ask for. -/
inductive Request
  | help (text : String)
  /-- The arguments are wrong; the usage of the command and its name lead the message. -/
  | misuse (usage command : String) (error : UsageError)
  | nothing
  | generate (arguments : GenerateArguments)
deriving Repr, Inhabited

/-- Whether help is asked for. -/
def asksHelp (found : List Found) : Bool :=
  found.any fun
    | .option spec _ _ => spec = helpOption
    | .plain _ => false

/-- The arguments of the command `generate`, and those it does not know. -/
def readGenerate (arguments : List String) : Except Request (GenerateArguments × List String) :=
  let r := generateGrammar.read arguments
  let misuse (e : UsageError) : Request := .misuse generateUsage "declient generate" e
  if asksHelp r.found then .error (.help generateHelp)
  else match r.stop with
    | some e => .error (misuse e)
    | none =>
      let a := r.found.foldl GenerateArguments.add {}
      if a.contracts.isEmpty then .error (misuse (.required contractsTitle))
      else .ok (a, r.extras)

/-- What a command line asks for. -/
def request (arguments : List String) : Request :=
  let r := mainGrammar.read arguments
  let misuse (e : UsageError) : Request := .misuse usage "declient" e
  if asksHelp (r.found.takeWhile fun f => !(f matches .plain _)) then .help help
  else
    let plain := r.found.findSome? fun
      | .plain as => some as
      | .option .. => none
    let finish (extras : List String) (done : Request) : Request :=
      match r.stop with
      | some e => misuse e
      | none => if extras.isEmpty then done else misuse (.unrecognized extras)
    match plain with
    | some (command :: rest) =>
      if command ≠ generateName then misuse (.unknownCommand command [generateName])
      else match readGenerate rest with
        | .error r => r
        | .ok (a, extras) => finish (r.extras ++ extras) (.generate a)
    | _ => finish r.extras .nothing

/-! ## Running -/

/-- Generates the client of one reference; whether that succeeded. -/
def generateOne (settings : GenerationSettings) (verbose : Bool) (p : Program) (s : Session)
    (reference : String) : Except Breakdown (Session × Bool) :=
  match p.resolve reference with
  | .error e =>
    match e.breakdown? with
    | some b => .error b
    | none => .ok (s.complain s!"Error: cannot load {reference}: {e.message}", false)
  | .ok subject =>
    let r := Generation.generate settings (p.after reference) subject s.tree
    let s := { s.tell verbose r.log with tree := r.tree, warnings := s.warnings ++ r.warnings }
    match r.result with
    | .ok g =>
      let s := s.print g.fullClassName
      let wrote := g.path.toList.map fun path =>
        (⟨.info, "declient.cli", "Wrote " ++ path.text⟩ : LogRecord)
      .ok (s.tell verbose wrote, true)
    | .error (.broken b) => .error b
    | .error f =>
      .ok (s.complain ("Error: " ++ ((f.diagnostic?.map Diagnostic.format).getD "")), false)

/-- Generates the clients of references in order, each in the program that the look-ups before it
leave; whether all succeeded. -/
def generateAll (settings : GenerationSettings) (verbose : Bool) :
    Program → Session → List String → Except Breakdown (Session × Bool)
  | _, s, [] => .ok (s, true)
  | p, s, r :: rest => do
    let (s, ok) ← generateOne settings verbose p s r
    let (s, others) ← generateAll settings verbose (p.after r) s rest
    pure (s, ok && others)

/-- Whether the stack is too small for reading the settings file. -/
def exhausts (p : Program) (tree : FileTree) (asked : Option PathName) : Bool :=
  match GenerationSettings.locate tree ⟨"", []⟩ asked with
  | .ok (some path) =>
    match tree.read path with
    | .ok content => (Utf8.decode? content).any (p.surroundings.exhausts (path.suffix = ".toml"))
    | .error _ => false
  | _ => false

/-- Loads the settings of the command. -/
def loadSettings (p : Program) (environment : List (String × String)) (a : GenerateArguments)
    (tree : FileTree) : Except GenerationSettings.LoadFailure GenerationSettings :=
  if exhausts p tree a.file then .error (.escapes .endlessRecursion)
  else match GenerationSettings.layerOf tree a.file a.settings with
    | .error e => .error (.ofError e)
    | .ok entries =>
      match if entries.isPlain then none else p.surroundings.steer? tree environment entries with
      | some outcome => outcome
      | none => (GenerationSettings.ofValues environment entries).mapError .ofError

/-- Runs the generation: loads the settings, then handles one reference after the other. -/
def runGenerate (p : Program) (environment : List (String × String)) (a : GenerateArguments)
    (s : Session) : Session × Ending :=
  match loadSettings p environment a s.tree with
  | .error (.escapes b) => (s, .crash b)
  | .error (.reported message) =>
    (s.complain s!"Error: cannot load configuration: {message}", .status 1)
  | .ok settings =>
    match generateAll settings a.verbose p s a.contracts with
    | .ok (s, ok) => (s, .status (if ok then 0 else 1))
    | .error b => (s, .crash b)

/-- Runs the command line. -/
def run (p : Program) (environment : List (String × String)) (tree : FileTree)
    (arguments : List String) : Session × Ending :=
  let s : Session := { tree }
  match request arguments with
  | .help text => ({ s with stdout := text }, .exit 0)
  | .misuse usage command e =>
    ({ s with stderr := usage ++ command ++ ": error: " ++ e.message ++ "\n" }, .exit 2)
  | .nothing => ({ s with stdout := help }, .status 2)
  | .generate a => runGenerate p environment a s

end HttpContract.CommandLine
