import HttpContract.ClientSource
import HttpContract.Contract.Description
import HttpContract.Declaration.Reference
import HttpContract.Settings.Generation

/-!
# Generation

One contract from its declaration to its source: reading, checking, planning, emitting and, if the
settings ask for it, writing. An error ends the work before anything is written. A source that
cannot be written is still handed out; a warning tells of it.
-/

namespace HttpContract

/-- What the generation of a client hands out. -/
structure GeneratedClient where
  source : String
  /-- The dotted name that the client class is imported by. -/
  fullClassName : String
  moduleName : String
  className : String
  /-- Where the source was written. -/
  path : Option PathName := none
  /-- What the source was made from. -/
  contract : Contract
  plans : List CallPlan
deriving Repr, Inhabited

/-- What a piece of work leaves behind. -/
structure Report (α : Type) where
  result : Except Failure α
  tree : FileTree
  log : List LogRecord := []
  warnings : List String := []

namespace Generation

/-- The logger that generation reports to. -/
def logger : String := "declient.generator"

/-- A log record about a contract. -/
def record (level : LogLevel) (label message : String) : LogRecord :=
  ⟨level, logger, "[" ++ label ++ "] " ++ message⟩

/-- What of the settings the source depends on. -/
def options (settings : GenerationSettings) : SourceOptions :=
  { rootNamespace := settings.rootNamespace, isSealed := settings.sealedClasses }

/-- The source of the client of a candidate. -/
def sourceOf (settings : GenerationSettings) (c : Candidate) : Except Failure GeneratedClient := do
  let contract ← Contract.ofCandidate c
  let plans ← contract.plans
  let source ← ClientSource.emit (options settings) contract plans
  pure {
    source, contract, plans, className := contract.className, moduleName := settings.rootNamespace
    fullClassName := settings.rootNamespace ++ "." ++ contract.className }

/-- Writes a source, making the directories on the way; the tree that is left, and what went
wrong. -/
def writeSource (tree : FileTree) (directory path : PathName) (source : String) :
    FileTree × Option FileError :=
  match tree.ensureDirectories directory with
  | .error e => (tree, some e)
  | .ok made =>
    match made.write path (Utf8.encode source) with
    | .error e => (made, some e)
    | .ok written => (written, none)

/-- Writes the source if the settings ask for it. -/
def deliver (settings : GenerationSettings) (label : String) (g : GeneratedClient) (tree : FileTree)
    (log : List LogRecord) : Report GeneratedClient :=
  if !settings.writeSources then { result := .ok g, tree, log }
  else
    let directory := PathName.ofText settings.directory
    let path := directory.join (g.className ++ ".py")
    let log := log ++ [record .debug label ("Writing source file: " ++ path.text)]
    match writeSource tree directory path g.source with
    | (tree, none) => { result := .ok { g with path := some path }, tree, log }
    | (tree, some e) =>
      if e.fault = .unusable then { result := .error (.broken .badValue), tree, log }
      else {
        result := .ok g, tree
        log := log ++ [record .warning label s!"Error writing source file {path.text}: {e.message}"]
        warnings := [s!"Could not write generated source to {path.text}: {e.message}"] }

/-- Generates the client of a subject. -/
def generate (settings : GenerationSettings) (p : Program) (s : Subject) (tree : FileTree) :
    Report GeneratedClient :=
  let label := p.label s
  let begun := [record .debug label "Beginning to generate source"]
  match p.candidateOf s with
  | .error e => { result := .error e, tree, log := begun }
  | .ok c =>
    let read := begun ++ p.recordsOf s c
    match sourceOf settings c with
    | .error e => { result := .error e, tree, log := read }
    | .ok generated =>
      deliver settings label generated tree (read ++ [record .debug label "Source generated"])

end Generation

end HttpContract
