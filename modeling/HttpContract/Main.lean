import HttpContract.CommandLine.Command
import HttpContract.Interchange.Declarations
import HttpContract.Json.Reader

/-!
# Main program

Runs the command line. The declared classes come as one document on standard input; the settings
file, the environment and the files that are written are those of the process. What is decided is
decided by `CommandLine.run`.
-/

namespace HttpContract.MainProgram

/-- The declarations of a document. -/
def programOf (text : String) : Except String Program := do
  let j ← Option.elim (Json.read? .unbounded text) (.error "malformed declarations") .ok
  let scope ← Interchange.decodeScope j
  match Program.ofScope scope with
  | .ok p => pure p
  | .error f =>
    throw ((f.diagnostic?.map Diagnostic.format).getD "declarations that cannot be made")

/-- The names of the variables that settings come from. -/
def variableNames : List String :=
  ["ROOT_NAMESPACE", "SOURCE_FILE_PATH", "GENERATE_SEALED_CLASSES", "OUTPUT_SOURCE_FILES"].map
    (GenerationSettings.variableStart ++ ·)

/-- The files that a request may read. -/
def filesAsked : CommandLine.Request → List String
  | .generate a => (a.file.map PathName.text).toList ++ GenerationSettings.fileNames
  | _ => []

/-- The variables of the environment that settings are read from. -/
def readVariables : IO (List (String × String)) := do
  variableNames.filterMapM fun name => do
    return (← IO.getEnv name).map (name, ·)

/-- The files at the given paths that can be read, as one tree. -/
def readFiles (paths : List String) : IO FileTree := do
  let files ← paths.filterMapM fun (path : String) => do
    match ← (IO.FS.readBinFile path).toBaseIO with
    | .ok content => return some (path, content.toList)
    | .error _ => return none
  return .ofContents files

/-- The path to a place. -/
def pathTo (place : Place) : PathName :=
  if place.head? = some "/" then ⟨"/", place.drop 1⟩ else ⟨"", place⟩

/-- Writes the files that a run has added or changed. -/
def writeFiles (before after : FileTree) : IO Unit := do
  for (place, content) in after.files do
    if !before.files.contains (place, content) then
      IO.FS.createDirAll (pathTo place.dropLast).text
      IO.FS.writeBinFile (pathTo place).text ⟨content.toArray⟩

/-- The program that a request is about; only generation needs one. -/
def readProgram : CommandLine.Request → IO (Except String Program)
  | .generate _ => do return programOf (← (← IO.getStdin).readToEnd)
  | _ => return .ok { scope := [], lineages := [] }

end HttpContract.MainProgram

open HttpContract in

/-- Runs one command on the arguments of the process. -/
def main (arguments : List String) : IO UInt32 := do
  let request := CommandLine.request arguments
  match ← MainProgram.readProgram request with
  | .error message =>
    IO.eprintln s!"Error: {message}"
    return 1
  | .ok program =>
    let tree ← MainProgram.readFiles (MainProgram.filesAsked request)
    let (session, ending) := CommandLine.run program (← MainProgram.readVariables) tree arguments
    MainProgram.writeFiles tree session.tree
    IO.print session.stdout
    IO.eprint session.stderr
    match ending with
    | .status code | .exit code => return code.toUInt32
    | .crash _ => return 1
