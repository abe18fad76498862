import HttpContract.Files.FileTree
import HttpContract.Settings.Layer
import HttpContract.Toml.Document
import HttpContract.Value.Display

/-!
# Generation settings

How client sources are generated and where they are written. Each setting is taken from the first of
these that gives it: explicit arguments, the file, the environment, the default. Entries whose names begin
with an underscore are meant for the library that settings are read with. Of these only the one for the
start of the names of variables is known here, and only as a text (`Layer.isPlain`: there are none).
-/

namespace HttpContract

/-- The settings of the generation, with their defaults. -/
structure GenerationSettings where
  /-- The module that generated clients belong to. -/
  rootNamespace : String := "declient.generated"
  /-- The directory that sources are written to. -/
  directory : String := "./declient-generated"
  /-- Whether generated classes are closed to subclasses. -/
  sealedClasses : Bool := false
  /-- Whether sources are written at all. -/
  writeSources : Bool := false
deriving DecidableEq, Repr, Inhabited

namespace GenerationSettings

/-- What the names of the variables begin with. -/
def variableStart : String := "DECLIENT_"

/-- The entry that gives another start for them. -/
def startName : String := "_env_prefix"

/-- What the names of the variables begin with under the entries of a layer. -/
def startOf (entries : Layer) : String :=
  ((Entries.get? entries.reverse startName).bind Value.text?).getD variableStart

/-- The files that are looked for when none is named. -/
def fileNames : List String := ["declient.toml", ".declientrc"]

/-- Whether a value stands for the default: nothing, or blank text. -/
def isBlankValue (v : Value) : Bool := v.isNull || v.text?.any Text.allBlank

/-- Text whose blank forms stand for the default. -/
def textOr (default name : String) (v : Value) : Setting.Result String :=
  if isBlankValue v then .ok default else Setting.text name v

/-- The display text of a value; blank values stand for the default. -/
def directoryOr (default : String) (v : Value) : String :=
  if isBlankValue v then default else v.display

/-- The settings that values stand for. -/
def read (value : String → Option Value) : Setting.Result GenerationSettings := do
  let default : GenerationSettings := {}
  let given {α : Type} (other : α) (name : String) (f : String → Value → Setting.Result α) :=
    ((value name).map (f name)).getD (.ok other)
  let ((ns, dir), (sealedClasses, writes)) ← Setting.both
    (Setting.both (given default.rootNamespace "root_namespace" (textOr default.rootNamespace))
      (given default.directory "source_file_path" fun _ v => .ok (directoryOr default.directory v)))
    (Setting.both (given default.sealedClasses "generate_sealed_classes" Setting.flag)
      (given default.writeSources "output_source_files" Setting.flag))
  pure ⟨ns, dir, sealedClasses, writes⟩

/-- The settings that explicit values and the environment give. -/
def ofValues (environment : List (String × String)) (explicit : Layer) :
    Except SettingsError GenerationSettings :=
  let outer (name : String) : Option Value :=
    ((Variables.ofEnvironment environment).find? (startOf explicit) name).map Value.text
  (read fun name => (explicit.find? name).orElse fun _ => outer name).mapError .invalid

/-- The file to read: the one that is asked for, if it is there, else the first of those looked for
in a directory. -/
def locate (tree : FileTree) (directory : PathName) (asked : Option PathName) :
    Except FileError (Option PathName) :=
  match asked with
  | some p => do pure (if ← tree.exists? p then some p else none)
  | none => fileNames.foldlM (fun found name =>
      match found with
      | some p => pure (some p)
      | none => do
        let p := directory.join name
        pure (if ← tree.exists? p then some p else none)) none

/-- The table that a file holds: its entry `declient` if that is a table, else all of it. -/
def tableOf (top : List (String × Value)) : Layer :=
  match Entries.get? top "declient" with
  | some (.dict entries) => entries.filterMap fun e => e.1.text?.map (·, e.2)
  | _ => top

/-- The values that a settings file holds, read as its suffix says. -/
def ofFile (path : PathName) (content : Bytes) : Except SettingsError Layer :=
  if path.suffix = ".toml" then
    match (Utf8.decode? content).bind Toml.read? with
    | some table => .ok (tableOf table)
    | none => .error .malformedToml
  else
    match (Utf8.decode? content).bind (Json.read? .configured) with
    | some (.object entries) =>
      .ok (tableOf (Entries.merge (entries.map fun e => (e.1, .ofJson e.2))))
    | some _ => .error .noTable
    | none => .error .malformedJson

/-- The values of the settings file, if there is one. -/
def fileLayer (tree : FileTree) (asked : Option PathName) : Except SettingsError Layer := do
  let found ← (locate tree ⟨"", []⟩ asked).mapError .unreadable
  match asked, found with
  | some p, none => throw (.noFile p)
  | _, none => pure []
  | _, some p => ofFile p (← (tree.read p).mapError .unreadable)

/-- The values of the file with those of the arguments; arguments that are null leave the file's. -/
def layerOf (tree : FileTree) (asked : Option PathName) (arguments : Layer) :
    Except SettingsError Layer := do
  let file ← fileLayer tree asked
  let given := arguments.filter fun e => !e.2.isNull
  pure (given.foldl (fun done e => Entries.insert done e.1 e.2) file)

/-- Loads the settings. -/
def load (tree : FileTree) (environment : List (String × String)) (asked : Option PathName)
    (arguments : Layer) : Except SettingsError GenerationSettings := do
  ofValues environment (← layerOf tree asked arguments)

/-- Why settings are not loaded: there is a report of it, or the error is one that is not handled. -/
inductive LoadFailure
  | reported (message : String)
  | escapes (breakdown : Breakdown)
deriving DecidableEq, Repr

/-- A file that holds no table is not expected. -/
def LoadFailure.ofError : SettingsError → LoadFailure
  | .noTable => .escapes .missingAttribute
  | e => .reported e.message

end GenerationSettings

end HttpContract
