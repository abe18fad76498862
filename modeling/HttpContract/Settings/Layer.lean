import HttpContract.Files.FileTree
import HttpContract.Json.Reader
import HttpContract.Schema.Read
import HttpContract.Text.LetterCase

/-!
# Layers of settings

Settings are given by layers: explicit arguments, a file, the environment. In each a setting is
known by name without regard to case. A value is then read as what the setting is: text, a flag, a
count or a number.
-/

namespace HttpContract

/-- Why settings cannot be used. -/
inductive SettingsError
  /-- The file that was asked for is not there. -/
  | noFile (path : PathName)
  | unreadable (error : FileError)
  | malformedJson
  | malformedToml
  /-- The file holds no table. -/
  | noTable
  /-- A variable that must hold JSON does not. -/
  | malformedVariable
  | invalid (issues : List Issue)
deriving Repr, Inhabited

namespace SettingsError

/-- What the command says when it ends with this error. -/
def message : SettingsError → String
  | noFile p => "Config file not found: " ++ p.text
  | unreadable e => e.message
  | malformedJson => "The file is not JSON"
  | malformedToml => "The file is not TOML"
  | noTable => "The file holds no table"
  | malformedVariable => "A variable is not JSON"
  | invalid issues => String.intercalate "; " (issues.map fun i => i.kind.name)

end SettingsError

/-- The values of a layer by name. -/
abbrev Layer := List (String × Value)

namespace Layer

/-- Whether all entries can be settings: no name begins with an underscore. -/
def isPlain (l : Layer) : Bool := l.all fun e => !e.1.startsWith "_"

/-- The value of a setting: under its very name first, else under the last name that differs only in
case. -/
def find? (l : Layer) (name : String) : Option Value :=
  (Entries.get? l.reverse name).orElse fun _ =>
    (l.reverse.find? fun e => Text.lower e.1 == name).map (·.2)

end Layer

/-- The variables of the environment, or of a file of variables, in which some have no value. -/
abbrev Variables := List (String × Option String)

namespace Variables

/-- The variables of an environment: each has a value. -/
def ofEnvironment (environment : List (String × String)) : Variables :=
  environment.map fun v => (v.1, some v.2)

/-- The value of a setting among variables whose names begin alike. -/
def find? (vs : Variables) (start name : String) : Option String :=
  ((vs.reverse.find? fun v => Text.lower v.1 == Text.lower (start ++ name)).map (·.2)).join

end Variables

namespace Setting

/-- The reading of one setting. -/
abbrev Result (α : Type) := Except (List Issue) α

/-- Text, or bytes that are text. -/
def textOf (v : Value) : Except IssueKind String :=
  match v.text?, v with
  | some s, _ => .ok s
  | none, .bytes bs | none, .byteArray bs =>
    match Utf8.decode? bs with
    | some s => .ok s
    | none => .error .stringUnicode
  | none, _ => .error .stringType

/-- A value as a scalar of a document, as far as there is one. -/
def scalarOf : Value → Json
  | .null => .null
  | .bool b => .bool b
  | .int i => .int i
  | .float x => .float x
  | .decimal d => ((Number.float? d.write).map Json.float).getD .null
  | .member _ .integer _ (.int i) => .int i
  | v =>
    match textOf v with
    | .ok s => .string s
    | .error _ => .array []

/-- A result whose problem is one with the setting of this name. -/
def issueAt {α : Type} (name : String) (r : Except IssueKind α) : Result α :=
  r.mapError fun k => [⟨k, [.key name]⟩]

/-- Reads a setting as a scalar of JSON. -/
def scalarAt {α : Type} (read : Json → Scalar.Result α) (name : String) (v : Value) : Result α :=
  issueAt name ((read (scalarOf v)).map (·.1))

/-- Reads a setting that is a text. -/
def text (name : String) (v : Value) : Result String := issueAt name (textOf v)

/-- Reads a setting that is switched on or off. -/
def flag : String → Value → Result Bool := scalarAt Scalar.bool

/-- A number that is not below a bound. -/
def number (least : Binary64) (name : String) (v : Value) : Result Binary64 := do
  let x ← scalarAt Scalar.float name v
  if x.lt least then throw [⟨.greaterThanEqual, [.key name]⟩] else pure x

/-- An integer from nought to a bound. -/
def count (most : Nat) (name : String) (v : Value) : Result Nat := do
  let i ← scalarAt Scalar.int name v
  if i < 0 then throw [⟨.greaterThanEqual, [.key name]⟩]
  else if most < i then throw [⟨.lessThanEqual, [.key name]⟩]
  else pure i.toNat

/-- How the place of an entry is shown: text as it is, anything else as it would be written. -/
def keyPart (k : Value) : PathPart :=
  match k with
  | .int i => if 0 ≤ i then .index i.toNat else .key (toString i)
  | k =>
    match k.text? with
    | some s => .key s
    | none => .key k.literal

/-- Joins two readings; the issues of both count. -/
def both {α β : Type} (a : Result α) (b : Result β) : Result (α × β) :=
  match a, b with
  | .ok a, .ok b => .ok (a, b)
  | .error is, .ok _ => .error is
  | .ok _, .error js => .error js
  | .error is, .error js => .error (is ++ js)

/-- All of several results, or all of their problems. -/
def all {α : Type} : List (Result α) → Result (List α)
  | [] => .ok []
  | r :: rs => (both r (all rs)).map fun p => p.1 :: p.2

/-- A table of texts by text. -/
def textTable (name : String) (v : Value) : Result (List (String × String)) :=
  match v with
  | .dict entries => do
    let read (e : Value × Value) : Result (String × String) :=
      let place (more : List PathPart) (r : Except IssueKind String) : Result String :=
        r.mapError fun k => [⟨k, .key name :: keyPart e.1 :: more⟩]
      both (place [.key "[key]"] (textOf e.1)) (place [] (textOf e.2))
    pure (Entries.merge (← all (entries.map read)))
  | _ => .error [⟨.dictType, [.key name]⟩]

end Setting

end HttpContract
