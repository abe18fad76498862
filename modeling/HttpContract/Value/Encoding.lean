import HttpContract.Json.Writer
import HttpContract.Value.Display

/-!
# Encoding values

A value is sent as JSON in a body and as plain text in a path, a query or a header. `toJson` gives
its JSON; `wireText` is that JSON's text, with scalars standing bare.
-/

namespace HttpContract

namespace Value

/-- Why a value has no JSON. -/
inductive EncodeError
  /-- Bytes that are not UTF-8. -/
  | malformedBytes
  /-- An object of a kind that JSON does not know. -/
  | foreignObject
deriving DecidableEq, Repr

/-- What becomes of foreign objects. -/
inductive Foreign
  | refuse
  | display
deriving DecidableEq, Repr

/-- The text of bytes that are sent as one. -/
def utf8 (bs : Bytes) : Except EncodeError String :=
  match Utf8.decode? bs with
  | some s => .ok s
  | none => .error .malformedBytes

/-- The lines of a byte sequence, each with its line feed. -/
def lines : Bytes → List Bytes
  | [] => []
  | b :: bs =>
    if b = 10 then [b] :: lines bs
    else match lines bs with
      | [] => [[b]]
      | l :: ls => (b :: l) :: ls

/-- What is made of a value that has no JSON form of its own. -/
def foreignText (mode : Foreign) (v : Value) : Except EncodeError String :=
  match mode with
  | .refuse => .error .foreignObject
  | .display => .ok v.display

mutual

/-- The JSON form of a value. -/
def toJson (mode : Foreign) : Value → Except EncodeError Json
  | .null => .ok .null
  | .bool b => .ok (.bool b)
  | .int i => .ok (.int i)
  | .float x => .ok (.float x)
  | .text s => .ok (.string s)
  | .bytes bs | .byteArray bs => (utf8 bs).map .string
  | .list items | .tuple items | .set items => (allToJson mode items).map .array
  | .dict entries => (entriesToJson mode entries).map .object
  | .date d => .ok (.string d.iso)
  | .time t => .ok (.string t.iso)
  | .dateTime t => .ok (.string (t.isoWith "Z"))
  | .uuid u => .ok (.string u.write)
  | .decimal d => .ok (.string d.write)
  | .stream rest => ((lines rest).mapM fun l => (utf8 l).map Json.string).map .array
  | .textStream rest =>
    ((lines (Utf8.encode rest)).mapM fun l => (utf8 l).map Json.string).map .array
  | .out held => (foreignText mode (.out held)).map .string
  | .foreign s => (foreignText mode (.foreign s)).map .string
  | .member _ _ _ value => toJson mode value
  | .record _ _ fields => (fieldsToJson mode fields).map .object

def allToJson (mode : Foreign) : List Value → Except EncodeError (List Json)
  | [] => .ok []
  | v :: vs => do
    let j ← toJson mode v
    let js ← allToJson mode vs
    pure (j :: js)

def entriesToJson (mode : Foreign) :
    List (Value × Value) → Except EncodeError (List (String × Json))
  | [] => .ok []
  | (k, v) :: rest => do
    let key ← keyText mode k
    let j ← toJson mode v
    let js ← entriesToJson mode rest
    pure ((key, j) :: js)

def fieldsToJson (mode : Foreign) :
    List (String × Value) → Except EncodeError (List (String × Json))
  | [] => .ok []
  | (k, v) :: rest => do
    let j ← toJson mode v
    let js ← fieldsToJson mode rest
    pure ((k, j) :: js)

/-- The text of a dictionary key. -/
def keyText (mode : Foreign) : Value → Except EncodeError String
  | .bool b => .ok (if b then "true" else "false")
  | .bytes bs | .byteArray bs => utf8 bs
  | .dateTime t => .ok (t.isoWith "Z")
  | .member _ _ _ value => keyText mode value
  | .tuple items => (keyTexts mode items).map (String.intercalate ",")
  | .out held => foreignText mode (.out held)
  | .foreign s => foreignText mode (.foreign s)
  | .record cls kind fields => foreignText mode (.record cls kind fields)
  | .null => .ok "None"
  | .int i => .ok (toString i)
  | .float x => .ok (x.write .source)
  | .text s => .ok s
  | .list items => foreignText mode (.list items)
  | .set items => foreignText mode (.set items)
  | .dict entries => foreignText mode (.dict entries)
  | .date d => .ok d.iso
  | .time t => .ok t.iso
  | .uuid u => .ok u.write
  | .decimal d => .ok d.write
  | .stream rest => foreignText mode (.stream rest)
  | .textStream rest => foreignText mode (.textStream rest)

def keyTexts (mode : Foreign) : List Value → Except EncodeError (List String)
  | [] => .ok []
  | v :: vs => do
    let t ← keyText mode v
    let ts ← keyTexts mode vs
    pure (t :: ts)

end

end Value

namespace Json

mutual

/-- Joins entries whose keys are equal, at every depth. -/
def mergeKeys : Json → Json
  | .array items => .array (mergeAll items)
  | .object entries => .object (Entries.merge (mergeValues entries))
  | j => j

def mergeAll : List Json → List Json
  | [] => []
  | j :: js => mergeKeys j :: mergeAll js

def mergeValues : List (String × Json) → List (String × Json)
  | [] => []
  | (k, j) :: rest => (k, mergeKeys j) :: mergeValues rest

end

/-- The text of a JSON value outside of any document: scalars stand bare. -/
def bareText : Json → String
  | .null => ""
  | .bool b => if b then "true" else "false"
  | .int i => toString i
  | .float x => x.write .source
  | .string s => s
  | j => j.write

end Json

namespace Value

/-- The text of a value in a path, a query or a header. -/
def wireText (v : Value) : Except EncodeError String :=
  (v.toJson .display).map fun j => j.mergeKeys.bareText

/-- The bytes of a value in a body. -/
def jsonBytes (v : Value) : Except EncodeError Bytes :=
  (v.toJson .refuse).map fun j => Utf8.encode j.write

end Value

end HttpContract
