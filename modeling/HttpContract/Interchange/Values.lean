import HttpContract.Declaration.Basic
import HttpContract.Interchange.Document

/-!
# Documents of values

Null, truth values, integers, text, lists and objects stand for themselves; every other value is an
object with one key that starts with a dollar sign and names its kind.
-/

namespace HttpContract.Interchange

/-- The class that a module and a qualified name stand for. -/
def classNameOf (ref : String) : ClassName :=
  match Text.split ':' ref with
  | [m, q] => ⟨m, q⟩
  | m :: rest => ⟨m, String.intercalate ":" rest⟩
  | [] => ⟨"", ref⟩

/-- The class as it is referred to. -/
def refOf (c : ClassName) : String := c.module ++ ":" ++ c.qualname

/-- A dictionary document: an object when all keys are text, unless it would look like a tag. -/
def dictDocument (entries : List (Json × Json)) : Json :=
  let plain := entries.filterMap fun e => match e.1 with
    | .string s => some (s, e.2)
    | _ => none
  let tagged := obj [("$dict", jlist (fun e => .array [e.1, e.2]) entries)]
  if plain.length = entries.length then
    match plain with
    | [(k, _)] => if k.startsWith "$" then tagged else obj plain
    | _ => obj plain
  else tagged

mutual

/-- The document of a value. -/
def encodeValue : Value → Json
  | .null => .null
  | .bool b => .bool b
  | .int i => .int i
  | .float x => obj [("$float", .string (x.write .source))]
  | .text s => .string s
  | .bytes bs | .byteArray bs => obj [("$bytes", .string (Hex.ofBytes bs))]
  | .list items => .array (encodeValues items)
  | .tuple items => obj [("$tuple", .array (encodeValues items))]
  | .set items => obj [("$set", .array (encodeValues items))]
  | .dict entries => dictDocument (encodeEntries entries)
  | .date d => obj [("$date", .string d.iso)]
  | .time t => .string t.iso
  | .dateTime t => obj [("$datetime", .string t.iso)]
  | .uuid u => obj [("$uuid", .string u.write)]
  | .decimal d => obj [("$decimal", .string d.write)]
  | .stream rest => obj [("$stream", .string (Hex.ofBytes rest))]
  | .textStream rest => obj [("$textstream", .string rest)]
  | .out held => obj [("$out", encodeValue held)]
  | .foreign s => obj [("$object", .string s)]
  | .member cls _ name _ => obj [("$enum", .array [.string (refOf cls), .string name])]
  | .record cls _ fields =>
    obj [("$new", .array [.string (refOf cls), .object (encodeFields fields)])]

def encodeValues : List Value → List Json
  | [] => []
  | v :: vs => encodeValue v :: encodeValues vs

def encodeEntries : List (Value × Value) → List (Json × Json)
  | [] => []
  | (k, v) :: rest => (encodeValue k, encodeValue v) :: encodeEntries rest

def encodeFields : List (String × Value) → List (String × Json)
  | [] => []
  | (k, v) :: rest => (k, encodeValue v) :: encodeFields rest

end

/-- An object as a dictionary. -/
def plain (value : Json → Decode Value) (es : List (String × Json)) : Decode Value := do
  pure (.dict (← es.mapM fun e => do pure (.text e.1, ← value e.2)))

/-- What has to be there. -/
def require {α : Type} (what : String) (o : Option α) : Decode α :=
  match o with
  | some a => .ok a
  | none => .error s!"bad {what}"

/-- An object with one entry whose key is a tag. -/
def readTagged (scope : Scope) (value : Json → Decode Value) (tag : String) (v : Json) :
    Decode Value := do
  match tag with
  | "$float" => pure (.float (← require tag (Number.float? (← asStr v))))
  | "$bytes" => pure (.bytes (← require tag (Hex.toBytes? (← asStr v))))
  | "$bytearray" => pure (.byteArray (← require tag (Hex.toBytes? (← asStr v))))
  | "$tuple" => pure (.tuple (← (← asList v).mapM value))
  | "$set" => pure (.set (← (← asList v).mapM value))
  | "$dict" =>
    let entries ← (← asList v).mapM fun e => do
      match ← asList e with
      | [k, x] => pure (← value k, ← value x)
      | _ => throw "pair expected"
    pure (.dict (Value.dictOf entries))
  | "$date" => pure (.date (← require tag (Date.ofIso? (← asStr v))))
  | "$datetime" => pure (.dateTime (← require tag (DateTime.ofIso? (← asStr v))))
  | "$uuid" => pure (.uuid (← require tag (Uuid.ofText? (← asStr v))))
  | "$decimal" => pure (.decimal (← require tag (Decimal.ofText? (← asStr v))))
  | "$stream" => pure (.stream (← require tag (Hex.toBytes? (← asStr v))))
  | "$textstream" => pure (.textStream (← asStr v))
  | "$out" => pure (.out (← value v))
  | "$object" => pure (.foreign (← asStr v))
  | "$enum" =>
    match ← asList v with
    | [.string ref, .string m] => require tag (scope.enumMember? (classNameOf ref) m)
    | _ => throw "enum member expected"
  | "$new" =>
    match ← asList v with
    | [.string ref, .object fields] =>
      let given ← fields.mapM fun f => do pure (f.1, ← value f.2)
      require tag (scope.instance? (classNameOf ref) given)
    | _ => throw "instance expected"
  | t => throw s!"tag {t}"

/-- The value of a document; the fuel is its depth. -/
def valueOf (scope : Scope) (fuel : Nat) (j : Json) : Decode Value :=
  match fuel with
  | 0 => .error "document too deep"
  | fuel + 1 =>
  match j with
  | .null => .ok .null
  | .bool b => .ok (.bool b)
  | .int i => .ok (.int i)
  | .float x => .ok (.float x)
  | .string s => .ok (.text s)
  | .array xs => do pure (.list (← xs.mapM (valueOf scope fuel)))
  | .object [(tag, v)] =>
    if tag.startsWith "$" then readTagged scope (valueOf scope fuel) tag v
    else plain (valueOf scope fuel) [(tag, v)]
  | .object es => plain (valueOf scope fuel) es

/-- The value of a document. -/
def decodeValue (scope : Scope) (j : Json) : Decode Value := valueOf scope (j.depth + 1) j

/-- The entries of an object field in order. -/
def valueEntries (scope : Scope) (j : Json) (k : String) : Decode (List (String × Value)) :=
  match present j k with
  | none => .ok []
  | some o => do (← asEntries o).mapM fun e => do pure (e.1, ← decodeValue scope e.2)

end HttpContract.Interchange
