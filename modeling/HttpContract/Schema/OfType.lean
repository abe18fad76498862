import HttpContract.Number.Scan
import HttpContract.Schema.Basic
import HttpContract.Text.Quoted

/-!
# Schemas of types

The schema of a type expression, the type expression that a rendered reference evaluates to, and the
text by which messages name a target.
-/

namespace HttpContract

namespace Schema

mutual

/-- The label of a schema inside a choice. -/
def label : Schema → String
  | any => "any"
  | nothing => "none"
  | bool => "bool"
  | int => "int"
  | float => "float"
  | text => "str"
  | bytes => "bytes"
  | date => "date"
  | dateTime => "datetime"
  | uuid => "uuid"
  | decimal => "decimal"
  | list item => "list[" ++ label item ++ "]"
  | set item => "set[" ++ label item ++ "]"
  | dict key value => "dict[" ++ label key ++ "," ++ label value ++ "]"
  | tuple items => "tuple[" ++ String.intercalate ", " (labels items) ++ "]"
  | tupleOf item => "tuple[" ++ label item ++ ", ...]"
  | nullable inner => "nullable[" ++ label inner ++ "]"
  | union members => "union[" ++ String.intercalate "," (members.map (·.1)) ++ "]"
  | literal values => "literal[" ++ String.intercalate "," (values.map Value.literal) ++ "]"
  | enumeration cls _ _ => "enum[" ++ cls.simple ++ "]"
  | record cls _ _ => cls.simple

def labels : List Schema → List String
  | [] => []
  | s :: ss => label s :: labels ss

end

/-- The schema of a choice: nothing among the members makes the rest optional. -/
def ofChoice (hasNothing : Bool) (members : List Schema) : Schema :=
  let inner := match members with
    | [] => .nothing
    | [one] => one
    | all => .union (all.map fun s => (s.label, s))
  if hasNothing && !members.isEmpty then .nullable inner else inner

/-- The schema of a type known by name, without arguments. -/
def ofName? (name : String) : Option Schema :=
  match name with
  | "Any" | "object" => some .any
  | "bool" => some .bool
  | "int" => some .int
  | "float" => some .float
  | "str" => some .text
  | "bytes" | "bytearray" => some .bytes
  | "datetime.date" => some .date
  | "datetime.datetime" => some .dateTime
  | "uuid.UUID" => some .uuid
  | "decimal.Decimal" => some .decimal
  | "list" | "List" => some (.list .any)
  | "set" | "Set" => some (.set .any)
  | "dict" | "Dict" => some (.dict .any .any)
  | "tuple" | "Tuple" => some (.tupleOf .any)
  | _ => none

/-- The schema of a generic type with arguments. -/
def ofGeneric? (name : String) (args : List Schema) : Option Schema :=
  match name, args with
  | "list", [item] | "List", [item] => some (.list item)
  | "set", [item] | "Set", [item] => some (.set item)
  | "dict", [k, v] | "Dict", [k, v] => some (.dict k v)
  | "tuple", items | "Tuple", items => some (.tuple items)
  | _, _ => none

mutual

/-- The schema of a type expression; the fuel bounds how deep records refer to records. -/
def ofType? (scope : Scope) (fuel : Nat) (t : TypeExpr) : Option Schema :=
  match fuel with
  | 0 => none
  | fuel + 1 =>
    match t with
    | .nothing => some .nothing
    | .named n => ofName? n
    | .annotated b _ => ofType? scope fuel b
    | .subscript (.named n) [item, .named "Ellipsis"] =>
      if n = "tuple" ∨ n = "Tuple" then (ofType? scope fuel item).map .tupleOf else none
    | .subscript (.named n) args => (ofTypes? scope fuel args).bind (ofGeneric? n)
    | .union ms | .bars ms =>
      (ofTypes? scope fuel (ms.filter (· != .nothing))).map
        (ofChoice (ms.any (· == .nothing)))
    | .literal vs => some (.literal vs)
    | .declared cls _ _ =>
      if cls.module = builtinModule then
        if cls.qualname = "None" then some .nothing else ofName? cls.qualname
      else match scope.find? cls with
        | some (.model fields) => (ofFields? scope fuel fields).map (.record cls .model)
        | some (.dataclass fields) => (ofFields? scope fuel fields).map (.record cls .dataclass)
        | some (.enumeration kind members) => some (.enumeration cls kind members)
        | _ => none
    | _ => none

def ofTypes? (scope : Scope) (fuel : Nat) (ts : List TypeExpr) : Option (List Schema) :=
  match fuel, ts with
  | _, [] => some []
  | 0, _ :: _ => none
  | fuel + 1, t :: ts => do
    let s ← ofType? scope fuel t
    let ss ← ofTypes? scope fuel ts
    pure (s :: ss)

/-- The schemas of the fields of a record, with their defaults. -/
def ofFields? (scope : Scope) (fuel : Nat) (fields : List Field) :
    Option (List (String × Schema × Option Value)) :=
  match fuel, fields with
  | _, [] => some []
  | 0, _ :: _ => none
  | fuel + 1, f :: fs => do
    let s ← ofType? scope fuel f.type.normal
    let ss ← ofFields? scope fuel fs
    pure ((f.name, s, f.default) :: ss)

end

end Schema

namespace TypeExpr

mutual

/-- How many type expressions an expression is made of. -/
def size : TypeExpr → Nat
  | subscript b args => 1 + size b + sizeAll args
  | union ms | bars ms => 1 + sizeAll ms
  | annotated b _ => 1 + size b
  | _ => 1

def sizeAll : List TypeExpr → Nat
  | [] => 0
  | t :: ts => 1 + size t + sizeAll ts

end

/-- Fuel that is enough for every record of a scope inside a type. -/
def schemaFuel (scope : Scope) (t : TypeExpr) : Nat :=
  let fieldSizes := scope.map fun d => match d.body with
    | .model fs | .dataclass fs => 4 + fs.foldl (fun n f => n + 2 + f.type.size) 0
    | _ => 1
  4 + 2 * (t.size + fieldSizes.foldl (· + ·) 0)

/-- The schema of a type in normal form. -/
def schema? (scope : Scope) (t : TypeExpr) : Option Schema :=
  Schema.ofType? scope (t.schemaFuel scope) t

/-- How a message names the type as a target: classes appear as classes. -/
def targetText (scope : Scope) (t : TypeExpr) : String :=
  let ofClass (shown : String) : String := "<class '" ++ shown ++ "'>"
  match t with
  | nothing => "None"
  | named n =>
    if n = "Ellipsis" then "Ellipsis"
    else if (lookup n).isClass && !isSpecial n then ofClass (lookup n).shown else t.shown
  | declared cls _ _ =>
    match scope.find? cls with
    | some (.enumeration ..) => "<enum '" ++ cls.simple ++ "'>"
    | _ => ofClass t.shown
  | t => t.shown

/-- Whether text is handed out for the type without a conversion. -/
def takesText (t : TypeExpr) : Bool :=
  match t with
  | named n => n == "str" || n == "Any" || n == "object"
  | declared cls _ _ =>
    cls.module == builtinModule && (cls.qualname == "str" || cls.qualname == "object")
  | _ => false

/-- The names of the types that are not built in, by where their references point. -/
def referenceNames : List String :=
  ["Any", "IO", "BinaryIO", "TextIO", "collections.abc.Awaitable", "collections.abc.Coroutine",
   "Iterable", "Callable", "Hashable", "collections.abc.Iterator", "collections.OrderedDict",
   "asyncio.Future", "asyncio.Task", "io.BytesIO", "io.BufferedReader", "io.StringIO",
   "io.RawIOBase", "io.IOBase", "datetime.datetime", "datetime.date", "decimal.Decimal",
   "uuid.UUID", "pathlib.Path", "enum.Enum", "Out"]

/-- The value that a literal argument denotes. -/
def literalValue? (source : String) : Option Value :=
  match source with
  | "None" => some .null
  | "True" => some (.bool true)
  | "False" => some (.bool false)
  | s =>
    match Quoted.read? .none s, Quoted.readBytes? s with
    | some t, _ => some (.text t)
    | none, some bs => some (.bytes bs)
    | none, none =>
      (s.toInt?.map Value.int).orElse fun _ =>
        ((Number.float? s).filter (·.isFinite)).map .float

mutual

/-- The type that the rendered form of a reference evaluates to. -/
def ofRef : TypeReference → TypeExpr
  | ⟨module, qualname, args, awaitable, rawForm, source?⟩ =>
    match source? with
    | some source => if source = "..." then .named "Ellipsis" else .alien source
    | none =>
      if module = "typing" ∧ qualname = "Union" then .union (ofRefs args)
      else if module = "typing" ∧ qualname = "Literal" then
        .literal (args.filterMap fun a => a.literal.bind literalValue?)
      else if module = builtinModule ∧ qualname = "None" then .nothing
      else
        let base :=
          if module = builtinModule then .named qualname
          else match referenceNames.find? fun n =>
              (lookup n).ref.module == module && (lookup n).ref.qualname == qualname with
            | some n => .named n
            | none => .declared ⟨module, qualname⟩ awaitable (rawForm == some .stream)
        if args.isEmpty then base else .subscript base (ofRefs args)

def ofRefs : List TypeReference → List TypeExpr
  | [] => []
  | t :: ts => ofRef t :: ofRefs ts

end

end TypeExpr

end HttpContract
