import HttpContract.Diagnostic
import HttpContract.Value.Display

/-!
# Type expressions

A type as it is written in a declaration. `normal` flattens unions and drops repetitions,
`reference?` gives the reference that generated code uses, and `shown` is how messages name the
type.
-/

namespace HttpContract

/-- Types as they are written, marks included. -/
inductive TypeExpr
  | nothing
  /-- A type that is known by its name. -/
  | named (name : String)
  | declared (cls : ClassName) (awaitable stream : Bool)
  | subscript (base : TypeExpr) (args : List TypeExpr)
  /-- A choice written with the typing form. -/
  | union (members : List TypeExpr)
  /-- A choice written with bars. -/
  | bars (members : List TypeExpr)
  | literal (values : List Value)
  | annotated (base : TypeExpr) (marks : List Mark)
  /-- A function type; without parameters it takes any. -/
  | callable (parameters : Option (List TypeExpr)) (result : TypeExpr)
  | typeVar (name : String)
  | newType (cls : ClassName)
  /-- A text that names the type. -/
  | forward (text : String)
  /-- Something that is no type at all. -/
  | alien (shown : String)
deriving Inhabited, Repr, BEq

namespace TypeExpr

/-- A type that is known by name: its reference, and how messages show it. -/
structure Known where
  ref : TypeReference
  shown : String
  /-- Whether it is a class of its own and no alias. -/
  isClass : Bool := true

/-- A type that sources refer to by its module. -/
def known (module qualname : String) (awaitable : Bool := false)
    (rawForm : Option RawForm := none) : Known :=
  { ref := { module, qualname, awaitable, rawForm }, shown := module ++ "." ++ qualname }

/-- A name of the typing module that stands for a class from elsewhere. -/
def aliasOf (k : Known) (name : String) : Known :=
  { k with shown := "typing." ++ name, isClass := false }

/-- A builtin type; the other names of one error stand for it. -/
def builtinKnown (name : String) : Known :=
  let name := if name = "IOError" ∨ name = "EnvironmentError" then "OSError" else name
  { ref := .builtin name, shown := name }

/-- The module of the types that are known by what they can do. -/
def abstractModule : String := "collections.abc"

/-- The types that go by a name of their own; every other name is built in. -/
def lookup (name : String) : Known :=
  match name with
  | "Any" => { known "typing" "Any" with isClass := false }
  | "IO" | "BinaryIO" => known "typing" name false (some .stream)
  | "TextIO" => known "typing" name
  | "List" => aliasOf (builtinKnown "list") name
  | "Dict" => aliasOf (builtinKnown "dict") name
  | "Set" => aliasOf (builtinKnown "set") name
  | "Tuple" => aliasOf (builtinKnown "tuple") name
  | "Awaitable" | "Coroutine" => aliasOf (known abstractModule name true) name
  | "collections.abc.Awaitable" => known abstractModule "Awaitable" true
  | "collections.abc.Coroutine" => known abstractModule "Coroutine" true
  | "Iterable" | "Callable" | "Hashable" => aliasOf (known abstractModule name) name
  | "collections.abc.Iterator" => known abstractModule "Iterator"
  | "collections.OrderedDict" => known "collections" "OrderedDict"
  | "asyncio.Future" => known "_asyncio" "Future" true
  | "asyncio.Task" => known "_asyncio" "Task" true
  | "io.BytesIO" => known "_io" "BytesIO" false (some .stream)
  | "io.BufferedReader" => known "_io" "BufferedReader" false (some .stream)
  | "io.StringIO" => known "_io" "StringIO" false (some .stream)
  | "io.RawIOBase" => known "io" "RawIOBase" false (some .stream)
  | "io.IOBase" => known "io" "IOBase" false (some .stream)
  | "datetime.datetime" => known "datetime" "datetime"
  | "datetime.date" => known "datetime" "date"
  | "decimal.Decimal" => known "decimal" "Decimal"
  | "uuid.UUID" => known "uuid" "UUID"
  | "pathlib.Path" => known "pathlib" "Path"
  | "enum.Enum" => known "enum" "Enum"
  | "Out" => known "declient_sdk.messages" "Out"
  | _ => builtinKnown name

/-- Whether a name stands for a special form that is no type. -/
def isSpecial (name : String) : Bool := name == "NoReturn" || name == "LiteralString"

/-- Whether the type is a choice. -/
def isUnion : TypeExpr → Bool
  | union _ | bars _ => true
  | _ => false

/-- The members of a choice; any other type is its only member. -/
def members : TypeExpr → List TypeExpr
  | union ms | bars ms => ms
  | a => [a]

/-- Whether every element of each list is in the other one. -/
def sameElements {α : Type} (same : α → α → Bool) (xs ys : List α) : Bool :=
  xs.all (fun x => ys.any (same x)) && ys.all (fun y => xs.any (same y))

/-- Whether two expressions name one type; the order in choices and literals does not count. -/
def same : TypeExpr → TypeExpr → Bool
  | union ms, union ns | union ms, bars ns | bars ms, union ns | bars ms, bars ns =>
    sameElements (· == ·) ms ns
  | literal vs, literal ws => sameElements (· == ·) vs ws
  | a, b => a == b

/-- The first occurrences of types. -/
def distinct : List TypeExpr → List TypeExpr
  | [] => []
  | a :: as => a :: (distinct as).filter (!same a ·)

/-- Each value once. -/
def distinctValues : List Value → List Value
  | [] => []
  | v :: vs => v :: (distinctValues vs).filter (!v == ·)

mutual

/-- The type variables in a type, repetitions included. -/
def typeVariables : TypeExpr → List String
  | typeVar n => [n]
  | subscript b args => typeVariables b ++ typeVariablesOfAll args
  | union ms | bars ms => typeVariablesOfAll ms
  | annotated b _ => typeVariables b
  | callable ps r =>
    (match ps with | some ps => typeVariablesOfAll ps | none => []) ++ typeVariables r
  | _ => []

def typeVariablesOfAll : List TypeExpr → List String
  | [] => []
  | a :: as => typeVariables a ++ typeVariablesOfAll as

end

/-- A choice of members; one member is no choice. -/
def choice (make : List TypeExpr → TypeExpr) (ms : List TypeExpr) : TypeExpr :=
  match distinct (ms.flatMap members) with
  | [one] => one
  | all => make all

/-- Whether bars between types keep their own form: they do between classes. -/
def joinsWithBars : TypeExpr → Bool
  | nothing | declared .. | bars _ => true
  | named n => (lookup n).isClass && !isSpecial n
  | subscript (named n) _ => (lookup n).isClass
  | _ => false

mutual

/-- The expression with flat choices, and with marks joined where they nest. -/
def normal : TypeExpr → TypeExpr
  | union ms => choice union (normalAll ms)
  | bars ms =>
    let ms := normalAll ms
    choice (if ms.all joinsWithBars then bars else union) ms
  | literal vs => literal (distinctValues vs)
  | subscript b args => subscript (normal b) (normalAll args)
  | callable ps r =>
    callable (match ps with | some ps => some (normalAll ps) | none => none) (normal r)
  | annotated b marks =>
    match normal b with
    | annotated c inner => annotated c (inner ++ marks)
    | c => if marks.isEmpty then c else annotated c marks
  | a => a

def normalAll : List TypeExpr → List TypeExpr
  | [] => []
  | a :: as => normal a :: normalAll as

end

/-- A mark as a report shows it. -/
def markShown : Mark → String
  | .keyed kind key => s!"{kind.name}(key=" ++ (key.map Quoted.text).getD "None" ++ ")"
  | .body f c =>
    let member := String.ofList (f.name.toList.map Char.toUpper)
    s!"Body(format=<BodyFormat.{member}: " ++ Quoted.text f.name ++ ">, content_type=" ++
      (c.map Quoted.text).getD "None" ++ ")"
  | .other v => v.literal

mutual

/-- How a message names a type; classes appear by their plain name. -/
def shown : TypeExpr → String
  | nothing => "NoneType"
  | named n =>
    if n = "Ellipsis" then "..."
    else if isSpecial n then "typing." ++ n else (lookup n).shown
  | declared cls _ _ => if cls.module = builtinModule then cls.qualname else cls.full
  | subscript b args => shown b ++ "[" ++ String.intercalate ", " (shownAll args) ++ "]"
  | union ms =>
    match shownUnlessNothing ms with
    | [one] =>
      if ms.length = 2 then "typing.Optional[" ++ one ++ "]"
      else "typing.Union[" ++ String.intercalate ", " (shownAll ms) ++ "]"
    | _ => "typing.Union[" ++ String.intercalate ", " (shownAll ms) ++ "]"
  | bars ms => String.intercalate " | " (shownBars ms)
  | literal vs => "typing.Literal[" ++ String.intercalate ", " (vs.map Value.literal) ++ "]"
  | annotated b marks =>
    "typing.Annotated[" ++ String.intercalate ", " (shown b :: marks.map markShown) ++ "]"
  | callable none r => "typing.Callable[..., " ++ shown r ++ "]"
  | callable (some ps) r =>
    "typing.Callable[[" ++ String.intercalate ", " (shownAll ps) ++ "], " ++ shown r ++ "]"
  | typeVar n => "~" ++ n
  | newType cls => cls.full
  | forward t => "ForwardRef(" ++ Quoted.text t ++ ")"
  | alien s => s

def shownAll : List TypeExpr → List String
  | [] => []
  | a :: as => shown a :: shownAll as

/-- The members of a choice other than nothing. -/
def shownUnlessNothing : List TypeExpr → List String
  | [] => []
  | nothing :: as => shownUnlessNothing as
  | a :: as => shown a :: shownUnlessNothing as

/-- The members of a choice with bars, which shows nothing by its literal. -/
def shownBars : List TypeExpr → List String
  | [] => []
  | nothing :: as => "None" :: shownBars as
  | a :: as => shown a :: shownBars as

end

/-- A value as the argument of a type. -/
def valueArgument (v : Value) : TypeReference := .ofLiteral v.literal

mutual

/-- The reference for an expression in normal form; marks inside it are dropped. -/
def reference? : TypeExpr → Except Fault TypeReference
  | nothing => .ok .none
  | named n =>
    if n = "Ellipsis" then .ok (.ofLiteral "...")
    else if isSpecial n then .error (.unsupportedType ("typing." ++ n))
    else .ok (lookup n).ref
  | declared cls awaitable stream =>
    .ok (if cls.module = builtinModule then .builtin cls.qualname
      else { module := cls.module, qualname := cls.qualname, awaitable,
             rawForm := if stream then some .stream else none })
  | subscript b args => do
    let base ← reference? b
    let args ← references? args
    pure { base with args }
  | union ms | bars ms => do
    let args ← references? ms
    pure { module := "typing", qualname := "Union", args }
  | literal vs => .ok { module := "typing", qualname := "Literal", args := vs.map valueArgument }
  | annotated b _ => reference? b
  | callable none r => do
    let result ← reference? r
    pure { (lookup "Callable").ref with args := [.ofLiteral "...", result] }
  | callable (some ps) r => .error (.unsupportedType (shown (callable (some ps) r)))
  | typeVar n => .error (.typeVariable ("~" ++ n))
  | newType cls => .error (.unsupportedType cls.full)
  | forward t => .error (.unsupportedType (shown (forward t)))
  | alien s => .error (.unsupportedType s)

def references? : List TypeExpr → Except Fault (List TypeReference)
  | [] => .ok []
  | a :: as => do
    let t ← reference? a
    let ts ← references? as
    pure (t :: ts)

end

/-- The type itself and the marks on its outside. -/
def split : TypeExpr → TypeExpr × List Mark
  | annotated b marks => (b, marks)
  | a => (a, [])

end TypeExpr

end HttpContract
