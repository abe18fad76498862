import HttpContract.Basic

/-!
# Type references

A reference to a declared type: where it lives, its arguments, and what the compiler needs to know
about it. `render` is the expression that names it in generated code; `modules` are the modules that
expression needs, and `names` the leading names it looks up.
-/

namespace HttpContract

/-- Payloads that are sent and read without JSON. -/
inductive RawForm
  | text
  | bytes
  | stream
deriving DecidableEq, Repr, Inhabited

namespace RawForm

/-- The name of the form in outputs. -/
def name : RawForm → String
  | text => "text"
  | bytes => "bytes"
  | stream => "stream"

end RawForm

/-- The module of the types that need no import. -/
def builtinModule : String := "builtins"

/-- The module that generated code calls into. -/
def supportModule : String := "declient_sdk"

/-- A type as sources refer to it. -/
structure TypeReference where
  module : String
  qualname : String
  args : List TypeReference := []
  awaitable : Bool := false
  rawForm : Option RawForm := none
  /-- The source of an argument that is a value and no type. -/
  literal : Option String := none
deriving Inhabited, Repr, BEq

namespace TypeReference

/-- The type of nothing. -/
def none : TypeReference := { module := builtinModule, qualname := "None" }

/-- The form that a builtin type has as a raw body. -/
def builtinRawForm? (name : String) : Option RawForm :=
  match name with
  | "str" => some .text
  | "bytes" | "bytearray" => some .bytes
  | _ => .none

/-- The reference to a builtin type. -/
def builtin (name : String) : TypeReference :=
  { module := builtinModule, qualname := name, rawForm := builtinRawForm? name }

/-- The reference that is the source of a value. -/
def ofLiteral (source : String) : TypeReference :=
  { module := "", qualname := "", literal := some source }

/-- Whether the reference is to the type of `None`. -/
def isNone (t : TypeReference) : Bool := t.module == builtinModule && t.qualname == "None"

/-- The qualified name; types without import go by their bare name. -/
def fullName (t : TypeReference) : String :=
  if t.module = builtinModule then t.qualname else t.module ++ "." ++ t.qualname

/-- Whether this is the holder type that a call fills. -/
def isOut (t : TypeReference) : Bool := t.module == "declient_sdk.messages" && t.qualname == "Out"

mutual

/-- The source of the type, as the look-ups in it are written. -/
def render : TypeReference → String
  | ⟨module, qualname, args, awaitable, rawForm, literal⟩ =>
    match literal with
    | some source => source
    | .none =>
      let base := fullName ⟨module, qualname, [], awaitable, rawForm, .none⟩
      if args.isEmpty then base else base ++ "[" ++ String.intercalate ", " (renderAll args) ++ "]"

def renderAll : List TypeReference → List String
  | [] => []
  | t :: ts => render t :: renderAll ts

end

mutual

/-- The modules that must be imported for the rendered expression. -/
def modules : TypeReference → List String
  | ⟨module, _, args, _, _, literal⟩ =>
    (if literal.isNone && module != "" && module != builtinModule then [module] else []) ++
      modulesOfAll args

def modulesOfAll : List TypeReference → List String
  | [] => []
  | t :: ts => modules t ++ modulesOfAll ts

end

/-- The part of a dotted name before the first dot. -/
def leading (dotted : String) : String := String.ofList (dotted.toList.takeWhile (· != '.'))

mutual

/-- The leading names that the rendered expression looks up. -/
def names : TypeReference → List String
  | ⟨module, qualname, args, _, _, literal⟩ =>
    let isNothing := module == builtinModule && qualname == "None"
    (if literal.isNone && !isNothing then
      [leading (if module = builtinModule then qualname else module)] else []) ++
      namesOfAll args

def namesOfAll : List TypeReference → List String
  | [] => []
  | t :: ts => names t ++ namesOfAll ts

end

end TypeReference

end HttpContract
