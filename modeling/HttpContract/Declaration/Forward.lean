import HttpContract.Declaration.TypeExpr
import HttpContract.Text.Printable

/-!
# Types given as text

What a text means as a type is up to the surroundings of the class that it stands in: a
`Forward.Evaluation` says which type it names, or why it names none. `resolve` is that of a scope in
which only the built-in names are known; it reads a text as an expression of names, attributes,
subscripts, bars and literals.
-/

namespace HttpContract.Forward

/-- The tokens of an expression. -/
inductive Token
  | name (s : String)
  | number (n : Nat)
  | text (s : String)
  | sign (c : Char)
  | ellipsis
deriving DecidableEq, Repr

/-- The tokens of a text; none when a character fits no token. -/
def tokens? (cs : List Char) : Option (List Token) :=
  match cs with
  | [] => some []
  | c :: rest =>
    have : (rest.dropWhile Text.isNameChar).length ≤ rest.length :=
      (List.dropWhile_suffix Text.isNameChar).length_le
    have : (rest.dropWhile Char.isDigit).length ≤ rest.length :=
      (List.dropWhile_suffix Char.isDigit).length_le
    if c = ' ' ∨ c = '\t' ∨ c = '\n' then tokens? rest
    else if Text.isNameStart c then
      (tokens? (rest.dropWhile Text.isNameChar)).map
        (.name (String.ofList (c :: rest.takeWhile Text.isNameChar)) :: ·)
    else if c.isDigit then
      (tokens? (rest.dropWhile Char.isDigit)).map
        (.number (Number.ofDigits (c :: rest.takeWhile Char.isDigit)) :: ·)
    else if c = '\'' ∨ c = '"' then
      let body := rest.takeWhile (· != c)
      have : (rest.drop (body.length + 1)).length ≤ rest.length :=
        (List.drop_suffix _ rest).length_le
      if body.contains '\\' || body.length = rest.length then none
      else (tokens? (rest.drop (body.length + 1))).map (.text (String.ofList body) :: ·)
    else if c = '.' ∧ rest.take 2 = ['.', '.'] then
      have : (rest.drop 2).length ≤ rest.length := (List.drop_suffix 2 rest).length_le
      (tokens? (rest.drop 2)).map (.ellipsis :: ·)
    else if "[]().,|".toList.contains c then (tokens? rest).map (.sign c :: ·)
    else none
termination_by cs.length
decreasing_by
  all_goals first
    | exact Nat.lt_succ_self _
    | exact Nat.lt_succ_of_le (by assumption)

/-- The expressions that types are written as. -/
inductive Expr
  | name (s : String)
  | number (n : Nat)
  | text (s : String)
  | ellipsis
  | tuple (items : List Expr)
  | attribute (e : Expr) (name : String)
  | subscript (e : Expr) (args : List Expr)
  | bar (l r : Expr)
deriving Inhabited, Repr

mutual

/-- A choice: primaries between bars. -/
def parseExpr (fuel : Nat) (ts : List Token) : Option (Expr × List Token) :=
  match fuel with
  | 0 => none
  | fuel + 1 => do
    let (e, ts) ← parsePrimary fuel ts
    parseBars fuel e ts

/-- Goes on with a choice behind its first member. -/
def parseBars (fuel : Nat) (left : Expr) (ts : List Token) : Option (Expr × List Token) :=
  match fuel, ts with
  | fuel + 1, .sign '|' :: ts => do
    let (e, ts) ← parsePrimary fuel ts
    parseBars fuel (.bar left e) ts
  | _, ts => some (left, ts)

/-- An atom with attributes and subscripts. -/
def parsePrimary (fuel : Nat) (ts : List Token) : Option (Expr × List Token) :=
  match fuel with
  | 0 => none
  | fuel + 1 =>
    match ts with
    | .name s :: ts =>
      if Text.isIdentifier s || s = "None" || s = "True" || s = "False" then
        parseTrailers fuel (.name s) ts
      else none
    | .number n :: ts => parseTrailers fuel (.number n) ts
    | .text s :: ts => parseTrailers fuel (.text s) ts
    | .ellipsis :: ts => parseTrailers fuel .ellipsis ts
    | .sign '(' :: .sign ')' :: ts => parseTrailers fuel (.tuple []) ts
    | .sign '(' :: ts => do
      let (items, comma, ts) ← parseItems fuel ts
      match ts with
      | .sign ')' :: ts =>
        match items, comma with
        | [e], false => parseTrailers fuel e ts
        | items, _ => parseTrailers fuel (.tuple items) ts
      | _ => none
    | _ => none

/-- Goes on with attributes and arguments behind an expression. -/
def parseTrailers (fuel : Nat) (e : Expr) (ts : List Token) : Option (Expr × List Token) :=
  match fuel, ts with
  | fuel + 1, .sign '.' :: .name s :: ts => parseTrailers fuel (.attribute e s) ts
  | fuel + 1, .sign '[' :: ts => do
    let (items, _, ts) ← parseItems fuel ts
    match ts with
    | .sign ']' :: ts => parseTrailers fuel (.subscript e items) ts
    | _ => none
  | _, ts => some (e, ts)

/-- Expressions between commas, and whether there was a comma. -/
def parseItems (fuel : Nat) (ts : List Token) : Option (List Expr × Bool × List Token) :=
  match fuel with
  | 0 => none
  | fuel + 1 => do
    let (e, ts) ← parseExpr fuel ts
    match ts with
    | .sign ',' :: .sign c :: rest =>
      if c = ')' ∨ c = ']' then some ([e], true, .sign c :: rest)
      else do
        let (es, _, ts) ← parseItems fuel (.sign c :: rest)
        some (e :: es, true, ts)
    | [.sign ','] => some ([e], true, [])
    | .sign ',' :: ts => do
      let (es, _, ts) ← parseItems fuel ts
      some (e :: es, true, ts)
    | ts => some ([e], false, ts)

end

/-- The expression that a text is; it must not start with a blank. -/
def parse? (text : String) : Option Expr := do
  let cs := text.toList
  if cs.head? = some ' ' ∨ cs.head? = some '\t' then none
  let ts ← tokens? cs
  match parseItems (4 * ts.length + 4) ts with
  | some ([e], false, []) => some e
  | some (items, _, []) => some (.tuple items)
  | _ => none

/-- Why a text names no type. -/
inductive Problem
  /-- A name in it is not known, or what it leads to is no type; the contract is reported for it. -/
  | unresolved (reason : String)
  /-- Its evaluation ends in an error of another kind, which nobody reports. -/
  | breaks (breakdown : Breakdown)
deriving Repr

/-- What texts mean as types. -/
abbrev Evaluation := String → Except Problem TypeExpr

namespace Problem

/-- The problem with a text that is no expression. -/
def malformed : Problem := .breaks .malformedSource

/-- The problem with a name that stands for nothing. -/
def undefined (name : String) : Problem :=
  .unresolved ("name " ++ Quoted.text name ++ " is not defined")

end Problem

/-- The classes that are known everywhere. -/
def builtinClasses : List String :=
  ["ArithmeticError", "AssertionError", "AttributeError", "BaseException", "BaseExceptionGroup",
   "BlockingIOError", "BrokenPipeError", "BufferError", "BytesWarning", "ChildProcessError",
   "ConnectionAbortedError", "ConnectionError", "ConnectionRefusedError", "ConnectionResetError",
   "DeprecationWarning", "EOFError", "EncodingWarning", "EnvironmentError", "Exception",
   "ExceptionGroup", "FileExistsError", "FileNotFoundError", "FloatingPointError", "FutureWarning",
   "GeneratorExit", "IOError", "ImportError", "ImportWarning", "IndentationError", "IndexError",
   "InterruptedError", "IsADirectoryError", "KeyError", "KeyboardInterrupt", "LookupError",
   "MemoryError", "ModuleNotFoundError", "NameError", "NotADirectoryError", "NotImplementedError",
   "OSError", "OverflowError", "PendingDeprecationWarning", "PermissionError",
   "ProcessLookupError", "RecursionError", "ReferenceError", "ResourceWarning", "RuntimeError",
   "RuntimeWarning", "StopAsyncIteration", "StopIteration", "SyntaxError", "SyntaxWarning",
   "SystemError", "SystemExit", "TabError", "TimeoutError", "TypeError", "UnboundLocalError",
   "UnicodeDecodeError", "UnicodeEncodeError", "UnicodeError", "UnicodeTranslateError",
   "UnicodeWarning", "UserWarning", "ValueError", "Warning", "ZeroDivisionError", "bool",
   "bytearray", "bytes", "classmethod", "complex", "dict", "enumerate", "filter", "float",
   "frozenset", "int", "list", "map", "memoryview", "object", "property", "range", "reversed",
   "set", "slice", "staticmethod", "str", "super", "tuple", "type", "zip"]

/-- The functions that are known everywhere; none of them is a type. -/
def builtinFunctions : List String :=
  ["abs", "aiter", "all", "anext", "any", "ascii", "bin", "breakpoint", "callable", "chr",
   "compile", "delattr", "dir", "divmod", "eval", "exec", "format", "getattr", "globals", "hasattr",
   "hash", "hex", "id", "input", "isinstance", "issubclass", "iter", "len", "locals", "max", "min",
   "next", "oct", "open", "ord", "pow", "print", "repr", "round", "setattr", "sorted", "sum",
   "vars"]

/-- The built-in classes that take type arguments. -/
def genericClasses : List String :=
  ["BaseExceptionGroup", "ExceptionGroup", "dict", "enumerate", "frozenset", "list", "set", "tuple",
   "type"]

/-- What a name stands for where only builtin names are known. -/
def evalName (s : String) : Except Problem TypeExpr :=
  if s = "None" then .ok .nothing
  else if s = "Ellipsis" then .ok (.named "Ellipsis")
  else if s = "True" ∨ s = "False" ∨ s = "NotImplemented" then .ok (.alien s)
  else if builtinClasses.contains s then .ok (.named s)
  else if builtinFunctions.contains s then .ok (.alien s!"<built-in function {s}>")
  else .error (.undefined s)

mutual

/-- The type that an expression names; the fuel bounds texts inside texts. -/
def eval (fuel : Nat) (e : Expr) : Except Problem TypeExpr :=
  match fuel with
  | 0 => .error .malformed
  | fuel + 1 =>
    match e with
    | .name s => evalName s
    | .number n => .ok (.alien (toString n))
    | .ellipsis => .ok (.named "Ellipsis")
    | .text s =>
      match parse? s with
      | some e => eval fuel e
      | none => .error .malformed
    | .tuple items => do
      let items ← evalAll fuel items
      let shown := items.map fun
        | .named n => "<class " ++ Quoted.text n ++ ">"
        | a => a.shown
      let inside := match shown with
        | [one] => one ++ ","
        | all => String.intercalate ", " all
      throw (.unresolved s!"Forward references must evaluate to types. Got ({inside}).")
    | .attribute e _ => do
      let _ ← eval fuel e
      throw (.breaks .missingAttribute)
    | .bar l r => do
      let l ← eval fuel l
      let r ← eval fuel r
      pure (.bars [l, r])
    | .subscript e args => do
      let base ← eval fuel e
      let args ← evalAll fuel args
      match base with
      | .named n =>
        if genericClasses.contains n then pure (.subscript base args)
        else throw (.unresolved ("type " ++ Quoted.text n ++ " is not subscriptable"))
      | .nothing => throw (.unresolved "'NoneType' object is not subscriptable")
      | _ => throw (.unresolved "object is not subscriptable")

def evalAll (fuel : Nat) (es : List Expr) : Except Problem (List TypeExpr) :=
  match fuel, es with
  | _, [] => .ok []
  | 0, _ :: _ => .error .malformed
  | fuel + 1, e :: es => do
    let a ← eval fuel e
    let as ← evalAll fuel es
    pure (a :: as)

end

/-- The type that a text names where only the built-in names are known. -/
def resolve : Evaluation := fun text =>
  match parse? text with
  | some e => eval (2 * text.length + 2) e
  | none => .error .malformed

end HttpContract.Forward

namespace HttpContract.TypeExpr

mutual

/-- The expression with every text replaced by the type it names. -/
def resolved (meaning : Forward.Evaluation) : TypeExpr → Except Forward.Problem TypeExpr
  | forward t => meaning t
  | subscript b args => do
    let b ← resolved meaning b
    let args ← resolvedAll meaning args
    pure (subscript b args)
  | union ms => (resolvedAll meaning ms).map union
  | bars ms => (resolvedAll meaning ms).map bars
  | annotated b marks => do
    let b ← resolved meaning b
    pure (annotated b marks)
  | callable none result => (resolved meaning result).map (callable none)
  | callable (some parameters) result => do
    let parameters ← resolvedAll meaning parameters
    let result ← resolved meaning result
    pure (callable (some parameters) result)
  | a => .ok a

def resolvedAll (meaning : Forward.Evaluation) :
    List TypeExpr → Except Forward.Problem (List TypeExpr)
  | [] => .ok []
  | a :: as => do
    let b ← resolved meaning a
    let bs ← resolvedAll meaning as
    pure (b :: bs)

end

end HttpContract.TypeExpr
