import HttpContract.Basic

/-!
# Variable files

Files of lines `NAME=value`. A value may be quoted, bare values end before a comment, a name without
an equals sign has no value, and `${NAME}` in a value stands for the value of another
variable. A line that is none of this is passed over.
-/

namespace HttpContract.DotEnv

open Text (isBlank)

/-- Whether a character is a blank within a line. -/
def isLineBlank (c : Char) : Bool := isBlank c && c != '\n' && c != '\r'

/-- What is left behind the blanks in front. -/
def skipBlanks (cs : List Char) : List Char := cs.dropWhile isLineBlank

/-- What follows the word `export` and the blanks behind it. -/
def skipExport (cs : List Char) : List Char :=
  if "export".toList.isPrefixOf cs && (cs.drop 6).head?.any isLineBlank then
    skipBlanks (cs.drop 6)
  else cs

/-- The position of the quote that closes a value: the first one without a backslash before it, or
else the last one at all. -/
def closing? (quote : Char) : (afterBackslash : Bool) → List Char → Option Nat
  | _, [] => none
  | escaped, c :: cs =>
    let later := (closing? quote (c == '\\') cs).map (· + 1)
    if c == quote then if escaped then later.or (some 0) else some 0 else later

/-- A value without its escapes: a backslash goes before the characters that `meaning` knows. -/
def unescape (meaning : Char → Option Char) : List Char → List Char
  | '\\' :: c :: cs =>
    match meaning c with
    | some d => d :: unescape meaning cs
    | none => '\\' :: unescape meaning (c :: cs)
  | c :: cs => c :: unescape meaning cs
  | [] => []

/-- What an escape between single quotes stands for. -/
def singleMeaning (c : Char) : Option Char := if c == '\\' || c == '\'' then some c else none

/-- What an escape between double quotes stands for. -/
def doubleMeaning (c : Char) : Option Char :=
  match c with
  | '\\' | '\'' | '"' => some c
  | 'a' => some '\x07'
  | 'b' => some '\x08'
  | 'f' => some '\x0c'
  | 'n' => some '\n'
  | 'r' => some '\r'
  | 't' => some '\t'
  | 'v' => some '\x0b'
  | _ => none

/-- A bare value up to the blanks before a comment. -/
def beforeComment : List Char → List Char
  | [] => []
  | c :: cs =>
    if isBlank c && (cs.dropWhile isBlank).head? == some '#' then [] else c :: beforeComment cs

/-- A value off the front; the text that is left when it has no closing quote. -/
def value (cs : List Char) : Except (List Char) (String × List Char) :=
  let quoted (quote : Char) (meaning : Char → Option Char) (inside : List Char) :=
    match closing? quote false inside with
    | some n => .ok (String.ofList (unescape meaning (inside.take n)), inside.drop (n + 1))
    | none => .error cs
  match cs with
  | '\'' :: inside => quoted '\'' singleMeaning inside
  | '"' :: inside => quoted '"' doubleMeaning inside
  | cs =>
    let line := cs.takeWhile (· != '\n')
    .ok (String.ofList (Text.trimEnd isBlank (beforeComment line)), cs.dropWhile (· != '\n'))

/-- A name off the front; none at a comment. -/
def name (cs : List Char) : Except (List Char) (Option String × List Char) :=
  match cs with
  | '#' :: _ => .ok (none, cs)
  | '\'' :: inside =>
    let text := inside.takeWhile (· != '\'')
    match inside.dropWhile (· != '\'') with
    | _ :: rest => if text.isEmpty then .error cs else .ok (some (String.ofList text), rest)
    | [] => .error cs
  | cs =>
    let isNameChar (c : Char) := c != '=' && c != '#' && !isBlank c
    let text := cs.takeWhile isNameChar
    if text.isEmpty then .error cs else .ok (some (String.ofList text), cs.dropWhile isNameChar)

/-- What follows a comment, if one starts here, and the end of the line. -/
def lineEnd (cs : List Char) : Except (List Char) (List Char) :=
  let cs := match skipBlanks cs with
    | '#' :: rest => rest.dropWhile (· != '\n')
    | _ => cs
  match skipBlanks cs with
  | [] => .ok []
  | '\n' :: rest => .ok rest
  | _ => .error cs

/-- One binding off the front, with the name and the value that it has; or the text at which it goes
wrong. -/
def binding (cs : List Char) : Except (List Char) (Option String × Option String × List Char) := do
  let (key, cs) ← name (skipExport cs)
  match skipBlanks cs with
  | '=' :: rest =>
    let (v, rest) ← value (skipBlanks rest)
    pure (key, some v, ← lineEnd rest)
  | rest => pure (key, none, ← lineEnd rest)

/-- All bindings; the fuel is the length of the text. -/
def bindings (fuel : Nat) (cs : List Char) : List (String × Option String) :=
  match fuel with
  | 0 => []
  | fuel + 1 =>
  match cs.dropWhile isBlank with
  | [] => []
  | cs =>
    match binding cs with
    | .ok (some key, v, rest) => (key, v) :: bindings fuel rest
    | .ok (none, _, rest) => bindings fuel rest
    | .error rest => bindings fuel ((rest.dropWhile (· != '\n')).drop 1)

/-! ## Variables in values -/

/-- A variable between braces off the front, with what it stands for when it has no value. -/
def reference? (cs : List Char) : Option (String × String × List Char) :=
  let key := cs.takeWhile fun c => c != '\x7d' && c != ':'
  match cs.dropWhile fun c => c != '\x7d' && c != ':' with
  | '\x7d' :: rest => some (String.ofList key, "", rest)
  | ':' :: '-' :: rest =>
    match rest.dropWhile (· != '\x7d') with
    | _ :: after => some (String.ofList key, String.ofList (rest.takeWhile (· != '\x7d')), after)
    | [] => none
  | _ => none

/-- A value with the variables in it replaced; the fuel is its length. -/
def expand (get : String → Option (Option String)) (fuel : Nat) (cs : List Char) : List Char :=
  match fuel with
  | 0 => []
  | fuel + 1 =>
  match cs with
  | [] => []
  | '$' :: '\x7b' :: rest =>
    match reference? rest with
    | some (key, other, rest) =>
      let v := match get key with
        | some v => v.getD ""
        | none => other
      v.toList ++ expand get fuel rest
    | none => '$' :: expand get fuel ('\x7b' :: rest)
  | c :: rest => c :: expand get fuel rest

/-- Line ends of every kind as line feeds. -/
def plainLineEnds : List Char → List Char
  | '\r' :: '\n' :: rest => '\n' :: plainLineEnds rest
  | '\r' :: rest => '\n' :: plainLineEnds rest
  | c :: rest => c :: plainLineEnds rest
  | [] => []

/-- The variables of a file, each with the value it has last. Variables in values are looked up
among those above, then in the environment. -/
def read (environment : List (String × String)) (s : String) : List (String × Option String) :=
  let cs := plainLineEnds s.toList
  (bindings (cs.length + 1) cs).foldl (fun done b =>
    let get (key : String) : Option (Option String) :=
      (Entries.get? done key).or ((Entries.get? environment.reverse key).map some)
    let v := b.2.map fun v => String.ofList (expand get (v.length + 1) v.toList)
    Entries.insert done b.1 v) []

end HttpContract.DotEnv
