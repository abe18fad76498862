import HttpContract.Basic
import HttpContract.Toml.Scalar

/-!
# TOML documents

A document is a list of statements, each of which adds to a tree of tables. Which tables a statement
may still open or extend is known by two sets of keys: those declared, which no header may declare
again, and those sealed, whose values were written in full and stay as they are, with all below.
-/

namespace HttpContract.Toml

/-- A table: its keys in the order in which they were first given. -/
abbrev Table := List (String × Value)

namespace Table

/-- The table as a value. -/
def toValue (t : Table) : Value := .dict (t.map fun e => (.text e.1, e.2))

/-- The table that a value is, if all keys are texts. -/
def ofValue? : Value → Option Table
  | .dict entries => entries.mapM fun e =>
    match e.1 with
    | .text k => some (k, e.2)
    | _ => none
  | _ => none

/-- Changes the table at a key. Missing tables on the way are made; of a list of tables the last one
counts when `intoLists` is set. None when a value that is no table is in the way. -/
def modifyAt? (intoLists : Bool) (f : Table → Option Table) : Key → Table → Option Table
  | [], t => f t
  | k :: key, t =>
    match Entries.get? t k with
    | none => do pure (Entries.insert t k (toValue (← modifyAt? intoLists f key [])))
    | some (.list items) =>
      match intoLists, items.getLast? with
      | true, some last => do
        let inner ← modifyAt? intoLists f key (← ofValue? last)
        pure (Entries.insert t k (.list (items.dropLast ++ [toValue inner])))
      | _, _ => none
    | some v => do pure (Entries.insert t k (toValue (← modifyAt? intoLists f key (← ofValue? v))))

/-- Adds a new key. -/
def add? (k : String) (v : Value) (t : Table) : Option Table :=
  match Entries.get? t k with
  | none => some (t ++ [(k, v)])
  | some _ => none

/-- Adds an empty table to a list of tables, which is made if it is missing. -/
def appendTable? (k : String) (t : Table) : Option Table :=
  match Entries.get? t k with
  | none => some (t ++ [(k, .list [toValue []])])
  | some (.list items) => some (Entries.insert t k (.list (items ++ [toValue []])))
  | some _ => none

end Table

/-- Whether a value is sealed when it is written. -/
def isComposite : Value → Bool
  | .list _ | .dict _ => true
  | _ => false

/-- Whether a key lies in a table that may no longer be added to. -/
def isSealed (sealedKeys : List Key) (key : Key) : Bool := sealedKeys.any (·.isPrefixOf key)

/-! ## Values -/

/-- What follows blanks, line breaks and comments between the items of a list; the fuel is the
length of the text. -/
def skipLines? (fuel : Nat) (cs : List Char) : Option (List Char) :=
  match fuel with
  | 0 => some cs
  | fuel + 1 =>
  match cs.dropWhile isSpaceOrLine with
  | '#' :: rest => (skipComment? ('#' :: rest)).bind (skipLines? fuel)
  | rest => some rest

mutual

/-- A value off the front; the fuel bounds how often the readers call each other. -/
def value? (fuel : Nat) (cs : List Char) : Option (Value × List Char) :=
  match fuel with
  | 0 => none
  | fuel + 1 =>
  match cs with
  | '[' :: rest => do
    match ← skipLines? rest.length rest with
    | ']' :: rest => pure (.list [], rest)
    | rest =>
      let (items, rest) ← items? fuel rest
      pure (.list items, rest)
  | '\x7b' :: rest =>
    match skipSpace rest with
    | '\x7d' :: rest => some (Table.toValue [], rest)
    | rest => (inline? fuel [] [] rest).map fun r => (Table.toValue r.1, r.2)
  | cs => scalar? cs

/-- The items of a list up to its end; a comma may follow the last one. -/
def items? (fuel : Nat) (cs : List Char) : Option (List Value × List Char) :=
  match fuel with
  | 0 => none
  | fuel + 1 => do
    let (v, rest) ← value? fuel cs
    match ← skipLines? rest.length rest with
    | ']' :: rest => pure ([v], rest)
    | ',' :: rest =>
      match ← skipLines? rest.length rest with
      | ']' :: rest => pure ([v], rest)
      | rest =>
        let (vs, rest) ← items? fuel rest
        pure (v :: vs, rest)
    | _ => none

/-- The entries of a table on one line up to its end; no comma may follow the last one. -/
def inline? (fuel : Nat) (sealedKeys : List Key) (table : Table) (cs : List Char) :
    Option (Table × List Char) :=
  match fuel with
  | 0 => none
  | fuel + 1 => do
    let (key, v, rest) ← entry? fuel cs
    if isSealed sealedKeys key then none
    else
      let table ← table.modifyAt? false (Table.add? (key.getLastD "") v) key.dropLast
      match skipSpace rest with
      | '\x7d' :: rest => pure (table, rest)
      | ',' :: rest =>
        let sealedKeys := if isComposite v then key :: sealedKeys else sealedKeys
        inline? fuel sealedKeys table (skipSpace rest)
      | _ => none

/-- A key, an equals sign and a value. -/
def entry? (fuel : Nat) (cs : List Char) : Option (Key × Value × List Char) :=
  match fuel with
  | 0 => none
  | fuel + 1 => do
    match ← key? cs with
    | (key, '=' :: rest) =>
      let (v, rest) ← value? fuel (skipSpace rest)
      pure (key, v, rest)
    | _ => none

end

/-! ## Statements -/

/-- What has been read of a document. -/
structure Progress where
  root : Table := []
  /-- The table that entries now belong to. -/
  header : Key := []
  declared : List Key := []
  sealedKeys : List Key := []
  /-- Tables made by dotted keys, which are declared from the next header on. -/
  pending : List Key := []

namespace Progress

/-- Goes on below the header of a table, unless the table has been declared or sealed. -/
def openTable? (p : Progress) (key : Key) : Option Progress :=
  let declared := p.pending ++ p.declared
  if declared.contains key || isSealed p.sealedKeys key then none
  else do
    let root ← p.root.modifyAt? true some key
    pure { p with root, header := key, declared := key :: declared, pending := [] }

/-- Opens the next table of a list; what was declared and sealed in the one before counts no
more. -/
def openListed? (p : Progress) (key : Key) : Option Progress :=
  if isSealed p.sealedKeys key then none
  else
    let keep (keys : List Key) := keys.filter fun k => !key.isPrefixOf k
    do
      let root ← p.root.modifyAt? true (Table.appendTable? (key.getLastD "")) key.dropLast
      pure { root, header := key, declared := key :: keep (p.pending ++ p.declared),
             sealedKeys := keep p.sealedKeys }

/-- The tables that a dotted key goes through. -/
def tablesOf (header key : Key) : List Key :=
  (List.range (key.length - 1)).map fun i => header ++ key.take (i + 1)

/-- Adds a value under a key, unless something is there or the tables on the way are sealed. -/
def add? (p : Progress) (key : Key) (v : Value) : Option Progress :=
  let way := tablesOf p.header key
  let parent := p.header ++ key.dropLast
  if way.any p.declared.contains || isSealed p.sealedKeys parent then none
  else do
    let root ← p.root.modifyAt? true (Table.add? (key.getLastD "") v) parent
    pure { p with
      root, pending := way ++ p.pending
      sealedKeys := if isComposite v then (p.header ++ key) :: p.sealedKeys else p.sealedKeys }

end Progress

/-- One statement off the front of a line that is neither empty nor a comment. -/
def statement? (p : Progress) (cs : List Char) : Option (Progress × List Char) :=
  match cs with
  | '[' :: '[' :: rest => do
    match ← key? (skipSpace rest) with
    | (key, ']' :: ']' :: rest) => pure (← p.openListed? key, rest)
    | _ => none
  | '[' :: rest => do
    match ← key? (skipSpace rest) with
    | (key, ']' :: rest) => pure (← p.openTable? key, rest)
    | _ => none
  | cs => do
    let (key, v, rest) ← entry? (3 * cs.length + 3) cs
    pure (← p.add? key v, rest)

/-- Reads statements to the end; the fuel is the length of the text. -/
def statements? (fuel : Nat) (p : Progress) (cs : List Char) : Option Table :=
  match fuel with
  | 0 => none
  | fuel + 1 =>
  match skipSpace cs with
  | [] => some p.root
  | '\n' :: rest => statements? fuel p rest
  | cs => do
    let (p, rest) ← if cs.head? = some '#' then some (p, cs) else statement? p cs
    match ← skipComment? (skipSpace rest) with
    | [] => pure p.root
    | '\n' :: rest => statements? fuel p rest
    | _ => none

/-- A carriage return before a line break does not count. -/
def joinLineEnds : List Char → List Char
  | '\r' :: '\n' :: rest => '\n' :: joinLineEnds rest
  | c :: rest => c :: joinLineEnds rest
  | [] => []

/-- The top table of a document; none when the text is no document. -/
def read? (s : String) : Option Table :=
  let cs := joinLineEnds s.toList
  statements? (cs.length + 1) {} cs

end HttpContract.Toml
