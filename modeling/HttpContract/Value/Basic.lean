import HttpContract.Basic
import HttpContract.Json.Basic
import HttpContract.Number.Decimal
import HttpContract.Text.Utf8
import HttpContract.Value.Calendar

/-!
# Values

What a call is given and what it returns: scalars, containers, streams, holders for results, members
of declared enumerations and instances of declared records.
-/

namespace HttpContract

/-- Where a declared class lives: its module and its dotted name there. -/
structure ClassName where
  module : String
  qualname : String
deriving DecidableEq, Repr, Inhabited

namespace ClassName

/-- The name without the classes around it. -/
def simple (c : ClassName) : String := (Text.split '.' c.qualname).getLastD ""

/-- The dotted name of the class. -/
def full (c : ClassName) : String := c.module ++ "." ++ c.qualname

end ClassName

/-- Whether the members of an enumeration are also text or integers. -/
inductive EnumKind
  | plain
  | text
  | integer
deriving DecidableEq, Repr, Inhabited

/-- The kinds of classes whose values have fields. -/
inductive RecordKind
  | model
  | dataclass
deriving DecidableEq, Repr, Inhabited

/-- Values of a program, as far as requests and settings are made of them. -/
inductive Value
  | null
  | bool (b : Bool)
  | int (i : Int)
  | float (x : Binary64)
  | text (s : String)
  | bytes (bs : Bytes)
  | byteArray (bs : Bytes)
  | list (items : List Value)
  | tuple (items : List Value)
  | set (items : List Value)
  | dict (entries : List (Value × Value))
  | date (d : Date)
  | time (t : TimeOfDay)
  | dateTime (t : DateTime)
  | uuid (u : Uuid)
  | decimal (d : Decimal)
  /-- A binary stream, known by the bytes not read yet. -/
  | stream (rest : Bytes)
  /-- A text stream, known by the text not read yet. -/
  | textStream (rest : String)
  /-- A holder that a call may fill. -/
  | out (held : Value)
  /-- A foreign object, known by its display text only. -/
  | foreign (display : String)
  | member (cls : ClassName) (kind : EnumKind) (name : String) (value : Value)
  | record (cls : ClassName) (kind : RecordKind) (fields : List (String × Value))
deriving Inhabited, Repr, BEq

namespace Value

/-- Whether the value is `None`. -/
def isNull : Value → Bool
  | null => true
  | _ => false

/-- The number that a value counts as when it is compared. -/
def number? : Value → Option Int
  | bool b => some (if b then 1 else 0)
  | int i => some i
  | float x => x.toInt?
  | member _ .integer _ (int i) => some i
  | _ => none

/-- The text that a value counts as when it is compared. -/
def text? : Value → Option String
  | text s => some s
  | member _ .text _ (text s) => some s
  | _ => none

/-- Whether two values are one key: numbers of every kind compare by what they are equal to. -/
def sameKey (a b : Value) : Bool :=
  match a.number?, b.number?, a.text?, b.text? with
  | some m, some n, _, _ => m == n
  | _, _, some s, some t => s == t
  | _, _, _, _ => a == b

/-- The entries of a dictionary with `k` bound to `v`: an equal key stays as it was written first.
-/
def insertKey (entries : List (Value × Value)) (k v : Value) : List (Value × Value) :=
  match entries with
  | [] => [(k, v)]
  | e :: rest => if sameKey e.1 k then (e.1, v) :: rest else e :: insertKey rest k v

/-- A dictionary of the given entries: a repeated key keeps its first form and its last value. -/
def dictOf (entries : List (Value × Value)) : List (Value × Value) :=
  entries.foldl (fun done e => insertKey done e.1 e.2) []

end Value

end HttpContract
