import HttpContract.Basic
import HttpContract.Number.Binary64

/-!
# JSON values

Objects are lists of entries in the order written. A list of entries may repeat a key: looking a key
up finds the last entry, and `merge` keeps the first position with the last value.
-/

namespace HttpContract

/-- JSON values as they are read; numbers keep apart whether they are whole. -/
inductive Json
  | null
  | bool (b : Bool)
  | int (i : Int)
  | float (x : Binary64)
  | string (s : String)
  | array (items : List Json)
  | object (entries : List (String × Json))
deriving Inhabited, Repr, BEq

namespace Json

/-- The value of a key, the last entry counting. -/
def get? (entries : List (String × Json)) (key : String) : Option Json :=
  (entries.reverse.find? fun e => e.1 == key).map (·.2)

mutual

/-- How deep containers nest. -/
def depth : Json → Nat
  | .array items => 1 + depthAll items
  | .object entries => 1 + depthEntries entries
  | _ => 1

def depthAll : List Json → Nat
  | [] => 0
  | j :: js => max (depth j) (depthAll js)

def depthEntries : List (String × Json) → Nat
  | [] => 0
  | (_, j) :: rest => max (depth j) (depthEntries rest)

end

/-- The entry of an object; none when it is missing or the value is no object. -/
def field? (j : Json) (key : String) : Option Json :=
  match j with
  | .object entries => get? entries key
  | _ => none

end Json

end HttpContract
