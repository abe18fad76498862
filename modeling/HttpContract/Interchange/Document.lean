import HttpContract.Json.Basic

/-!
# Documents

JSON documents as the interchange form of the library's own data. A document is taken apart by
field; an absent field and a null one count alike where a field may be left out.
-/

namespace HttpContract.Interchange

/-- A reading of a document, or what is wrong with it. -/
abbrev Decode := Except String

def obj (fields : List (String × Json)) : Json := .object fields

/-- What there may be; nothing is `null`. -/
def jopt {α : Type} (f : α → Json) : Option α → Json
  | some a => f a
  | none => .null
def jstr (s : Option String) : Json := jopt .string s
def jlist {α : Type} (f : α → Json) (xs : List α) : Json := .array (xs.map f)
def jstrs (xs : List String) : Json := jlist .string xs
def jnat (n : Nat) : Json := .int n

/-- The value of a field that has to be there. -/
def field (j : Json) (k : String) : Decode Json :=
  match j.field? k with
  | some v => .ok v
  | none => .error s!"missing field {k}"

/-- The value of a field that is there and not null. -/
def present (j : Json) (k : String) : Option Json :=
  match j.field? k with
  | some .null => none
  | v => v

def asStr : Json → Decode String
  | .string s => .ok s
  | _ => .error "text expected"

def asBool : Json → Decode Bool
  | .bool b => .ok b
  | _ => .error "truth value expected"

def asInt : Json → Decode Int
  | .int i => .ok i
  | _ => .error "integer expected"

def asList : Json → Decode (List Json)
  | .array xs => .ok xs
  | _ => .error "list expected"

def asEntries : Json → Decode (List (String × Json))
  | .object es => .ok es
  | _ => .error "object expected"

def str (j : Json) (k : String) : Decode String := do asStr (← field j k)

/-- A text, or `d` if none is given. -/
def strD (j : Json) (k d : String) : Decode String :=
  match present j k with
  | some v => asStr v
  | none => .ok d

/-- A text, if one is given. -/
def strOpt (j : Json) (k : String) : Decode (Option String) :=
  match present j k with
  | some v => (asStr v).map some
  | none => .ok none

/-- A truth value, or `d` if none is given. -/
def boolD (j : Json) (k : String) (d : Bool) : Decode Bool :=
  match present j k with
  | some v => asBool v
  | none => .ok d

/-- A list, which is empty if none is given. -/
def listD (j : Json) (k : String) : Decode (List Json) :=
  match present j k with
  | some v => asList v
  | none => .ok []

def strList (j : Json) (k : String) : Decode (List String) := do (← listD j k).mapM asStr

/-- Pairs of texts, of which there are none if none are given. -/
def pairs (j : Json) (k : String) : Decode (List (String × String)) := do
  (← listD j k).mapM fun p => do
    match ← asList p with
    | [a, b] => pure (← asStr a, ← asStr b)
    | _ => throw "pair expected"

end HttpContract.Interchange
