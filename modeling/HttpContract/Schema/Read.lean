import HttpContract.Schema.Scalar

/-!
# Reading values

Reads a JSON value by a schema. All issues of a container are reported, each under its place. Of the
members of a choice an exact fit wins; otherwise the member with most record fields, then the
closest fit, then the first one.
-/

namespace HttpContract

namespace Value

mutual

/-- A JSON value as it stands. -/
def ofJson : Json → Value
  | .null => .null
  | .bool b => .bool b
  | .int i => .int i
  | .float x => .float x
  | .string s => .text s
  | .array items => .list (ofJsonAll items)
  | .object entries => .dict (dictOf (ofJsonEntries entries))

def ofJsonAll : List Json → List Value
  | [] => []
  | j :: js => ofJson j :: ofJsonAll js

def ofJsonEntries : List (String × Json) → List (Value × Value)
  | [] => []
  | (k, j) :: rest => (.text k, ofJson j) :: ofJsonEntries rest

end

/-- Whether a value can be a key. -/
def isHashable : Value → Bool
  | .list _ | .dict _ | .set _ => false
  | _ => true

/-- The entry of a table of values that a JSON value stands for: one of the same kind first, then
one that compares equal, the last of them counting. -/
def lookup? {α : Type} (table : List (Value × α)) (j : Json) : Option α :=
  let v := ofJson j
  let same : Option (Value × α) := match v with
    | .bool _ | .int _ | .text _ => table.find? fun e => e.1 == v
    | _ => none
  (same.orElse fun _ => table.reverse.find? fun e => sameKey e.1 v).map fun e => e.2

end Value

namespace Schema

/-- A value that is wrong as a whole. -/
def issue (k : IssueKind) : Reading := .error [⟨k, []⟩]

/-- A scalar as a value. -/
def scalar {α : Type} (make : α → Value) : Scalar.Result α → Reading
  | .ok (a, e) => .ok { value := make a, exactness := e }
  | .error k => issue k

/-- The fields that were set in two parts; only records count them. -/
def addFields : Option Nat → Option Nat → Option Nat
  | some m, some n => some (m + n)
  | some m, none | none, some m => some m
  | none, none => none

/-- Joins readings of parts: all issues, or the values with the least exactness. -/
def collect : List Reading → Except (List Issue) (List Value × Exactness × Option Nat)
  | [] => .ok ([], .exact_, none)
  | r :: rs =>
    match r, collect rs with
    | .ok a, .ok (vs, e, n) => .ok (a.value :: vs, a.exactness.min e, addFields a.fields n)
    | .ok _, .error is => .error is
    | .error is, .ok _ => .error is
    | .error is, .error js => .error (is ++ js)

/-- A container of values that were read one by one: it fits no more closely than any of them. -/
def container (make : List Value → Value) (floor : Exactness) (rs : List Reading) : Reading :=
  (collect rs).map fun (vs, e, n) => { value := make vs, exactness := e.min floor, fields := n }

/-- A reading as seen from one level further out. -/
def under (part : PathPart) (r : Reading) : Reading :=
  r.mapError fun is => is.map (Issue.under part)

/-- The values of a list: a problem with one of them is found at its index. -/
def indexed (rs : List Reading) : List Reading :=
  rs.zipIdx.map fun (r, i) => under (.index i) r

/-- Whether a candidate for a choice is better than the best one so far. -/
def isBetter (best new : Accepted) : Bool :=
  match best.fields, new.fields with
  | some m, some n => if m = n then best.exactness.rank < new.exactness.rank else m < n
  | _, _ => best.exactness.rank < new.exactness.rank

/-- Chooses among the readings of the members of a choice. -/
def choose (best : Option Accepted) (issues : List Issue) : List (String × Reading) → Reading
  | [] =>
    match best with
    | some a => .ok a
    | none => .error issues
  | (label, r) :: rest =>
    match r with
    | .error is => choose best (issues ++ is.map (Issue.under (.key label))) rest
    | .ok a =>
      if a.exactness = .exact_ ∧ a.fields.isNone then .ok a
      else match best with
        | none => choose (some a) issues rest
        | some b => choose (some (if isBetter b a then a else b)) issues rest

/-- The values without those that are equal to an earlier one. -/
def distinctKeys (vs : List Value) : List Value :=
  vs.foldl (fun done v => if done.any (Value.sameKey v) then done else done ++ [v]) []

/-- The entries of a dictionary from readings of its keys and values. -/
def entries (rs : List (Reading × Reading)) : Reading :=
  match collect (rs.flatMap fun r => [r.1, r.2]) with
  | .error is => .error is
  | .ok (vs, e, n) =>
    let rec pairUp : List Value → List (Value × Value)
      | k :: v :: rest => (k, v) :: pairUp rest
      | _ => []
    .ok { value := .dict (Value.dictOf (pairUp vs)), exactness := e, fields := n }

/-- What is wrong where no object is given for a record. -/
def recordTypeIssue : RecordKind → IssueKind
  | .model => .modelType
  | .dataclass => .dataclassType

/-- The fields of a record: the readings of those given, the defaults of the others. -/
def fieldsOf (rs : List (String × Option Reading × Option Value)) :
    Except (List Issue) (List (String × Value) × Nat) :=
  match rs with
  | [] => .ok ([], 0)
  | (name, given, default) :: rest =>
    let own : Except (List Issue) (Value × Nat) :=
      match given, default with
      | some r, _ => (under (.key name) r).map fun a => (a.value, 1 + a.fields.getD 0)
      | none, some v => .ok (v, 0)
      | none, none => .error [⟨.missing, [.key name]⟩]
    match own, fieldsOf rest with
    | .ok (v, m), .ok (vs, n) => .ok ((name, v) :: vs, m + n)
    | .ok _, .error is => .error is
    | .error is, .ok _ => .error is
    | .error is, .error js => .error (is ++ js)

mutual

/-- Reads a value as the schema says. -/
def read : Schema → Json → Reading
  | .any, j => .ok { value := .ofJson j, exactness := .strict }
  | .nothing, j => if j == .null then .ok { value := .null } else issue .noneRequired
  | .bool, j => scalar .bool (Scalar.bool j)
  | .int, j => scalar .int (Scalar.int j)
  | .float, j => scalar .float (Scalar.float j)
  | .text, j => scalar .text (Scalar.text j)
  | .bytes, j => scalar .bytes (Scalar.bytes j)
  | .date, j => scalar .date (Scalar.date j)
  | .dateTime, j => scalar .dateTime (Scalar.dateTime j)
  | .uuid, j => scalar .uuid (Scalar.uuid j)
  | .decimal, j => scalar .decimal (Scalar.decimal j)
  | .list item, j =>
    match j with
    | .array js => container .list .exact_ (indexed (js.map fun j => read item j))
    | _ => issue .listType
  | .set item, j =>
    match j with
    | .array js =>
      container (fun vs => .set (distinctKeys vs)) .strict (indexed (js.map fun j => read item j))
    | _ => issue .setType
  | .dict key value, j =>
    match j with
    | .object es => entries (es.map fun e =>
        (under (.key e.1) (under (.key "[key]") (read key (.string e.1))),
         under (.key e.1) (read value e.2)))
    | _ => issue .dictType
  | .tupleOf item, j =>
    match j with
    | .array js => container .tuple .strict (indexed (js.map fun j => read item j))
    | _ => issue .tupleType
  | .tuple items, j =>
    match j with
    | .array js =>
      if items.length < js.length then issue .tooLong
      else container .tuple .strict (indexed (readItems items js))
    | _ => issue .tupleType
  | .nullable inner, j => if j == .null then .ok { value := .null } else read inner j
  | .union members, j => choose none [] (readMembers members j)
  | .literal values, j =>
    match Value.lookup? (values.map fun v => (v, v)) j with
    | some v => .ok { value := v }
    | none => issue .literalError
  | .enumeration cls kind members, j =>
    let key? : Option Json := match kind with
      | .plain => some j
      | .text => match Scalar.text j with
        | .ok (s, _) => some (.string s)
        | .error _ => none
      | .integer => match Scalar.int j with
        | .ok (i, _) => some (.int i)
        | .error _ => none
    match key?.bind (Value.lookup? (members.reverse.map fun m => (m.2, m))) with
    | some m => .ok { value := .member cls kind m.1 m.2, exactness := .lax }
    | none => issue .enumError
  | .record cls kind fields, j =>
    match j with
    | .object es =>
      (fieldsOf (readFields fields es)).map fun (vs, n) =>
        { value := .record cls kind vs, exactness := .lax,
          fields := if kind = .model then some n else none }
    | _ => issue (recordTypeIssue kind)

/-- The items of a tuple; those that are not there are missing. -/
def readItems : List Schema → List Json → List Reading
  | [], _ => []
  | s :: ss, j :: js => read s j :: readItems ss js
  | _ :: ss, [] => issue .missing :: readItems ss []

/-- Reads a value as each member of a union. -/
def readMembers : List (String × Schema) → Json → List (String × Reading)
  | [], _ => []
  | (label, s) :: rest, j => (label, read s j) :: readMembers rest j

/-- The fields that an object gives, the last entry of a key counting. -/
def readFields : List (String × Schema × Option Value) → List (String × Json) →
    List (String × Option Reading × Option Value)
  | [], _ => []
  | (name, s, default) :: rest, es =>
    let given : Option Reading := match Json.get? es name with
      | some j => some (read s j)
      | none => none
    (name, given, default) :: readFields rest es

end

end Schema

end HttpContract
