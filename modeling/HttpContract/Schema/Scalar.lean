import HttpContract.Number.Layout
import HttpContract.Schema.Basic

/-!
# Reading scalars

The conversions of single values. Text is accepted for numbers, truth values, dates and identifiers,
so that the same rules serve JSON and headers.
-/

namespace HttpContract.Scalar

/-- A value with its exactness, or the kind of issue. -/
abbrev Result (α : Type) := Except IssueKind (α × Exactness)

/-- The longest integer that is read from text, in digits. -/
def maxDigits : Nat := 4300

/-- An integer: also a truth value, a number without places and a text of digits. -/
def int : Json → Result Int
  | .int i => .ok (i, .exact_)
  | .bool b => .ok (if b then 1 else 0, .lax)
  | .float x =>
    if !x.isFinite then .error .finiteNumber
    else match x.toInt? with
      | none => .error .intFromFloat
      | some i => if i.natAbs < Number.powerOfTwo 63 then .ok (i, .lax) else .error .intParsingSize
  | .string s =>
    match Number.integer? s with
    | some i => if s.length ≤ maxDigits then .ok (i, .lax) else .error .intParsingSize
    | none => .error .intParsing
  | _ => .error .intType

/-- A number: also a truth value and the text of a number. -/
def float : Json → Result Binary64
  | .float x => .ok (x, .exact_)
  | .int i => .ok (.ofInt i, .strict)
  | .bool b => .ok (.ofInt (if b then 1 else 0), .lax)
  | .string s =>
    match Number.float? s with
    | some x => .ok (x, .lax)
    | none => .error .floatParsing
  | _ => .error .floatType

/-- The truth value of a word, in either case. -/
def boolWord? (s : String) : Option Bool :=
  let w := String.ofList (s.toList.map Char.toLower)
  if ["1", "on", "t", "true", "y", "yes"].contains w then some true
  else if ["0", "off", "f", "false", "n", "no"].contains w then some false
  else none

/-- The truth value of a number, if it is one or zero. -/
def boolNumber? (i : Int) : Option Bool :=
  if i = 1 then some true else if i = 0 then some false else none

/-- A truth value: also a number or a word for one. -/
def bool : Json → Result Bool
  | .bool b => .ok (b, .exact_)
  | .int i =>
    match boolNumber? i with
    | some b => .ok (b, .lax)
    | none => .error (if i.natAbs < Number.powerOfTwo 63 then .boolParsing else .boolType)
  | .float x =>
    match x.toInt?.bind boolNumber? with
    | some b => .ok (b, .lax)
    | none => .error .boolType
  | .string s =>
    match boolWord? s with
    | some b => .ok (b, .lax)
    | none => .error .boolParsing
  | _ => .error .boolType

/-- A text, and nothing else. -/
def text : Json → Result String
  | .string s => .ok (s, .exact_)
  | _ => .error .stringType

/-- Bytes, given as the text that they encode. -/
def bytes : Json → Result Bytes
  | .string s => .ok (Utf8.encode s, .strict)
  | _ => .error .bytesType

/-- Reads a count of seconds or milliseconds, or a text that is one. -/
def timestamp? : Json → Option DateTime
  | .int i => DateTime.ofTimestamp? i
  | .float x => x.toInt?.bind DateTime.ofTimestamp?
  | .string s => (Number.integer? s).bind DateTime.ofTimestamp?
  | _ => none

/-- A date, or a moment at midnight. -/
def date (j : Json) : Result Date :=
  let ofMoment (t : DateTime) : Result Date :=
    if t.time = .midnight then .ok (t.date, .lax) else .error .dateFromDateTimeInexact
  match j with
  | .string s =>
    match Date.ofIso? s with
    | some d => .ok (d, .strict)
    | none =>
      match (DateTime.ofIso? s).orElse fun _ => timestamp? j with
      | some t => ofMoment t
      | none => .error .dateFromDateTimeParsing
  | .int _ | .float _ =>
    match timestamp? j with
    | some t => ofMoment t
    | none => .error .dateFromDateTimeParsing
  | _ => .error .dateType

/-- A moment: its text, or the seconds since the epoch. -/
def dateTime (j : Json) : Result DateTime :=
  match j with
  | .string s =>
    match (DateTime.ofIso? s).orElse fun _ => timestamp? j with
    | some t => .ok (t, .strict)
    | none => .error .dateTimeFromDateParsing
  | .int _ | .float _ =>
    match timestamp? j with
    | some t => .ok (t, .lax)
    | none => .error .dateTimeParsing
  | _ => .error .dateTimeType

/-- The text of an identifier: its digits, in five groups or without hyphens. -/
def isUuid (s : String) : Bool :=
  let cs := s.toList
  let lower := cs.map Char.toLower
  let body :=
    if "urn:uuid:".toList.isPrefixOf lower then cs.drop 9
    else if cs.head? = some '\x7b' ∧ cs.getLast? = some '\x7d' then (cs.drop 1).dropLast
    else cs
  let groups := Text.split '-' (String.ofList body)
  let sizes := groups.map String.length
  (sizes == [8, 4, 4, 4, 12] || (sizes == [32] && body.length == cs.length)) &&
    groups.all fun g => g.toList.all fun c => (Hex.digit? c).isSome

/-- A UUID in one of its spellings. -/
def uuid : Json → Result Uuid
  | .string s =>
    match isUuid s, Uuid.ofText? s with
    | true, some u => .ok (u, .strict)
    | _, _ => .error .uuidParsing
  | _ => .error .uuidType

/-- A decimal: its text, or a number by its shortest digits. -/
def decimal : Json → Result Decimal
  | .string s =>
    match Decimal.ofText? s with
    | some (.finite n ds e) => .ok (.finite n ds e, .strict)
    | some _ => .error .finiteNumber
    | none => .error .decimalParsing
  | .int i => .ok (.finite (i < 0) (Nat.toDigits 10 i.natAbs) 0, .strict)
  | .float x =>
    match Decimal.ofText? (x.write .source) with
    | some (.finite n ds e) =>
      if e = -1 ∧ ds.getLast? = some '0' then
        .ok (.finite n (Decimal.normalDigits ds.dropLast) 0, .strict)
      else .ok (.finite n ds e, .strict)
    | _ => .error .finiteNumber
  | _ => .error .decimalType

end HttpContract.Scalar
