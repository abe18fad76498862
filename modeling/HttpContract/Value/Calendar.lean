import HttpContract.Number.Scan
import HttpContract.Text.Hex

/-!
# Dates and times

Days of the proleptic Gregorian calendar, times of day with microseconds, and their ISO 8601 texts.
-/

namespace HttpContract

/-- A day of the calendar; `isValid` says whether there is such a day. -/
structure Date where
  year : Nat
  month : Nat
  day : Nat
deriving DecidableEq, Repr, Inhabited

/-- A time of day, down to microseconds. -/
structure TimeOfDay where
  hour : Nat
  minute : Nat
  second : Nat
  micro : Nat
deriving DecidableEq, Repr, Inhabited

/-- A moment; the offset to universal time is in minutes. -/
structure DateTime where
  date : Date
  time : TimeOfDay
  offset : Option Int
deriving DecidableEq, Repr, Inhabited

/-- A number with zeros in front up to a width. -/
def padded (width n : Nat) : String :=
  let ds := Nat.toDigits 10 n
  String.ofList (List.replicate (width - ds.length) '0' ++ ds)

/-- Reads a number of exactly `width` digits off the front. -/
def takeNumber? (width : Nat) (cs : List Char) : Option (Nat × List Char) :=
  let ds := cs.take width
  if ds.length = width ∧ ds.all Char.isDigit then some (Number.ofDigits ds, cs.drop width) else none

/-- Removes one expected character. -/
def expect? (c : Char) : List Char → Option (List Char)
  | d :: cs => if c = d then some cs else none
  | [] => none

namespace Date

/-- Whether February has 29 days. -/
def isLeap (year : Nat) : Bool := (year % 4 == 0 && year % 100 != 0) || year % 400 == 0

/-- How many days the month has. -/
def daysIn (year month : Nat) : Nat :=
  match month with
  | 2 => if isLeap year then 29 else 28
  | 4 | 6 | 9 | 11 => 30
  | _ => 31

/-- Whether there is such a day, in the years that dates may have. -/
def isValid (d : Date) : Bool :=
  1 ≤ d.year && 1 ≤ d.month && d.month ≤ 12 && 1 ≤ d.day && d.day ≤ daysIn d.year d.month

/-- The day in ISO form. -/
def iso (d : Date) : String := padded 4 d.year ++ "-" ++ padded 2 d.month ++ "-" ++ padded 2 d.day

/-- Reads `YYYY-MM-DD` off the front. -/
def take? (cs : List Char) : Option (Date × List Char) := do
  let (year, cs) ← takeNumber? 4 cs
  let cs ← expect? '-' cs
  let (month, cs) ← takeNumber? 2 cs
  let cs ← expect? '-' cs
  let (day, cs) ← takeNumber? 2 cs
  let date : Date := ⟨year, month, day⟩
  if date.isValid then some (date, cs) else none

/-- The day that a text in ISO form spells. -/
def ofIso? (s : String) : Option Date :=
  match take? s.toList with
  | some (d, []) => some d
  | _ => none

/-- The date that lies the given number of days after 1970-01-01. -/
def ofDays (days : Int) : Date :=
  let z := days + 719468
  let era := z.fdiv 146097
  let dayOfEra := (z - era * 146097).toNat
  let yearOfEra := (dayOfEra - dayOfEra / 1460 + dayOfEra / 36524 - dayOfEra / 146096) / 365
  let dayOfYear := dayOfEra - (365 * yearOfEra + yearOfEra / 4 - yearOfEra / 100)
  let shifted := (5 * dayOfYear + 2) / 153
  let day := dayOfYear - (153 * shifted + 2) / 5 + 1
  let month := if shifted < 10 then shifted + 3 else shifted - 9
  let year := (yearOfEra : Int) + era * 400 + (if month ≤ 2 then 1 else 0)
  ⟨year.toNat, month, day⟩

end Date

namespace TimeOfDay

def midnight : TimeOfDay := ⟨0, 0, 0, 0⟩

/-- Whether there is such a time. -/
def isValid (t : TimeOfDay) : Bool := t.hour ≤ 23 && t.minute ≤ 59 && t.second ≤ 59

/-- The time in ISO form; microseconds are written if there are any. -/
def iso (t : TimeOfDay) : String :=
  padded 2 t.hour ++ ":" ++ padded 2 t.minute ++ ":" ++ padded 2 t.second ++
    (if t.micro = 0 then "" else "." ++ padded 6 t.micro)

/-- Reads a fraction of a second as microseconds; further digits are dropped. -/
def fraction? (cs : List Char) : Option (Nat × List Char) :=
  match cs with
  | '.' :: r =>
    let ds := r.takeWhile Char.isDigit
    if ds.isEmpty then none
    else some (Number.ofDigits ((ds ++ List.replicate 6 '0').take 6), r.dropWhile Char.isDigit)
  | r => some (0, r)

/-- Reads `HH:MM`, then seconds and their fraction if they are there. -/
def take? (cs : List Char) : Option (TimeOfDay × List Char) := do
  let (hour, cs) ← takeNumber? 2 cs
  let cs ← expect? ':' cs
  let (minute, cs) ← takeNumber? 2 cs
  let (second, micro, cs) ← match cs with
    | ':' :: r => do
      let (second, r) ← takeNumber? 2 r
      let (micro, r) ← fraction? r
      pure (second, micro, r)
    | r => pure (0, 0, r)
  let time : TimeOfDay := ⟨hour, minute, second, micro⟩
  if time.isValid then some (time, cs) else none

end TimeOfDay

namespace DateTime

/-- How far a clock is ahead of universal time, in ISO form. -/
def offsetIso (minutes : Int) : String :=
  (if minutes < 0 then "-" else "+") ++ padded 2 (minutes.natAbs / 60) ++ ":" ++
    padded 2 (minutes.natAbs % 60)

/-- The text of a moment with `zero` for the offset of universal time. -/
def isoWith (zero : String) (t : DateTime) : String :=
  t.date.iso ++ "T" ++ t.time.iso ++ match t.offset with
    | none => ""
    | some m => if m = 0 then zero else offsetIso m

/-- The moment in ISO form. -/
def iso (t : DateTime) : String := t.isoWith "+00:00"

/-- The text with a blank between date and time. -/
def display (t : DateTime) : String :=
  t.date.iso ++ " " ++ t.time.iso ++ (t.offset.map offsetIso).getD ""

/-- Reads an offset up to the end of the text. -/
def offset? (cs : List Char) : Option (Option Int) :=
  match cs with
  | [] => some none
  | ['Z'] | ['z'] => some (some 0)
  | sign :: r =>
    if sign = '+' ∨ sign = '-' then do
      let (hours, r) ← takeNumber? 2 r
      let (minutes, r) ← match r with
        | [] => some (0, [])
        | ':' :: r => takeNumber? 2 r
        | r => takeNumber? 2 r
      if r.isEmpty && hours ≤ 23 && minutes ≤ 59 then
        let total : Int := hours * 60 + minutes
        some (some (if sign = '-' then -total else total))
      else none
    else none

/-- The moment that a text in ISO form spells; a day alone is its midnight. -/
def ofIso? (s : String) : Option DateTime := do
  let (date, cs) ← Date.take? s.toList
  match cs with
  | [] => some ⟨date, .midnight, none⟩
  | c :: r =>
    if c = 'T' ∨ c = 't' ∨ c = ' ' ∨ c = '_' then
      let (time, r) ← TimeOfDay.take? r
      let offset ← offset? r
      some ⟨date, time, offset⟩
    else none

/-- The moment that lies the given microseconds after 1970-01-01, up to the year 9999. -/
def ofMicros? (micros : Int) : Option DateTime :=
  let seconds := micros.fdiv 1000000
  let days := seconds.fdiv 86400
  if -719528 ≤ days ∧ days ≤ 2932896 then
    let rest := (seconds - days * 86400).toNat
    let time : TimeOfDay := ⟨rest / 3600, rest / 60 % 60, rest % 60, (micros.fmod 1000000).toNat⟩
    some ⟨.ofDays days, time, some 0⟩
  else none

/-- The moment of a count of seconds, or of milliseconds when it is past 20 000 000 000. -/
def ofTimestamp? (count : Int) : Option DateTime :=
  ofMicros? (if count.natAbs ≤ 20000000000 then count * 1000000 else count * 1000)

end DateTime

/-- A universally unique identifier as its 32 hexadecimal digits. -/
structure Uuid where
  digits : List Char
deriving DecidableEq, Repr, Inhabited

namespace Uuid

/-- The digits in the usual five groups. -/
def write (u : Uuid) : String :=
  let d := u.digits
  String.ofList (d.take 8 ++ '-' :: (d.drop 8).take 4 ++ '-' :: (d.drop 12).take 4 ++ '-' ::
    (d.drop 16).take 4 ++ '-' :: d.drop 20)

/-- The identifier whose value is a number. -/
def ofNat (n : Nat) : Uuid := ⟨Hex.fixed 32 n⟩

/-- Reads 32 digits; hyphens, braces and the `urn:uuid:` in front are optional. -/
def ofText? (s : String) : Option Uuid :=
  let cs := s.toList.map Char.toLower
  let cs := if "urn:uuid:".toList.isPrefixOf cs then cs.drop 9 else cs
  let cs := Text.trimBoth (fun c => c == '\x7b' || c == '\x7d') cs
  let ds := cs.filter (· != '-')
  if ds.length = 32 ∧ ds.all (fun c => (Hex.digit? c).isSome) then some ⟨ds⟩ else none

end Uuid

end HttpContract
