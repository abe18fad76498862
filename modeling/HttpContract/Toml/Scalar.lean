import HttpContract.Text.Hex
import HttpContract.Text.Quoted
import HttpContract.Value.Basic

/-!
# TOML keys and scalars

Readers for the parts of a TOML document that hold no other values: keys, strings, numbers, dates
and times. Each takes a part off the front of the text and gives the rest.
-/

namespace HttpContract.Toml

/-- A dotted key. -/
abbrev Key := List String

/-- Whether a character is a blank within a line. -/
def isSpace (c : Char) : Bool := c == ' ' || c == '\t'

/-- Whether a character is a blank or ends a line. -/
def isSpaceOrLine (c : Char) : Bool := isSpace c || c == '\n'

/-- Whether a character may stand in a key without quotes. -/
def isBare (c : Char) : Bool := c.isAlphanum || c == '-' || c == '_'

/-- Control characters other than the tab stand nowhere in a line. -/
def isControl (c : Char) : Bool := (c.toNat < 0x20 && c != '\t') || c == '\x7f'

/-- What is left behind the blanks in front. -/
def skipSpace (cs : List Char) : List Char := cs.dropWhile isSpace

/-- What follows a comment, if one starts here. -/
def skipComment? (cs : List Char) : Option (List Char) :=
  match cs with
  | '#' :: rest =>
    if (rest.takeWhile (· != '\n')).any isControl then none else some (rest.dropWhile (· != '\n'))
  | cs => some cs

/-! ## Strings -/

/-- The character of an escape with a fixed number of hexadecimal digits. -/
def hexEscape? (width : Nat) (cs : List Char) : Option (Char × List Char) :=
  let ds := cs.take width
  if ds.length = width then
    ((Hex.value? ds).bind Quoted.charOf?).map (·, cs.drop width)
  else none

/-- The character after a backslash. -/
def escape? (cs : List Char) : Option (Char × List Char) :=
  match cs with
  | 'u' :: rest => hexEscape? 4 rest
  | 'U' :: rest => hexEscape? 8 rest
  | 'b' :: rest => some ('\x08', rest)
  | 't' :: rest => some ('\t', rest)
  | 'n' :: rest => some ('\n', rest)
  | 'f' :: rest => some ('\x0c', rest)
  | 'r' :: rest => some ('\r', rest)
  | '"' :: rest => some ('"', rest)
  | '\\' :: rest => some ('\\', rest)
  | _ => none

/-- What follows a backslash that ends its line: the next character that is no space. -/
def continuation? (cs : List Char) : Option (List Char) :=
  match cs with
  | '\n' :: _ => some (cs.dropWhile isSpaceOrLine)
  | c :: _ =>
    if isSpace c then
      match skipSpace cs with
      | [] => some []
      | '\n' :: rest => some (rest.dropWhile isSpaceOrLine)
      | _ => none
    else none
  | [] => none

/-- The inside of a string in double quotes up to its closing quote, or quotes when it has lines;
the fuel is the length of the text. -/
def basic? (lines : Bool) (fuel : Nat) (cs : List Char) : Option (List Char × List Char) :=
  match fuel with
  | 0 => none
  | fuel + 1 =>
  match cs with
  | [] => none
  | '"' :: rest =>
    if !lines then some ([], rest)
    else match rest with
      | '"' :: '"' :: rest => some ([], rest)
      | _ => (basic? lines fuel rest).map fun r => ('"' :: r.1, r.2)
  | '\\' :: rest =>
    match if lines then continuation? rest else none with
    | some rest => basic? lines fuel rest
    | none =>
      match escape? rest with
      | some (c, rest) => (basic? lines fuel rest).map fun r => (c :: r.1, r.2)
      | none => none
  | c :: rest =>
    if isControl c && !(lines && c == '\n') then none
    else (basic? lines fuel rest).map fun r => (c :: r.1, r.2)

/-- The inside of a string in single quotes that has lines. -/
def literalLines? : List Char → Option (List Char × List Char)
  | '\'' :: '\'' :: '\'' :: rest => some ([], rest)
  | c :: rest =>
    if isControl c && c != '\n' then none
    else (literalLines? rest).map fun r => (c :: r.1, r.2)
  | [] => none

/-- The inside of a string in single quotes on one line. -/
def literal? (cs : List Char) : Option (List Char × List Char) :=
  let inside := cs.takeWhile (· != '\'')
  match cs.dropWhile (· != '\'') with
  | _ :: rest => if inside.any (fun c => isControl c) then none else some (inside, rest)
  | [] => none

/-- One or two quotes in front of the three that close a string belong to it. -/
def withLastQuotes (quote : Char) (r : List Char × List Char) : String × List Char :=
  let more := (r.2.take 2).takeWhile (· == quote)
  (String.ofList (r.1 ++ more), r.2.drop more.length)

/-- Drops the line break that may follow the opening of a text of several lines. -/
def dropLine : List Char → List Char
  | '\n' :: rest => rest
  | cs => cs

/-- A text at the front, in one of its four spellings. -/
def string? (cs : List Char) : Option (String × List Char) :=
  match cs with
  | '"' :: '"' :: '"' :: rest =>
    (basic? true (rest.length + 1) (dropLine rest)).map (withLastQuotes '"')
  | '"' :: rest => (basic? false (rest.length + 1) rest).map fun r => (String.ofList r.1, r.2)
  | '\'' :: '\'' :: '\'' :: rest => (literalLines? (dropLine rest)).map (withLastQuotes '\'')
  | '\'' :: rest => (literal? rest).map fun r => (String.ofList r.1, r.2)
  | _ => none

/-! ## Keys -/

/-- One part of a dotted key, bare or quoted. -/
def keyPart? (cs : List Char) : Option (String × List Char) :=
  match cs with
  | '"' :: rest => (basic? false (rest.length + 1) rest).map fun r => (String.ofList r.1, r.2)
  | '\'' :: rest => (literal? rest).map fun r => (String.ofList r.1, r.2)
  | c :: _ =>
    if isBare c then some (String.ofList (cs.takeWhile isBare), cs.dropWhile isBare) else none
  | [] => none

/-- The parts of a dotted key; the fuel is the length of the text. -/
def keyParts? (fuel : Nat) (cs : List Char) : Option (Key × List Char) :=
  match fuel with
  | 0 => none
  | fuel + 1 =>
  match keyPart? cs with
  | none => none
  | some (part, rest) =>
    match skipSpace rest with
    | '.' :: rest => (keyParts? fuel (skipSpace rest)).map fun r => (part :: r.1, r.2)
    | rest => some ([part], rest)

/-- A dotted key at the front. -/
def key? (cs : List Char) : Option (Key × List Char) := keyParts? (cs.length + 1) cs

/-! ## Numbers -/

/-- The longest run of digits in which single underscores separate digits, without them. -/
def digitRun (isDigit : Char → Bool) : List Char → List Char × List Char
  | '_' :: d :: cs =>
    if isDigit d then
      let (ds, rest) := digitRun isDigit cs
      (d :: ds, rest)
    else ([], '_' :: d :: cs)
  | d :: cs =>
    if isDigit d then
      let (ds, rest) := digitRun isDigit cs
      (d :: ds, rest)
    else ([], d :: cs)
  | [] => ([], [])

/-- A run that begins with a digit. -/
def digits? (isDigit : Char → Bool) (cs : List Char) : Option (List Char × List Char) :=
  match cs with
  | d :: _ => if isDigit d then some (digitRun isDigit cs) else none
  | [] => none

/-- What digits stand for in a base. -/
def baseValue (base : Nat) (ds : List Char) : Int :=
  ds.foldl (fun n d => base * n + (Hex.digit? d).getD 0) 0

/-- An integer in hexadecimal, octal or binary digits. -/
def based? (cs : List Char) : Option (Int × List Char) :=
  match cs with
  | '0' :: 'x' :: rest =>
    (digits? (fun c => (Hex.digit? c).isSome) rest).map fun r => (baseValue 16 r.1, r.2)
  | '0' :: 'o' :: rest => (digits? Quoted.isOctal rest).map fun r => (baseValue 8 r.1, r.2)
  | '0' :: 'b' :: rest =>
    (digits? (fun c => c == '0' || c == '1') rest).map fun r => (baseValue 2 r.1, r.2)
  | _ => none

/-- The digits before a point: a zero alone, or a run that begins with another digit. -/
def wholeDigits? (cs : List Char) : Option (List Char × List Char) :=
  match cs with
  | '0' :: rest => some (['0'], rest)
  | cs => digits? Char.isDigit cs

/-- The digits behind a point, if there are any. -/
def fraction (cs : List Char) : List Char × List Char :=
  match cs with
  | '.' :: rest => (digits? Char.isDigit rest).getD ([], cs)
  | cs => ([], cs)

/-- The exponent at the front. -/
def exponent? (cs : List Char) : Option (Int × List Char) :=
  match cs with
  | e :: rest =>
    if e == 'e' || e == 'E' then
      let (negative, ds) := Number.splitSign rest
      (digits? Char.isDigit ds).map fun r =>
        (if negative then -(Number.ofDigits r.1 : Int) else Number.ofDigits r.1, r.2)
    else none
  | [] => none

/-- The most digits of an integer that is written in decimal. -/
def maxDigits : Nat := 4300

/-- A decimal number at the front: an integer, unless it has places or an exponent. -/
def decimal? (cs : List Char) : Option (Value × List Char) := do
  let (negative, cs) := Number.splitSign cs
  let (whole, cs) ← wholeDigits? cs
  let (places, cs) := fraction cs
  match places, exponent? cs with
  | [], none =>
    if maxDigits < whole.length then none
    else
      let n := Number.ofDigits whole
      pure (.int (if negative then -(n : Int) else n), cs)
  | places, power =>
    let (e, cs) := power.getD (0, cs)
    pure (.float (.ofDecimal negative (Number.ofDigits (whole ++ places)) (e - places.length)), cs)

/-- An infinity, or what is no number, at the front. -/
def special? (cs : List Char) : Option (Value × List Char) :=
  let (negative, rest) := Number.splitSign cs
  match rest with
  | 'i' :: 'n' :: 'f' :: rest => some (.float (.infinity negative), rest)
  | 'n' :: 'a' :: 'n' :: rest => some (.float .nan, rest)
  | _ => none

/-- A number of any kind at the front. -/
def number? (cs : List Char) : Option (Value × List Char) :=
  match based? cs with
  | some (i, rest) => some (.int i, rest)
  | none => (decimal? cs).orElse fun _ => special? cs

/-! ## Dates and times -/

/-- A time of day with seconds; of a fraction six digits count. -/
def time? (cs : List Char) : Option (TimeOfDay × List Char) := do
  let (hour, cs) ← takeNumber? 2 cs
  let cs ← expect? ':' cs
  let (minute, cs) ← takeNumber? 2 cs
  let cs ← expect? ':' cs
  let (second, cs) ← takeNumber? 2 cs
  let (micro, cs) := (TimeOfDay.fraction? cs).getD (0, cs)
  let time : TimeOfDay := ⟨hour, minute, second, micro⟩
  if time.isValid then some (time, cs) else none

/-- An offset to universal time, in minutes. -/
def offset (cs : List Char) : Option Int × List Char :=
  let read (negative : Bool) (rest : List Char) : Option (Int × List Char) := do
    let (hours, rest) ← takeNumber? 2 rest
    let rest ← expect? ':' rest
    let (minutes, rest) ← takeNumber? 2 rest
    if hours ≤ 23 ∧ minutes ≤ 59 then
      let m : Int := 60 * hours + minutes
      some (if negative then -m else m, rest)
    else none
  match cs with
  | 'Z' :: rest | 'z' :: rest => (some 0, rest)
  | '+' :: rest => ((read false rest).map fun r => (some r.1, r.2)).getD (none, cs)
  | '-' :: rest => ((read true rest).map fun r => (some r.1, r.2)).getD (none, cs)
  | cs => (none, cs)

/-- What looks like a date. -/
inductive Day
  | real (d : Date)
  /-- A day that no calendar has, such as 30 February. -/
  | unreal

/-- A date at the front. -/
def day? (cs : List Char) : Option (Day × List Char) := do
  let (year, cs) ← takeNumber? 4 cs
  let cs ← expect? '-' cs
  let (month, cs) ← takeNumber? 2 cs
  let cs ← expect? '-' cs
  let (day, cs) ← takeNumber? 2 cs
  if 1 ≤ month ∧ month ≤ 12 ∧ 1 ≤ day ∧ day ≤ 31 then
    let d : Date := ⟨year, month, day⟩
    some (if d.isValid then .real d else .unreal, cs)
  else none

/-- A moment, a date or a time of day; an unreal date is refused, and other text is left alone. -/
def moment? (cs : List Char) : Option (Option (Value × List Char)) :=
  match day? cs with
  | some (.unreal, _) => some none
  | some (.real d, rest) =>
    let withTime : Option (Value × List Char) := match rest with
      | c :: more =>
        if c == 'T' || c == 't' || c == ' ' then do
          let (t, more) ← time? more
          let (zone, more) := offset more
          pure (.dateTime ⟨d, t, zone⟩, more)
        else none
      | [] => none
    some (withTime.orElse fun _ => some (.date d, rest))
  | none => (time? cs).map fun r => some (.time r.1, r.2)

/-- A value that holds no other values. -/
def scalar? (cs : List Char) : Option (Value × List Char) :=
  match cs with
  | '"' :: _ | '\'' :: _ => (string? cs).map fun r => (.text r.1, r.2)
  | 't' :: 'r' :: 'u' :: 'e' :: rest => some (.bool true, rest)
  | 'f' :: 'a' :: 'l' :: 's' :: 'e' :: rest => some (.bool false, rest)
  | cs =>
    match moment? cs with
    | some r => r
    | none => number? cs

end HttpContract.Toml
