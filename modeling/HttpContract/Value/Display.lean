import HttpContract.Number.Layout
import HttpContract.Text.Quoted
import HttpContract.Value.Basic

/-!
# Display of values

`literal` shows a value as it would be written in source; `display` is the same except that text and
the scalar kinds with a text of their own stand for themselves.
-/

namespace HttpContract.Value

/-- Hour and minute, then seconds and microseconds as far as they are needed. -/
def clockParts (t : TimeOfDay) : List String :=
  ([t.hour, t.minute] ++
    (if t.micro ≠ 0 then [t.second, t.micro]
     else if t.second ≠ 0 then [t.second] else [])).map toString

/-- A moment as a call of its constructor. -/
def dateTimeLiteral (t : DateTime) : String :=
  let parts := [t.date.year, t.date.month, t.date.day].map toString ++ clockParts t.time
  let zone := match t.offset with
    | .none => []
    | .some m =>
      if m = 0 then ["tzinfo=datetime.timezone.utc"]
      else
        let days := if m < 0 then ["days=-1"] else []
        let seconds := (m * 60).fmod 86400
        let delta := String.intercalate ", " (days ++ [s!"seconds={seconds}"])
        ["tzinfo=datetime.timezone(datetime.timedelta(" ++ delta ++ "))"]
  "datetime.datetime(" ++ String.intercalate ", " (parts ++ zone) ++ ")"

mutual

/-- The source form of a value. -/
def literal : Value → String
  | .null => "None"
  | .bool b => if b then "True" else "False"
  | .int i => toString i
  | .float x => x.write .source
  | .text s => Quoted.text s
  | .bytes bs => Quoted.bytes bs
  | .byteArray bs => s!"bytearray({Quoted.bytes bs})"
  | .list items => "[" ++ String.intercalate ", " (literals items) ++ "]"
  | .tuple items =>
    match literals items with
    | [one] => "(" ++ one ++ ",)"
    | all => "(" ++ String.intercalate ", " all ++ ")"
  | .set items =>
    if items.isEmpty then "set()" else "\x7b" ++ String.intercalate ", " (literals items) ++ "\x7d"
  | .dict entries => "\x7b" ++ String.intercalate ", " (entryLiterals entries) ++ "\x7d"
  | .date d => s!"datetime.date({d.year}, {d.month}, {d.day})"
  | .time t => "datetime.time(" ++ String.intercalate ", " (clockParts t) ++ ")"
  | .dateTime t => dateTimeLiteral t
  | .uuid u => "UUID(" ++ Quoted.text u.write ++ ")"
  | .decimal d => "Decimal(" ++ Quoted.text d.write ++ ")"
  | .stream _ => "<_io.BytesIO object>"
  | .textStream _ => "<_io.StringIO object>"
  | .out held => "Out(" ++ literal held ++ ")"
  | .foreign s => s!"<Opaque object {Quoted.text s}>"
  | .member cls _ name value => s!"<{cls.simple}.{name}: " ++ literal value ++ ">"
  | .record cls kind fields =>
    (match kind with | .model => cls.simple | .dataclass => cls.qualname) ++
      "(" ++ String.intercalate ", " (fieldLiterals fields) ++ ")"

def literals : List Value → List String
  | [] => []
  | v :: vs => literal v :: literals vs

def entryLiterals : List (Value × Value) → List String
  | [] => []
  | (k, v) :: rest => (literal k ++ ": " ++ literal v) :: entryLiterals rest

def fieldLiterals : List (String × Value) → List String
  | [] => []
  | (k, v) :: rest => (k ++ "=" ++ literal v) :: fieldLiterals rest

end

/-- The text a value has inside a message. -/
def display : Value → String
  | .text s => s
  | .date d => d.iso
  | .time t => t.iso
  | .dateTime t => t.display
  | .uuid u => u.write
  | .decimal d => d.write
  | .foreign s => s
  | .member cls _ name _ => s!"{cls.simple}.{name}"
  | .record _ .model fields => String.intercalate " " (fieldLiterals fields)
  | v => literal v

end HttpContract.Value
