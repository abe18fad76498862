import HttpContract.Json.Basic
import HttpContract.Number.Scan
import HttpContract.Text.Hex

/-!
# Reading JSON

Text is cut into tokens, and the tokens drive a machine whose stack holds the open arrays and
objects; reading succeeds when the last token leaves one finished value. Numbers without a point or
an exponent are integers of any size, and the three special numbers have names.
-/

namespace HttpContract.Json

/-- What bounds a document. -/
structure Limits where
  depth : Option Nat
  digits : Option Nat

namespace Limits

/-- No limits at all. -/
def unbounded : Limits := ⟨none, none⟩

/-- Documents received from a service: two hundred open containers and 4300 digits of an integer. -/
def received : Limits := ⟨some 200, some 4300⟩

/-- Settings: as many digits, and any number of open containers that the stack has room for. -/
def configured : Limits := ⟨none, some 4300⟩

/-- Whether a limit, if there is one, leaves room for `n`. -/
def allows (limit : Option Nat) (n : Nat) : Bool := limit.all (n ≤ ·)

end Limits

/-- The tokens of a document; a scalar is one token. -/
inductive Token
  | openArray
  | closeArray
  | openObject
  | closeObject
  | comma
  | colon
  | scalar (value : Json)
deriving Repr

/-- Whether a character may stand between tokens. -/
def isSpace (c : Char) : Bool := c == ' ' || c == '\t' || c == '\n' || c == '\r'

/-- The character that an escape of one letter stands for. -/
def shortEscape? (c : Char) : Option Nat :=
  match c with
  | '"' | '\\' | '/' => some c.toNat
  | 'b' => some 8
  | 'f' => some 12
  | 'n' => some 10
  | 'r' => some 13
  | 't' => some 9
  | _ => none

/-- The code points up to the closing quote, surrogates still apart, and what follows it. -/
def stringUnits? : List Char → Option (List Nat × List Char)
  | [] => none
  | '"' :: cs => some ([], cs)
  | '\\' :: 'u' :: a :: b :: c :: d :: cs =>
    match Hex.value? [a, b, c, d], stringUnits? cs with
    | some n, some (ns, rest) => some (n :: ns, rest)
    | _, _ => none
  | '\\' :: e :: cs =>
    match shortEscape? e, stringUnits? cs with
    | some n, some (ns, rest) => some (n :: ns, rest)
    | _, _ => none
  | c :: cs =>
    if c.toNat < 0x20 ∨ c = '\\' then none
    else match stringUnits? cs with
      | some (ns, rest) => some (c.toNat :: ns, rest)
      | none => none

/-- Joins pairs of surrogates; none when one stands alone. -/
def joinSurrogates? : List Nat → Option (List Char)
  | [] => some []
  | n :: ns =>
    if 0xd800 ≤ n ∧ n < 0xdc00 then
      match ns with
      | m :: rest =>
        if 0xdc00 ≤ m ∧ m < 0xe000 then
          let c := Char.ofNat (0x10000 + (n - 0xd800) * 0x400 + (m - 0xdc00))
          (joinSurrogates? rest).map (c :: ·)
        else none
      | [] => none
    else if 0xdc00 ≤ n ∧ n < 0xe000 then none
    else (joinSurrogates? ns).map (Char.ofNat n :: ·)

/-- Whether a character is one of the ten digits. -/
def isDigit (c : Char) : Bool := '0' ≤ c && c ≤ '9'

/-- The characters that can belong to a number or a name. -/
def isWordChar (c : Char) : Bool := c.isAlphanum || c == '+' || c == '-' || c == '.'

/-- Digits without a leading zero. -/
def isWhole (ds : List Char) : Bool :=
  !ds.isEmpty && ds.all isDigit && (ds.length == 1 || ds.head? != some '0')

/-- The number that a word is; its parts are an integer, a fraction and an exponent. -/
def number? (limits : Limits) (word : List Char) : Option Json :=
  let (negative, cs) := match word with
    | '-' :: cs => (true, cs)
    | cs => (false, cs)
  let whole := cs.takeWhile isDigit
  let rest := cs.dropWhile isDigit
  if !isWhole whole then none
  else match rest with
    | [] =>
      if Limits.allows limits.digits whole.length then
        let n : Int := Number.ofDigits whole
        some (.int (if negative then -n else n))
      else none
    | _ =>
      let (fraction?, rest) := match rest with
        | '.' :: cs =>
          let ds := cs.takeWhile isDigit
          (if ds.isEmpty then none else some ds, cs.dropWhile isDigit)
        | cs => (some [], cs)
      let exponent? : Option Int := match rest with
        | [] => some 0
        | e :: cs =>
          if e == 'e' || e == 'E' then
            let (down, ds) := Number.splitSign cs
            if !ds.isEmpty && ds.all isDigit then
              some (if down then -(Number.ofDigits ds : Int) else Number.ofDigits ds)
            else none
          else none
      match fraction?, exponent? with
      | some f, some e =>
        some (.float (.ofDecimal negative (Number.ofDigits (whole ++ f)) (e - f.length)))
      | _, _ => none

/-- The value that a word is. -/
def word? (limits : Limits) (word : List Char) : Option Json :=
  match String.ofList word with
  | "null" => some .null
  | "true" => some (.bool true)
  | "false" => some (.bool false)
  | "NaN" => some (.float .nan)
  | "Infinity" => some (.float (.infinity false))
  | "-Infinity" => some (.float (.infinity true))
  | _ => number? limits word

/-- The token that is this one character. -/
def punctuation? (c : Char) : Option Token :=
  match c with
  | '[' => some .openArray
  | ']' => some .closeArray
  | '\x7b' => some .openObject
  | '\x7d' => some .closeObject
  | ',' => some .comma
  | ':' => some .colon
  | _ => none

theorem length_stringUnits? {cs rest : List Char} {ns : List Nat}
    (h : stringUnits? cs = some (ns, rest)) : rest.length < cs.length := by
  fun_induction stringUnits? cs generalizing ns rest <;> simp_all <;> grind

/-- The tokens of a text. -/
def tokens? (limits : Limits) (cs : List Char) : Option (List Token) :=
  match cs with
  | [] => some []
  | c :: cs =>
    if isSpace c then tokens? limits cs
    else if c = '"' then
      match h : stringUnits? cs with
      | none => none
      | some (ns, rest) =>
        have := length_stringUnits? h
        match joinSurrogates? ns, tokens? limits rest with
        | some s, some ts => some (.scalar (.string (String.ofList s)) :: ts)
        | _, _ => none
    else match punctuation? c with
      | some t => (tokens? limits cs).map (t :: ·)
      | none =>
        if isWordChar c then
          have : (cs.dropWhile isWordChar).length ≤ cs.length :=
            (List.dropWhile_suffix isWordChar).length_le
          match word? limits (c :: cs.takeWhile isWordChar),
            tokens? limits (cs.dropWhile isWordChar) with
          | some j, some ts => some (.scalar j :: ts)
          | _, _ => none
        else none
termination_by cs.length

/-- An open container with what it holds so far, the newest item first. -/
inductive Frame
  | array (items : List Json)
  | object (entries : List (String × Json)) (key : String)

/-- Where the machine stands. -/
inductive Phase
  /-- A value must follow. -/
  | value
  /-- An array was just opened. -/
  | firstItem
  /-- An object was just opened. -/
  | firstKey
  /-- A key must follow; the entries so far. -/
  | key (entries : List (String × Json))
  /-- A colon must follow the key. -/
  | colon (entries : List (String × Json)) (key : String)
  /-- A value is finished. -/
  | finished (value : Json)

/-- A reader between two tokens: what is open, innermost first, and what may come next. -/
structure Machine where
  stack : List Frame
  phase : Phase

namespace Machine

/-- The reader before the first token. -/
def start : Machine := ⟨[], .value⟩

/-- Begins a value: a scalar ends with its token, a container is opened if it may be so deep. -/
def enter (limits : Limits) (m : Machine) (t : Token) : Option Machine :=
  match t with
  | .scalar j => some { m with phase := .finished j }
  | .openArray =>
    if Limits.allows limits.depth (m.stack.length + 1) then some { m with phase := .firstItem }
    else none
  | .openObject =>
    if Limits.allows limits.depth (m.stack.length + 1) then some { m with phase := .firstKey }
    else none
  | _ => none

/-- What a token does to the reader, if it may stand there. -/
def step (limits : Limits) (m : Machine) (t : Token) : Option Machine :=
  match m.phase, t with
  | .value, t => m.enter limits t
  | .firstItem, .closeArray => some { m with phase := .finished (.array []) }
  | .firstItem, t => enter limits ⟨.array [] :: m.stack, .value⟩ t
  | .firstKey, .closeObject => some { m with phase := .finished (.object []) }
  | .firstKey, .scalar (.string k) => some { m with phase := .colon [] k }
  | .firstKey, _ => none
  | .key entries, .scalar (.string k) => some { m with phase := .colon entries k }
  | .key _, _ => none
  | .colon entries k, .colon => some ⟨.object entries k :: m.stack, .value⟩
  | .colon _ _, _ => none
  | .finished j, t =>
    match m.stack, t with
    | .array items :: rest, .comma => some ⟨.array (j :: items) :: rest, .value⟩
    | .array items :: rest, .closeArray => some ⟨rest, .finished (.array (j :: items).reverse)⟩
    | .object entries k :: rest, .comma => some ⟨rest, .key ((k, j) :: entries)⟩
    | .object entries k :: rest, .closeObject =>
      some ⟨rest, .finished (.object ((k, j) :: entries).reverse)⟩
    | _, _ => none

/-- The finished value, once nothing is open. -/
def result? (m : Machine) : Option Json :=
  match m with
  | ⟨[], .finished j⟩ => some j
  | _ => none

end Machine

/-- The value written by a text. -/
def read? (limits : Limits) (s : String) : Option Json :=
  (tokens? limits s.toList).bind fun ts =>
    (ts.foldlM (Machine.step limits) Machine.start).bind Machine.result?

end HttpContract.Json
