import HttpContract.Text.Hex
import HttpContract.Text.Printable

/-!
# Quoted text

The literal form of text and bytes in generated code. Text stands between single quotes unless it
holds a single quote and no double quote; the delimiter, backslashes and everything that is not
printable are escaped. `Quoted.content?` reads a literal back.
-/

namespace HttpContract

/-- The characters that names stand for in escapes. -/
abbrev CharacterNames := String → Option Char

namespace CharacterNames

/-- No character has a name. -/
def none : CharacterNames := fun _ => .none

end CharacterNames

namespace Quoted

/-- The delimiter for a text: single quotes unless only they occur in it. -/
def delimiter (cs : List Char) : Char :=
  if cs.contains '\'' && !cs.contains '"' then '"' else '\''

/-- The escapes that text and bytes share. -/
def escape? (q c : Char) : Option (List Char) :=
  if c = q ∨ c = '\\' then some ['\\', c]
  else if c = '\n' then some ['\\', 'n']
  else if c = '\r' then some ['\\', 'r']
  else if c = '\t' then some ['\\', 't']
  else none

/-- How one character is written between the delimiters `q`. -/
def encodeChar (q c : Char) : List Char :=
  match escape? q c with
  | some e => e
  | none =>
    if Text.isPrintable c then [c]
    else if c.toNat < 0x100 then '\\' :: 'x' :: Hex.fixed 2 c.toNat
    else if c.toNat < 0x10000 then '\\' :: 'u' :: Hex.fixed 4 c.toNat
    else '\\' :: 'U' :: Hex.fixed 8 c.toNat

/-- The literal of a text, between the delimiters that need fewer escapes. -/
def encode (cs : List Char) : List Char :=
  let q := delimiter cs
  q :: (cs.flatMap (encodeChar q) ++ [q])

/-- The literal of a text. -/
def text (s : String) : String := String.ofList (encode s.toList)

/-- How one byte is written between the delimiters `q`. -/
def encodeByte (q : Char) (b : UInt8) : List Char :=
  let c := Char.ofNat b.toNat
  match escape? q c with
  | some e => e
  | none => if 0x20 ≤ b ∧ b ≤ 0x7e then [c] else '\\' :: 'x' :: Hex.fixed 2 b.toNat

/-- The literal of a byte sequence. -/
def bytes (bs : Bytes) : String :=
  let q := delimiter (bs.map fun b => Char.ofNat b.toNat)
  String.ofList ('b' :: q :: (bs.flatMap (encodeByte q) ++ [q]))

/-- An escape that stands for one fixed character. -/
def simpleEscape? (c : Char) : Option Char :=
  match c with
  | '\\' | '\'' | '"' => some c
  | 'n' => some '\n'
  | 'r' => some '\r'
  | 't' => some '\t'
  | 'a' => some '\x07'
  | 'b' => some '\x08'
  | 'f' => some '\x0c'
  | 'v' => some '\x0b'
  | _ => none

/-- The number of digits of a numeric escape. -/
def escapeWidth? (c : Char) : Option Nat :=
  match c with
  | 'x' => some 2
  | 'u' => some 4
  | 'U' => some 8
  | _ => none

/-- Whether a character is a digit in base eight. -/
def isOctal (c : Char) : Bool := '0' ≤ c && c ≤ '7'

/-- The character of a code point that text can hold. -/
def charOf? (n : Nat) : Option Char := if h : n.isValidChar then some (Char.ofNatAux n h) else none

/-- The character that an escape names; half of a surrogate pair reads as the replacement
character. -/
def escapedChar? (n : Nat) : Option Char :=
  if n < 0x110000 then some ((charOf? n).getD '\uFFFD') else none

/-- The character whose name stands in braces, and the length of both. -/
def named? (names : CharacterNames) (cs : List Char) : Option (Char × Nat) :=
  match cs with
  | '\x7b' :: rest =>
    let name := rest.takeWhile (· != '\x7d')
    if name ≠ [] ∧ name.length < rest.length then
      (names (String.ofList name)).map fun c => (c, name.length + 2)
    else none
  | _ => none

/-- What the characters behind a backslash stand for, and how many of them are used; `none` when
the escape is malformed. A line break behind a backslash stands for nothing, and a backslash before
any other character stands for itself. -/
def escaped? (names : CharacterNames) (cs : List Char) : Option (List Char × Nat) :=
  match cs with
  | [] => none
  | c :: rest =>
    if c = '\n' then some ([], 1)
    else if c = 'N' then (named? names rest).map fun r => ([r.1], r.2 + 1)
    else match simpleEscape? c, escapeWidth? c with
      | some d, _ => some ([d], 1)
      | none, some w =>
        let ds := rest.take w
        if ds.length = w then ((Hex.value? ds).bind escapedChar?).map fun d => ([d], w + 1)
        else none
      | none, none =>
        if isOctal c then
          let ds := (cs.take 3).takeWhile isOctal
          some ([Char.ofNat (ds.foldl (fun n d => n * 8 + (d.toNat - 48)) 0)], ds.length)
        else some (['\\', c], 1)

/-- The text denoted by what stands between delimiters; `none` when an escape is malformed. -/
def content? (names : CharacterNames) (cs : List Char) : Option (List Char) :=
  match cs with
  | [] => some []
  | '\\' :: rest =>
    match escaped? names rest with
    | none => none
    | some (ds, n) => (content? names (rest.drop n)).map (ds ++ ·)
  | c :: rest => (content? names rest).map (c :: ·)
termination_by cs.length

/-- Splits at the first occurrence of the delimiter that no backslash precedes. -/
def closing? (delim : List Char) (cs : List Char) : Option (List Char × List Char) :=
  if delim.isPrefixOf cs then some ([], cs.drop delim.length)
  else
    match cs with
    | [] => none
    | '\\' :: c :: rest => (closing? delim rest).map fun r => ('\\' :: c :: r.1, r.2)
    | c :: rest => (closing? delim rest).map fun r => (c :: r.1, r.2)
termination_by cs.length

/-- The text that a whole literal denotes. -/
def read? (names : CharacterNames) (s : String) : Option String :=
  match s.toList with
  | [] => none
  | q :: rest =>
    if q = '\'' ∨ q = '"' then
      match closing? [q] rest with
      | some (body, []) => (content? names body).map String.ofList
      | _ => none
    else none

/-- The bytes that a whole literal denotes. -/
def readBytes? (s : String) : Option Bytes :=
  match s.toList with
  | 'b' :: rest => (read? .none (String.ofList rest)).bind fun t =>
      t.toList.mapM fun c => if c.toNat < 256 then some (UInt8.ofNat c.toNat) else none
  | _ => none

end Quoted

end HttpContract
