import HttpContract.Text.Hex

/-!
# Percent-encoding

Bytes outside a safe class are written as `%XX`. A path value keeps only the unreserved characters;
a form component also writes a space as `+`; a path keeps every printable character that is not a
delimiter, and the triplets it already holds.
-/

namespace HttpContract.Percent

/-- The letters, the digits and `_ . - ~`. -/
def isUnreserved (c : Char) : Bool :=
  c.isAlphanum || c == '_' || c == '.' || c == '-' || c == '~'

/-- The escape of a byte. -/
def triplet (b : UInt8) : List Char :=
  ['%', Hex.upperDigit (b.toNat / 16), Hex.upperDigit (b.toNat % 16)]

/-- A byte as the safe character that it is, or else escaped. -/
def encodeByte (safe : Char → Bool) (b : UInt8) : List Char :=
  let c := Char.ofNat b.toNat
  if b < 0x80 ∧ safe c then [c] else triplet b

/-- The bytes of a character, each one that is not safe as a triplet. -/
def encodeChar (safe : Char → Bool) (c : Char) : List Char :=
  (String.utf8EncodeChar c).flatMap (encodeByte safe)

/-- A text as one path segment. -/
def segment (s : String) : String := String.ofList (s.toList.flatMap (encodeChar isUnreserved))

/-- A key or value of a query string. -/
def formComponent (s : String) : String :=
  String.ofList (s.toList.flatMap fun c => if c = ' ' then ['+'] else encodeChar isUnreserved c)

/-- The query string of a list of pairs. -/
def form (pairs : List (String × String)) : String :=
  String.intercalate "&" (pairs.map fun p => formComponent p.1 ++ "=" ++ formComponent p.2)

def isHexDigit (c : Char) : Bool := (Hex.digit? c).isSome

/-- Encodes what is not safe and keeps the triplets that are there. -/
def quoteKeeping (safe : Char → Bool) : List Char → List Char
  | [] => []
  | '%' :: a :: b :: cs =>
    if isHexDigit a && isHexDigit b then '%' :: a :: b :: quoteKeeping safe cs
    else encodeChar safe '%' ++ quoteKeeping safe (a :: b :: cs)
  | c :: cs => encodeChar safe c ++ quoteKeeping safe cs

/-- The bytes of a text, each triplet read as the byte it stands for. -/
def decode : List Char → Bytes
  | [] => []
  | '%' :: a :: b :: cs =>
    match Hex.digit? a, Hex.digit? b with
    | some hi, some lo => UInt8.ofNat (hi * 16 + lo) :: decode cs
    | _, _ => String.utf8EncodeChar '%' ++ decode (a :: b :: cs)
  | c :: cs => String.utf8EncodeChar c ++ decode cs

end HttpContract.Percent
