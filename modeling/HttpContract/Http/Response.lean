import HttpContract.Diagnostic
import HttpContract.Text.LetterCase
import HttpContract.Text.Utf8

/-!
# Responses

A response as it was received. Header names do not tell ASCII letters apart by case, and a name is
looked up in the charset that the headers came in. The body is text by the charset that the content type
names, if that charset is known, and otherwise in UTF-8. Of the charsets that are known, three are described
here; a response whose content type names another one brings its text along.
-/

namespace HttpContract

/-- A response as it is received. -/
structure Response where
  status : Nat := 200
  headers : List (String × String) := []
  body : Bytes := []
  /-- Whether headers that go beyond ASCII came in Latin-1, and not in UTF-8. -/
  latinHeaders : Bool := false
  /-- The body in the charset that the content type names, where that is known but not described here. -/
  foreignText : Option String := none
deriving Repr, Inhabited, DecidableEq

/-- Whether a text has ASCII characters only. -/
def isAscii (s : String) : Bool := s.toList.all (·.toNat < 128)

/-- Text with its ASCII letters in lower case. -/
def asciiLower (s : String) : String := String.ofList (s.toList.map Char.toLower)

/-- The charsets that are described. -/
inductive Charset
  | utf8
  | latin1
  | ascii
deriving DecidableEq, Repr, Inhabited

namespace Charset

/-- Names with case, hyphens and underscores left out of account. -/
def ofName? (name : String) : Option Charset :=
  let key := String.ofList <|
    (name.toList.map Char.toLower).filter fun c => c != '-' && c != '_' && c != ' '
  let latinNames :=
    ["latin1", "iso88591", "latin", "l1", "cp819", "8859", "iso8859", "88591", "isoir100"]
  if ["utf8", "u8", "utf", "cp65001"].contains key then some .utf8
  else if latinNames.contains key then some .latin1
  else if ["ascii", "usascii", "646", "isoir6", "cp367", "us"].contains key then some .ascii
  else none

/-- Whether a charset has all characters of a text. -/
def has : Charset → String → Bool
  | utf8, _ => true
  | latin1, s => s.toList.all (·.toNat < 256)
  | ascii, s => isAscii s

/-- The text that bytes stand for; what stands for none is replaced. -/
def decode : Charset → Bytes → String
  | utf8, bs => Utf8.decodeLossy bs
  | latin1, bs => bs.latin1
  | ascii, bs => String.ofList (bs.map fun b => if b < 128 then Char.ofNat b.toNat else '\uFFFD')

end Charset

/-- The parts of a header value between semicolons that stand outside quotes. -/
def headerParts : List Char → Bool → List Char → List (List Char)
  | [], _, part => [part.reverse]
  | '\\' :: c :: cs, true, part => headerParts cs true (c :: '\\' :: part)
  | c :: cs, quoted, part =>
    if c = '"' then headerParts cs (!quoted) (c :: part)
    else if c = ';' && !quoted then part.reverse :: headerParts cs false []
    else headerParts cs quoted (c :: part)

/-- Text without the quotes around it. -/
def unquoted (cs : List Char) : List Char :=
  if 2 ≤ cs.length ∧ cs.head? = some '"' ∧ cs.getLast? = some '"' then (cs.drop 1).dropLast else cs

/-- The charset that a content type names. -/
def charsetName? (contentType : String) : Option String :=
  let params := (headerParts contentType.toList false []).map fun part =>
    let name := Text.trimBoth Text.isBlank (part.takeWhile (· != '='))
    let value := Text.trimBoth Text.isBlank ((part.dropWhile (· != '=')).drop 1)
    (String.ofList (name.map Char.toLower), String.ofList (unquoted value))
  (params.find? (·.1 == "charset")).map (·.2)

namespace Response

/-- The headers with the length of the body, which a body that is not empty always has. -/
def allHeaders (r : Response) : List (String × String) :=
  let hasLength := r.headers.any fun h => asciiLower h.1 == "content-length"
  if r.body.isEmpty || hasLength then r.headers
  else r.headers ++ [("Content-Length", toString r.body.length)]

/-- The values of the headers of a name. -/
def valuesOf (r : Response) (name : String) : List String :=
  (r.allHeaders.filter fun h => asciiLower h.1 == Text.lower name).map (·.2)

/-- The value of a header; several headers of one name are joined. -/
def header? (r : Response) (name : String) : Option String :=
  let values := r.valuesOf name
  if values.isEmpty then none else some (String.intercalate ", " values)

/-- The charset that the headers came in, which is ASCII if that has them all. -/
def headerCharset (r : Response) : Charset :=
  if r.headers.all fun h => isAscii h.1 && isAscii h.2 then .ascii
  else if r.latinHeaders then .latin1 else .utf8

/-- Looks up a header; the name must be one in the charset of the headers. -/
def lookup (r : Response) (name : String) : Except Breakdown (Option String) :=
  if r.headerCharset.has (Text.lower name) then .ok (r.header? name) else .error .unwritableText

/-- The body as text. -/
def text (r : Response) : String :=
  match ((r.header? "content-type").bind charsetName?).map Charset.ofName? with
  | some (some c) => c.decode r.body
  | some none => r.foreignText.getD (Charset.utf8.decode r.body)
  | none => Charset.utf8.decode r.body

end Response

end HttpContract
