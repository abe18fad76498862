import HttpContract.Http.Response
import HttpContract.Number.Scan
import HttpContract.Text.Percent
import HttpContract.Text.Printable
import HttpContract.Text.Punycode

/-!
# Hosts

The host of an address in the form it is sent: numeric addresses are checked, other names are
written in lower case and with ASCII characters only.
-/

namespace HttpContract.Host

/-- Whether a text is runs of digits with a number of single characters between them. -/
def isDotted : (separators : Nat) → List Char → Bool
  | 0, cs => !cs.isEmpty && cs.all Char.isDigit
  | k + 1, cs =>
    (List.range (cs.takeWhile Char.isDigit).length).any fun n =>
      match cs.drop (n + 1) with
      | _ :: rest => isDotted k rest
      | [] => false

/-- A part of a numeric address: up to three digits without a leading zero, below 256. -/
def isOctet (s : String) : Bool :=
  let cs := s.toList
  !cs.isEmpty && cs.all Char.isDigit && cs.length ≤ 3 && (cs.length == 1 || cs.head? != some '0') &&
    Number.ofDigits cs ≤ 255

/-- Whether a text is an address of four numbers. -/
def isFourPart (s : String) : Bool :=
  let parts := Text.split '.' s
  parts.length == 4 && parts.all isOctet

/-- Whether a text is a group of digits of a long address. -/
def isGroup (s : String) : Bool :=
  !s.isEmpty && s.length ≤ 4 && s.toList.all Percent.isHexDigit

/-- Whether the groups of a long numeric address make one; a run of zero groups may be left out
once. -/
def areGroups (parts : List String) : Bool :=
  let inner := (parts.drop 1).dropLast
  if parts.length < 3 || 9 < parts.length then false
  else match inner.filter (· == "") with
    | [] => parts.length == 8 && parts.all isGroup
    | [_] =>
      let before := parts.takeWhile (· != "")
      let after := (parts.drop 1).reverse.takeWhile (· != "")
      let atStart := parts.head? == some ""
      let atEnd := parts.getLast? == some ""
      let given := before.length + after.length
      (!atStart || (parts.drop 1).head? == some "") && (!atEnd || inner.getLast? == some "") &&
        given ≤ 7 && (before ++ after).all isGroup
    | _ => false

/-- A numeric address with colons; its last part may be one with four parts. -/
def isColonAddress (s : String) : Bool :=
  let address := s.toList.takeWhile (· != '%')
  let zone := s.toList.dropWhile (· != '%')
  let zoneFits := zone.isEmpty || (1 < zone.length && !(zone.drop 1).contains '%')
  let parts := Text.split ':' (String.ofList address)
  let last := parts.getLastD ""
  let parts := if last.toList.contains '.' then
      if isFourPart last then parts.dropLast ++ ["0", "0"] else ["."]
    else parts
  zoneFits && areGroups parts

/-- The characters that a host keeps. -/
def isKept (c : Char) : Bool :=
  Percent.isUnreserved c || "!$&'()*+,;=\"`%|\\\x7b\x7d".toList.contains c

/-- Whether a character may stand in a label. -/
def isLabelChar (c : Char) : Bool :=
  c.isLower || c.isDigit || c == '-' || (128 ≤ c.toNat && Text.isNameStart c)

/-- A label in ASCII; none when it cannot be part of a host. -/
def label? (l : String) : Option String :=
  let cs := l.toList
  if l = "" || !cs.all isLabelChar || cs.head? = some '-' || cs.getLast? = some '-' ||
      (cs.drop 2).take 2 = ['-', '-'] then none
  else if isAscii l then some l
  else
    let encoded := "xn--" ++ Punycode.encode l
    if encoded.length ≤ 63 then some encoded else none

/-- A name beyond ASCII; a dot may end it. -/
def international? (s : String) : Option String :=
  let dots := ['\u3002', '\uff0e', '\uff61']
  let text := String.ofList (s.toList.map fun c => if dots.contains c then '.' else c)
  let labels := Text.split '.' text
  let (labels, ending) := if labels.getLast? = some "" then (labels.dropLast, ".") else (labels, "")
  let encoded := labels.mapM label?
  if labels.isEmpty then none
  else encoded.map fun ls => String.intercalate "." ls ++ ending

/-- The form in which a host is sent; none when it is no host. -/
def encode? (host : String) : Option String :=
  let cs := host.toList
  if host = "" then some ""
  else if isDotted 3 cs then if isFourPart host then some host else none
  else if cs.head? = some '[' ∧ cs.getLast? = some ']' ∧ 2 ≤ cs.length then
    let inside := String.ofList ((cs.drop 1).dropLast)
    if isColonAddress inside then some inside else none
  else
    let lower := Text.lower host
    if isAscii lower then some (String.ofList (Percent.quoteKeeping isKept lower.toList))
    else international? lower

end HttpContract.Host
