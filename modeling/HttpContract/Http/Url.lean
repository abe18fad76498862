import HttpContract.Http.Host

/-!
# Addresses

The address a request goes to, taken apart from its text. The path loses its dot segments, every
component is encoded in its own way, a port that the scheme implies is left out, and the query is
replaced by the parameters of the request.
-/

namespace HttpContract

/-- An address, taken apart. -/
structure Url where
  scheme : String := ""
  userinfo : String := ""
  host : String := ""
  port : Option Int := none
  path : String := ""
  query : Option String := none
  fragment : Option String := none
deriving DecidableEq, Repr, Inhabited

namespace Url

/-- The longest text of an address or of one of its components. -/
def maxLength : Nat := 65536

/-- Whether a character is a visible one of ASCII. -/
def isPrintableSign (c : Char) : Bool := 0x20 < c.toNat && c.toNat < 0x7f

/-- Whether a character stays as it is in a path; each part of an address has its own such set. -/
def isPathSafe (c : Char) : Bool := isPrintableSign c && !("\"#<>?`\x7b\x7d".toList.contains c)
def isQuerySafe (c : Char) : Bool := isPrintableSign c && !("\"#<>".toList.contains c)
def isFragmentSafe (c : Char) : Bool := isPrintableSign c && !("\"<>`".toList.contains c)
def isUserSafe (c : Char) : Bool := isPathSafe c && !("/;=@[\\]^|".toList.contains c)

/-- Escapes what is not safe; escapes that are there stay. -/
def quote (safe : Char → Bool) (s : String) : String :=
  String.ofList (Percent.quoteKeeping safe s.toList)

/-- The port that a scheme implies. -/
def impliedPort? (scheme : String) : Option Int :=
  match scheme with
  | "ftp" => some 21
  | "http" | "ws" => some 80
  | "https" | "wss" => some 443
  | _ => none

/-- The segments of a path: what stands between its slashes. -/
def segments (path : String) : List (List Char) := path.toList.splitOn '/'

/-- Whether a segment is resolved rather than sent. -/
def isDots (segment : List Char) : Bool := segment == ['.'] || segment == ['.', '.']

/-- Takes in one more segment: `.` is left out, and `..` takes the segment before it away, but never
the empty one that a slash at the start leaves. -/
def resolve (done : List (List Char)) (segment : List Char) : List (List Char) :=
  if segment = ['.'] then done
  else if segment = ['.', '.'] then if done = [] ∨ done = [[]] then done else done.dropLast
  else done ++ [segment]

/-- Segments without the dot segments. -/
def resolved (segments : List (List Char)) : List (List Char) := segments.foldl resolve []

/-- A path without dot segments. -/
def withoutDots (path : String) : String :=
  if (segments path).any isDots then String.ofList (['/'].intercalate (resolved (segments path)))
  else path

/-- The parts of an authority: user, host and port. -/
def splitAuthority (authority : String) : String × String × Option String :=
  let cs := authority.toList
  let back := cs.reverse
  let (user, rest) :=
    if cs.contains '@' then
      (((back.dropWhile (· != '@')).drop 1).reverse, (back.takeWhile (· != '@')).reverse)
    else ([], cs)
  let bracketed := rest.head? = some '[' && rest.contains ']'
  let (host, port) :=
    if bracketed then
      ((rest.reverse.dropWhile (· != ']')).reverse, (rest.reverse.takeWhile (· != ']')).reverse)
    else (rest.takeWhile (· != ':'), rest.dropWhile (· != ':'))
  let port := if port.head? = some ':' then port.drop 1 else port
  (String.ofList user, String.ofList host, if port.isEmpty then none else some (String.ofList port))

/-- The number of a port that the scheme does not imply; none when it is no number. -/
def port? (scheme : String) : Option String → Option (Option Int)
  | none => some none
  | some p =>
    if p.toList.contains '.' then none
    else (Number.integer? p).map fun n => if impliedPort? scheme = some n then none else some n

/-- Whether a path may stand where it does in an address. -/
def pathFits (path : String) (hasScheme hasAuthority : Bool) : Bool :=
  (!hasAuthority || path = "" || path.startsWith "/") &&
    (hasScheme || hasAuthority || !(path.startsWith "//" || path.startsWith ":"))

/-- An address from its components, each in any form. -/
def build? (scheme authority path : String) (query fragment : Option String) : Option Url := do
  let (user, host, port) := splitAuthority authority
  let host ← Host.encode? host
  let port ← port? scheme port
  let userinfo := quote isUserSafe user
  let hasScheme := scheme != ""
  let hasAuthority := userinfo != "" || host != "" || port.isSome
  if !pathFits path hasScheme hasAuthority then none
  else
    let path := if hasScheme || hasAuthority then withoutDots path else path
    some {
      scheme := Text.lower scheme, userinfo, host, port
      path := quote isPathSafe path
      query := query.map (quote isQuerySafe)
      fragment := fragment.map (quote isFragmentSafe) }

/-- Whether a character may stand inside a scheme. -/
def isSchemeChar (c : Char) : Bool := c.isAlphanum || c == '+' || c == '.' || c == '-'

/-- A scheme and the text behind its colon; a colon at the start ends an empty scheme. -/
def splitScheme (cs : List Char) : List Char × List Char :=
  let name := if cs.head?.any Char.isAlpha then cs.takeWhile isSchemeChar else []
  match cs.drop name.length with
  | ':' :: rest => (name, rest)
  | _ => ([], cs)

/-- The text before a separator, and what is behind it if it is there. -/
def cut (separator : Char) (cs : List Char) : List Char × Option String :=
  match cs.dropWhile (· != separator) with
  | _ :: rest => (cs.takeWhile (· != separator), some (String.ofList rest))
  | [] => (cs, none)

/-- Whether a character is a control character. -/
def isControl (c : Char) : Bool := c.toNat < 0x20 || c == '\x7f'

/-- The authority behind two slashes, and the path. -/
def splitPath : List Char → List Char × List Char
  | '/' :: '/' :: cs => (cs.takeWhile (· != '/'), cs.dropWhile (· != '/'))
  | cs => ([], cs)

/-- Reads an address; none when the text is no address. -/
def parse? (s : String) : Option Url :=
  if maxLength < s.length || s.toList.any isControl then none
  else
    let (rest, fragment) := cut '#' s.toList
    let (rest, query) := cut '?' rest
    let (scheme, rest) := splitScheme rest
    let (authority, path) := splitPath rest
    build? (String.ofList scheme) (String.ofList authority) (String.ofList path) query fragment

/-- The part between the slashes and the path. -/
def authority (u : Url) : String :=
  (if u.userinfo = "" then "" else u.userinfo ++ "@") ++
  (if u.host.toList.contains ':' then "[" ++ u.host ++ "]" else u.host) ++
  ((u.port.map fun p => ":" ++ toString p).getD "")

/-- The text of the address. -/
def text (u : Url) : String :=
  let authority := u.authority
  (if u.scheme = "" then "" else u.scheme ++ ":") ++
  (if authority = "" then "" else "//" ++ authority) ++
  u.path ++
  ((u.query.map ("?" ++ ·)).getD "") ++
  ((u.fragment.map ("#" ++ ·)).getD "")

/-- Whether the address says where to go by itself. -/
def isAbsolute (u : Url) : Bool := u.scheme != "" && u.host != ""

/-- The address itself if it is absolute; otherwise its path and query below the root. -/
def rooted? (u : Url) : Option Url :=
  if u.isAbsolute then some u
  else build? "" "" ("/" ++ String.ofList (u.path.toList.dropWhile (· == '/'))) u.query none

/-- The address with another query. -/
def withQuery? (u : Url) (query : Option String) : Option Url :=
  let parts := [u.scheme, u.authority, u.path] ++ query.toList ++ u.fragment.toList
  if parts.any fun p => maxLength < p.length then none
  else build? u.scheme u.authority u.path query u.fragment

end Url

end HttpContract
