import HttpContract.Json.Basic
import HttpContract.Number.Layout
import HttpContract.Text.Hex

/-!
# Writing JSON

The compact form: no blanks, entries in their order, only quotes, backslashes and control characters
escaped.
-/

namespace HttpContract.Json

/-- How one character is written inside a string. -/
def escapeChar (c : Char) : List Char :=
  if c = '"' ∨ c = '\\' then ['\\', c]
  else if c = '\n' then ['\\', 'n']
  else if c = '\r' then ['\\', 'r']
  else if c = '\t' then ['\\', 't']
  else if c = '\x08' then ['\\', 'b']
  else if c = '\x0c' then ['\\', 'f']
  else if c.toNat < 0x20 then '\\' :: 'u' :: Hex.fixed 4 c.toNat
  else [c]

/-- The literal of a text, with the escapes that JSON asks for. -/
def quote (s : String) : String :=
  String.ofList ('"' :: (s.toList.flatMap escapeChar ++ ['"']))

mutual

/-- The text of a value without any blanks. -/
def write : Json → String
  | .null => "null"
  | .bool b => if b then "true" else "false"
  | .int i => toString i
  | .float x => x.write .document
  | .string s => quote s
  | .array items => "[" ++ String.intercalate "," (writeAll items) ++ "]"
  | .object entries => "\x7b" ++ String.intercalate "," (writeEntries entries) ++ "\x7d"

def writeAll : List Json → List String
  | [] => []
  | j :: js => write j :: writeAll js

def writeEntries : List (String × Json) → List String
  | [] => []
  | (k, j) :: rest => (quote k ++ ":" ++ write j) :: writeEntries rest

end

end HttpContract.Json
