import HttpContract.Text.Quoted

/-!
# Docstrings

The text that a line of literals denotes. Literals that stand side by side are one text; blanks may
stand between them and a comment behind them.
-/

namespace HttpContract.Docstring

/-- The delimiter that a text opens with, and what is behind it. -/
def opening? (cs : List Char) : Option (List Char × List Char) :=
  match cs with
  | q :: rest =>
    if q = '"' ∨ q = '\'' then
      if [q, q].isPrefixOf rest then some ([q, q, q], rest.drop 2) else some ([q], rest)
    else none
  | [] => none

/-- Whether a character may stand between the words of a line of code. -/
def isGap (c : Char) : Bool := c == ' ' || c == '\t' || c == '\x0c'

/-- The first literal of a text and what is behind it. Only long delimiters go over lines. -/
def literal? (names : CharacterNames) (cs : List Char) : Option (List Char × List Char) := do
  let (delim, rest) ← opening? cs
  let (body, rest) ← Quoted.closing? delim rest
  if delim.length = 1 ∧ body.contains '\n' then none
  else
    let t ← Quoted.content? names body
    pure (t, rest)

/-- The text of adjacent literals; the fuel bounds their number. -/
def texts? (names : CharacterNames) : Nat → List Char → Option (List Char)
  | 0, _ => none
  | fuel + 1, cs =>
    match cs.dropWhile isGap with
    | [] => some []
    | '#' :: rest => if rest.contains '\n' then none else some []
    | cs => do
      let (t, rest) ← literal? names cs
      let ts ← texts? names fuel rest
      pure (t ++ ts)

/-- The text of a line of literals; none if it is anything else. -/
def read? (names : CharacterNames) (line : String) : Option String :=
  (texts? names (line.toList.length + 1) line.toList).map String.ofList

end HttpContract.Docstring
