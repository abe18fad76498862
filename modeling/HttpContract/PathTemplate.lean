/-!
# Path templates

A template is text with placeholders `{token}`; a token is anything but empty and holds no brace.
Braces that do not enclose a token are plain text. `pieces` cuts a template once, and both the
tokens and every expansion are read off the pieces.
-/

namespace HttpContract.PathTemplate

/-- What a template is read as, character by character: plain ones and whole placeholders. -/
inductive Piece
  | char (c : Char)
  | token (name : List Char)
deriving DecidableEq, Repr

/-- Whether a character may stand in the name of a placeholder. -/
def isPlain (c : Char) : Bool := c != '\x7b' && c != '\x7d'

/-- The token that an opening brace starts and what follows its closing brace. -/
def token? (cs : List Char) : Option (List Char × List Char) :=
  match cs.takeWhile isPlain, cs.dropWhile isPlain with
  | c :: name, '\x7d' :: rest => some (c :: name, rest)
  | _, _ => none

theorem length_token? {cs name rest : List Char} (h : token? cs = some (name, rest)) :
    rest.length < cs.length := by
  unfold token? at h
  split at h
  · next c name' rest' h1 h2 =>
    have hl := (List.dropWhile_suffix (l := cs) isPlain).length_le
    rw [h2, List.length_cons] at hl
    cases h
    exact hl
  · simp at h

/-- The template as it is scanned from left to right: a placeholder is taken wherever one begins. -/
def pieces (cs : List Char) : List Piece :=
  match cs with
  | [] => []
  | c :: cs =>
    if c = '\x7b' then
      match h : token? cs with
      | some (name, rest) =>
        have := length_token? h
        .token name :: pieces rest
      | none => .char c :: pieces cs
    else .char c :: pieces cs
termination_by cs.length

/-- The name that a placeholder goes by. -/
def Piece.token? : Piece → Option String
  | .char _ => none
  | .token name => some (String.ofList name)

/-- The tokens of a template in order, repetitions included. -/
def tokens (path : String) : List String := (pieces path.toList).filterMap Piece.token?

/-- The text of a piece: a token for which there is no value stays as it was written. -/
def Piece.expand (value? : String → Option String) : Piece → List Char
  | .char c => [c]
  | .token name =>
    match value? (String.ofList name) with
    | some v => v.toList
    | none => '\x7b' :: (name ++ ['\x7d'])

/-- The template with its tokens replaced; what replaces them is not looked at again. -/
def expand (path : String) (value? : String → Option String) : String :=
  String.ofList ((pieces path.toList).flatMap (Piece.expand value?))

end HttpContract.PathTemplate
