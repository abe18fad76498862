import HttpContract.Basic
import HttpContract.Text.Quoted

/-!
# Path names

Names of files and directories as they are written: segments below a root or below the working
directory. Empty segments and `.` have no meaning and are dropped; `..` is kept, since what it
leads to depends on the directories that exist.
-/

namespace HttpContract

/-- A path as it is written, taken apart at its slashes. -/
structure PathName where
  /-- The slashes that an absolute path begins with; empty for a relative one. -/
  root : String
  segments : List String
deriving DecidableEq, Repr, Inhabited

namespace PathName

/-- The slashes that make a path absolute: exactly two are kept, any other number counts as one. -/
def rootOf (cs : List Char) : String :=
  match (cs.takeWhile (· == '/')).length with
  | 0 => ""
  | 2 => "//"
  | _ => "/"

/-- The path that a text spells; empty segments and single dots are dropped. -/
def ofText (s : String) : PathName where
  root := rootOf s.toList
  segments := (Text.split '/' s).filter fun p => p != "" && p != "."

/-- The path of a file below a directory. -/
def join (p : PathName) (name : String) : PathName := { p with segments := p.segments ++ [name] }

/-- The normal spelling of the path. -/
def text (p : PathName) : String :=
  if p.root = "" ∧ p.segments = [] then "." else p.root ++ String.intercalate "/" p.segments

/-- Whether the path starts at the root. -/
def isAbsolute (p : PathName) : Bool := p.root != ""

/-- The last segment. -/
def name (p : PathName) : String := p.segments.getLastD ""

/-- The last segment from its last dot on; none when the dot begins or ends the segment. -/
def suffix (p : PathName) : String :=
  let back := p.name.toList.reverse
  let extension := back.takeWhile (· != '.')
  match back.dropWhile (· != '.') with
  | '.' :: _ :: _ => if extension.isEmpty then "" else String.ofList ('.' :: extension.reverse)
  | _ => ""

end PathName

end HttpContract
