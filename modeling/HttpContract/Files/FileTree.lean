import HttpContract.Basic
import HttpContract.Files.PathName
import HttpContract.Text.Utf8

/-!
# File trees

The files that a run sees and writes. A place is a list of names below the working directory,
which may begin with steps out of it; what lies outside is known only as far as it was written.
Every operation answers with the system's own error for the path it was given.
-/

namespace HttpContract

/-- What can be wrong with a path for the operation that is tried on it. -/
inductive FileFault
  | missing
  | occupied
  | notDirectory
  | isDirectory
  | nameTooLong
  /-- The path holds a NUL, which no file name can. -/
  | unusable
deriving DecidableEq, Repr, Inhabited

namespace FileFault

/-- How the error reads, as the operating system numbers and words it. -/
def description : FileFault → String
  | missing => "[Errno 2] No such file or directory"
  | occupied => "[Errno 17] File exists"
  | notDirectory => "[Errno 20] Not a directory"
  | isDirectory => "[Errno 21] Is a directory"
  | nameTooLong => "[Errno 36] File name too long"
  | unusable => "embedded null byte"

end FileFault

/-- A failed operation on a file. -/
structure FileError where
  fault : FileFault
  path : PathName
deriving DecidableEq, Repr, Inhabited

namespace FileError

/-- The message of the error, which quotes the path unless the path is no text for the system. -/
def message (e : FileError) : String :=
  if e.fault = .unusable then e.fault.description
  else e.fault.description ++ ": " ++ Quoted.text e.path.text

end FileError

/-- Where a path leads: names below the working directory, after steps up or the root. -/
abbrev Place := List String

namespace Place

/-- Whether a place is the working directory, one above it, or the root. -/
def isGiven (p : Place) : Bool := p.all fun s => s == ".." || s == "/"

/-- Whether a place lies below the working directory, whose content is known. -/
def isInside (p : Place) : Bool := p.head?.all fun s => s != ".." && s != "/"

/-- The directory that a place lies in. -/
def parent (p : Place) : Place :=
  match p.getLast? with
  | none => [".."]
  | some ".." => p ++ [".."]
  | some "/" => p
  | some _ => p.dropLast

/-- The place that one segment leads to from a directory. -/
def step (p : Place) (segment : String) : Place :=
  if segment = ".." then p.parent else p ++ [segment]

end Place

/-- What there is in a place. -/
inductive Occupant
  | file (content : Bytes)
  | directory
deriving DecidableEq, Repr, Inhabited

/-- The files and directories that there are, by their places. -/
structure FileTree where
  files : List (Place × Bytes)
  directories : List Place
deriving DecidableEq, Repr, Inhabited

namespace FileTree

/-- The longest name and the longest path, in bytes. -/
def maxNameBytes : Nat := 255

/-- The longest path that the system takes, in bytes. -/
def maxPathBytes : Nat := 4095

/-- What is at a place. A file lies in directories that are there with it. -/
def at? (t : FileTree) (p : Place) : Option Occupant :=
  match t.files.find? fun f => f.1 = p with
  | some f => some (.file f.2)
  | none =>
    if p.isGiven || t.directories.any (p.isPrefixOf ·) || t.files.any (p.isPrefixOf ·.1) then
      some .directory
    else none

/-- A tree that holds the given files. -/
def ofContents (files : List (String × Bytes)) : FileTree where
  files := Entries.merge (files.map fun f => ((PathName.ofText f.1).segments, f.2))
  directories := []

/-- A tree that holds the given texts. -/
def ofFiles (files : List (String × String)) : FileTree :=
  ofContents (files.map fun f => (f.1, Utf8.encode f.2))

/-- The files below the working directory, with their paths and their texts. -/
def listing (t : FileTree) : List (String × String) :=
  (t.files.filter fun f => Place.isInside f.1).map fun f =>
    (String.intercalate "/" f.1, Utf8.decodeLossy f.2)

/-- Follows segments, each from a directory. -/
def walk (t : FileTree) : Place → List String → Except FileFault Place
  | p, [] => .ok p
  | p, s :: rest =>
    match t.at? p with
    | none => .error .missing
    | some (.file _) => .error .notDirectory
    | some .directory =>
      if maxNameBytes < s.utf8ByteSize then .error .nameTooLong else walk t (p.step s) rest

/-- The place of a path whose directories are all there; the last segment need not be. -/
def locate (t : FileTree) (p : PathName) : Except FileFault Place :=
  if p.text.toList.contains '\x00' then .error .unusable
  else if maxPathBytes < p.text.utf8ByteSize then .error .nameTooLong
  else t.walk (if p.isAbsolute then ["/"] else []) p.segments

/-- What a path leads to. -/
def find (t : FileTree) (p : PathName) : Except FileFault Occupant := do
  match t.at? (← t.locate p) with
  | some o => pure o
  | none => throw .missing

/-- Whether something is at a path; a path that cannot be looked up at all is an error. -/
def exists? (t : FileTree) (p : PathName) : Except FileError Bool :=
  match t.find p with
  | .ok _ => .ok true
  | .error .nameTooLong => .error ⟨.nameTooLong, p⟩
  | .error _ => .ok false

/-- Whether a path leads to a directory. -/
def isDirectory (t : FileTree) (p : PathName) : Bool :=
  match t.find p with
  | .ok .directory => true
  | _ => false

/-- The bytes of the file that a path leads to. -/
def read (t : FileTree) (p : PathName) : Except FileError Bytes :=
  match t.find p with
  | .ok (.file content) => .ok content
  | .ok .directory => .error ⟨.isDirectory, p⟩
  | .error f => .error ⟨f, p⟩

/-- Makes one directory, whose parent must be there. -/
def makeDirectory (t : FileTree) (p : PathName) : Except FileFault FileTree := do
  let place ← t.locate p
  match t.at? place with
  | some _ => throw .occupied
  | none => pure { t with directories := t.directories ++ [place] }

/-- Makes one directory; one that is there already will do. -/
def ensureDirectory (t : FileTree) (p : PathName) : Except FileError FileTree :=
  match t.makeDirectory p with
  | .ok t => .ok t
  | .error .missing => .error ⟨.missing, p⟩
  | .error .unusable => .error ⟨.unusable, p⟩
  | .error f => if t.isDirectory p then .ok t else .error ⟨f, p⟩

/-- Makes the directory whose segments are given last first, and those above it that are missing. -/
def ensureAbove (t : FileTree) (root : String) : List String → Except FileError FileTree
  | [] => t.ensureDirectory ⟨root, []⟩
  | s :: up =>
    let p : PathName := ⟨root, (s :: up).reverse⟩
    match t.ensureDirectory p with
    | .error ⟨.missing, _⟩ => do (← ensureAbove t root up).ensureDirectory p
    | r => r

/-- Makes a directory and those above it that are missing. -/
def ensureDirectories (t : FileTree) (p : PathName) : Except FileError FileTree :=
  t.ensureAbove p.root p.segments.reverse

/-- Writes a file, in place of one that is there. -/
def write (t : FileTree) (p : PathName) (content : Bytes) : Except FileError FileTree :=
  match t.locate p with
  | .error f => .error ⟨f, p⟩
  | .ok place =>
    match t.at? place with
    | some .directory => .error ⟨.isDirectory, p⟩
    | _ => .ok { t with files := Entries.insert t.files place content }

end FileTree

end HttpContract
