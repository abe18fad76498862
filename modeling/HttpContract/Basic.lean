/-!
# Entries and parts of text

Lists of keys with values, in the order in which the keys were first given: `Entries.insert` replaces the
value of a key in its place, and `Entries.merge` makes such a list of any entries. And what texts are made
of: parts between separators, and characters of a class, which is a list of closed ranges of code points.
-/

namespace HttpContract

/-! ## Ordered entries -/

namespace Entries

variable {κ α : Type} [BEq κ]

/-- The entries with `k` bound to `a`: a key that is there keeps its place, a new one goes to the
end. -/
def insert (entries : List (κ × α)) (k : κ) (a : α) : List (κ × α) :=
  match entries with
  | [] => [(k, a)]
  | e :: rest => if e.1 == k then (e.1, a) :: rest else e :: insert rest k a

/-- Later entries replace the value of earlier ones with the same key and keep their place. -/
def merge (entries : List (κ × α)) : List (κ × α) :=
  entries.foldl (fun done e => insert done e.1 e.2) []

/-- What `k` is bound to, where its first entry counts. -/
def get? (entries : List (κ × α)) (k : κ) : Option α := (entries.find? fun e => e.1 == k).map (·.2)

end Entries

namespace Text

/-! ## Parts -/

/-- The parts of a text between separators; a text without one is its only part. -/
def split (separator : Char) (s : String) : List String :=
  (s.toList.splitOn separator).map String.ofList

/-- Whether characters stand in a row in a text. -/
def occurs (row : List Char) : List Char → Bool
  | [] => row.isEmpty
  | c :: cs => row.isPrefixOf (c :: cs) || occurs row cs

/-! ## Ranges of code points -/

/-- Closed ranges of code points, in ascending order. -/
abbrev CodeRanges := List (Nat × Nat)

namespace CodeRanges

/-- Whether a character lies in one of the ranges. -/
def contains (rs : CodeRanges) (c : Char) : Bool :=
  rs.any fun r => r.1 ≤ c.toNat && c.toNat ≤ r.2

end CodeRanges

/-! ## Blanks -/

/-- The white space of Unicode together with the four ASCII information separators. -/
def blanks : CodeRanges :=
  [(0x9, 0xd), (0x1c, 0x20), (0x85, 0x85), (0xa0, 0xa0), (0x1680, 0x1680), (0x2000, 0x200a),
   (0x2028, 0x2029), (0x202f, 0x202f), (0x205f, 0x205f), (0x3000, 0x3000)]

/-- Whether a character is white space that stripping removes. -/
def isBlank (c : Char) : Bool := blanks.contains c

/-- Removes what is of a class from both ends. -/
def trimBoth {α : Type} (p : α → Bool) (as : List α) : List α :=
  ((as.dropWhile p).reverse.dropWhile p).reverse

/-- Removes the characters of a class from the end. -/
def trimEnd (p : Char → Bool) (cs : List Char) : List Char :=
  (cs.reverse.dropWhile p).reverse

/-- A text without the slashes around it. -/
def trimSlashes (s : String) : String := String.ofList (trimBoth (· == '/') s.toList)

/-- Whether a text is empty or holds blanks only. -/
def allBlank (s : String) : Bool := s.toList.all isBlank

end Text

end HttpContract
