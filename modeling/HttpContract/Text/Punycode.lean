/-!
# Punycode

Labels of host names beyond ASCII, written with ASCII letters: the ASCII characters first, then the
others in ascending order, each by its distance from the one before in a number system whose digits
weigh less the more is expected.
-/

namespace HttpContract.Punycode

/-- The character of a digit in base 36. -/
def digit (n : Nat) : Char := if n < 26 then Char.ofNat (97 + n) else Char.ofNat (22 + n)

/-- The least value that a digit at a position must not reach to end the number. -/
def threshold (bias position : Nat) : Nat := max 1 (min 26 (position - bias))

/-- How the next distance is expected to be, from the one just written. -/
def adapt (distance count : Nat) (first : Bool) : Nat :=
  let d := if first then distance / 700 else distance / 2
  let d := d + d / count
  let rec shrink (fuel d k : Nat) : Nat :=
    match fuel with
    | 0 => k
    | fuel + 1 => if 455 < d then shrink fuel (d / 35) (k + 36) else k + 36 * d / (d + 38)
  shrink d d 0

/-- A distance in digits; the fuel is the distance. -/
def number (fuel bias position n : Nat) : List Char :=
  match fuel with
  | 0 => [digit n]
  | fuel + 1 =>
  let t := threshold bias position
  if n < t then [digit n]
  else digit (t + (n - t) % (36 - t)) :: number fuel bias (position + 36) ((n - t) / (36 - t))

/-- What encoding has come to. -/
structure Progress where
  next : Nat := 128
  distance : Nat := 0
  bias : Nat := 72
  done : Nat
  isFirst : Bool := true
  output : List Char := []

/-- Writes all places where one character stands. -/
def place (codes : List Nat) (code : Nat) (p : Progress) : Progress :=
  let start := { p with distance := p.distance + (code - p.next) * (p.done + 1), next := code }
  let after := codes.foldl (fun (p : Progress) c =>
    if c < code then { p with distance := p.distance + 1 }
    else if c = code then {
      p with
      output := p.output ++ number p.distance p.bias 36 p.distance
      bias := adapt p.distance (p.done + 1) p.isFirst
      distance := 0, done := p.done + 1, isFirst := false }
    else p) start
  { after with distance := after.distance + 1, next := code + 1 }

/-- The ASCII form of a label: its ASCII characters, then where the others go. -/
def encode (s : String) : String :=
  let basic := s.toList.filter (·.toNat < 128)
  let codes := s.toList.map Char.toNat
  let others := ((codes.filter (128 ≤ ·)).eraseDups).mergeSort (· ≤ ·)
  let p := others.foldl (fun p c => place codes c p) { done := basic.length }
  String.ofList (basic ++ (if basic.isEmpty then [] else ['-']) ++ p.output)

end HttpContract.Punycode
