import HttpContract.Number.Shortest

/-!
# Layouts of numbers

How the shortest digits of a number are written out. Two layouts occur: the source layout, used for
literals in generated code and for values sent as plain text, and the document layout, used inside
JSON.
-/

namespace HttpContract.Binary64

/-- A number is written positionally when its decimal point stands at a place in
`plainFrom … plainTo`, counted from the first digit; else with an exponent of at least
`exponentDigits` digits. -/
structure Layout where
  plainFrom : Int
  plainTo : Int
  exponentDigits : Nat
  nan : String
  infinity : String

namespace Layout

/-- The layout of literals: `1e-05`, `0.0001`, `1e+16`, `inf`. -/
def source : Layout := ⟨-3, 16, 2, "nan", "inf"⟩

/-- The layout of JSON: `1e-6`, `0.00001`, `1e+16`, `Infinity`. -/
def document : Layout := ⟨-4, 16, 1, "NaN", "Infinity"⟩

end Layout

/-- A row of zeros. -/
def zeros (n : Nat) : List Char := List.replicate n '0'

/-- Digits with the point at the given place; an integer keeps one zero behind the point. -/
def writePlain (ds : List Char) (point : Int) : List Char :=
  if point ≤ 0 then '0' :: '.' :: (zeros (-point).toNat ++ ds)
  else
    let whole := ds.take point.toNat ++ zeros (point.toNat - ds.length)
    let rest := ds.drop point.toNat
    whole ++ '.' :: (if rest.isEmpty then ['0'] else rest)

/-- Digits with the point behind the first one and an exponent. -/
def writeExponent (layout : Layout) (ds : List Char) (point : Int) : List Char :=
  let e := point - 1
  let mantissa := match ds with
    | d :: rest => if rest.isEmpty then [d] else d :: '.' :: rest
    | [] => []
  let es := Nat.toDigits 10 e.natAbs
  let sign := if e < 0 then '-' else '+'
  mantissa ++ 'e' :: sign :: (zeros (layout.exponentDigits - es.length) ++ es)

/-- Drops the zeros at the end of a decimal. -/
def trimZeros (ds : List Char) : List Char := (ds.reverse.dropWhile (· == '0')).reverse

/-- The text of a positive finite number. -/
def writeMagnitude (layout : Layout) (mantissa : Nat) (exponent : Int) : List Char :=
  if mantissa = 0 then ['0', '.', '0']
  else
    let d := shortest mantissa exponent
    let all := Nat.toDigits 10 d.digits
    let point : Int := all.length + d.exponent
    let ds := trimZeros all
    if layout.plainFrom ≤ point ∧ point ≤ layout.plainTo then writePlain ds point
    else writeExponent layout ds point

/-- The text of a number. -/
def write (layout : Layout) (x : Binary64) : String :=
  match x.view with
  | .nan => layout.nan
  | .infinite negative => if negative then "-" ++ layout.infinity else layout.infinity
  | .finite negative m e =>
    String.ofList ((if negative then ['-'] else []) ++ writeMagnitude layout m e)

end HttpContract.Binary64
