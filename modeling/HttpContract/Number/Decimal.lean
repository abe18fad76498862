import HttpContract.Number.Scan

/-!
# Decimal numbers

A decimal keeps the digits it was written with, trailing zeros included, and its text is
positional unless that would need zeros behind the digits or more than five in front of them.
-/

namespace HttpContract

/-- Decimal numbers, with all digits that were written. -/
inductive Decimal
  | finite (negative : Bool) (coefficient : List Char) (exponent : Int)
  | infinite (negative : Bool)
  | nan
deriving DecidableEq, Repr, Inhabited

namespace Decimal

/-- Digits without the zeros in front, one zero staying. -/
def normalDigits (ds : List Char) : List Char :=
  match ds.dropWhile (· == '0') with
  | [] => ['0']
  | cs => cs

/-- The decimal written in a text, blanks around it and underscores inside it ignored. -/
def ofText? (s : String) : Option Decimal :=
  let cs := (Text.trimBoth Text.isBlank s.toList).filter (· != '_')
  let (negative, cs) := Number.splitSign cs
  let word := String.ofList (cs.map Char.toLower)
  if word = "inf" ∨ word = "infinity" then some (.infinite negative)
  else if word = "nan" then some .nan
  else
    let whole := cs.takeWhile Char.isDigit
    let rest := cs.dropWhile Char.isDigit
    let (fraction, rest) := match rest with
      | '.' :: r => (r.takeWhile Char.isDigit, r.dropWhile Char.isDigit)
      | r => ([], r)
    if whole.isEmpty && fraction.isEmpty then none
    else (Number.exponent? rest).map fun e =>
      .finite negative (normalDigits (whole ++ fraction)) (e - fraction.length)

/-- The text of a decimal: plain digits as long as the exponent allows it, else with an exponent. -/
def write : Decimal → String
  | .nan => "NaN"
  | .infinite negative => if negative then "-Infinity" else "Infinity"
  | .finite negative ds e =>
    let left : Int := e + ds.length
    let point : Int := if e ≤ 0 ∧ -6 < left then left else 1
    let body :=
      if point ≤ 0 then '0' :: '.' :: (List.replicate (-point).toNat '0' ++ ds)
      else if ds.length ≤ point.toNat then ds ++ List.replicate (point.toNat - ds.length) '0'
      else ds.take point.toNat ++ '.' :: ds.drop point.toNat
    let tail := if left = point then ""
      else "E" ++ (if point < left then "+" else "-") ++ toString (left - point).natAbs
    (if negative then "-" else "") ++ String.ofList body ++ tail

end Decimal

end HttpContract
