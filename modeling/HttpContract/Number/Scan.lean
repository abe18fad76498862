import HttpContract.Basic
import HttpContract.Number.Binary64

/-!
# Reading numbers from text

The two number syntaxes that headers, settings and bodies use for numbers written as text: an
integer may carry a fraction of zeros, a float may carry an exponent or name a special value, and
both may group digits by single underscores.
-/

namespace HttpContract.Number

/-- What a digit stands for. -/
def digitValue (c : Char) : Nat := c.toNat - '0'.toNat

/-- The natural that a list of decimal digits denotes. -/
def ofDigits (ds : List Char) : Nat := ds.foldl (fun n d => 10 * n + digitValue d) 0

/-- The digits of a run in which single underscores may separate digits. -/
def groupedDigits? : List Char → Option (List Char)
  | [] => none
  | [d] => if d.isDigit then some [d] else none
  | d :: '_' :: rest => if d.isDigit then (groupedDigits? rest).map (d :: ·) else none
  | d :: rest => if d.isDigit then (groupedDigits? rest).map (d :: ·) else none

/-- Splits a sign off. -/
def splitSign : List Char → Bool × List Char
  | '-' :: cs => (true, cs)
  | '+' :: cs => (false, cs)
  | cs => (false, cs)

/-- The integer written in a text: blanks around it, a sign, grouped digits, a fraction of zeros. -/
def integer? (s : String) : Option Int :=
  let (negative, cs) := splitSign (Text.trimBoth Text.isBlank s.toList)
  let whole := cs.takeWhile (· != '.')
  let fraction := cs.dropWhile (· != '.')
  let fractionOk := match fraction with
    | [] => true
    | _ :: zs => !zs.isEmpty && zs.all (· == '0')
  match fractionOk, groupedDigits? whole with
  | true, some ds => some (if negative then -(ofDigits ds : Int) else ofDigits ds)
  | _, _ => none

/-- The digits of a part that may be empty. -/
def optionalDigits? (cs : List Char) : Option (List Char) :=
  if cs.isEmpty then some [] else groupedDigits? cs

/-- The exponent that ends a number; without one it is zero. -/
def exponent? : List Char → Option Int
  | [] => some 0
  | e :: cs =>
    if e == 'e' || e == 'E' then
      let (negative, ds) := splitSign cs
      (groupedDigits? ds).map fun ds => if negative then -(ofDigits ds : Int) else ofDigits ds
    else none

/-- A finite number without sign: digits, a point, digits, an exponent; one side of the point may
be empty. -/
def unsigned? (negative : Bool) (cs : List Char) : Option Binary64 :=
  let isExponentMark (c : Char) := c == 'e' || c == 'E'
  let body := cs.takeWhile (!isExponentMark ·)
  let tail := cs.dropWhile (!isExponentMark ·)
  let whole := body.takeWhile (· != '.')
  let fraction := (body.dropWhile (· != '.')).drop 1
  if whole.isEmpty && fraction.isEmpty then none
  else
    match optionalDigits? whole, optionalDigits? fraction, exponent? tail with
    | some w, some f, some e =>
      some (.ofDecimal negative (ofDigits (w ++ f)) (e - f.length))
    | _, _, _ => none

/-- The number written in a text, blanks around it allowed. -/
def float? (s : String) : Option Binary64 :=
  let (negative, cs) := splitSign (Text.trimBoth Text.isBlank s.toList)
  let word := String.ofList (cs.map Char.toLower)
  if word = "inf" ∨ word = "infinity" then some (.infinity negative)
  else if word = "nan" then some .nan
  else unsigned? negative cs

end HttpContract.Number
