import HttpContract.Number.Binary64

/-!
# Shortest decimal digits

The decimal digits of a positive binary64 number: the fewest that read back as it, and of these the
nearest. A decimal reads back as the number when it lies between the midpoints to its two
neighbours; the midpoints themselves count when the mantissa is even.
-/

namespace HttpContract.Binary64

open Number

/-- A positive decimal `digits · 10 ^ exponent`. -/
structure Scaled where
  digits : Nat
  exponent : Int
deriving DecidableEq, Repr

/-- The number of decimal digits of a natural, zero having none. -/
def digitCount (n : Nat) : Nat := if n = 0 then 0 else (Nat.toDigits 10 n).length

/-- The exponent of the leading decimal digit of the positive fraction `num / den`. -/
def leadingExponent (num den : Nat) : Int :=
  if den ≤ num then (digitCount (num / den) : Int) - 1
  else -(digitCount ((den + num - 1) / num - 1) : Int)

/-- The reals that round to a number, as fractions over one denominator. -/
structure Interval where
  low : Nat
  value : Nat
  high : Nat
  den : Nat
  closed : Bool

namespace Interval

/-- The interval of `mantissa · 2 ^ exponent`. Below a power of two the neighbour is half as far. -/
def around (mantissa : Nat) (exponent : Int) : Interval :=
  let narrow := mantissa = powerOfTwo 52 ∧ -1074 < exponent
  let low := if narrow then 4 * mantissa - 1 else 4 * mantissa - 2
  let up (n : Nat) : Nat := if 0 ≤ exponent - 2 then n * powerOfTwo (exponent - 2).toNat else n
  let den := if 0 ≤ exponent - 2 then 1 else powerOfTwo (2 - exponent).toNat
  ⟨up low, up (4 * mantissa), up (4 * mantissa + 2), den, mantissa % 2 = 0⟩

/-- Whether `digits · 10 ^ k` lies in the interval. -/
def contains (i : Interval) (digits : Nat) (k : Int) : Bool :=
  let n := if 0 ≤ k then digits * powerOfTen k.toNat * i.den else digits * i.den
  let scale := if 0 ≤ k then 1 else powerOfTen (-k).toNat
  if i.closed then i.low * scale ≤ n && n ≤ i.high * scale
  else i.low * scale < n && n < i.high * scale

/-- The decimal of the interval on the grid of `10 ^ k` that is nearest to the value; a tie goes to
the even one. -/
def nearestOnGrid? (i : Interval) (k : Int) : Option Scaled :=
  let num := if 0 ≤ k then i.value else i.value * powerOfTen (-k).toNat
  let den := if 0 ≤ k then i.den * powerOfTen k.toNat else i.den
  let down := num / den
  let near := divHalfEven num den
  let far := if near = down then down + 1 else down
  if 0 < near ∧ i.contains near k then some ⟨near, k⟩
  else if 0 < far ∧ i.contains far k then some ⟨far, k⟩
  else none

end Interval

/-- The shortest digits of `mantissa · 2 ^ exponent`; seventeen always suffice. -/
def shortest (mantissa : Nat) (exponent : Int) : Scaled :=
  let i := Interval.around mantissa exponent
  let lead := leadingExponent i.value i.den
  let grids := (List.range 17).map fun n : Nat => lead - (n : Int)
  (grids.findSome? i.nearestOnGrid?).getD ⟨i.value / i.den, 0⟩

end HttpContract.Binary64
