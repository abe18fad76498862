/-!
# Binary64 numbers

A binary64 number is its 64 bits. `view` reads them as a signed multiple of a power of two, and
`ofRatio` rounds a fraction of naturals to the nearest number, a tie going to the even one, so all
arithmetic here is exact arithmetic followed by one rounding.
-/

namespace HttpContract

namespace Number

/-! ## Powers -/

/-- Powers of two; a function of its own, so that large ones are computed only where they are
needed. -/
def powerOfTwo (k : Nat) : Nat := Nat.pow 2 k

/-- Powers of ten, likewise. -/
def powerOfTen (k : Nat) : Nat := Nat.pow 10 k

theorem powerOfTwo_pos (k : Nat) : 0 < powerOfTwo k := Nat.pow_pos (by decide)

end Number

open Number

/-! ## Numbers -/

/-- A binary64 number, told apart by its bits. -/
structure Binary64 where
  bits : UInt64
deriving DecidableEq, Inhabited, Repr

namespace Binary64

/-- What the bits denote; a finite number is `± mantissa · 2 ^ exponent`. -/
inductive View
  | nan
  | infinite (negative : Bool)
  | finite (negative : Bool) (mantissa : Nat) (exponent : Int)
deriving DecidableEq, Repr

/-- Whether the sign bit is set. -/
def isNegative (x : Binary64) : Bool := powerOfTwo 63 ≤ x.bits.toNat

/-- What the bits stand for. -/
def view (x : Binary64) : View :=
  let fraction : Nat := x.bits.toNat % powerOfTwo 52
  let field : Nat := x.bits.toNat / powerOfTwo 52 % powerOfTwo 11
  if field = 2047 then
    if fraction = 0 then .infinite x.isNegative else .nan
  else if field = 0 then .finite x.isNegative fraction (-1074)
  else .finite x.isNegative (powerOfTwo 52 + fraction) ((field : Int) - 1075)

/-- The number with the given sign, exponent field and fraction. -/
def ofFields (negative : Bool) (field fraction : Nat) : Binary64 :=
  ⟨UInt64.ofNat ((if negative then powerOfTwo 63 else 0) + field * powerOfTwo 52 + fraction)⟩

/-- The quiet pattern that stands for no number. -/
def nan : Binary64 := ofFields false 2047 (powerOfTwo 51)
def infinity (negative : Bool) : Binary64 := ofFields negative 2047 0
def zero (negative : Bool) : Binary64 := ofFields negative 0 0

/-- The quotient of two naturals rounded to the nearest natural, a tie to the even one. -/
def divHalfEven (num den : Nat) : Nat :=
  let q := num / den
  let r := 2 * (num % den)
  if r < den then q else if den < r then q + 1 else q + q % 2

/-- `num / den` divided by `2 ^ e`, as a fraction. -/
def scaleDown (num den : Nat) (e : Int) : Nat × Nat :=
  if 0 ≤ e then (num, den * powerOfTwo e.toNat) else (num * powerOfTwo (-e).toNat, den)

/-- The exponent at which a positive fraction has 53 binary digits, but never below the least. -/
def exponentFor (num den : Nat) : Int :=
  let e := (num.log2 : Int) - den.log2 - 53
  let (n, d) := scaleDown num den e
  let e := if n / d < powerOfTwo 53 then e else e + 1
  max e (-1074)

/-- The number nearest to `± num / den`. -/
def ofRatio (negative : Bool) (num den : Nat) : Binary64 :=
  if num = 0 then zero negative
  else
    let e := exponentFor num den
    let (n, d) := scaleDown num den e
    let q := divHalfEven n d
    let (q, e) := if q = powerOfTwo 53 then (powerOfTwo 52, e + 1) else (q, e)
    if 971 < e then infinity negative
    else if q < powerOfTwo 52 then ofFields negative 0 q
    else ofFields negative (e + 1075).toNat (q - powerOfTwo 52)

/-- The number nearest to a natural. -/
def ofNat (n : Nat) : Binary64 := ofRatio false n 1

/-- The number nearest to an integer. -/
def ofInt (i : Int) : Binary64 := ofRatio (decide (i < 0)) i.natAbs 1

/-- The number nearest to `± digits · 10 ^ exponent`; the guards keep the powers small. -/
def ofDecimal (negative : Bool) (digits : Nat) (exponent : Int) : Binary64 :=
  let size : Int := (Nat.toDigits 10 digits).length + exponent
  if digits = 0 then zero negative
  else if 310 < size then infinity negative
  else if size < -330 then zero negative
  else if 0 ≤ exponent then ofRatio negative (digits * powerOfTen exponent.toNat) 1
  else ofRatio negative digits (powerOfTen (-exponent).toNat)

/-- Whether the bits stand for no number. -/
def isNaN (x : Binary64) : Bool := x.view == .nan

/-- Whether the bits stand for a number that is not infinite. -/
def isFinite (x : Binary64) : Bool :=
  match x.view with
  | .finite .. => true
  | _ => false

/-- An integer that orders the numbers other than NaN; both zeros have the same one. -/
def orderKey (x : Binary64) : Int :=
  if x.isNegative then -((x.bits.toNat - powerOfTwo 63 : Nat) : Int) else x.bits.toNat

/-- Whether `x < y`; never true of NaN. -/
def lt (x y : Binary64) : Bool :=
  !x.isNaN && !y.isNaN && x.orderKey < y.orderKey

/-- Whether two numbers compare equal; never true of NaN. -/
def same (x y : Binary64) : Bool :=
  !x.isNaN && !y.isNaN && x.orderKey == y.orderKey

/-- The integer a number is equal to. -/
def toInt? (x : Binary64) : Option Int :=
  match x.view with
  | .finite negative m e =>
    let magnitude? : Option Nat :=
      if 0 ≤ e then some (m * powerOfTwo e.toNat)
      else if m % powerOfTwo (-e).toNat = 0 then some (m / powerOfTwo (-e).toNat) else none
    magnitude?.map fun n => if negative then -(n : Int) else n
  | _ => none

/-- The number nearest to `2 ^ k`. -/
def twoPow (k : Int) : Binary64 :=
  if 1024 ≤ k then infinity false
  else if k < -1100 then zero false
  else
    let (n, d) := scaleDown 1 1 (-k)
    ofRatio false n d

/-- The product, rounded once. -/
def mul (x y : Binary64) : Binary64 :=
  match x.view, y.view with
  | .nan, _ | _, .nan => nan
  | .infinite s, .infinite t => infinity (s != t)
  | .infinite s, .finite t m _ | .finite t m _, .infinite s =>
    if m = 0 then nan else infinity (s != t)
  | .finite s m e, .finite t n f =>
    let (p, q) := scaleDown (m * n) 1 (-(e + f))
    ofRatio (s != t) p q

end Binary64

end HttpContract
