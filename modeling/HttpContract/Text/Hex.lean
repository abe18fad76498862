import HttpContract.Text.Utf8

/-!
# Hexadecimal digits

Bytes and code points written with a fixed number of lower- or upper-case digits, and read back.
-/

namespace HttpContract.Hex

def lowerDigit (n : Nat) : Char := "0123456789abcdef".toList.getD n '0'
def upperDigit (n : Nat) : Char := "0123456789ABCDEF".toList.getD n '0'

/-- What a digit of either case stands for. -/
def digit? (c : Char) : Option Nat :=
  if '0' ≤ c ∧ c ≤ '9' then some (c.toNat - 48)
  else if 'a' ≤ c ∧ c ≤ 'f' then some (c.toNat - 87)
  else if 'A' ≤ c ∧ c ≤ 'F' then some (c.toNat - 55)
  else none

/-- The last `width` digits of a number. -/
def fixed (width n : Nat) : List Char :=
  match width with
  | 0 => []
  | w + 1 => fixed w (n / 16) ++ [lowerDigit (n % 16)]

/-- The number written by digits. -/
def value? (cs : List Char) : Option Nat :=
  cs.foldlM (fun n c => (digit? c).map (n * 16 + ·)) 0

/-- The bytes as text, two digits each. -/
def ofBytes (bs : Bytes) : String := String.ofList (bs.flatMap fun b => fixed 2 b.toNat)

/-- The bytes written by pairs of digits. -/
def pairs? : List Char → Option Bytes
  | [] => some []
  | a :: b :: cs => do
    let hi ← digit? a
    let lo ← digit? b
    let bs ← pairs? cs
    pure (UInt8.ofNat (hi * 16 + lo) :: bs)
  | [_] => none

/-- The bytes that pairs of digits stand for. -/
def toBytes? (s : String) : Option Bytes := pairs? s.toList

end HttpContract.Hex
