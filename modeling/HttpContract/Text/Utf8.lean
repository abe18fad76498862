/-!
# UTF-8

`Utf8.units` cuts bytes into characters and malformed pieces, a malformed piece being as long as it
agrees with the start of some character. Strict and lenient decoding are two readings of that list.
-/

namespace HttpContract

/-- The contents of files and bodies. -/
abbrev Bytes := List UInt8

namespace Utf8

/-- The bytes of a text. -/
def encode (s : String) : Bytes := s.toList.flatMap String.utf8EncodeChar

/-- The bytes that may follow a first byte, as closed ranges, and the bits the first one carries. -/
def lead? (b : UInt8) : Option (Nat × List (UInt8 × UInt8)) :=
  let any : UInt8 × UInt8 := (0x80, 0xbf)
  let n := b.toNat
  if n ≤ 0x7f then some (n, [])
  else if n < 0xc2 then none
  else if n ≤ 0xdf then some (n % 32, [any])
  else if n = 0xe0 then some (n % 16, [(0xa0, 0xbf), any])
  else if n = 0xed then some (n % 16, [(0x80, 0x9f), any])
  else if n ≤ 0xef then some (n % 16, [any, any])
  else if n = 0xf0 then some (n % 8, [(0x90, 0xbf), any, any])
  else if n ≤ 0xf3 then some (n % 8, [any, any, any])
  else if n = 0xf4 then some (n % 8, [(0x80, 0x8f), any, any])
  else none

/-- Takes following bytes while they lie in their ranges; `none` when one does not. -/
def follow : List (UInt8 × UInt8) → Nat → Bytes → Option Nat × Bytes
  | [], n, bs => (some n, bs)
  | _ :: _, _, [] => (none, [])
  | r :: rs, n, b :: bs =>
    if r.1 ≤ b ∧ b ≤ r.2 then follow rs (n * 64 + b.toNat % 64) bs else (none, b :: bs)

theorem length_follow (rs : List (UInt8 × UInt8)) (n : Nat) (bs : Bytes) :
    (follow rs n bs).2.length ≤ bs.length := by
  fun_induction follow rs n bs <;> simp_all
  omega

/-- The characters of a byte sequence in order, `none` standing for a malformed piece. -/
def units : Bytes → List (Option Char)
  | [] => []
  | b :: bs =>
    match lead? b with
    | none => none :: units bs
    | some (n, rs) =>
      have := length_follow rs n bs
      (follow rs n bs).1.map Char.ofNat :: units (follow rs n bs).2
termination_by bs => bs.length

/-- The text that bytes encode; none when a piece is malformed. -/
def decode? (bs : Bytes) : Option String := ((units bs).mapM id).map String.ofList

/-- The text of bytes with U+FFFD for each malformed piece. -/
def decodeLossy (bs : Bytes) : String :=
  String.ofList ((units bs).map (·.getD '\uFFFD'))

end Utf8

/-- One character per byte. -/
def Bytes.latin1 (bs : Bytes) : String := String.ofList (bs.map fun b => Char.ofNat b.toNat)

end HttpContract
