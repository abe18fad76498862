import HttpContract.Proofs.Lists
import HttpContract.Text.Utf8
import Mathlib.Tactic.Set
import Mathlib.Tactic.SplitIfs

/-!
# Text and its bytes

`decode?_encode`: decoding gives back the text that was encoded. `lead?` reads the length of a
character and the bounds of its second byte off the first byte; the bytes that encode a scalar value
lie within those bounds, so `follow` takes all of them, and the bits add up to the code point.
-/

namespace HttpContract.Utf8

theorem toNat_ofNat_of_lt {n : Nat} (h : n < 256) : (UInt8.ofNat n).toNat = n := by
  rw [UInt8.toNat_ofNat']; omega

/-- The range of the bytes that may stand anywhere behind a first one. -/
def anyFollower : UInt8 × UInt8 := (0x80, 0xbf)

theorem follow_cons {r : UInt8 × UInt8} {rs : List (UInt8 × UInt8)} {n : Nat} {b : UInt8}
    {bs : Bytes} (lo : r.1 ≤ b) (hi : b ≤ r.2) :
    follow (r :: rs) n (b :: bs) = follow rs (n * 64 + b.toNat % 64) bs := by
  rw [follow, if_pos ⟨lo, hi⟩]

theorem follow_any {rs : List (UInt8 × UInt8)} {n m : Nat} {bs : Bytes} (hm : m < 64) :
    follow (anyFollower :: rs) n (UInt8.ofNat (m + 0x80) :: bs) = follow rs (n * 64 + m) bs := by
  have hb := toNat_ofNat_of_lt (show m + 0x80 < 256 by omega)
  rw [follow_cons, hb, show (m + 0x80) % 64 = m by omega]
  · rw [UInt8.le_iff_toNat_le, hb]; exact Nat.le_add_left ..
  · rw [UInt8.le_iff_toNat_le, hb]; show m + 0x80 ≤ 0xbf; omega

theorem units_cons_of_lead {b : UInt8} {n n' : Nat} {rs : List (UInt8 × UInt8)} {bs bs' : Bytes}
    (hl : lead? b = some (n, rs)) (hf : follow rs n bs = (some n', bs')) :
    units (b :: bs) = some (Char.ofNat n') :: units bs' := by
  rw [units, hl]
  simp only [hf, Option.map_some]

theorem lead?_one {b : UInt8} (h : b.toNat ≤ 0x7f) : lead? b = some (b.toNat, []) := by
  unfold lead?
  simp only [h, ↓reduceIte]

theorem lead?_two {b : UInt8} (lo : 0xc2 ≤ b.toNat) (hi : b.toNat ≤ 0xdf) :
    lead? b = some (b.toNat % 32, [anyFollower]) := by
  unfold lead?
  rw [if_neg (by omega), if_neg (by omega), if_pos hi]
  rfl

/-- The second of three bytes is bounded where a shorter form or a surrogate would come out. -/
theorem lead?_three {b : UInt8} (lo : 0xe0 ≤ b.toNat) (hi : b.toNat ≤ 0xef) :
    ∃ r : UInt8 × UInt8, lead? b = some (b.toNat % 16, [r, anyFollower]) ∧
      r.1.toNat = (if b.toNat = 0xe0 then 0xa0 else 0x80) ∧
      r.2.toNat = (if b.toNat = 0xed then 0x9f else 0xbf) := by
  unfold lead?
  rw [if_neg (by omega), if_neg (by omega), if_neg (by omega)]
  by_cases h1 : b.toNat = 0xe0
  · exact ⟨(0xa0, 0xbf), by rw [if_pos h1]; rfl, by rw [if_pos h1]; rfl,
      by rw [if_neg (by omega)]; rfl⟩
  by_cases h2 : b.toNat = 0xed
  · exact ⟨(0x80, 0x9f), by rw [if_neg h1, if_pos h2]; rfl, by rw [if_neg h1]; rfl,
      by rw [if_pos h2]; rfl⟩
  exact ⟨anyFollower, by rw [if_neg h1, if_neg h2, if_pos hi]; rfl, by rw [if_neg h1]; rfl,
    by rw [if_neg h2]; rfl⟩

/-- The second of four bytes is bounded where a shorter form or no character would come out. -/
theorem lead?_four {b : UInt8} (lo : 0xf0 ≤ b.toNat) (hi : b.toNat ≤ 0xf4) :
    ∃ r : UInt8 × UInt8, lead? b = some (b.toNat % 8, [r, anyFollower, anyFollower]) ∧
      r.1.toNat = (if b.toNat = 0xf0 then 0x90 else 0x80) ∧
      r.2.toNat = (if b.toNat = 0xf4 then 0x8f else 0xbf) := by
  unfold lead?
  rw [if_neg (by omega), if_neg (by omega), if_neg (by omega), if_neg (by omega),
    if_neg (by omega), if_neg (by omega)]
  by_cases h1 : b.toNat = 0xf0
  · exact ⟨(0x90, 0xbf), by rw [if_pos h1]; rfl, by rw [if_pos h1]; rfl,
      by rw [if_neg (by omega)]; rfl⟩
  by_cases h2 : b.toNat = 0xf4
  · exact ⟨(0x80, 0x8f), by rw [if_neg h1, if_neg (by omega), if_pos h2]; rfl,
      by rw [if_neg h1]; rfl, by rw [if_pos h2]; rfl⟩
  exact ⟨anyFollower, by rw [if_neg h1, if_pos (by omega)]; rfl, by rw [if_neg h1]; rfl,
    by rw [if_neg h2]; rfl⟩

theorem scalar_cases (c : Char) : c.toNat < 0xd800 ∨ 0xdfff < c.toNat ∧ c.toNat < 0x110000 := c.valid

theorem units_utf8EncodeChar (c : Char) (bs : Bytes) :
    units (String.utf8EncodeChar c ++ bs) = some c :: units bs := by
  have hs := scalar_cases c
  have hc : c.val.toNat = c.toNat := rfl
  unfold String.utf8EncodeChar
  simp only [hc]
  set v := c.toNat with hv
  have back : ∀ n, n = v → Char.ofNat n = c := fun n hn => by rw [hn, hv, Char.ofNat_toNat]
  split_ifs with h1 h2 h3
  · have hb : (UInt8.ofNat v).toNat = v := toNat_ofNat_of_lt (by omega)
    rw [List.singleton_append,
      units_cons_of_lead (lead?_one (by rw [hb]; exact h1)) rfl, back _ hb]
  · have hb := toNat_ofNat_of_lt (show v / 64 % 32 + 0xc0 < 256 by omega)
    have hl := lead?_two (b := UInt8.ofNat (v / 64 % 32 + 0xc0)) (by omega) (by omega)
    rw [List.cons_append, List.singleton_append,
      units_cons_of_lead hl (by rw [follow_any (Nat.mod_lt _ (by decide))]; rfl), hb]
    rw [back _ (by omega)]
  · have hb := toNat_ofNat_of_lt (show v / 4096 % 16 + 0xe0 < 256 by omega)
    have hb' := toNat_ofNat_of_lt (show v / 64 % 64 + 0x80 < 256 by omega)
    obtain ⟨r, hl, lo, hi⟩ := lead?_three (b := UInt8.ofNat (v / 4096 % 16 + 0xe0))
      (by omega) (by omega)
    rw [hb] at lo hi
    have hf : follow [r, anyFollower] ((UInt8.ofNat (v / 4096 % 16 + 0xe0)).toNat % 16)
        (UInt8.ofNat (v / 64 % 64 + 0x80) :: UInt8.ofNat (v % 64 + 0x80) :: bs) = (some v, bs) := by
      rw [follow_cons, follow_any (Nat.mod_lt _ (by decide)), hb, hb', follow]
      · congr 2; omega
      · rw [UInt8.le_iff_toNat_le, lo, hb']; split_ifs <;> omega
      · rw [UInt8.le_iff_toNat_le, hi, hb']; split_ifs <;> omega
    rw [List.cons_append, List.cons_append, List.singleton_append, units_cons_of_lead hl hf,
      back _ rfl]
  · have hb := toNat_ofNat_of_lt (show v / 262144 % 8 + 0xf0 < 256 by omega)
    have hb' := toNat_ofNat_of_lt (show v / 4096 % 64 + 0x80 < 256 by omega)
    obtain ⟨r, hl, lo, hi⟩ := lead?_four (b := UInt8.ofNat (v / 262144 % 8 + 0xf0))
      (by omega) (by omega)
    rw [hb] at lo hi
    have hf : follow [r, anyFollower, anyFollower] ((UInt8.ofNat (v / 262144 % 8 + 0xf0)).toNat % 8)
        (UInt8.ofNat (v / 4096 % 64 + 0x80) :: UInt8.ofNat (v / 64 % 64 + 0x80) ::
          UInt8.ofNat (v % 64 + 0x80) :: bs) = (some v, bs) := by
      rw [follow_cons, follow_any (Nat.mod_lt _ (by decide)),
        follow_any (Nat.mod_lt _ (by decide)), hb, hb', follow]
      · congr 2; omega
      · rw [UInt8.le_iff_toNat_le, lo, hb']; split_ifs <;> omega
      · rw [UInt8.le_iff_toNat_le, hi, hb']; split_ifs <;> omega
    rw [List.cons_append, List.cons_append, List.cons_append, List.singleton_append,
      units_cons_of_lead hl hf, back _ rfl]

theorem units_encode (cs : List Char) : units (cs.flatMap String.utf8EncodeChar) = cs.map some := by
  induction cs with
  | nil => rw [List.flatMap_nil, units, List.map_nil]
  | cons c cs ih => rw [List.flatMap_cons, units_utf8EncodeChar, ih, List.map_cons]

theorem decode?_encode (s : String) : decode? (encode s) = some s := by
  rw [decode?, encode, units_encode, mapM_id_map_some, Option.map_some, String.ofList_toList]

theorem encode_ne_nil {s : String} (h : s ≠ "") : encode s ≠ [] := by
  intro hempty
  have hback := decode?_encode s
  rw [hempty, show ([] : Bytes) = encode "" from rfl, decode?_encode] at hback
  exact h (Option.some.inj hback).symm

theorem decodeLossy_encode (s : String) : decodeLossy (encode s) = s := by
  rw [decodeLossy, encode, units_encode, List.map_map]
  exact (congrArg String.ofList (List.map_id _)).trans String.ofList_toList

/-! ### ASCII -/

theorem utf8Size_eq_one_iff {c : Char} : c.utf8Size = 1 ↔ c.toNat < 128 := by
  rw [Char.utf8Size_eq_one_iff, UInt32.le_iff_toNat_le]
  exact Nat.lt_succ_iff.symm

theorem flatMap_utf8EncodeChar_of_lt {cs : List Char} (h : ∀ c ∈ cs, c.toNat < 128) :
    cs.flatMap String.utf8EncodeChar = cs.map fun c => UInt8.ofNat c.toNat := by
  induction cs with
  | nil => rfl
  | cons c cs ih =>
    rw [List.forall_mem_cons] at h
    rw [List.flatMap_cons, String.utf8EncodeChar_eq_singleton (utf8Size_eq_one_iff.mpr h.1), ih h.2]
    rfl

/-- Text has at least a byte for each of its characters, and no more exactly if all of them are ASCII. -/
theorem length_flatMap_utf8EncodeChar (cs : List Char) :
    cs.length ≤ (cs.flatMap String.utf8EncodeChar).length ∧
      ((cs.flatMap String.utf8EncodeChar).length ≤ cs.length ↔ ∀ c ∈ cs, c.toNat < 128) := by
  induction cs with
  | nil => exact ⟨Nat.le_refl 0, iff_of_true (Nat.le_refl 0) (List.forall_mem_nil _)⟩
  | cons c cs ih =>
    have hpos := c.utf8Size_pos
    have hle := ih.1
    rw [List.flatMap_cons, List.length_append, List.length_cons, String.length_utf8EncodeChar,
      List.forall_mem_cons, ← ih.2, ← utf8Size_eq_one_iff]
    omega

/-- Reading a character off each byte gives a text back exactly if it is ASCII. -/
theorem map_encode_eq_iff {f : UInt8 → Char} (hf : ∀ b : UInt8, b < 128 → f b = Char.ofNat b.toNat)
    (s : String) : (encode s).map f = s.toList ↔ ∀ c ∈ s.toList, c.toNat < 128 := by
  constructor
  · intro h
    have hlength : (encode s).length = s.toList.length := by
      rw [← congrArg List.length h, List.length_map]
    exact (length_flatMap_utf8EncodeChar s.toList).2.mp (Nat.le_of_eq hlength)
  · intro h
    rw [encode, flatMap_utf8EncodeChar_of_lt h, List.map_map]
    refine (List.map_congr_left fun c hc => ?_).trans (List.map_id _)
    have hbyte : (UInt8.ofNat c.toNat).toNat = c.toNat := toNat_ofNat_of_lt (by have := h c hc; omega)
    have hlow : UInt8.ofNat c.toNat < 128 := by
      rw [UInt8.lt_iff_toNat_lt, hbyte]
      exact h c hc
    show f (UInt8.ofNat c.toNat) = c
    rw [hf _ hlow, hbyte, Char.ofNat_toNat]

end HttpContract.Utf8
