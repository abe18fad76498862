import HttpContract.Number.Binary64
import Mathlib.Algebra.Order.Field.Power
import Mathlib.Algebra.Order.Ring.Rat
import Mathlib.Tactic.FieldSimp
import Mathlib.Tactic.Linarith
import Mathlib.Tactic.NormNum
import Mathlib.Tactic.Positivity
import Mathlib.Tactic.Ring

/-!
# Binary64 numbers as fractions

`value` is the fraction that a finite number denotes. A fraction that is a number is rounded to that
number (`ofRatio_of_canonical`), so doubling is exact up to overflow (`mul_twoPow`), and numbers compare as
their fractions do (`lt_iff_value_lt`).
-/

namespace HttpContract.Binary64

open Number

/-- Mantissas and exponents of finite numbers: 53 binary digits, fewer only at the least exponent. -/
structure Canonical (m : Nat) (e : Int) : Prop where
  digits : m < 2 ^ 53
  least : -1074 ≤ e
  full : 2 ^ 52 ≤ m ∨ e = -1074

/-- The fraction that a finite number denotes. -/
def View.value : View → ℚ
  | .finite negative m e => (if negative then -1 else 1) * (m * 2 ^ e)
  | _ => 0

/-- The fraction that a number denotes; what is not finite counts as zero. -/
def value (x : Binary64) : ℚ := x.view.value

theorem powerOfTwo_eq (k : Nat) : powerOfTwo k = 2 ^ k := rfl

/-- The reading of the bits: a field of eleven bits above a fraction of 52. -/
theorem view_eq (x : Binary64) : x.view =
    if x.bits.toNat / 2 ^ 52 % 2 ^ 11 = 2047 then
      if x.bits.toNat % 2 ^ 52 = 0 then .infinite x.isNegative else .nan
    else if x.bits.toNat / 2 ^ 52 % 2 ^ 11 = 0 then
      .finite x.isNegative (x.bits.toNat % 2 ^ 52) (-1074)
    else .finite x.isNegative (2 ^ 52 + x.bits.toNat % 2 ^ 52)
      ((x.bits.toNat / 2 ^ 52 % 2 ^ 11 : Nat) - 1075 : Int) := rfl

theorem isNegative_eq (x : Binary64) : x.isNegative = decide (2 ^ 63 ≤ x.bits.toNat) := rfl

/-! ### Packing -/

/-- The number with a sign, a mantissa and an exponent. -/
def pack (negative : Bool) (m : Nat) (e : Int) : Binary64 :=
  if m < 2 ^ 52 then ofFields negative 0 m else ofFields negative (e + 1075).toNat (m - 2 ^ 52)

theorem toNat_ofFields (negative : Bool) {field fraction : Nat} (hf : field < 2 ^ 11)
    (hr : fraction < 2 ^ 52) : (ofFields negative field fraction).bits.toNat =
      (if negative then 2 ^ 63 else 0) + field * 2 ^ 52 + fraction := by
  show (UInt64.ofNat _).toNat = _
  rw [UInt64.toNat_ofNat', powerOfTwo_eq, powerOfTwo_eq, Nat.mod_eq_of_lt]
  split <;> omega

theorem view_ofFields (negative : Bool) {field fraction : Nat} (hf : field < 2047)
    (hr : fraction < 2 ^ 52) : (ofFields negative field fraction).view =
      if field = 0 then .finite negative fraction (-1074)
      else .finite negative (2 ^ 52 + fraction) ((field : Int) - 1075) := by
  have hb := toNat_ofFields negative (by omega : field < 2 ^ 11) hr
  have hn : (ofFields negative field fraction).isNegative = negative := by
    rw [isNegative_eq, hb]
    cases negative <;> simp <;> omega
  have h1 : (ofFields negative field fraction).bits.toNat % 2 ^ 52 = fraction := by
    rw [hb]; split <;> omega
  have h2 : (ofFields negative field fraction).bits.toNat / 2 ^ 52 % 2 ^ 11 = field := by
    rw [hb]; split <;> omega
  rw [view_eq, h1, h2, hn, if_neg (by omega)]

theorem view_pack (negative : Bool) {m : Nat} {e : Int} (h : Canonical m e) (he : e ≤ 971) :
    (pack negative m e).view = .finite negative m e := by
  obtain ⟨hd, hl, hf⟩ := h
  unfold pack
  split_ifs with hm
  · rw [view_ofFields negative (by omega) hm, if_pos rfl, hf.resolve_left (by omega)]
  · have hm' : 2 ^ 52 + (m - 2 ^ 52) = m := by omega
    have he' : ((e + 1075).toNat : Int) - 1075 = e := by omega
    rw [view_ofFields negative (by omega) (by omega), if_neg (by omega), hm', he']

/-! ### Views are canonical -/

theorem orderKey_eq (x : Binary64) : x.orderKey =
    if 2 ^ 63 ≤ x.bits.toNat then -((x.bits.toNat - 2 ^ 63 : Nat) : Int) else x.bits.toNat := by
  unfold orderKey
  rw [isNegative_eq]
  simp only [decide_eq_true_eq]
  rfl

/-- A finite number is told apart by its sign and by how many numbers lie below its magnitude. -/
theorem canonical_of_view {x : Binary64} {negative : Bool} {m : Nat} {e : Int}
    (h : x.view = .finite negative m e) : Canonical m e ∧ e ≤ 971 ∧
      x.orderKey = (if negative then -1 else 1) * ((e + 1074) * 2 ^ 52 + m) := by
  have hb : x.bits.toNat < 2 ^ 64 := x.bits.toNat_lt
  rw [view_eq, isNegative_eq] at h
  split_ifs at h with h1 h2 h3 <;> cases h <;> rw [orderKey_eq] <;> simp only [decide_eq_true_eq]
  · refine ⟨⟨by omega, by omega, .inr rfl⟩, by omega, ?_⟩
    split_ifs <;> omega
  · refine ⟨⟨by omega, by omega, .inl (by omega)⟩, by omega, ?_⟩
    split_ifs <;> omega

/-! ### Fractions that are numbers -/

theorem scaleDown_eq (num : Nat) {den : Nat} (hd : 0 < den) (e : Int) :
    0 < (scaleDown num den e).2 ∧
      ((scaleDown num den e).1 : ℚ) / (scaleDown num den e).2 = num / den / 2 ^ e := by
  have hd' : (den : ℚ) ≠ 0 := by exact_mod_cast hd.ne'
  unfold scaleDown
  split_ifs with he
  · obtain ⟨k, rfl⟩ := Int.eq_ofNat_of_zero_le he
    refine ⟨Nat.mul_pos hd (powerOfTwo_pos _), ?_⟩
    simp only [Int.toNat_natCast, powerOfTwo_eq, Nat.cast_mul, Nat.cast_pow, Nat.cast_ofNat,
      zpow_natCast]
    field_simp
  · obtain ⟨k, hk⟩ := Int.eq_ofNat_of_zero_le (show 0 ≤ -e by omega)
    obtain rfl : e = -k := by omega
    refine ⟨hd, ?_⟩
    simp only [neg_neg, Int.toNat_natCast, powerOfTwo_eq, Nat.cast_mul, Nat.cast_pow,
      Nat.cast_ofNat, zpow_neg, zpow_natCast]
    field_simp

/-- The exponent puts a fraction between the 53rd and the 54th power of two, if it may. -/
theorem exponentFor_eq {num den : Nat} (hn : 0 < num) (hd : 0 < den) :
    ∃ e : Int, exponentFor num den = max e (-1074) ∧
      (2 : ℚ) ^ (e + 52) ≤ num / den ∧ (num / den : ℚ) < 2 ^ (e + 53) := by
  have hd' : (0 : ℚ) < den := by exact_mod_cast hd
  have hn1 : (2 : ℚ) ^ (num.log2 : Int) ≤ num := by
    rw [zpow_natCast]; exact_mod_cast Nat.log2_self_le hn.ne'
  have hn2 : (num : ℚ) < 2 ^ (num.log2 + 1 : Int) := by
    exact_mod_cast (Nat.lt_log2_self (n := num))
  have hd1 : (2 : ℚ) ^ (den.log2 : Int) ≤ den := by
    rw [zpow_natCast]; exact_mod_cast Nat.log2_self_le hd.ne'
  have hd2 : (den : ℚ) < 2 ^ (den.log2 + 1 : Int) := by
    exact_mod_cast (Nat.lt_log2_self (n := den))
  set e : Int := (num.log2 : Int) - den.log2 - 53 with he
  have hlow : (2 : ℚ) ^ (e + 52) ≤ num / den := by
    rw [le_div_iff₀ hd']
    calc (2 : ℚ) ^ (e + 52) * den ≤ 2 ^ (e + 52) * 2 ^ (den.log2 + 1 : Int) := by gcongr
      _ = 2 ^ (num.log2 : Int) := by rw [← zpow_add₀ two_ne_zero]; congr 1; omega
      _ ≤ num := hn1
  have hhigh : (num / den : ℚ) < 2 ^ (e + 54) := by
    rw [div_lt_iff₀ hd']
    calc (num : ℚ) < 2 ^ (num.log2 + 1 : Int) := hn2
      _ = 2 ^ (e + 54) * 2 ^ (den.log2 : Int) := by rw [← zpow_add₀ two_ne_zero]; congr 1; omega
      _ ≤ 2 ^ (e + 54) * den := by gcongr
  obtain ⟨hpos, heq⟩ := scaleDown_eq num hd e
  have hfloor : (scaleDown num den e).1 / (scaleDown num den e).2 < 2 ^ 53 ↔
      (num / den : ℚ) < 2 ^ (e + 53) := by
    rw [Nat.div_lt_iff_lt_mul hpos, ← Nat.cast_lt (α := ℚ), Nat.cast_mul, ← div_lt_iff₀
      (by exact_mod_cast hpos), heq, div_lt_iff₀ (by positivity), zpow_add₀ two_ne_zero, mul_comm]
    norm_num
  have hdef : exponentFor num den =
      max (if (scaleDown num den e).1 / (scaleDown num den e).2 < powerOfTwo 53 then e else e + 1)
        (-1074) := rfl
  rw [hdef, powerOfTwo_eq]
  split_ifs with h
  · exact ⟨e, rfl, hlow, hfloor.mp h⟩
  · refine ⟨e + 1, rfl, ?_, ?_⟩
    · rw [show e + 1 + 52 = e + 53 by omega]
      exact not_lt.mp fun hlt => h (hfloor.mpr hlt)
    · rwa [show e + 1 + 53 = e + 54 by omega]

theorem exponentFor_of_canonical {num den m : Nat} {e : Int} (hn : 0 < num) (hd : 0 < den)
    (h : Canonical m e) (hv : (num / den : ℚ) = m * 2 ^ e) : exponentFor num den = e := by
  obtain ⟨e', he', hlow, hhigh⟩ := exponentFor_eq hn hd
  rw [he']
  have hm : (m : ℚ) < 2 ^ (53 : Int) := by exact_mod_cast h.digits
  have h1 : (2 : ℚ) ^ (e' + 52) < 2 ^ (e + 53) := by
    calc (2 : ℚ) ^ (e' + 52) ≤ m * 2 ^ e := hlow.trans_eq hv
      _ < 2 ^ (53 : Int) * 2 ^ e := by gcongr
      _ = 2 ^ (e + 53) := by rw [← zpow_add₀ two_ne_zero, add_comm]
  have hle : e' ≤ e := by
    have := (zpow_lt_zpow_iff_right₀ one_lt_two).mp h1
    omega
  have hl := h.least
  rcases h.full with hf | hf
  · have h2 : (2 : ℚ) ^ (e + 52) < 2 ^ (e' + 53) := by
      calc (2 : ℚ) ^ (e + 52) = 2 ^ (52 : Int) * 2 ^ e := by rw [← zpow_add₀ two_ne_zero, add_comm]
        _ ≤ m * 2 ^ e := by gcongr; exact_mod_cast hf
        _ < 2 ^ (e' + 53) := hv.symm.trans_lt hhigh
    have := (zpow_lt_zpow_iff_right₀ one_lt_two).mp h2
    omega
  · omega

theorem divHalfEven_mul (m : Nat) {d : Nat} (hd : 0 < d) : divHalfEven (m * d) d = m := by
  simp only [divHalfEven, Nat.mul_mod_left, Nat.mul_div_cancel m hd, Nat.mul_zero, hd, if_true]

/-- A fraction that is a number is that number, unless it is too large. -/
theorem ofRatio_of_canonical (negative : Bool) {num den m : Nat} {e : Int} (hd : 0 < den)
    (h : Canonical m e) (hv : (num / den : ℚ) = m * 2 ^ e) :
    ofRatio negative num den = if 971 < e then infinity negative else pack negative m e := by
  by_cases hn : num = 0
  · subst hn
    have hm : m = 0 := by
      have : (m : ℚ) * 2 ^ e = 0 := by rw [← hv]; simp
      simpa [(two_ne_zero : (2 : ℚ) ≠ 0), zpow_ne_zero] using this
    subst hm
    have he : e = -1074 := h.full.resolve_left (by omega)
    rw [ofRatio, if_pos rfl, if_neg (by omega), pack, if_pos (by omega), zero]
  · have he := exponentFor_of_canonical (Nat.pos_of_ne_zero hn) hd h hv
    obtain ⟨hpos, heq⟩ := scaleDown_eq num hd e
    have hq : divHalfEven (scaleDown num den e).1 (scaleDown num den e).2 = m := by
      have hmul : (scaleDown num den e).1 = m * (scaleDown num den e).2 := by
        rw [hv, mul_div_cancel_right₀ _ (zpow_ne_zero _ two_ne_zero),
          div_eq_iff (by exact_mod_cast hpos.ne')] at heq
        exact_mod_cast heq
      rw [hmul, divHalfEven_mul m hpos]
    have hlt := h.digits
    rw [ofRatio, if_neg hn]
    simp only [he, hq, powerOfTwo_eq, if_neg hlt.ne, pack]

/-! ### Doubling -/

theorem Canonical.double {m : Nat} {e : Int} (h : Canonical m e) :
    ∃ n f, Canonical n f ∧ (m * 2 ^ e * 2 : ℚ) = n * 2 ^ f := by
  obtain ⟨hd, hl, hf⟩ := h
  by_cases hm : 2 ^ 52 ≤ m
  · refine ⟨m, e + 1, ⟨hd, by omega, .inl hm⟩, ?_⟩
    rw [zpow_add_one₀ two_ne_zero, mul_assoc]
  · refine ⟨m * 2, e, ⟨by omega, hl, .inr (hf.resolve_left hm)⟩, ?_⟩
    rw [Nat.cast_mul, Nat.cast_ofNat, mul_right_comm]

theorem Canonical.mul_two_pow {m : Nat} {e : Int} (h : Canonical m e) (k : Nat) :
    ∃ n f, Canonical n f ∧ (m * 2 ^ e * 2 ^ k : ℚ) = n * 2 ^ f := by
  induction k with
  | zero => exact ⟨m, e, h, by rw [pow_zero, mul_one]⟩
  | succ k ih =>
    obtain ⟨n, f, hn, heq⟩ := ih
    obtain ⟨n', f', hn', heq'⟩ := hn.double
    exact ⟨n', f', hn', by rw [pow_succ, ← mul_assoc, heq, heq']⟩

theorem view_infinity (negative : Bool) : (infinity negative).view = .infinite negative := by
  have hb : (infinity negative).bits.toNat = (if negative then 2 ^ 63 else 0) + 2047 * 2 ^ 52 + 0 :=
    toNat_ofFields negative (by omega) (by omega)
  have hn : (infinity negative).isNegative = negative := by
    rw [isNegative_eq, hb]
    cases negative <;> simp
  have h1 : (infinity negative).bits.toNat % 2 ^ 52 = 0 := by
    rw [hb]; split <;> omega
  have h2 : (infinity negative).bits.toNat / 2 ^ 52 % 2 ^ 11 = 2047 := by
    rw [hb]; split <;> omega
  rw [view_eq, h1, h2, hn, if_pos rfl, if_pos rfl]

/-- The rounding of a natural times a power of two. -/
theorem view_ofRatio_scaleDown (negative : Bool) {num n : Nat} {c f : Int} (hn : Canonical n f)
    (h : (num * 2 ^ c : ℚ) = n * 2 ^ f) :
    (ofRatio negative (scaleDown num 1 (-c)).1 (scaleDown num 1 (-c)).2).view =
      if 971 < f then .infinite negative else .finite negative n f := by
  obtain ⟨hpos, hs⟩ := scaleDown_eq num one_pos (-c)
  rw [Nat.cast_one, div_one, zpow_neg, div_inv_eq_mul, h] at hs
  rw [ofRatio_of_canonical negative hpos hn hs]
  split_ifs with hf
  · exact view_infinity negative
  · exact view_pack negative hn (by omega)

theorem view_twoPow {k : Nat} (hk : k < 1024) :
    (twoPow k).view = .finite false (2 ^ 52) (k - 52) := by
  have hc : Canonical (2 ^ 52) ((k : Int) - 52) := ⟨by omega, by omega, .inl le_rfl⟩
  have hv : ((1 : Nat) * 2 ^ (k : Int) : ℚ) = (2 ^ 52 : Nat) * 2 ^ ((k : Int) - 52) := by
    rw [zpow_sub₀ two_ne_zero]
    push_cast
    ring
  unfold twoPow
  rw [if_neg (by omega), if_neg (by omega)]
  exact (view_ofRatio_scaleDown false hc hv).trans (if_neg (by omega))

theorem view_mul_twoPow {x : Binary64} {negative : Bool} {m : Nat} {e : Int}
    (hx : x.view = .finite negative m e) {k : Nat} (hk : k < 1024) :
    ∃ n f, Canonical n f ∧ (m * 2 ^ e * 2 ^ k : ℚ) = n * 2 ^ f ∧
      (x.mul (twoPow k)).view = if 971 < f then .infinite negative else .finite negative n f := by
  obtain ⟨n, f, hn, heq⟩ := (canonical_of_view hx).1.mul_two_pow k
  refine ⟨n, f, hn, heq, ?_⟩
  have hv : ((m * 2 ^ 52 : Nat) * 2 ^ (e + ((k : Int) - 52)) : ℚ) = n * 2 ^ f := by
    rw [← heq, zpow_add₀ two_ne_zero, zpow_sub₀ two_ne_zero, zpow_natCast]
    push_cast
    ring
  unfold mul
  rw [hx, view_twoPow hk]
  simp only [Bool.bne_false]
  exact view_ofRatio_scaleDown negative hn hv

/-! ### Order -/

/-- The magnitude of a number grows with the count of the numbers below it. -/
theorem Canonical.lt_of_key_lt {m n : Nat} {e f : Int} (hm : Canonical m e) (hn : Canonical n f)
    (h : (e + 1074) * 2 ^ 52 + m < (f + 1074) * 2 ^ 52 + n) : (m * 2 ^ e : ℚ) < n * 2 ^ f := by
  obtain ⟨hmd, hml, hmf⟩ := hm
  obtain ⟨hnd, hnl, hnf⟩ := hn
  rcases lt_trichotomy e f with hlt | rfl | hgt
  · have hn52 : 2 ^ 52 ≤ n := hnf.resolve_right (by omega)
    calc (m * 2 ^ e : ℚ) < 2 ^ 53 * 2 ^ e := by gcongr; exact_mod_cast hmd
      _ = 2 ^ 52 * 2 ^ (e + 1) := by rw [zpow_add_one₀ two_ne_zero]; ring
      _ ≤ n * 2 ^ f := by
        gcongr
        · exact_mod_cast hn52
        · exact one_le_two
        · omega
  · have hmn : m < n := by omega
    gcongr
  · have hm52 : 2 ^ 52 ≤ m := hmf.resolve_right (by omega)
    omega

theorem Canonical.eq_of_key_eq {m n : Nat} {e f : Int} (hm : Canonical m e) (hn : Canonical n f)
    (h : (e + 1074) * 2 ^ 52 + m = (f + 1074) * 2 ^ 52 + n) : m = n ∧ e = f := by
  obtain ⟨hmd, hml, hmf⟩ := hm
  obtain ⟨hnd, hnl, hnf⟩ := hn
  omega

theorem Canonical.key_lt_iff {m n : Nat} {e f : Int} (hm : Canonical m e) (hn : Canonical n f) :
    (e + 1074) * 2 ^ 52 + m < (f + 1074) * 2 ^ 52 + n ↔ (m * 2 ^ e : ℚ) < n * 2 ^ f := by
  refine ⟨hm.lt_of_key_lt hn, fun h => ?_⟩
  rcases lt_trichotomy ((e + 1074) * 2 ^ 52 + m) ((f + 1074) * 2 ^ 52 + n) with hlt | heq | hgt
  · exact hlt
  · obtain ⟨rfl, rfl⟩ := hm.eq_of_key_eq hn heq
    exact absurd h (lt_irrefl _)
  · exact absurd h (hn.lt_of_key_lt hm hgt).not_gt

theorem Canonical.zero : Canonical 0 (-1074) := ⟨by omega, by omega, .inr rfl⟩

theorem Canonical.key_pos_iff {m : Nat} {e : Int} (h : Canonical m e) :
    0 < (e + 1074) * 2 ^ 52 + m ↔ (0 : ℚ) < m * 2 ^ e := by
  simpa using Canonical.zero.key_lt_iff h

theorem exists_view {x : Binary64} (hx : x.isFinite) :
    ∃ negative m e, x.view = .finite negative m e := by
  unfold isFinite at hx
  split at hx
  · exact ⟨_, _, _, by assumption⟩
  · cases hx

theorem value_eq {x : Binary64} {negative : Bool} {m : Nat} {e : Int}
    (hx : x.view = .finite negative m e) :
    x.value = (if negative then -1 else 1) * (m * 2 ^ e) := by
  rw [value, hx, View.value]

theorem signed_lt_iff {i j : Int} {a b : ℚ} (hi : 0 ≤ i) (hj : 0 ≤ j) (ha : 0 ≤ a) (hb : 0 ≤ b)
    (hij : i < j ↔ a < b) (hji : j < i ↔ b < a) (hi0 : 0 < i ↔ 0 < a) (hj0 : 0 < j ↔ 0 < b)
    (s t : Bool) : (if s then -1 else 1) * i < (if t then -1 else 1) * j ↔
      (if s then -1 else 1) * a < (if t then -1 else 1) * b := by
  cases s <;> cases t <;> simp only [Bool.false_eq_true, if_true, if_false, one_mul, neg_one_mul,
    neg_lt_neg_iff]
  · exact hij
  · exact iff_of_false (by omega) (by linarith)
  · have hpos : 0 < a ∨ 0 < b ↔ 0 < i ∨ 0 < j := by rw [hi0, hj0]
    constructor
    · intro h
      rcases hpos.mpr (by omega) with h' | h' <;> linarith
    · intro h
      rcases hpos.mp (by by_contra! hn; linarith [hn.1, hn.2]) with h' | h' <;> omega
  · exact hji

theorem orderKey_lt_iff {x y : Binary64} (hx : x.isFinite) (hy : y.isFinite) :
    x.orderKey < y.orderKey ↔ x.value < y.value := by
  obtain ⟨s, m, e, hxv⟩ := exists_view hx
  obtain ⟨t, n, f, hyv⟩ := exists_view hy
  obtain ⟨hm, -, hxk⟩ := canonical_of_view hxv
  obtain ⟨hn, -, hyk⟩ := canonical_of_view hyv
  rw [hxk, hyk, value_eq hxv, value_eq hyv]
  have hml := hm.least
  have hnl := hn.least
  exact signed_lt_iff (by omega) (by omega) (by positivity) (by positivity) (hm.key_lt_iff hn)
    (hn.key_lt_iff hm) hm.key_pos_iff hn.key_pos_iff s t

theorem isNaN_of_view {x : Binary64} {negative : Bool} {m : Nat} {e : Int}
    (hx : x.view = .finite negative m e) : x.isNaN = false := by
  rw [isNaN, hx]
  rfl

theorem lt_iff_value_lt {x y : Binary64} (hx : x.isFinite) (hy : y.isFinite) :
    x.lt y ↔ x.value < y.value := by
  obtain ⟨s, m, e, hxv⟩ := exists_view hx
  obtain ⟨t, n, f, hyv⟩ := exists_view hy
  rw [← orderKey_lt_iff hx hy, lt, isNaN_of_view hxv, isNaN_of_view hyv]
  simp

/-- Infinity stands where the first power of two that is too large would. -/
theorem Canonical.overflow : Canonical (2 ^ 52) 972 := ⟨by omega, by omega, .inl le_rfl⟩

theorem orderKey_of_view_infinite {x : Binary64} (hx : x.view = .infinite false) :
    x.orderKey = (972 + 1074) * 2 ^ 52 + (2 ^ 52 : Nat) := by
  have hb : x.bits.toNat < 2 ^ 64 := x.bits.toNat_lt
  rw [view_eq, isNegative_eq] at hx
  split_ifs at hx with h1 h2
  have hpos : ¬ 2 ^ 63 ≤ x.bits.toNat := by simpa using hx
  rw [orderKey_eq, if_neg hpos]
  omega

theorem lt_of_view_infinite {x y : Binary64} (hx : x.isFinite) (hy : y.view = .infinite false) :
    x.lt y := by
  obtain ⟨s, m, e, hxv⟩ := exists_view hx
  obtain ⟨hm, he, hxk⟩ := canonical_of_view hxv
  have hkey : x.orderKey < y.orderKey := by
    have hmd := hm.digits
    have hml := hm.least
    rw [hxk, orderKey_of_view_infinite hy]
    split <;> omega
  have hnan : y.isNaN = false := by rw [isNaN, hy]; rfl
  rw [lt, isNaN_of_view hxv, hnan]
  simpa using hkey

theorem value_lt_overflow {x : Binary64} (hx : x.isFinite) :
    x.value < (2 ^ 52 : Nat) * 2 ^ (972 : Int) := by
  obtain ⟨s, m, e, hxv⟩ := exists_view hx
  obtain ⟨hm, he, -⟩ := canonical_of_view hxv
  have hmd := hm.digits
  have hlt := hm.lt_of_key_lt .overflow (by omega)
  have hpos : (0 : ℚ) ≤ m * 2 ^ e := by positivity
  rw [value_eq hxv]
  cases s
  · simpa using hlt
  · simp only [if_true, neg_one_mul]
    linarith

theorem isFinite_of_view {x : Binary64} {negative : Bool} {m : Nat} {e : Int}
    (hx : x.view = .finite negative m e) : x.isFinite := by
  rw [isFinite, hx]

/-- A number that is not negative, times a power of two: the fraction, or infinity if the fraction is
too large. -/
theorem mul_twoPow {x : Binary64} (hx : x.isFinite) (hnonneg : 0 ≤ x.value) {k : Nat}
    (hk : k < 1024) :
    (x.mul (twoPow k)).isFinite ∧ (x.mul (twoPow k)).value = x.value * 2 ^ k ∨
      (x.mul (twoPow k)).view = .infinite false ∧
        ((2 ^ 52 : Nat) * 2 ^ (972 : Int) : ℚ) ≤ x.value * 2 ^ k := by
  obtain ⟨negative, m, e, hv⟩ := exists_view hx
  obtain ⟨n, f, hn, heq, hmul⟩ := view_mul_twoPow hv hk
  have hval : x.value * 2 ^ k = (if negative then -1 else 1) * (n * 2 ^ f) := by
    rw [value_eq hv, ← heq, mul_assoc]
  split_ifs at hmul with hf
  · have hover : ((2 ^ 52 : Nat) * 2 ^ (972 : Int) : ℚ) ≤ n * 2 ^ f := by
      have hfull : 2 ^ 52 ≤ n := hn.full.resolve_right (by omega)
      gcongr
      · exact one_le_two
      · omega
    have hpos : (0 : ℚ) < (2 ^ 52 : Nat) * 2 ^ (972 : Int) := by positivity
    have hsign : 0 ≤ x.value * 2 ^ k := by positivity
    rw [hval] at hsign ⊢
    cases negative
    · exact .inr ⟨hmul, by simpa using hover⟩
    · simp only [if_true, neg_one_mul] at hsign
      linarith
  · exact .inl ⟨isFinite_of_view hmul, by rw [value_eq hmul, hval]⟩

end HttpContract.Binary64
