import HttpContract.Number.Shortest
import HttpContract.Proofs.Number.Binary64

/-!
# Fractions that round to a number

`RoundsTo m e r`: the fraction `r` lies between the midpoints from `m · 2 ^ e` to its two neighbours, and
on one of them only if `m` is even. Rounding such a fraction gives the number (`ofRatio_of_roundsTo`), also
where the fraction is written as a decimal (`ofDecimal_of_roundsTo`).
-/

namespace HttpContract.Binary64

open Number

/-- The midpoint below `m · 2 ^ e`. The neighbour below a power of two is half as far. -/
def lowEnd (m : Nat) (e : Int) : ℚ :=
  (4 * m - (if m = 2 ^ 52 ∧ -1074 < e then 1 else 2)) * 2 ^ (e - 2)

/-- The midpoint above `m · 2 ^ e`. -/
def highEnd (m : Nat) (e : Int) : ℚ := (4 * m + 2) * 2 ^ (e - 2)

/-- A fraction that rounds to `m · 2 ^ e`. -/
structure RoundsTo (m : Nat) (e : Int) (r : ℚ) : Prop where
  low : lowEnd m e ≤ r
  high : r ≤ highEnd m e
  even : m % 2 = 0 ∨ lowEnd m e < r ∧ r < highEnd m e

/-! ### Rounding quotients -/

/-- A quotient is rounded to the natural that it is nearest to, from a midpoint to the even one. -/
theorem divHalfEven_eq {n d m : Nat} (hd : 0 < d) (hlow : 2 * (m * d) ≤ 2 * n + d)
    (hhigh : 2 * n ≤ 2 * (m * d) + d)
    (heven : m % 2 = 0 ∨ 2 * (m * d) < 2 * n + d ∧ 2 * n < 2 * (m * d) + d) : divHalfEven n d = m := by
  have hs : n % d < d := Nat.mod_lt n hd
  have hn : d * (n / d) + n % d = n := Nat.div_add_mod n d
  have hq : n / d = m ∨ n / d + 1 = m := by
    have hle : n / d ≤ m := by
      by_contra hlt
      have := Nat.mul_le_mul_left d (show m + 1 ≤ n / d by omega)
      rw [Nat.mul_add, Nat.mul_comm d m] at this
      omega
    have hge : m ≤ n / d + 1 := by
      by_contra hlt
      have := Nat.mul_le_mul_left d (show n / d + 2 ≤ m by omega)
      rw [Nat.mul_add, Nat.mul_comm d m] at this
      omega
    omega
  simp only [divHalfEven]
  rcases hq with rfl | rfl
  · rw [Nat.mul_comm (n / d) d] at hlow hhigh heven
    split_ifs <;> omega
  · rw [Nat.add_mul, Nat.one_mul, Nat.mul_comm (n / d) d] at hlow hhigh heven
    split_ifs <;> omega

theorem divHalfEven_eq_of_near {n d m : Nat} (hd : 0 < d) (hlow : (m - 1 / 2 : ℚ) ≤ n / d)
    (hhigh : (n / d : ℚ) ≤ m + 1 / 2)
    (heven : m % 2 = 0 ∨ (m - 1 / 2 : ℚ) < n / d ∧ (n / d : ℚ) < m + 1 / 2) :
    divHalfEven n d = m := by
  have hd' : (0 : ℚ) < d := by exact_mod_cast hd
  rw [le_div_iff₀ hd'] at hlow
  rw [div_le_iff₀ hd'] at hhigh
  rw [lt_div_iff₀ hd', div_lt_iff₀ hd'] at heven
  refine divHalfEven_eq hd ?_ ?_ (heven.imp id fun h => ⟨?_, ?_⟩)
  · exact_mod_cast (show (2 * (m * d) : ℚ) ≤ 2 * n + d by linarith)
  · exact_mod_cast (show (2 * n : ℚ) ≤ 2 * (m * d) + d by linarith)
  · exact_mod_cast (show (2 * (m * d) : ℚ) < 2 * n + d by linarith [h.1])
  · exact_mod_cast (show (2 * n : ℚ) < 2 * (m * d) + d by linarith [h.2])

theorem divHalfEven_near (n : Nat) {d : Nat} (hd : 0 < d) :
    (divHalfEven n d - 1 / 2 : ℚ) ≤ n / d ∧ (n / d : ℚ) ≤ divHalfEven n d + 1 / 2 := by
  have hd' : (0 : ℚ) < d := by exact_mod_cast hd
  have hnear : 2 * (divHalfEven n d * d) ≤ 2 * n + d ∧ 2 * n ≤ 2 * (divHalfEven n d * d) + d := by
    have hs : n % d < d := Nat.mod_lt n hd
    have hn : n / d * d + n % d = n := Nat.div_add_mod' n d
    simp only [divHalfEven]
    split_ifs with hdown hup
    · omega
    · rw [Nat.add_mul]
      omega
    · rcases Nat.mod_two_eq_zero_or_one (n / d) with h | h <;> rw [h, Nat.add_mul] <;> omega
  rw [le_div_iff₀ hd', div_le_iff₀ hd']
  have hlow : (2 * (divHalfEven n d * d) : ℚ) ≤ 2 * n + d := by exact_mod_cast hnear.1
  have hhigh : (2 * n : ℚ) ≤ 2 * (divHalfEven n d * d) + d := by exact_mod_cast hnear.2
  constructor <;> linarith

/-! ### Rounding fractions -/

section
variable {m : Nat} {e : Int} {r : ℚ}

theorem zpow_sub_two (e : Int) : (2 : ℚ) ^ (e - 2) = 2 ^ e / 4 := by
  rw [zpow_sub₀ two_ne_zero]
  norm_num

theorem lowEnd_eq (m : Nat) (e : Int) :
    lowEnd m e = (m - (if m = 2 ^ 52 ∧ -1074 < e then 1 / 4 else 1 / 2)) * 2 ^ e := by
  rw [lowEnd, zpow_sub_two]
  split_ifs <;> ring

theorem highEnd_eq (m : Nat) (e : Int) : highEnd m e = (m + 1 / 2) * 2 ^ e := by
  rw [highEnd, zpow_sub_two]
  ring

theorem half_le_lowEnd (m : Nat) (e : Int) : (m - 1 / 2 : ℚ) * 2 ^ e ≤ lowEnd m e := by
  rw [lowEnd_eq]
  gcongr
  split_ifs <;> norm_num

theorem lowEnd_pos (hm : 0 < m) (e : Int) : 0 < lowEnd m e := by
  have hm' : (1 : ℚ) ≤ m := by exact_mod_cast hm
  refine lt_of_lt_of_le (mul_pos ?_ (by positivity)) (half_le_lowEnd m e)
  linarith

theorem Canonical.highEnd_lt (h : Canonical m e) : highEnd m e < 2 ^ (e + 53) := by
  have hm : (m + 1 : ℚ) ≤ 2 ^ 53 := by exact_mod_cast h.digits
  have hpow : (0 : ℚ) < 2 ^ e := by positivity
  rw [highEnd_eq, zpow_add₀ two_ne_zero, mul_comm]
  gcongr
  norm_num
  norm_num at hm
  linarith

/-- A fraction that rounds to a number has the exponent of the number, or it lies so closely below a power
of two that only rounding brings it there. -/
theorem exponentFor_of_roundsTo {num den : Nat} (hnum : 0 < num) (hd : 0 < den) (h : Canonical m e)
    (hr : RoundsTo m e (num / den)) : exponentFor num den = e ∨
      exponentFor num den = e - 1 ∧ m = 2 ^ 52 ∧ -1074 < e ∧ (num / den : ℚ) < 2 ^ (e + 52) := by
  obtain ⟨e', he', hlow, hhigh⟩ := exponentFor_eq hnum hd
  have hle : e' ≤ e := by
    have := (zpow_lt_zpow_iff_right₀ one_lt_two).mp (hlow.trans_lt (hr.high.trans_lt h.highEnd_lt))
    omega
  have hl := h.least
  by_cases hbelow : (2 : ℚ) ^ (e + 52) ≤ num / den
  · have := (zpow_lt_zpow_iff_right₀ one_lt_two).mp (hbelow.trans_lt hhigh)
    exact .inl (by omega)
  · rw [not_le] at hbelow
    rcases h.full with hfull | hleast
    · by_cases hleast : e = -1074
      · exact .inl (by omega)
      · have hpow : (0 : ℚ) < 2 ^ e := by positivity
        have hnext : (m - 1 / 2 : ℚ) * 2 ^ e < 2 ^ 52 * 2 ^ e := by
          refine ((half_le_lowEnd m e).trans hr.low).trans_lt (hbelow.trans_eq ?_)
          rw [zpow_add₀ two_ne_zero, mul_comm]
          rfl
        have hm : m = 2 ^ 52 := by
          have hlt : (m : ℚ) < 2 ^ 52 + 1 := by
            have := lt_of_mul_lt_mul_right hnext hpow.le
            linarith
          have : m < 2 ^ 52 + 1 := by exact_mod_cast hlt
          omega
        have hfrom : (2 : ℚ) ^ (e + 51) < 2 ^ (e' + 53) := by
          refine lt_of_le_of_lt (le_trans ?_ hr.low) hhigh
          rw [lowEnd_eq, if_pos ⟨hm, by omega⟩, hm, zpow_add₀ two_ne_zero, mul_comm]
          gcongr
          norm_num
        have := (zpow_lt_zpow_iff_right₀ one_lt_two).mp hfrom
        have := (zpow_lt_zpow_iff_right₀ one_lt_two).mp (hlow.trans_lt hbelow)
        exact .inr ⟨by omega, hm, by omega, hbelow⟩
    · exact .inl (by omega)

/-- A fraction that rounds to a number is rounded to it. -/
theorem ofRatio_of_roundsTo (negative : Bool) {num den : Nat} (hd : 0 < den) (h : Canonical m e)
    (hm : 0 < m) (he : e ≤ 971) (hr : RoundsTo m e (num / den)) :
    ofRatio negative num den = pack negative m e := by
  have hd' : (0 : ℚ) < den := by exact_mod_cast hd
  have hpos : (0 : ℚ) < num / den := (lowEnd_pos hm e).trans_le hr.low
  have hnum : 0 < num := by
    rw [div_pos_iff_of_pos_right hd'] at hpos
    exact_mod_cast hpos
  have hpow : (0 : ℚ) < 2 ^ e := by positivity
  have hlt := h.digits
  rcases exponentFor_of_roundsTo hnum hd h hr with hexp | ⟨hexp, rfl, hleast, hbelow⟩
  · obtain ⟨hsd, hs⟩ := scaleDown_eq num hd e
    have hq : divHalfEven (scaleDown num den e).1 (scaleDown num den e).2 = m := by
      have hlow : (m - 1 / 2 : ℚ) ≤ num / den / 2 ^ e := by
        rw [le_div_iff₀ hpow]
        exact (half_le_lowEnd m e).trans hr.low
      have hhigh : (num / den / 2 ^ e : ℚ) ≤ m + 1 / 2 := by
        rw [div_le_iff₀ hpow, ← highEnd_eq]
        exact hr.high
      rw [← hs] at hlow hhigh
      refine divHalfEven_eq_of_near hsd hlow hhigh (hr.even.imp id fun ⟨hl, hh⟩ => ?_)
      rw [hs, lt_div_iff₀ hpow, div_lt_iff₀ hpow, ← highEnd_eq]
      exact ⟨(half_le_lowEnd m e).trans_lt hl, hh⟩
    rw [ofRatio, if_neg hnum.ne']
    simp only [hexp, hq, powerOfTwo_eq, if_neg hlt.ne, pack, if_neg (show ¬ 971 < e by omega)]
  · -- Below the power of two the mantissa has one more binary digit, and is rounded up to it.
    obtain ⟨hsd, hs⟩ := scaleDown_eq num hd (e - 1)
    have hprev : (2 : ℚ) ^ (e - 1) = 2 ^ e / 2 := by rw [zpow_sub_one₀ two_ne_zero]; rfl
    have hq : divHalfEven (scaleDown num den (e - 1)).1 (scaleDown num den (e - 1)).2 = 2 ^ 53 := by
      have hlow := hr.low
      rw [lowEnd_eq, if_pos ⟨rfl, hleast⟩] at hlow
      rw [zpow_add₀ two_ne_zero] at hbelow
      norm_num at hlow hbelow
      refine divHalfEven_eq_of_near hsd ?_ ?_ (.inl (by decide))
      · rw [hs, hprev, le_div_iff₀ (by positivity)]
        norm_num
        linarith
      · rw [hs, hprev, div_le_iff₀ (by positivity)]
        norm_num
        linarith
    rw [ofRatio, if_neg hnum.ne']
    simp only [hexp, hq, powerOfTwo_eq, if_true, pack, Int.sub_add_cancel,
      if_neg (show ¬ 971 < e by omega), if_neg (Nat.lt_irrefl _)]

/-! ### Rounding decimals -/

theorem lt_pow_length_toDigits (n : Nat) : n < 10 ^ (Nat.toDigits 10 n).length :=
  (Nat.length_toDigits_le_iff (by decide) Nat.length_toDigits_pos).mp le_rfl

theorem pow_length_toDigits_le {n : Nat} (hn : 0 < n) :
    10 ^ ((Nat.toDigits 10 n).length - 1) ≤ n := by
  by_contra hlt
  rw [not_le] at hlt
  have hpos := Nat.length_toDigits_pos (b := 10) (n := n)
  by_cases hone : (Nat.toDigits 10 n).length = 1
  · rw [hone, Nat.sub_self, Nat.pow_zero] at hlt
    omega
  · have := (Nat.length_toDigits_le_iff (by decide) (by omega)).mpr hlt
    omega

theorem two_pow_lt_ten_pow : 2 ^ 1024 < 10 ^ 309 ∧ 2 ^ 1075 < 10 ^ 324 := by decide +kernel

/-- The sizes of decimals that round to a number, far from where decimals are taken to be infinite or
zero without being looked at. -/
theorem size_of_roundsTo {digits : Nat} {k : Int} (h : Canonical m e) (hm : 0 < m) (he : e ≤ 971)
    (hr : RoundsTo m e (digits * 10 ^ k)) : 0 < digits ∧
      -324 < (Nat.toDigits 10 digits).length + k ∧ (Nat.toDigits 10 digits).length + k ≤ 309 := by
  have hpow : (0 : ℚ) < 10 ^ k := by positivity
  have hdigits : 0 < digits := by
    have := (lowEnd_pos hm e).trans_le hr.low
    rw [mul_pos_iff_of_pos_right hpow] at this
    exact_mod_cast this
  refine ⟨hdigits, ?_, ?_⟩
  · refine (zpow_lt_zpow_iff_right₀ (by norm_num : (1 : ℚ) < 10)).mp ?_
    -- half of the least number is still more than this power of ten
    have hhalf : (2 : ℚ) ^ (-1 : Int) ≤ m - 1 / 2 := by
      have hm' : (1 : ℚ) ≤ m := by exact_mod_cast hm
      norm_num
      linarith
    calc (10 : ℚ) ^ (-324 : Int) < 2 ^ (-1075 : Int) := by
          rw [zpow_neg, zpow_neg, inv_lt_inv₀ (by positivity) (by positivity)]
          exact_mod_cast two_pow_lt_ten_pow.2
      _ = 2 ^ (-1 + -1074 : Int) := by rw [show (-1 + -1074 : Int) = -1075 by decide]
      _ = 2 ^ (-1 : Int) * 2 ^ (-1074 : Int) := zpow_add₀ two_ne_zero _ _
      _ ≤ (m - 1 / 2) * 2 ^ e := by
        gcongr
        · exact one_le_two
        · exact h.least
      _ ≤ digits * 10 ^ k := (half_le_lowEnd m e).trans hr.low
      _ ≤ 10 ^ ((Nat.toDigits 10 digits).length : Int) * 10 ^ k := by
        gcongr
        exact_mod_cast (lt_pow_length_toDigits digits).le
      _ = 10 ^ ((Nat.toDigits 10 digits).length + k) := (zpow_add₀ (by norm_num) _ _).symm
  · have hlength := Nat.length_toDigits_pos (b := 10) (n := digits)
    -- the leading digit stands for no more than the number, which is below the first one too large
    have hlt : (Nat.toDigits 10 digits).length - 1 + k < 309 := by
      refine (zpow_lt_zpow_iff_right₀ (by norm_num : (1 : ℚ) < 10)).mp ?_
      calc (10 : ℚ) ^ ((Nat.toDigits 10 digits).length - 1 + k) =
          10 ^ ((Nat.toDigits 10 digits).length - 1 : Int) * 10 ^ k := zpow_add₀ (by norm_num) _ _
        _ ≤ digits * 10 ^ k := by
          gcongr
          rw [← Int.natCast_pred_of_pos hlength, zpow_natCast]
          exact_mod_cast pow_length_toDigits_le hdigits
        _ ≤ highEnd m e := hr.high
        _ < 2 ^ (e + 53) := h.highEnd_lt
        _ ≤ 2 ^ (1024 : Int) := by
          gcongr
          · exact one_le_two
          · omega
        _ < 10 ^ (309 : Int) := by exact_mod_cast two_pow_lt_ten_pow.1
    omega

theorem ofDecimal_of_roundsTo (negative : Bool) {digits : Nat} {k : Int} (h : Canonical m e)
    (hm : 0 < m) (he : e ≤ 971) (hr : RoundsTo m e (digits * 10 ^ k)) :
    ofDecimal negative digits k = pack negative m e := by
  obtain ⟨hdigits, hleast, hmost⟩ := size_of_roundsTo h hm he hr
  simp only [ofDecimal]
  rw [if_neg hdigits.ne', if_neg (by omega), if_neg (by omega)]
  split_ifs with hk
  · obtain ⟨n, rfl⟩ := Int.eq_ofNat_of_zero_le hk
    refine ofRatio_of_roundsTo negative one_pos h hm he ?_
    rw [zpow_natCast] at hr
    rw [Int.toNat_natCast, Nat.cast_one, div_one, Nat.cast_mul]
    exact_mod_cast hr
  · obtain ⟨n, hn⟩ := Int.eq_ofNat_of_zero_le (show 0 ≤ -k by omega)
    obtain rfl : k = -n := by omega
    refine ofRatio_of_roundsTo negative (Nat.pow_pos (by decide)) h hm he ?_
    rw [zpow_neg, zpow_natCast, ← div_eq_mul_inv] at hr
    rw [Int.neg_neg, Int.toNat_natCast]
    exact_mod_cast hr

end

end HttpContract.Binary64
