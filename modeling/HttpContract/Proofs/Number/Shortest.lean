import HttpContract.Proofs.Number.Rounding

/-!
# Shortest digits round back

The shortest digits of a number are a decimal that rounds to it (`shortest_spec`): whatever the search
gives lies in the interval of the number, and on the finest grid that is searched the decimal nearest to
the number always does.
-/

namespace HttpContract.Binary64

open Number

section
variable {m : Nat} {e : Int}

/-! ### The interval of a number -/

namespace Interval

theorem den_around_pos (m : Nat) (e : Int) : 0 < (around m e).den := by
  simp only [around]
  split_ifs
  · exact one_pos
  · exact powerOfTwo_pos _

theorem scaled_div_den (n m : Nat) (e : Int) :
    ((if 0 ≤ e - 2 then n * powerOfTwo (e - 2).toNat else n : Nat) : ℚ) / (around m e).den =
      n * 2 ^ (e - 2) := by
  simp only [around]
  split_ifs with he
  · obtain ⟨k, hk⟩ := Int.eq_ofNat_of_zero_le he
    rw [hk, Int.toNat_natCast, powerOfTwo_eq, Nat.cast_one, div_one, Nat.cast_mul, zpow_natCast]
    norm_cast
  · obtain ⟨k, hk⟩ := Int.eq_ofNat_of_zero_le (show 0 ≤ 2 - e by omega)
    rw [hk, show e - 2 = -k by omega, Int.toNat_natCast, powerOfTwo_eq, zpow_neg, zpow_natCast,
      ← div_eq_mul_inv]
    norm_cast

theorem low_div_den (hm : 0 < m) : ((around m e).low : ℚ) / (around m e).den = lowEnd m e := by
  refine (scaled_div_den _ m e).trans ?_
  rw [lowEnd, powerOfTwo_eq]
  congr 1
  split_ifs <;> push_cast [show 1 ≤ 4 * m by omega, show 2 ≤ 4 * m by omega] <;> rfl

theorem value_div_den : ((around m e).value : ℚ) / (around m e).den = m * 2 ^ e := by
  refine (scaled_div_den _ m e).trans ?_
  rw [zpow_sub_two]
  push_cast
  ring

theorem high_div_den : ((around m e).high : ℚ) / (around m e).den = highEnd m e := by
  refine (scaled_div_den _ m e).trans ?_
  rw [highEnd]
  push_cast
  rfl

/-- A decimal lies in the interval of a number exactly if it rounds to the number. -/
theorem contains_iff (hm : 0 < m) (digits : Nat) (k : Int) :
    (around m e).contains digits k = true ↔ RoundsTo m e (digits * 10 ^ k) := by
  set i := around m e with hi
  have hden : (0 : ℚ) < i.den := by exact_mod_cast den_around_pos m e
  have hscaled : ∃ n scale : Nat, 0 < scale ∧ (n : ℚ) = digits * 10 ^ k * i.den * scale ∧
      i.contains digits k = if i.closed then decide (i.low * scale ≤ n) && decide (n ≤ i.high * scale)
        else decide (i.low * scale < n) && decide (n < i.high * scale) := by
    refine ⟨if 0 ≤ k then digits * powerOfTen k.toNat * i.den else digits * i.den,
      if 0 ≤ k then 1 else powerOfTen (-k).toNat, ?_, ?_, rfl⟩
    · split_ifs
      · exact one_pos
      · exact Nat.pow_pos (by decide)
    · split_ifs with hk
      · obtain ⟨n, rfl⟩ := Int.eq_ofNat_of_zero_le hk
        simp [powerOfTen]
      · obtain ⟨n, hn⟩ := Int.eq_ofNat_of_zero_le (show 0 ≤ -k by omega)
        obtain rfl : k = -n := by omega
        rw [Int.neg_neg, Int.toNat_natCast, zpow_neg, zpow_natCast]
        simp only [powerOfTen, Nat.pow_eq, Nat.cast_mul, Nat.cast_pow, Nat.cast_ofNat]
        field_simp
  obtain ⟨n, scale, hscale, hn, hcontains⟩ := hscaled
  have hscale' : (0 : ℚ) < scale := by exact_mod_cast hscale
  have hle : ∀ a : Nat, (a * scale ≤ n ↔ (a / i.den : ℚ) ≤ digits * 10 ^ k) ∧
      (n ≤ a * scale ↔ (digits * 10 ^ k : ℚ) ≤ a / i.den) := by
    intro a
    rw [div_le_iff₀ hden, le_div_iff₀ hden, ← mul_le_mul_iff_left₀ hscale' (b := (a : ℚ)), ← hn,
      ← mul_le_mul_iff_left₀ hscale' (c := (a : ℚ)), ← hn]
    exact ⟨by exact_mod_cast Iff.rfl, by exact_mod_cast Iff.rfl⟩
  have hlow := hle i.low
  have hhigh := hle i.high
  rw [low_div_den hm] at hlow
  rw [high_div_den] at hhigh
  have hclosed : i.closed = decide (m % 2 = 0) := rfl
  rw [hcontains, hclosed]
  by_cases heven : m % 2 = 0
  · rw [decide_eq_true heven, if_pos rfl, Bool.and_eq_true, decide_eq_true_eq, decide_eq_true_eq,
      hlow.1, hhigh.2]
    exact ⟨fun ⟨hl, hh⟩ => ⟨hl, hh, .inl heven⟩, fun h => ⟨h.low, h.high⟩⟩
  · rw [decide_eq_false heven, if_neg Bool.false_ne_true, Bool.and_eq_true, decide_eq_true_eq,
      decide_eq_true_eq, ← not_le, ← not_le, hlow.2, hhigh.1, not_le, not_le]
    exact ⟨fun h => ⟨h.1.le, h.2.le, .inr h⟩, fun h => h.even.resolve_left heven⟩

/-! ### Grids -/

variable {i : Interval} {k : Int} {s : Scaled}

theorem nearestOnGrid?_spec (h : i.nearestOnGrid? k = some s) :
    0 < s.digits ∧ i.contains s.digits s.exponent = true := by
  unfold nearestOnGrid? at h
  extract_lets num den down near far at h
  split_ifs at h with hnear hfar <;> cases h
  · exact hnear
  · exact hfar

theorem gridFraction_eq (value den : Nat) (k : Int) :
    ((if 0 ≤ k then value else value * powerOfTen (-k).toNat : Nat) : ℚ) /
      (if 0 ≤ k then den * powerOfTen k.toNat else den : Nat) = value / den / 10 ^ k := by
  split_ifs with hk
  · obtain ⟨n, rfl⟩ := Int.eq_ofNat_of_zero_le hk
    rw [Int.toNat_natCast, zpow_natCast, powerOfTen, div_div]
    norm_cast
  · obtain ⟨n, hn⟩ := Int.eq_ofNat_of_zero_le (show 0 ≤ -k by omega)
    obtain rfl : k = -n := by omega
    rw [Int.neg_neg, Int.toNat_natCast, zpow_neg, zpow_natCast, powerOfTen, div_inv_eq_mul,
      Nat.cast_mul, mul_div_right_comm]
    norm_cast

/-- On a grid of one part in `10 ^ 16` of the number, the point nearest to it rounds to it. -/
theorem nearestOnGrid?_isSome (h : Canonical m e) (hm : 0 < m)
    (hk : (10 : ℚ) ^ 16 * 10 ^ k ≤ m * 2 ^ e) : ((around m e).nearestOnGrid? k).isSome := by
  set num := if 0 ≤ k then (around m e).value else (around m e).value * powerOfTen (-k).toNat with hnum
  set den := if 0 ≤ k then (around m e).den * powerOfTen k.toNat else (around m e).den with hden
  have hpow : (0 : ℚ) < 10 ^ k := by positivity
  have hpow2 : (0 : ℚ) < 2 ^ e := by positivity
  have hfraction : (num / den : ℚ) = m * 2 ^ e / 10 ^ k := by
    rw [hnum, hden, gridFraction_eq, value_div_den]
  have hdpos : 0 < den := by
    have := den_around_pos m e
    have hten : 0 < powerOfTen k.toNat := Nat.pow_pos (by decide)
    rw [hden]
    split_ifs <;> positivity
  obtain ⟨hlow, hhigh⟩ := divHalfEven_near num hdpos
  rw [hfraction] at hlow hhigh
  rw [le_div_iff₀ hpow] at hlow
  rw [div_le_iff₀ hpow] at hhigh
  set near := divHalfEven num den with hnear
  -- Half a step of the grid is less than the way to the nearer end of the interval.
  have hstep : (10 : ℚ) ^ k / 2 < (if m = 2 ^ 52 ∧ -1074 < e then 1 / 4 else 1 / 2) * 2 ^ e := by
    split_ifs with hnarrow
    · rw [hnarrow.1] at hk
      norm_num at hk ⊢
      linarith
    · have hdigits : (m : ℚ) ≤ 2 ^ 53 := by exact_mod_cast h.digits.le
      have := hk.trans (mul_le_mul_of_nonneg_right hdigits hpow2.le)
      norm_num at this
      linarith
  have hhalf : (if m = 2 ^ 52 ∧ -1074 < e then 1 / 4 else 1 / 2 : ℚ) * 2 ^ e ≤ 1 / 2 * 2 ^ e := by
    gcongr
    split_ifs <;> norm_num
  have hround : RoundsTo m e (near * 10 ^ k) := by
    have hl : lowEnd m e < near * 10 ^ k := by
      rw [lowEnd_eq]
      linarith
    have hh : near * 10 ^ k < highEnd m e := by
      rw [highEnd_eq]
      linarith
    exact ⟨hl.le, hh.le, .inr ⟨hl, hh⟩⟩
  have hpos : 0 < near := by
    have := (lowEnd_pos hm e).trans_le hround.low
    rw [mul_pos_iff_of_pos_right hpow] at this
    exact_mod_cast this
  have hsome : (around m e).nearestOnGrid? k = some ⟨near, k⟩ :=
    if_pos ⟨hpos, (contains_iff hm near k).mpr hround⟩
  rw [hsome]
  rfl

end Interval

/-! ### The search -/

theorem digitCount_pow_le {n : Nat} (hn : 0 < n) : 10 ^ (digitCount n - 1) ≤ n := by
  rw [digitCount, if_neg hn.ne']
  exact pow_length_toDigits_le hn

theorem lt_pow_digitCount {n : Nat} (hn : 0 < n) : n < 10 ^ digitCount n := by
  rw [digitCount, if_neg hn.ne']
  exact lt_pow_length_toDigits n

theorem digitCount_pos {n : Nat} (hn : 0 < n) : 0 < digitCount n := by
  rw [digitCount, if_neg hn.ne']
  exact Nat.length_toDigits_pos

theorem leadingExponent_le {num den : Nat} (hn : 0 < num) (hd : 0 < den) :
    (10 : ℚ) ^ leadingExponent num den ≤ num / den := by
  have hd' : (0 : ℚ) < den := by exact_mod_cast hd
  have hn' : (0 : ℚ) < num := by exact_mod_cast hn
  unfold leadingExponent
  split_ifs with hle
  · have hq : 0 < num / den := Nat.div_pos hle hd
    rw [← Int.natCast_pred_of_pos (digitCount_pos hq), zpow_natCast, le_div_iff₀ hd']
    have := Nat.mul_le_mul_right den (digitCount_pow_le hq)
    exact_mod_cast this.trans (Nat.div_mul_le_self num den)
  · -- The quotient the other way round, rounded up, is above one.
    set c := (den + num - 1) / num with hc
    have hup : den ≤ c * num := by
      have := Nat.lt_mul_div_succ (den + num - 1) hn
      rw [← hc, Nat.mul_comm, Nat.add_mul, Nat.one_mul] at this
      omega
    have hc1 : 0 < c - 1 := by
      by_contra h0
      have := Nat.mul_le_mul_right num (show c ≤ 1 by omega)
      omega
    have hbound : c ≤ 10 ^ digitCount (c - 1) := by
      have := lt_pow_digitCount hc1
      omega
    rw [zpow_neg, zpow_natCast, le_div_iff₀ hd', inv_mul_le_iff₀ (by positivity)]
    exact_mod_cast hup.trans (Nat.mul_le_mul_right num hbound)

/-- The shortest digits of a number round to it. -/
theorem shortest_spec (h : Canonical m e) (hm : 0 < m) : 0 < (shortest m e).digits ∧
    RoundsTo m e ((shortest m e).digits * 10 ^ (shortest m e).exponent) := by
  set i := Interval.around m e with hi
  have hvalue : (i.value / i.den : ℚ) = m * 2 ^ e := Interval.value_div_den
  have hden := Interval.den_around_pos m e
  have hpos : 0 < i.value := by
    have hden' : (0 : ℚ) < i.den := by exact_mod_cast hden
    have hm' : (0 : ℚ) < m := by exact_mod_cast hm
    have : (0 : ℚ) < i.value / i.den := by
      rw [hvalue]
      positivity
    rw [div_pos_iff_of_pos_right hden'] at this
    exact_mod_cast this
  set lead := leadingExponent i.value i.den with hlead
  set grids := (List.range 17).map fun n : Nat => lead - (n : Int) with hgrids
  have hfinest : (i.nearestOnGrid? (lead - 16)).isSome := by
    refine Interval.nearestOnGrid?_isSome h hm ?_
    have hle := leadingExponent_le hpos hden
    rw [hvalue] at hle
    refine le_of_eq_of_le ?_ hle
    rw [← zpow_natCast, ← zpow_add₀ (by norm_num)]
    congr 1
    push_cast
    ring
  have hmem : lead - 16 ∈ grids := List.mem_map.mpr ⟨16, by decide, rfl⟩
  obtain ⟨s, hs⟩ := Option.isSome_iff_exists.mp
    (List.findSome?_isSome_iff.mpr ⟨lead - 16, hmem, hfinest⟩)
  obtain ⟨k, -, hk⟩ := List.exists_of_findSome?_eq_some hs
  obtain ⟨hdigits, hcontains⟩ := Interval.nearestOnGrid?_spec hk
  have hshortest : shortest m e = s := by
    show (grids.findSome? i.nearestOnGrid?).getD _ = s
    rw [hs, Option.getD_some]
  rw [hshortest]
  exact ⟨hdigits, (Interval.contains_iff hm _ _).mp hcontains⟩

end

end HttpContract.Binary64
