import HttpContract.Proofs.Number.Binary64
import HttpContract.Settings.Transport

/-!
# Pauses

Settings that can be read bound the number of retries, and their factor is not negative (`read_bounds`).
The pause after an attempt is then exact: the factor times a power of two, but no more than the most
(`backoff_value`).
-/

namespace HttpContract

namespace Setting
variable {α β : Type}

theorem both_eq_ok {a : Result α} {b : Result β} {p : α × β} (h : both a b = .ok p) :
    a = .ok p.1 ∧ b = .ok p.2 := by
  unfold both at h
  split at h <;> cases h
  exact ⟨rfl, rfl⟩

theorem count_le {most : Nat} {name : String} {v : Value} {n : Nat}
    (h : count most name v = .ok n) : n ≤ most := by
  unfold count at h
  cases hs : scalarAt Scalar.int name v with
  | error is => rw [hs] at h; cases h
  | ok i =>
    rw [hs] at h
    simp only [bind, Except.bind] at h
    split_ifs at h
    cases h
    omega

theorem number_not_lt {least : Binary64} {name : String} {v : Value} {x : Binary64}
    (h : number least name v = .ok x) : x.lt least = false := by
  unfold number at h
  cases hs : scalarAt Scalar.float name v with
  | error is => rw [hs] at h; cases h
  | ok y =>
    rw [hs] at h
    simp only [bind, Except.bind] at h
    split_ifs at h with hlt
    cases h
    simpa using hlt

theorem of_getD_eq_ok {P : α → Prop} {v : Option Value} {f : Value → Result α} {other a : α}
    (hother : P other) (hf : ∀ {v a}, f v = .ok a → P a)
    (h : (v.map f).getD (.ok other) = .ok a) : P a := by
  cases v with
  | none => cases h; exact hother
  | some v => exact hf h

end Setting

namespace TransportSettings
variable {value : String → Option Value} {s : TransportSettings}

theorem read_bounds (h : read value = .ok s) :
    s.maxRetries ≤ mostRetries ∧ s.backoffFactor.lt (.zero false) = false := by
  unfold read at h
  simp only [bind, Except.bind] at h
  split at h
  · cases h
  · rename_i p hp
    cases h
    obtain ⟨-, hrest⟩ := Setting.both_eq_ok hp
    obtain ⟨htries, -⟩ := Setting.both_eq_ok hrest
    obtain ⟨hretries, hpauses⟩ := Setting.both_eq_ok htries
    obtain ⟨hfactor, -⟩ := Setting.both_eq_ok hpauses
    constructor
    · exact Setting.of_getD_eq_ok (P := (· ≤ mostRetries)) (by decide) Setting.count_le hretries
    · exact Setting.of_getD_eq_ok (P := (·.lt (.zero false) = false)) (by decide +kernel)
        Setting.number_not_lt hfactor

theorem value_zero : (Binary64.zero false).isFinite ∧ (Binary64.zero false).value = 0 := by
  have hv : (Binary64.zero false).view = .finite false 0 (-1074) := by decide +kernel
  constructor
  · rw [Binary64.isFinite, hv]
  · rw [Binary64.value_eq hv]
    simp

theorem backoff_value (hfactor : s.backoffFactor.isFinite) (hmost : s.backoffMax.isFinite)
    (hsign : s.backoffFactor.lt (.zero false) = false) {i : Nat} (hi : i < 1024) :
    (s.backoff i).isFinite ∧
      (s.backoff i).value = min (s.backoffFactor.value * 2 ^ i) s.backoffMax.value := by
  have hnonneg : 0 ≤ s.backoffFactor.value := by
    have hz := Binary64.lt_iff_value_lt hfactor value_zero.1
    rw [hsign, value_zero.2] at hz
    exact not_lt.mp fun h => by simpa using hz.mpr h
  simp only [backoff]
  rcases Binary64.mul_twoPow hfactor hnonneg hi with ⟨hfin, hval⟩ | ⟨hinf, hover⟩
  · have hlt := Binary64.lt_iff_value_lt hmost hfin
    rw [hval] at hlt
    split_ifs with h
    · exact ⟨hmost, (min_eq_right (hlt.mp h).le).symm⟩
    · exact ⟨hfin, hval.trans (min_eq_left (not_lt.mp fun hv => h (hlt.mpr hv))).symm⟩
  · rw [if_pos (Binary64.lt_of_view_infinite hmost hinf)]
    exact ⟨hmost, (min_eq_right ((Binary64.value_lt_overflow hmost).le.trans hover)).symm⟩

end TransportSettings

end HttpContract
