import HttpContract.Number.Layout
import HttpContract.Number.Scan
import HttpContract.Proofs.Number.Shortest
import Mathlib.Data.List.TakeWhile

/-!
# Numbers read back from their texts

`Spells cs digits k`: the characters spell the decimal `digits · 10 ^ k`, with digits on both sides of a
point or with an exponent. What spells a decimal is read as it, and every layout spells a decimal that
rounds to the number, so a finite number is read back from its text (`float?_write`).
-/

namespace HttpContract

namespace Text

theorem trimBoth_eq_self {α : Type} {p : α → Bool} {as : List α} (h : ∀ a ∈ as, p a = false) :
    trimBoth p as = as := by
  have hdrop : ∀ bs : List α, (∀ b ∈ bs, p b = false) → bs.dropWhile p = bs := by
    intro bs hbs
    cases bs with
    | nil => rfl
    | cons b bs =>
      rw [List.dropWhile_cons_of_neg]
      rw [hbs b List.mem_cons_self]
      exact Bool.false_ne_true
  rw [trimBoth, hdrop as h, hdrop as.reverse fun a ha => h a (List.mem_reverse.mp ha),
    List.reverse_reverse]

theorem isBlank_eq_false {c : Char} (hlow : 0x20 < c.toNat) (hhigh : c.toNat < 0x7f) :
    isBlank c = false := by
  rw [Bool.eq_false_iff]
  intro h
  simp only [isBlank, blanks, CodeRanges.contains, List.any_cons, List.any_nil, Bool.or_eq_true,
    Bool.and_eq_true, decide_eq_true_eq, Bool.false_eq_true, or_false] at h
  omega

end Text

namespace Number
variable {cs ds whole fraction tail : List Char} {k : Int}

/-- Whether all characters are decimal digits. -/
def AllDigits (ds : List Char) : Prop := ∀ c ∈ ds, c.isDigit = true

/-- The characters that numbers are written with. -/
def isNumberChar (c : Char) : Bool := c.isDigit || c == '.' || c == 'e' || c == '+' || c == '-'

theorem AllDigits.append (hcs : AllDigits cs) (hds : AllDigits ds) : AllDigits (cs ++ ds) :=
  fun c hc => (List.mem_append.mp hc).elim (hcs c) (hds c)

theorem allDigits_zeros (n : Nat) : AllDigits (Binary64.zeros n) := fun c hc => by
  rw [List.eq_of_mem_replicate hc]
  rfl

theorem allDigits_toDigits (n : Nat) : AllDigits (Nat.toDigits 10 n) := fun _ hc =>
  Nat.isDigit_of_mem_toDigits (by decide) (by decide) hc

theorem toNat_of_isDigit {c : Char} (h : c.isDigit = true) : 48 ≤ c.toNat ∧ c.toNat ≤ 57 := by
  simpa [Char.isDigit, UInt32.le_iff_toNat_le] using h

theorem ne_of_isDigit {c d : Char} (h : c.isDigit = true) (hd : d.isDigit = false) : c ≠ d :=
  fun hcd => Bool.false_ne_true ((hcd ▸ hd).symm.trans h)

/-! ### The value of digits -/

theorem ofDigits_eq (ds : List Char) : ofDigits ds = Nat.ofDigitChars 10 ds 0 := rfl

theorem ofDigits_toDigits (n : Nat) : ofDigits (Nat.toDigits 10 n) = n := Nat.ofDigitChars_ten_toDigits

theorem ofDigits_append_zeros (ds : List Char) (n : Nat) :
    ofDigits (ds ++ Binary64.zeros n) = 10 ^ n * ofDigits ds := by
  rw [ofDigits_eq, Nat.ofDigitChars_append, Binary64.zeros, Nat.ofDigitChars_replicate_zero]
  rfl

theorem ofDigits_zeros_append (n : Nat) (ds : List Char) :
    ofDigits (Binary64.zeros n ++ ds) = ofDigits ds := by
  rw [ofDigits_eq, Nat.ofDigitChars_append, Binary64.zeros, Nat.ofDigitChars_replicate_zero,
    Nat.mul_zero]
  rfl

/-! ### Spellings of decimals -/

/-- A fraction behind its point; no fraction has no point. -/
def fractionText (fraction : List Char) : List Char :=
  if fraction.isEmpty then [] else '.' :: fraction

/-- The end of a number, with the exponent it stands for. -/
inductive Tail : List Char → Int → Prop
  | plain : Tail [] 0
  | up {ds : List Char} (hne : ds ≠ []) (hds : AllDigits ds) : Tail ('e' :: '+' :: ds) (ofDigits ds)
  | down {ds : List Char} (hne : ds ≠ []) (hds : AllDigits ds) :
    Tail ('e' :: '-' :: ds) (-(ofDigits ds : Int))

/-- Characters that spell the decimal `digits · 10 ^ k`. -/
inductive Spells : List Char → Nat → Int → Prop
  | parts {whole fraction tail : List Char} {e : Int} (hne : whole ≠ []) (hwhole : AllDigits whole)
    (hfraction : AllDigits fraction) (htail : Tail tail e) :
    Spells (whole ++ fractionText fraction ++ tail) (ofDigits (whole ++ fraction))
      (e - fraction.length)

theorem groupedDigits?_eq (hne : ds ≠ []) (h : AllDigits ds) : groupedDigits? ds = some ds := by
  induction ds with
  | nil => exact absurd rfl hne
  | cons d ds ih =>
    have hd : d.isDigit = true := h d List.mem_cons_self
    have hds : AllDigits ds := fun c hc => h c (List.mem_cons_of_mem d hc)
    cases ds with
    | nil => rw [groupedDigits?, if_pos hd]
    | cons d' ds =>
      have hd' : d' ≠ '_' := ne_of_isDigit (hds d' List.mem_cons_self) (by decide)
      rw [groupedDigits?, if_pos hd, ih (List.cons_ne_nil d' ds) hds, Option.map_some]
      · exact fun h => absurd h (List.cons_ne_nil d' ds)
      · intro rest h
        exact hd' (List.cons.inj h).1

theorem optionalDigits?_eq (h : AllDigits ds) : optionalDigits? ds = some ds := by
  cases ds with
  | nil => rfl
  | cons d ds => exact groupedDigits?_eq (List.cons_ne_nil d ds) h

theorem Tail.exponent?_eq (h : Tail tail k) : exponent? tail = some k := by
  cases h with
  | plain => rfl
  | up hne hds =>
    simp only [exponent?, splitSign, groupedDigits?_eq hne hds]
    rfl
  | down hne hds =>
    simp only [exponent?, splitSign, groupedDigits?_eq hne hds]
    rfl

theorem Tail.head (h : Tail tail k) : tail = [] ∨ ∃ rest, tail = 'e' :: rest := by
  cases h with
  | plain => exact .inl rfl
  | up => exact .inr ⟨_, rfl⟩
  | down => exact .inr ⟨_, rfl⟩

theorem isNumberChar_of_isDigit {c : Char} (h : c.isDigit = true) : isNumberChar c = true := by
  simp only [isNumberChar, h, Bool.true_or]

theorem Tail.chars (h : Tail tail k) : ∀ c ∈ tail, isNumberChar c = true := by
  cases h with
  | plain => exact fun c hc => nomatch hc
  | up _ hds | down _ hds =>
    rw [List.forall_mem_cons, List.forall_mem_cons]
    exact ⟨by decide, by decide, fun c hc => isNumberChar_of_isDigit (hds c hc)⟩

namespace Spells
variable {digits : Nat}

theorem head (h : Spells cs digits k) : ∃ d rest, cs = d :: rest ∧ d.isDigit = true := by
  obtain ⟨hne, hwhole, -, -⟩ := h
  obtain ⟨d, rest, rfl⟩ := List.exists_cons_of_ne_nil hne
  exact ⟨d, _, rfl, hwhole d List.mem_cons_self⟩

theorem chars (h : Spells cs digits k) : ∀ c ∈ cs, isNumberChar c = true := by
  obtain ⟨-, hwhole, hfraction, htail⟩ := h
  intro c hc
  rcases List.mem_append.mp hc with hc | hc
  · rcases List.mem_append.mp hc with hc | hc
    · exact isNumberChar_of_isDigit (hwhole c hc)
    · unfold fractionText at hc
      split_ifs at hc
      · cases hc
      · rcases List.mem_cons.mp hc with rfl | hc
        · rfl
        · exact isNumberChar_of_isDigit (hfraction c hc)
  · exact htail.chars c hc

theorem unsigned?_eq (h : Spells cs digits k) (negative : Bool) :
    unsigned? negative cs = some (.ofDecimal negative digits k) := by
  obtain @⟨whole, fraction, tail, e, hne, hwhole, hfraction, htail⟩ := h
  have hmark : ∀ c ∈ whole ++ fractionText fraction, (!(c == 'e' || c == 'E')) = true := by
    intro c hc
    have hdigit : ∀ c : Char, c.isDigit = true → (!(c == 'e' || c == 'E')) = true := by
      intro c hc
      simp [ne_of_isDigit hc (d := 'e') (by decide), ne_of_isDigit hc (d := 'E') (by decide)]
    rcases List.mem_append.mp hc with hc | hc
    · exact hdigit c (hwhole c hc)
    · unfold fractionText at hc
      split_ifs at hc
      · cases hc
      · rcases List.mem_cons.mp hc with rfl | hc
        · rfl
        · exact hdigit c (hfraction c hc)
  have hpoint : ∀ c ∈ whole, (c != '.') = true := fun c hc =>
    bne_iff_ne.mpr (ne_of_isDigit (hwhole c hc) (by decide))
  have hbody : (whole ++ fractionText fraction ++ tail).takeWhile (fun c => !(c == 'e' || c == 'E')) =
      whole ++ fractionText fraction ∧
      (whole ++ fractionText fraction ++ tail).dropWhile (fun c => !(c == 'e' || c == 'E')) = tail := by
    rw [List.takeWhile_append_of_pos hmark, List.dropWhile_append_of_pos hmark]
    rcases htail.head with rfl | ⟨rest, rfl⟩
    · exact ⟨List.append_nil _, rfl⟩
    · exact ⟨List.append_nil _, rfl⟩
  have hwholeOf : (whole ++ fractionText fraction).takeWhile (· != '.') = whole := by
    rw [List.takeWhile_append_of_pos hpoint, fractionText]
    split_ifs <;> exact List.append_nil whole
  have hfractionOf : ((whole ++ fractionText fraction).dropWhile (· != '.')).drop 1 = fraction := by
    rw [List.dropWhile_append_of_pos hpoint, fractionText]
    split_ifs with hempty
    · rw [List.isEmpty_iff.mp hempty]
      rfl
    · rfl
  have hnonempty : (whole.isEmpty && fraction.isEmpty) = false := by
    rw [List.isEmpty_eq_false_iff.mpr hne, Bool.false_and]
  simp only [unsigned?, hbody, hwholeOf, hfractionOf, hnonempty, Bool.false_eq_true, if_false,
    optionalDigits?_eq hwhole, optionalDigits?_eq hfraction, htail.exponent?_eq]

theorem float?_eq (h : Spells cs digits k) (negative : Bool) :
    float? (String.ofList ((if negative then ['-'] else []) ++ cs)) =
      some (.ofDecimal negative digits k) := by
  obtain ⟨d, rest, hcs, hd⟩ := h.head
  have hblank : ∀ c ∈ (if negative then ['-'] else []) ++ cs, Text.isBlank c = false := by
    intro c hc
    have hchar : isNumberChar c = true := by
      rcases List.mem_append.mp hc with hc | hc
      · split_ifs at hc
        · rw [List.mem_singleton.mp hc]
          rfl
        · cases hc
      · exact h.chars c hc
    simp only [isNumberChar, Bool.or_eq_true, beq_iff_eq] at hchar
    rcases hchar with (((hdigit | rfl) | rfl) | rfl) | rfl
    · have := toNat_of_isDigit hdigit
      exact Text.isBlank_eq_false (by omega) (by omega)
    all_goals decide
  have hsign : splitSign ((if negative then ['-'] else []) ++ cs) = (negative, cs) := by
    cases negative with
    | true => rfl
    | false =>
      rw [hcs]
      show splitSign (d :: rest) = (false, d :: rest)
      unfold splitSign
      split
      · next heq => exact absurd (List.cons.inj heq).1 (ne_of_isDigit hd (by decide))
      · next heq => exact absurd (List.cons.inj heq).1 (ne_of_isDigit hd (by decide))
      · rfl
  -- The words for the special values begin with letters.
  have hword : ∀ word : String, word.toList.head? = some 'i' ∨ word.toList.head? = some 'n' →
      String.ofList (cs.map Char.toLower) ≠ word := by
    rintro word hhead rfl
    have hlower : d.toLower = d := by
      have := toNat_of_isDigit hd
      unfold Char.toLower
      rw [dif_neg]
      rintro ⟨hupper, -⟩
      have : 65 ≤ d.toNat := UInt32.le_iff_toNat_le.mp hupper
      omega
    rw [String.toList_ofList, hcs, List.map_cons, List.head?_cons, hlower] at hhead
    rcases hhead with hhead | hhead <;>
      exact absurd (Option.some.inj hhead) (ne_of_isDigit hd (by decide))
  simp only [float?, String.toList_ofList, Text.trimBoth_eq_self hblank, hsign]
  rw [if_neg (not_or.mpr ⟨hword "inf" (.inl rfl), hword "infinity" (.inl rfl)⟩),
    if_neg (hword "nan" (.inr rfl)), h.unsigned?_eq]

end Spells

end Number

namespace Binary64
open Number

variable {ds : List Char} {point : Int}

/-! ### Layouts spell decimals -/

theorem spells_behind (hne : ds ≠ []) (hds : AllDigits ds) (n : Nat) :
    Spells ('0' :: '.' :: (zeros n ++ ds)) (ofDigits ds) (0 - (zeros n ++ ds).length) := by
  have hempty : (zeros n ++ ds).isEmpty = false := by simp [hne]
  have htext : '0' :: '.' :: (zeros n ++ ds) = ['0'] ++ fractionText (zeros n ++ ds) ++ [] := by
    rw [fractionText, hempty, if_neg Bool.false_ne_true, List.append_nil]
    rfl
  have hvalue : ofDigits (['0'] ++ (zeros n ++ ds)) = ofDigits ds := by
    rw [← List.append_assoc]
    exact ofDigits_zeros_append (n + 1) ds
  rw [htext, ← hvalue]
  exact .parts (by decide) (allDigits_zeros 1) ((allDigits_zeros n).append hds) .plain

theorem spells_before (hne : ds ≠ []) (hds : AllDigits ds) (n : Nat) :
    Spells (ds ++ zeros n ++ ['.', '0']) (10 ^ (n + 1) * ofDigits ds) (0 - 1) := by
  have htext : ds ++ zeros n ++ ['.', '0'] = ds ++ zeros n ++ fractionText ['0'] ++ [] :=
    (List.append_nil _).symm
  have hvalue : ofDigits (ds ++ zeros n ++ ['0']) = 10 ^ (n + 1) * ofDigits ds := by
    rw [List.append_assoc]
    show ofDigits (ds ++ (zeros n ++ zeros 1)) = _
    rw [zeros, zeros, List.replicate_append_replicate]
    exact ofDigits_append_zeros ds _
  rw [htext, ← hvalue]
  exact .parts (by simp [hne]) (hds.append (allDigits_zeros _)) (allDigits_zeros 1) .plain

theorem spells_between (hds : AllDigits ds) {n : Nat} (hpos : 0 < n) (hn : n < ds.length) :
    Spells (ds.take n ++ '.' :: ds.drop n) (ofDigits ds) (0 - (ds.drop n).length) := by
  have hempty : (ds.drop n).isEmpty = false := by simpa using hn
  have htext : ds.take n ++ '.' :: ds.drop n = ds.take n ++ fractionText (ds.drop n) ++ [] := by
    rw [fractionText, hempty, if_neg Bool.false_ne_true, List.append_nil]
  have htake : ds.take n ≠ [] := by
    rw [Ne, List.take_eq_nil_iff]
    exact not_or.mpr ⟨by omega, List.ne_nil_of_length_pos (Nat.zero_lt_of_lt hn)⟩
  rw [htext]
  conv in ofDigits ds => rw [← List.take_append_drop n ds]
  exact .parts htake (fun c hc => hds c (List.mem_of_mem_take hc))
    (fun c hc => hds c (List.mem_of_mem_drop hc)) .plain

theorem writePlain_spells (hne : ds ≠ []) (hds : AllDigits ds) (point : Int) :
    ∃ digits k, Spells (writePlain ds point) digits k ∧
      (digits * 10 ^ k : ℚ) = ofDigits ds * 10 ^ (point - ds.length) := by
  unfold writePlain
  split_ifs with hpoint
  · obtain ⟨n, hn⟩ := Int.eq_ofNat_of_zero_le (show 0 ≤ -point by omega)
    rw [hn, Int.toNat_natCast]
    refine ⟨_, _, spells_behind hne hds n, ?_⟩
    rw [List.length_append, zeros, List.length_replicate]
    congr 2
    omega
  · obtain ⟨n, rfl⟩ := Int.eq_ofNat_of_zero_le (show 0 ≤ point by omega)
    simp only [Int.toNat_natCast]
    by_cases hrest : ds.length ≤ n
    · have hempty : (ds.drop n).isEmpty = true := by simp [hrest]
      rw [hempty, if_pos rfl, List.take_of_length_le hrest]
      refine ⟨_, _, spells_before hne hds (n - ds.length), ?_⟩
      rw [Nat.cast_mul, Nat.cast_pow, mul_comm (_ ^ _) (ofDigits ds : ℚ), mul_assoc,
        ← zpow_natCast, Nat.cast_ofNat, ← zpow_add₀ (by norm_num)]
      congr 2
      push_cast [hrest]
      omega
    · have hempty : (ds.drop n).isEmpty = false := by simpa using hrest
      have hzeros : zeros (n - ds.length) = [] := by
        rw [Nat.sub_eq_zero_of_le (by omega)]
        rfl
      rw [hempty, if_neg Bool.false_ne_true, hzeros, List.append_nil]
      refine ⟨_, _, spells_between hds (by omega) (by omega), ?_⟩
      rw [List.length_drop]
      congr 2
      omega

theorem writeExponent_spells (layout : Layout) (hne : ds ≠ []) (hds : AllDigits ds) (point : Int) :
    ∃ digits k, Spells (writeExponent layout ds point) digits k ∧
      (digits * 10 ^ k : ℚ) = ofDigits ds * 10 ^ (point - ds.length) := by
  obtain ⟨d, rest, rfl⟩ := List.exists_cons_of_ne_nil hne
  set e := point - 1 with he
  set es := zeros (layout.exponentDigits - (Nat.toDigits 10 e.natAbs).length) ++
    Nat.toDigits 10 e.natAbs with hes
  have hesne : es ≠ [] := by simp [hes, Nat.toDigits_ne_nil]
  have hesdigits : AllDigits es := (allDigits_zeros _).append (allDigits_toDigits _)
  have hesvalue : ofDigits es = e.natAbs := by
    rw [hes, ofDigits_zeros_append, ofDigits_toDigits]
  have htail : Tail ('e' :: (if e < 0 then '-' else '+') :: es) e := by
    split_ifs with hneg
    · have := Tail.down hesne hesdigits
      rwa [hesvalue, show -(e.natAbs : Int) = e by omega] at this
    · have := Tail.up hesne hesdigits
      rwa [hesvalue, show (e.natAbs : Int) = e by omega] at this
  have htext : writeExponent layout (d :: rest) point =
      [d] ++ fractionText rest ++ ('e' :: (if e < 0 then '-' else '+') :: es) := by
    cases rest <;> rfl
  rw [htext]
  refine ⟨_, _, .parts (List.cons_ne_nil d []) (fun c hc => hds c ?_)
    (fun c hc => hds c (List.mem_cons_of_mem d hc)) htail, ?_⟩
  · rw [List.mem_singleton.mp hc]
    exact List.mem_cons_self
  · rw [List.singleton_append, List.length_cons]
    congr 2
    push_cast
    omega

theorem trimZeros_append (ds : List Char) : ∃ n, ds = trimZeros ds ++ zeros n := by
  refine ⟨(ds.reverse.takeWhile (· == '0')).length, ?_⟩
  have hzeros : (ds.reverse.takeWhile (· == '0')).reverse =
      zeros (ds.reverse.takeWhile (· == '0')).length := by
    rw [zeros, List.eq_replicate_iff]
    refine ⟨List.length_reverse, fun c hc => ?_⟩
    have hzero : (c == '0') = true :=
      List.mem_takeWhile_imp (p := (· == '0')) (List.mem_reverse.mp hc)
    exact beq_iff_eq.mp hzero
  rw [← hzeros, trimZeros, ← List.reverse_append, List.takeWhile_append_dropWhile,
    List.reverse_reverse]

theorem head?_toDigits {n : Nat} (hn : 0 < n) : (Nat.toDigits 10 n).head? ≠ some '0' := by
  induction n using Nat.strongRecOn with
  | _ n ih =>
    by_cases hsmall : n < 10
    · have hdigit : ∀ n < 10, 0 < n → n.digitChar ≠ '0' := by decide
      rw [Nat.toDigits_of_lt_base hsmall, List.head?_cons]
      exact fun h => hdigit n hsmall hn (Option.some.inj h)
    · have hquotient : 0 < n / 10 := Nat.div_pos (by omega) (by decide)
      rw [Nat.toDigits_of_base_le (by decide) (by omega),
        List.head?_append_of_ne_nil _ Nat.toDigits_ne_nil]
      exact ih (n / 10) (by omega) hquotient

/-- The digits of a positive number without the zeros behind them. -/
theorem exists_trimZeros_eq {n : Nat} (hn : 0 < n) : ∃ d rest k, d ≠ '0' ∧
    trimZeros (Nat.toDigits 10 n) = d :: rest ∧ Nat.toDigits 10 n = d :: rest ++ zeros k := by
  obtain ⟨k, hk⟩ := trimZeros_append (Nat.toDigits 10 n)
  have hhead := head?_toDigits hn
  cases htrim : trimZeros (Nat.toDigits 10 n) with
  | nil =>
    rw [htrim] at hk
    have hvalue := ofDigits_toDigits n
    rw [hk, ofDigits_append_zeros] at hvalue
    exact absurd hvalue.symm hn.ne'
  | cons d rest =>
    rw [htrim] at hk
    rw [hk] at hhead
    exact ⟨d, rest, k, fun h => hhead (congrArg some h), rfl, hk⟩

variable {m : Nat} {e : Int}

/-- The text of a positive number spells a decimal that rounds to it. -/
theorem writeMagnitude_spells (layout : Layout) (h : Canonical m e) (hm : 0 < m) :
    ∃ digits k, Spells (writeMagnitude layout m e) digits k ∧ RoundsTo m e (digits * 10 ^ k) := by
  obtain ⟨hpos, hround⟩ := shortest_spec h hm
  set d := shortest m e with hd
  set all := Nat.toDigits 10 d.digits with hall
  obtain ⟨first, rest, n, -, htrim, hn⟩ := exists_trimZeros_eq hpos
  rw [← hall] at htrim hn
  rw [← htrim] at hn
  have hne : trimZeros all ≠ [] := by
    rw [htrim]
    exact List.cons_ne_nil first rest
  have hlength : (all.length : Int) = (trimZeros all).length + n := by
    conv_lhs => rw [hn, List.length_append, zeros, List.length_replicate]
    push_cast
    rfl
  have hvalue : d.digits = 10 ^ n * ofDigits (trimZeros all) := by
    rw [← ofDigits_append_zeros, ← hn, hall, ofDigits_toDigits]
  have hdigits : AllDigits (trimZeros all) := by
    intro c hc
    refine allDigits_toDigits d.digits c ?_
    rw [← hall, hn]
    exact List.mem_append_left _ hc
  have hsame : (ofDigits (trimZeros all) * 10 ^ (all.length + d.exponent - (trimZeros all).length) : ℚ) =
      d.digits * 10 ^ d.exponent := by
    rw [hvalue, hlength, show ((trimZeros all).length + n + d.exponent - (trimZeros all).length : Int) =
      n + d.exponent by omega, zpow_add₀ (by norm_num), zpow_natCast]
    push_cast
    ring
  unfold writeMagnitude
  rw [if_neg hm.ne']
  simp only [← hd, ← hall]
  split_ifs
  · obtain ⟨digits, k, hspells, heq⟩ := writePlain_spells hne hdigits (all.length + d.exponent)
    exact ⟨digits, k, hspells, by rwa [heq, hsame]⟩
  · obtain ⟨digits, k, hspells, heq⟩ :=
      writeExponent_spells layout hne hdigits (all.length + d.exponent)
    exact ⟨digits, k, hspells, by rwa [heq, hsame]⟩

/-! ### How the texts of numbers begin -/

/-- A number is not written as an integer, and no zero stands in front of its first digit but one before
the point. -/
structure Plain (cs : List Char) : Prop where
  mark : '.' ∈ cs ∨ 'e' ∈ cs
  head : ∃ d rest, cs = d :: rest ∧ (d = '0' → rest.head? = some '.')

theorem writePlain_plain {d : Char} (hd : d ≠ '0') (rest : List Char) (point : Int) :
    Plain (writePlain (d :: rest) point) := by
  unfold writePlain
  split_ifs with hpoint
  · exact ⟨.inl (by simp), '0', _, rfl, fun _ => rfl⟩
  · obtain ⟨n, hn⟩ : ∃ n, point.toNat = n + 1 := ⟨point.toNat - 1, by omega⟩
    rw [hn]
    exact ⟨.inl (by simp), d, _, rfl, fun h => absurd h hd⟩

theorem writeExponent_plain (layout : Layout) {d : Char} (hd : d ≠ '0') (rest : List Char)
    (point : Int) : Plain (writeExponent layout (d :: rest) point) := by
  unfold writeExponent
  refine ⟨.inr (by simp), d, ?_⟩
  cases rest with
  | nil => exact ⟨_, rfl, fun h => absurd h hd⟩
  | cons => exact ⟨_, rfl, fun h => absurd h hd⟩

theorem writeMagnitude_plain (layout : Layout) (h : Canonical m e) :
    Plain (writeMagnitude layout m e) := by
  by_cases hm : m = 0
  · rw [writeMagnitude, if_pos hm]
    exact ⟨.inl (by decide), '0', _, rfl, fun _ => rfl⟩
  · obtain ⟨hpos, -⟩ := shortest_spec h (Nat.pos_of_ne_zero hm)
    obtain ⟨d, rest, n, hd, htrim, -⟩ := exists_trimZeros_eq hpos
    rw [writeMagnitude, if_neg hm]
    simp only [htrim]
    split_ifs
    · exact writePlain_plain hd rest _
    · exact writeExponent_plain layout hd rest _

/-! ### Numbers are told apart by their views -/

theorem eq_of_view {x : Binary64} {negative : Bool} (hx : x.view = .finite negative m e) :
    x = pack negative m e := by
  have hb : x.bits.toNat < 2 ^ 64 := x.bits.toNat_lt
  have hbits : (pack negative m e).bits.toNat = x.bits.toNat := by
    rw [view_eq, isNegative_eq] at hx
    split_ifs at hx with h1 h2 h3 <;> cases hx <;> unfold pack
    · rw [if_pos (by omega), toNat_ofFields _ (by omega) (by omega)]
      simp only [decide_eq_true_eq]
      split_ifs <;> omega
    · rw [if_neg (by omega), toNat_ofFields _ (by omega) (by omega)]
      simp only [decide_eq_true_eq]
      split_ifs <;> omega
  cases x
  cases hp : pack negative m e
  rw [hp] at hbits
  exact congrArg Binary64.mk (UInt64.toNat_inj.mp hbits).symm

theorem pack_zero (negative : Bool) (e : Int) : pack negative 0 e = zero negative :=
  if_pos (Nat.pow_pos (by decide))

theorem ofDecimal_zero (negative : Bool) (k : Int) : ofDecimal negative 0 k = zero negative := by
  unfold ofDecimal
  exact if_pos rfl

theorem write_eq (layout : Layout) {x : Binary64} (hx : x.isFinite) : ∃ negative cs digits k,
    x.write layout = String.ofList ((if negative then ['-'] else []) ++ cs) ∧ Plain cs ∧
      Spells cs digits k ∧ ofDecimal negative digits k = x := by
  obtain ⟨negative, m, e, hv⟩ := exists_view hx
  obtain ⟨hcanonical, he, -⟩ := canonical_of_view hv
  rw [write, hv, eq_of_view hv]
  by_cases hm : m = 0
  · subst hm
    have hspells : Spells ['0', '.', '0'] 0 (-1) :=
      @Spells.parts ['0'] ['0'] [] 0 (by decide) (allDigits_zeros 1) (allDigits_zeros 1) .plain
    exact ⟨negative, _, 0, -1, rfl, writeMagnitude_plain layout hcanonical, hspells,
      (ofDecimal_zero negative (-1)).trans (pack_zero negative e).symm⟩
  · obtain ⟨digits, k, hspells, hround⟩ :=
      writeMagnitude_spells layout hcanonical (Nat.pos_of_ne_zero hm)
    exact ⟨negative, _, digits, k, rfl, writeMagnitude_plain layout hcanonical, hspells,
      ofDecimal_of_roundsTo negative hcanonical (Nat.pos_of_ne_zero hm) he hround⟩

/-- A finite number is read back from its text. -/
theorem float?_write (layout : Layout) {x : Binary64} (hx : x.isFinite) :
    float? (x.write layout) = some x := by
  obtain ⟨negative, cs, digits, k, htext, -, hspells, hvalue⟩ := write_eq layout hx
  rw [htext, hspells.float?_eq, hvalue]

end Binary64

end HttpContract
