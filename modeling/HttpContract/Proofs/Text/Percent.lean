import HttpContract.Proofs.Text.Utf8
import HttpContract.Text.Percent

/-!
# Escaped segments

A path value is written with unreserved characters and triplets alone (`escaped_segment`), and
reading the triplets gives back its bytes (`decode_segment`), hence its text
(`decode?_decode_segment`). Both are laws of `encodeByte`, carried along the bytes of the text.
-/

namespace HttpContract

namespace Hex

theorem digit?_upperDigit : ∀ n < 16, digit? (upperDigit n) = some n := by decide

theorem upperDigit_mem : ∀ n < 16, upperDigit n ∈ "0123456789ABCDEF".toList := by decide

end Hex

namespace Percent

/-- The letters `A` to `Z` and `a` to `z`, the digits, and four marks. -/
def IsPlain (c : Char) : Prop :=
  'A' ≤ c ∧ c ≤ 'Z' ∨ 'a' ≤ c ∧ c ≤ 'z' ∨ '0' ≤ c ∧ c ≤ '9' ∨ c ∈ ['_', '.', '-', '~']

/-- Plain characters and triplets `%XX`, and nothing else. -/
inductive Escaped : List Char → Prop
  | nil : Escaped []
  | plain {c : Char} {cs : List Char} : IsPlain c → Escaped cs → Escaped (c :: cs)
  | triplet {a b : Char} {cs : List Char} : a ∈ "0123456789ABCDEF".toList →
      b ∈ "0123456789ABCDEF".toList → Escaped cs → Escaped ('%' :: a :: b :: cs)

theorem isPlain_of_isUnreserved {c : Char} (h : isUnreserved c = true) : IsPlain c := by
  have h' : ((((((c.isUpper || c.isLower) || c.isDigit) || c == '_') || c == '.') || c == '-') ||
      c == '~') = true := h
  simp only [Bool.or_eq_true, beq_iff_eq] at h'
  unfold IsPlain
  rcases h' with ((((((hu | hl) | hd) | rfl) | rfl) | rfl) | rfl)
  · exact .inl (of_decide_eq_true hu)
  · have hl := Bool.and_eq_true_iff.mp hl
    exact .inr (.inl ⟨of_decide_eq_true hl.1, of_decide_eq_true hl.2⟩)
  · have hd := Bool.and_eq_true_iff.mp hd
    exact .inr (.inr (.inl ⟨of_decide_eq_true hd.1, of_decide_eq_true hd.2⟩))
  all_goals simp

theorem Escaped.append {cs ds : List Char} (hc : Escaped cs) (hd : Escaped ds) :
    Escaped (cs ++ ds) := by
  induction hc with
  | nil => exact hd
  | plain h _ ih => exact .plain h ih
  | triplet ha hb _ ih => exact .triplet ha hb ih

theorem forall_mem_upperDigits {P : Char → Prop} [DecidablePred P]
    (h : ['0', '1', '2', '3', '4', '5', '6', '7', '8', '9', 'A', 'B', 'C', 'D', 'E', 'F'].all
      fun c => decide (P c)) : ∀ c ∈ "0123456789ABCDEF".toList, P c := by
  have hdigits : "0123456789ABCDEF".toList =
      ['0', '1', '2', '3', '4', '5', '6', '7', '8', '9', 'A', 'B', 'C', 'D', 'E', 'F'] := rfl
  rw [hdigits]
  simpa only [List.all_eq_true, decide_eq_true_eq] using h

theorem Escaped.isPlain_or_percent {cs : List Char} (h : Escaped cs) :
    ∀ c ∈ cs, IsPlain c ∨ c = '%' := by
  have hdigit : ∀ d ∈ "0123456789ABCDEF".toList, IsPlain d := by
    simp only [IsPlain]
    exact forall_mem_upperDigits rfl
  induction h with
  | nil => exact fun c hc => nomatch hc
  | plain hc _ ih => exact List.forall_mem_cons.mpr ⟨.inl hc, ih⟩
  | triplet ha hb _ ih =>
    exact List.forall_mem_cons.mpr ⟨.inr rfl, List.forall_mem_cons.mpr ⟨.inl (hdigit _ ha),
      List.forall_mem_cons.mpr ⟨.inl (hdigit _ hb), ih⟩⟩⟩

theorem escaped_encodeByte (b : UInt8) : Escaped (encodeByte isUnreserved b) := by
  simp only [encodeByte]
  split_ifs with h
  · exact .plain (isPlain_of_isUnreserved h.2) .nil
  · have hb : b.toNat < 256 := b.toNat_lt
    exact .triplet (Hex.upperDigit_mem _ (by omega)) (Hex.upperDigit_mem _ (by omega)) .nil

theorem escaped_flatMap_encodeByte (bs : Bytes) :
    Escaped (bs.flatMap (encodeByte isUnreserved)) := by
  induction bs with
  | nil => exact .nil
  | cons b bs ih => exact (escaped_encodeByte b).append ih

variable {safe : Char → Bool}

theorem toList_segment (s : String) :
    (segment s).toList = (Utf8.encode s).flatMap (encodeByte isUnreserved) := by
  rw [segment, String.toList_ofList, Utf8.encode, List.flatMap_assoc]
  rfl

theorem escaped_segment (s : String) : Escaped (segment s).toList := by
  rw [toList_segment]
  exact escaped_flatMap_encodeByte _

theorem decode_cons_of_ne {c : Char} (h : c ≠ '%') (cs : List Char) :
    decode (c :: cs) = String.utf8EncodeChar c ++ decode cs := by
  rw [decode]
  intro a b ds he
  exact absurd he h

theorem decode_triplet (b : UInt8) (cs : List Char) : decode (triplet b ++ cs) = b :: decode cs := by
  have hb : b.toNat < 256 := b.toNat_lt
  show decode ('%' :: Hex.upperDigit (b.toNat / 16) :: Hex.upperDigit (b.toNat % 16) :: cs) = _
  rw [decode, Hex.digit?_upperDigit _ (by omega), Hex.digit?_upperDigit _ (by omega)]
  simp only [Nat.div_add_mod', UInt8.ofNat_toNat]

theorem utf8EncodeChar_ofNat {b : UInt8} (h : b < 0x80) :
    String.utf8EncodeChar (Char.ofNat b.toNat) = [b] := by
  have hb : b.toNat < 0x80 := UInt8.lt_iff_toNat_lt.mp h
  have hc : (Char.ofNat b.toNat).val.toNat = b.toNat := by
    rw [Char.ofNat, dif_pos (.inl (by omega))]
    rfl
  unfold String.utf8EncodeChar
  simp only [hc]
  rw [if_pos (by omega), UInt8.ofNat_toNat]

/-- Each byte is read back; a byte that is written as itself is not the start of a triplet. -/
theorem decode_encodeByte (hs : safe '%' = false) (b : UInt8) (cs : List Char) :
    decode (encodeByte safe b ++ cs) = b :: decode cs := by
  simp only [encodeByte]
  split_ifs with h
  · have hne : Char.ofNat b.toNat ≠ '%' := by
      intro he
      rw [he, hs] at h
      exact absurd h.2 Bool.false_ne_true
    rw [List.singleton_append, decode_cons_of_ne hne, utf8EncodeChar_ofNat h.1,
      List.singleton_append]
  · exact decode_triplet b cs

theorem decode_flatMap_encodeByte (hs : safe '%' = false) (bs : Bytes) (cs : List Char) :
    decode (bs.flatMap (encodeByte safe) ++ cs) = bs ++ decode cs := by
  induction bs with
  | nil => rfl
  | cons b bs ih =>
    rw [List.flatMap_cons, List.append_assoc, decode_encodeByte hs, ih, List.cons_append]

theorem decode_segment (s : String) : decode (segment s).toList = Utf8.encode s := by
  have hs : isUnreserved '%' = false := by decide
  have h := decode_flatMap_encodeByte hs (Utf8.encode s) []
  rwa [List.append_nil, ← toList_segment, decode, List.append_nil] at h

theorem decode?_decode_segment (s : String) :
    Utf8.decode? (decode (segment s).toList) = some s := by
  rw [decode_segment, Utf8.decode?_encode]

theorem segment_injective {s s' : String} (h : segment s = segment s') : s = s' := by
  have hs := decode?_decode_segment s
  rw [h, decode?_decode_segment] at hs
  exact (Option.some.inj hs).symm

end Percent

end HttpContract
