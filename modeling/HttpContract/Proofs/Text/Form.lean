import HttpContract.Proofs.PathTemplate.Segments
import HttpContract.Proofs.Text.Percent

/-!
# Forms

A form reads back as the pairs it was written from (`readForm_form`). A component is made of plain
characters, triplets and pluses, so the signs that part the pairs and the keys from the values are those
that the writer put there.
-/

namespace HttpContract.Percent

/-! ### Reading -/

/-- A plus stands for a space. -/
def plusAsSpace (c : Char) : Char := if c = '+' then ' ' else c

/-- A component of a form, in which a triplet is the byte it stands for. -/
def readComponent (cs : List Char) : String := Utf8.decodeLossy (decode (cs.map plusAsSpace))

/-- A key and a value, parted by the first equals sign. -/
def readPair (cs : List Char) : String × String :=
  (readComponent (cs.takeWhile (· != '=')), readComponent ((cs.dropWhile (· != '=')).drop 1))

/-- The pairs of a form. What stands between two signs that part pairs is a pair unless it is empty. -/
def readForm (s : String) : List (String × String) :=
  ((s.toList.splitOn '&').filter (!·.isEmpty)).map readPair

/-! ### Components -/

variable {c : Char} {s : String}

theorem escaped_encodeChar (c : Char) : Escaped (encodeChar isUnreserved c) :=
  escaped_flatMap_encodeByte _

theorem toList_formComponent (s : String) : (formComponent s).toList =
    s.toList.flatMap fun c => if c = ' ' then ['+'] else encodeChar isUnreserved c :=
  String.toList_ofList

theorem mem_formComponent (h : c ∈ (formComponent s).toList) : IsPlain c ∨ c = '%' ∨ c = '+' := by
  rw [toList_formComponent] at h
  obtain ⟨d, -, hc⟩ := List.mem_flatMap.mp h
  split_ifs at hc
  · exact .inr (.inr (List.mem_singleton.mp hc))
  · exact ((escaped_encodeChar d).isPlain_or_percent c hc).imp_right .inl

theorem not_mem_formComponent (hplain : ¬ IsPlain c) (hpercent : c ≠ '%') (hplus : c ≠ '+') :
    c ∉ (formComponent s).toList := fun h =>
  (mem_formComponent h).elim hplain fun h => h.elim hpercent hplus

theorem ampersand_not_mem_formComponent (s : String) : '&' ∉ (formComponent s).toList :=
  not_mem_formComponent (by simp only [IsPlain]; decide) (by decide) (by decide)

theorem equals_not_mem_formComponent (s : String) : '=' ∉ (formComponent s).toList :=
  not_mem_formComponent (by simp only [IsPlain]; decide) (by decide) (by decide)

theorem map_plusAsSpace_formComponent (s : String) :
    (formComponent s).toList.map plusAsSpace =
      s.toList.flatMap fun c => if c = ' ' then [' '] else encodeChar isUnreserved c := by
  have hplus : ¬ IsPlain '+' := by
    simp only [IsPlain]
    decide
  rw [toList_formComponent, List.map_flatMap]
  refine List.flatMap_congr fun c _ => ?_
  split_ifs
  · rfl
  · refine (List.map_congr_left fun d hd => if_neg fun he => ?_).trans (List.map_id _)
    rcases (escaped_encodeChar c).isPlain_or_percent d hd with h | h
    · exact hplus (he ▸ h)
    · rw [he] at h
      exact absurd h (by decide)

theorem decode_spaced (cs : List Char) :
    decode (cs.flatMap fun c => if c = ' ' then [' '] else encodeChar isUnreserved c) =
      cs.flatMap String.utf8EncodeChar := by
  induction cs with
  | nil => rfl
  | cons c cs ih =>
    rw [List.flatMap_cons, List.flatMap_cons, ← ih]
    split_ifs with hspace
    · rw [hspace, List.singleton_append, decode_cons_of_ne (by decide)]
    · rw [encodeChar, decode_flatMap_encodeByte (by decide)]

theorem readComponent_formComponent (s : String) : readComponent (formComponent s).toList = s := by
  rw [readComponent, map_plusAsSpace_formComponent, decode_spaced]
  exact Utf8.decodeLossy_encode s

/-! ### Pairs -/

/-- A pair as it stands in a form. -/
def writtenPair (p : String × String) : List Char :=
  (formComponent p.1).toList ++ '=' :: (formComponent p.2).toList

theorem readPair_writtenPair (p : String × String) : readPair (writtenPair p) = p := by
  obtain ⟨hfirst, hrest⟩ := takeWhile_dropWhile_ne_append (equals_not_mem_formComponent p.1)
    (formComponent p.2).toList
  rw [readPair, writtenPair, hfirst, hrest, List.drop_one, List.tail_cons, readComponent_formComponent, readComponent_formComponent]

theorem ampersand_not_mem_writtenPair (p : String × String) : '&' ∉ writtenPair p := by
  rw [writtenPair, List.mem_append, List.mem_cons, not_or, not_or]
  exact ⟨ampersand_not_mem_formComponent p.1, by decide, ampersand_not_mem_formComponent p.2⟩

theorem toList_form (pairs : List (String × String)) :
    (form pairs).toList = ['&'].intercalate (pairs.map writtenPair) := by
  have hsign : "&".toList = ['&'] := rfl
  rw [form, String.toList_intercalate, List.map_map, hsign]
  refine congrArg _ (List.map_congr_left fun p _ => ?_)
  simp only [Function.comp_apply, String.toList_append, writtenPair, List.append_assoc]
  rfl

theorem mem_form {pairs : List (String × String)} (h : c ∈ (form pairs).toList) :
    IsPlain c ∨ c ∈ ['%', '+', '=', '&'] := by
  have hcomponent : ∀ s, c ∈ (formComponent s).toList → IsPlain c ∨ c ∈ ['%', '+', '=', '&'] := by
    intro s hc
    refine (mem_formComponent hc).imp_right ?_
    rintro (rfl | rfl) <;> decide
  rw [toList_form] at h
  rcases eq_or_exists_of_mem_intercalate h with rfl | ⟨part, hpart, hc⟩
  · exact .inr (by decide)
  · obtain ⟨p, -, rfl⟩ := List.mem_map.mp hpart
    rcases List.mem_append.mp hc with hc | hc
    · exact hcomponent _ hc
    · rcases List.mem_cons.mp hc with rfl | hc
      · exact .inr (by decide)
      · exact hcomponent _ hc

theorem readForm_form (pairs : List (String × String)) : readForm (form pairs) = pairs := by
  cases pairs with
  | nil => rfl
  | cons p ps =>
    have hsigns : ∀ cs ∈ (p :: ps).map writtenPair, '&' ∉ cs :=
      List.forall_mem_map.mpr fun q _ => ampersand_not_mem_writtenPair q
    have hfilled : ∀ cs ∈ (p :: ps).map writtenPair, (!cs.isEmpty) = true :=
      List.forall_mem_map.mpr fun q _ => by simp [writtenPair]
    rw [readForm, toList_form, List.splitOn_intercalate '&' hsigns (by simp),
      List.filter_eq_self.mpr hfilled, List.map_map]
    exact (List.map_congr_left fun q _ => readPair_writtenPair q).trans (List.map_id _)

end HttpContract.Percent
