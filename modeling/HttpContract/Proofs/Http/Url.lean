import HttpContract.Proofs.Http.Attempts
import HttpContract.Proofs.PathTemplate.Segments
import HttpContract.Proofs.Text.Percent
import Mathlib.Data.List.TakeWhile

/-!
# Paths of addresses

The path of an address is text that is encoded and then rid of its dot segments. Encoding keeps the
segments of a path apart (`Url.segments_quote`), and a path without dot segments stays as it is. So the
path of a request that is sent has the segments that were asked for exactly if none of them is made of
dots (`HttpSender.outgoing_path`).
-/

namespace HttpContract

namespace Percent
variable {safe : Char → Bool}

/-! ### Encoding where the percent sign is safe -/

theorem isHexDigit_iff (c : Char) : isHexDigit c = true ↔
    '0' ≤ c ∧ c ≤ '9' ∨ 'a' ≤ c ∧ c ≤ 'f' ∨ 'A' ≤ c ∧ c ≤ 'F' := by
  unfold isHexDigit Hex.digit?
  split_ifs <;> simp_all

theorem encodeChar_of_safe {c : Char} (h : safe c = true) (hc : c.toNat < 0x80) :
    encodeChar safe c = [c] := by
  have hb : (UInt8.ofNat c.toNat).toNat = c.toNat := Utf8.toNat_ofNat_of_lt (by omega)
  have hlt : UInt8.ofNat c.toNat < 0x80 := UInt8.lt_iff_toNat_lt.mpr (by rw [hb]; exact hc)
  have he := utf8EncodeChar_ofNat hlt
  rw [hb, Char.ofNat_toNat] at he
  have hbyte : encodeByte safe (UInt8.ofNat c.toNat) = [c] := by
    simp only [encodeByte, hb, Char.ofNat_toNat]
    rw [if_pos ⟨hlt, h⟩]
  rw [encodeChar, he, List.flatMap_singleton, hbyte]

theorem ofNat_eq_of_mem_utf8EncodeChar {c : Char} {b : UInt8} (h : b ∈ String.utf8EncodeChar c)
    (hb : b < 0x80) : Char.ofNat b.toNat = c := by
  have hb' : b.toNat < 0x80 := UInt8.lt_iff_toNat_lt.mp hb
  have hc : c.toNat < 0x110000 := by rcases Utf8.scalar_cases c with h | h <;> omega
  have hval : c.val.toNat = c.toNat := rfl
  simp only [String.utf8EncodeChar, hval] at h
  split_ifs at h with h1 h2 h3 <;> simp only [List.mem_cons, List.not_mem_nil, or_false] at h
  · rw [h, Utf8.toNat_ofNat_of_lt (by omega), Char.ofNat_toNat]
  · rcases h with rfl | rfl <;> rw [Utf8.toNat_ofNat_of_lt (by omega)] at hb' <;> omega
  · rcases h with rfl | rfl | rfl <;> rw [Utf8.toNat_ofNat_of_lt (by omega)] at hb' <;> omega
  · rcases h with rfl | rfl | rfl | rfl <;> rw [Utf8.toNat_ofNat_of_lt (by omega)] at hb' <;> omega

theorem mem_encodeChar {c x : Char} (h : x ∈ encodeChar safe c) :
    x = c ∨ x = '%' ∨ x ∈ "0123456789ABCDEF".toList := by
  obtain ⟨b, hb, hx⟩ := List.mem_flatMap.mp h
  have hlt : b.toNat < 256 := b.toNat_lt
  simp only [encodeByte] at hx
  split_ifs at hx with hsafe
  · rw [List.mem_singleton.mp hx]
    exact .inl (ofNat_eq_of_mem_utf8EncodeChar hb hsafe.1)
  · simp only [triplet, List.mem_cons, List.not_mem_nil, or_false] at hx
    rcases hx with rfl | rfl | rfl
    · exact .inr (.inl rfl)
    · exact .inr (.inr (Hex.upperDigit_mem _ (by omega)))
    · exact .inr (.inr (Hex.upperDigit_mem _ (by omega)))

theorem percent_mem_encodeChar {c : Char} (h : safe c = false) : '%' ∈ encodeChar safe c := by
  obtain ⟨b, hb⟩ := List.exists_mem_of_ne_nil _ (String.utf8EncodeChar_ne_nil (c := c))
  refine List.mem_flatMap.mpr ⟨b, hb, ?_⟩
  simp only [encodeByte]
  split_ifs with hsafe
  · rw [ofNat_eq_of_mem_utf8EncodeChar hb hsafe.1, h] at hsafe
    exact absurd hsafe.2 Bool.false_ne_true
  · exact List.mem_cons_self

/-- A class of characters for paths: ASCII, with the percent sign and the digits of triplets. -/
structure IsPathClass (safe : Char → Bool) : Prop where
  ascii : ∀ c, safe c = true → c.toNat < 0x80
  percent : safe '%' = true
  digit : ∀ c, isHexDigit c = true → safe c = true

namespace IsPathClass

theorem encodeChar_eq (h : IsPathClass safe) {c : Char} (hc : safe c = true) :
    encodeChar safe c = [c] := encodeChar_of_safe hc (h.ascii c hc)

/-- Triplets that are there are characters that are safe. -/
theorem quoteKeeping_eq (h : IsPathClass safe) (cs : List Char) :
    quoteKeeping safe cs = cs.flatMap (encodeChar safe) := by
  fun_induction quoteKeeping safe cs with
  | case1 => rfl
  | case2 a b cs hd ih =>
    rw [Bool.and_eq_true] at hd
    rw [List.flatMap_cons, List.flatMap_cons, List.flatMap_cons, h.encodeChar_eq h.percent,
      h.encodeChar_eq (h.digit a hd.1), h.encodeChar_eq (h.digit b hd.2), ih]
    rfl
  | case3 a b cs hd ih => rw [ih]; rfl
  | case4 c cs hne ih => rw [ih, List.flatMap_cons]

theorem safe_of_mem_encodeChar (h : IsPathClass safe) {c x : Char}
    (hx : x ∈ encodeChar safe c) : safe x = true := by
  obtain ⟨b, -, hx⟩ := List.mem_flatMap.mp hx
  simp only [encodeByte] at hx
  split_ifs at hx with hb
  · rw [List.mem_singleton.mp hx]
    exact hb.2
  · have hb : b.toNat < 256 := b.toNat_lt
    have hdigit : ∀ d ∈ "0123456789ABCDEF".toList, isHexDigit d = true :=
      forall_mem_upperDigits rfl
    simp only [triplet, List.mem_cons, List.not_mem_nil, or_false] at hx
    rcases hx with rfl | rfl | rfl
    · exact h.percent
    · exact h.digit _ (hdigit _ (Hex.upperDigit_mem _ (by omega)))
    · exact h.digit _ (hdigit _ (Hex.upperDigit_mem _ (by omega)))

theorem flatMap_encodeChar_of_safe (h : IsPathClass safe) {cs : List Char}
    (hcs : ∀ c ∈ cs, safe c = true) : cs.flatMap (encodeChar safe) = cs := by
  induction cs with
  | nil => rfl
  | cons c cs ih =>
    rw [List.forall_mem_cons] at hcs
    rw [List.flatMap_cons, h.encodeChar_eq hcs.1, ih hcs.2, List.singleton_append]

theorem quoteKeeping_quoteKeeping (h : IsPathClass safe) (cs : List Char) :
    quoteKeeping safe (quoteKeeping safe cs) = quoteKeeping safe cs := by
  rw [h.quoteKeeping_eq, h.quoteKeeping_eq]
  refine h.flatMap_encodeChar_of_safe fun x hx => ?_
  obtain ⟨c, -, hx⟩ := List.mem_flatMap.mp hx
  exact h.safe_of_mem_encodeChar hx

end IsPathClass

/-! ### Escaped text -/

theorem slash_not_mem_segment (s : String) : '/' ∉ (segment s).toList := by
  intro h
  have hplain : ¬ IsPlain '/' := by
    simp only [IsPlain]
    decide
  rcases (escaped_segment s).isPlain_or_percent _ h with h | h
  · exact hplain h
  · exact absurd h (by decide)

end Percent

namespace Url

/-! ### The class of path characters -/

/-- The signs that a path does not hold. -/
def unsafeSigns : List Char := ['"', '#', '<', '>', '?', '`', '\x7b', '\x7d']

theorem isPathSafe_iff (c : Char) : isPathSafe c = true ↔
    0x20 < c.toNat ∧ c.toNat < 0x7f ∧ c ∉ unsafeSigns := by
  have hsigns : "\"#<>?`\x7b\x7d".toList = unsafeSigns := rfl
  rw [← hsigns]
  simp only [isPathSafe, isPrintableSign, Bool.and_eq_true, decide_eq_true_eq, Bool.not_eq_true',
    List.contains_eq_mem, decide_eq_false_iff_not, and_assoc]

theorem isPathSafe_of_le {c : Char} {low high : Char} (hlow : 0x20 < low.toNat)
    (hhigh : high.toNat < 0x7f) (hnot : unsafeSigns.all fun d => ¬ (low ≤ d ∧ d ≤ high))
    (h : low ≤ c ∧ c ≤ high) : isPathSafe c = true := by
  have hl : low.toNat ≤ c.toNat := UInt32.le_iff_toNat_le.mp h.1
  have hh : c.toNat ≤ high.toNat := UInt32.le_iff_toNat_le.mp h.2
  simp only [List.all_eq_true, decide_eq_true_eq] at hnot
  exact (isPathSafe_iff c).mpr ⟨by omega, by omega, fun hc => hnot c hc h⟩

theorem isPathClass_isPathSafe : Percent.IsPathClass isPathSafe where
  ascii c h := by
    have := ((isPathSafe_iff c).mp h).2.1
    omega
  percent := by decide
  digit c h := by
    rcases (Percent.isHexDigit_iff c).mp h with h | h | h
    · exact isPathSafe_of_le (by decide) (by decide) rfl h
    · exact isPathSafe_of_le (by decide) (by decide) rfl h
    · exact isPathSafe_of_le (by decide) (by decide) rfl h

theorem isPathSafe_of_isPlain {c : Char} (h : Percent.IsPlain c) : isPathSafe c = true := by
  rcases h with h | h | h | h
  · exact isPathSafe_of_le (by decide) (by decide) rfl h
  · exact isPathSafe_of_le (by decide) (by decide) rfl h
  · exact isPathSafe_of_le (by decide) (by decide) rfl h
  · simp only [List.mem_cons, List.not_mem_nil, or_false] at h
    rcases h with rfl | rfl | rfl | rfl <;> rfl

theorem isPathSafe_of_mem_segment {s : String} {c : Char} (h : c ∈ (Percent.segment s).toList) :
    isPathSafe c = true := by
  rcases (Percent.escaped_segment s).isPlain_or_percent c h with hc | rfl
  · exact isPathSafe_of_isPlain hc
  · decide

/-- A path as it is sent. -/
def encodePath (cs : List Char) : List Char := cs.flatMap (Percent.encodeChar isPathSafe)

theorem toList_quote (s : String) : (quote isPathSafe s).toList = encodePath s.toList := by
  rw [quote, String.toList_ofList, isPathClass_isPathSafe.quoteKeeping_eq, encodePath]

theorem encodePath_encodePath (cs : List Char) : encodePath (encodePath cs) = encodePath cs := by
  have h := isPathClass_isPathSafe.quoteKeeping_quoteKeeping cs
  rwa [isPathClass_isPathSafe.quoteKeeping_eq, isPathClass_isPathSafe.quoteKeeping_eq] at h

theorem encodePath_segment (s : String) :
    encodePath (Percent.segment s).toList = (Percent.segment s).toList :=
  isPathClass_isPathSafe.flatMap_encodeChar_of_safe fun _ => isPathSafe_of_mem_segment

theorem keeps_encodeChar : Keeps (Percent.encodeChar isPathSafe) '/' '/' where
  separator := isPathClass_isPathSafe.encodeChar_eq (by decide)
  item c hc h := by
    rcases Percent.mem_encodeChar h with h | h | h
    · exact hc h.symm
    · exact absurd h (by decide)
    · exact absurd h (by decide)

theorem slash_not_mem_encodePath {cs : List Char} (h : '/' ∉ cs) : '/' ∉ encodePath cs := by
  intro hslash
  obtain ⟨c, hc, hslash⟩ := List.mem_flatMap.mp hslash
  exact keeps_encodeChar.item c (fun he => h (he ▸ hc)) hslash

/-! ### Dot segments -/

theorem resolve_of_not_dots (done : List (List Char)) {s : List Char} (h : isDots s = false) :
    resolve done s = done ++ [s] := by
  simp only [isDots, Bool.or_eq_false_iff, beq_eq_false_iff_ne] at h
  rw [resolve, if_neg h.1, if_neg h.2]

/-- What holds of the segments before a step, and of the next one if it is no dot segment, holds of
those after it. -/
theorem forall_mem_resolve {P : List Char → Prop} {done : List (List Char)} {s : List Char}
    (hdone : ∀ x ∈ done, P x) (hs : isDots s = false → P s) : ∀ x ∈ resolve done s, P x := by
  cases hd : isDots s with
  | false =>
    rw [resolve_of_not_dots done hd]
    exact List.forall_mem_append.mpr ⟨hdone, List.forall_mem_singleton.mpr (hs hd)⟩
  | true =>
    unfold resolve
    split_ifs with h1 h2 h3
    · exact hdone
    · exact hdone
    · exact fun x h => hdone x (List.mem_of_mem_dropLast h)
    · simp [isDots, h1, h2] at hd

theorem forall_mem_foldl_resolve {P : List Char → Prop} {segments done : List (List Char)}
    (hdone : ∀ s ∈ done, P s) (h : ∀ s ∈ segments, isDots s = false → P s) :
    ∀ s ∈ segments.foldl resolve done, P s := by
  induction segments generalizing done with
  | nil => exact hdone
  | cons s segments ih =>
    rw [List.forall_mem_cons] at h
    exact ih (forall_mem_resolve hdone h.1) h.2

theorem forall_mem_resolved {P : List Char → Prop} {segments : List (List Char)}
    (h : ∀ s ∈ segments, isDots s = false → P s) : ∀ s ∈ resolved segments, P s :=
  forall_mem_foldl_resolve (fun _ h => nomatch h) h

theorem foldl_resolve_of_not_dots (done : List (List Char)) {segments : List (List Char)}
    (h : ∀ s ∈ segments, isDots s = false) : segments.foldl resolve done = done ++ segments := by
  induction segments generalizing done with
  | nil => exact (List.append_nil _).symm
  | cons s segments ih =>
    rw [List.forall_mem_cons] at h
    rw [List.foldl_cons, resolve_of_not_dots done h.1, ih _ h.2, List.append_assoc,
      List.singleton_append]

theorem exists_foldl_resolve_cons (rest segments : List (List Char)) :
    ∃ rest', segments.foldl resolve ([] :: rest) = [] :: rest' := by
  induction segments generalizing rest with
  | nil => exact ⟨rest, rfl⟩
  | cons s segments ih =>
    have hstep : ∃ rest', resolve ([] :: rest) s = [] :: rest' := by
      unfold resolve
      split_ifs with h1 h2 h3
      · exact ⟨rest, rfl⟩
      · exact ⟨rest, rfl⟩
      · cases rest with
        | nil => exact absurd (.inr rfl) h3
        | cons r rest => exact ⟨(r :: rest).dropLast, rfl⟩
      · exact ⟨rest ++ [s], rfl⟩
    obtain ⟨rest', h⟩ := hstep
    rw [List.foldl_cons, h]
    exact ih rest'

theorem toList_withoutDots (path : String) :
    (withoutDots path).toList = ['/'].intercalate (resolved (segments path)) := by
  unfold withoutDots
  split_ifs with h
  · rw [String.toList_ofList]
  · have hd : ∀ s ∈ segments path, isDots s = false := by simpa using h
    rw [resolved, foldl_resolve_of_not_dots [] hd, List.nil_append, segments,
      List.intercalate_splitOn]

theorem withoutDots_of_not_dots {path : String} (h : ∀ s ∈ segments path, isDots s = false) :
    withoutDots path = path := by
  rw [withoutDots, if_neg (by simpa using h)]

theorem not_dots_segments_withoutDots (path : String) :
    ∀ s ∈ segments (withoutDots path), isDots s = false := by
  rw [segments, toList_withoutDots]
  have hslash : ∀ s ∈ resolved (segments path), '/' ∉ s :=
    forall_mem_resolved fun s hs _ => not_mem_of_mem_splitOn hs
  by_cases hnil : resolved (segments path) = []
  · rw [hnil]
    exact List.forall_mem_singleton.mpr rfl
  · rw [List.splitOn_intercalate '/' hslash hnil]
    exact forall_mem_resolved fun s _ h => h

theorem encodePath_of_percent_not_mem {cs : List Char} (h : '%' ∉ encodePath cs) :
    encodePath cs = cs := by
  refine isPathClass_isPathSafe.flatMap_encodeChar_of_safe fun c hc => ?_
  by_contra hsafe
  exact h (List.mem_flatMap.mpr ⟨c, hc, Percent.percent_mem_encodeChar (by simpa using hsafe)⟩)

theorem isDots_encodePath {cs : List Char} (h : isDots cs = false) :
    isDots (encodePath cs) = false := by
  by_contra hd
  have hp : '%' ∉ encodePath cs := by
    simp only [isDots, Bool.not_eq_false, Bool.or_eq_true, beq_iff_eq] at hd
    rcases hd with hd | hd <;> rw [hd] <;> decide
  rw [encodePath_of_percent_not_mem hp] at hd
  exact hd h

theorem segments_quote (path : String) :
    segments (quote isPathSafe path) = (segments path).map encodePath := by
  rw [segments, toList_quote]
  exact keeps_encodeChar.splitOn_flatMap path.toList

/-- A path that has been taken apart and encoded once stays as it is. -/
theorem withoutDots_quote_withoutDots (path : String) :
    withoutDots (quote isPathSafe (withoutDots path)) = quote isPathSafe (withoutDots path) := by
  refine withoutDots_of_not_dots ?_
  rw [segments_quote]
  exact List.forall_mem_map.mpr fun s hs => isDots_encodePath (not_dots_segments_withoutDots path s hs)

theorem quote_quote (path : String) :
    quote isPathSafe (quote isPathSafe path) = quote isPathSafe path := by
  apply String.toList_injective
  rw [toList_quote, toList_quote, encodePath_encodePath]

theorem toList_withoutDots_append {path base : String} {body : List Char}
    {rest : List (List Char)} (hbase : segments base = [] :: rest)
    (hbody : ∀ s ∈ body.splitOn '/', isDots s = false)
    (hpath : path.toList = base.toList ++ '/' :: body) :
    (withoutDots path).toList = (withoutDots base).toList ++ '/' :: body := by
  have hsegments : segments path = segments base ++ body.splitOn '/' := by
    rw [segments, hpath, List.splitOn_append_cons_self]
    rfl
  obtain ⟨rest', hrest⟩ := exists_foldl_resolve_cons [] rest
  have hresolved : resolved (segments base) = [] :: rest' := by
    rw [hbase]
    exact hrest
  rw [toList_withoutDots, toList_withoutDots, hsegments, resolved, List.foldl_append,
    foldl_resolve_of_not_dots _ hbody, ← resolved, intercalate_append '/' (by rw [hresolved]; simp)
    (List.splitOn_ne_nil '/' body), List.intercalate_splitOn]

/-! ### Reading an address -/

theorem cut_of_not_mem {separator : Char} {cs : List Char} (h : separator ∉ cs) :
    cut separator cs = (cs, none) := by
  have hdrop : cs.dropWhile (· != separator) = [] := by
    rw [List.dropWhile_eq_nil_iff]
    intro c hc
    simpa using fun he : c = separator => h (he ▸ hc)
  rw [cut, hdrop]

theorem not_mem_of_cut {separator : Char} {cs : List Char} (h : (cut separator cs).2 = none) :
    separator ∉ cs := by
  intro hmem
  unfold cut at h
  split at h
  · cases h
  · next hdrop =>
    have := List.dropWhile_eq_nil_iff.mp hdrop separator hmem
    simp at this

theorem build?_eq_some {scheme authority path : String} {query fragment : Option String} {u : Url}
    (h : build? scheme authority path query fragment = some u) :
    u.scheme = Text.lower scheme ∧ u.query = query.map (quote isQuerySafe) ∧
      u.fragment = fragment.map (quote isFragmentSafe) ∧
      Host.encode? (splitAuthority authority).2.1 = some u.host ∧
      (scheme ≠ "" → u.path = quote isPathSafe (withoutDots path)) := by
  unfold build? at h
  cases hh : Host.encode? (splitAuthority authority).2.1 with
  | none => simp only [hh, bind, Option.bind] at h; cases h
  | some host =>
    cases hp : port? scheme (splitAuthority authority).2.2 with
    | none => simp only [hh, hp, bind, Option.bind] at h; cases h
    | some port =>
      simp only [hh, hp, bind, Option.bind] at h
      split_ifs at h with h1 h2
      · cases h
        exact ⟨rfl, rfl, rfl, rfl, fun _ => rfl⟩
      · cases h
        refine ⟨rfl, rfl, rfl, rfl, fun hs => absurd ?_ h2⟩
        simp [hs]

/-- An address without query and fragment is made of its scheme, its authority and its path. -/
theorem build?_of_parse? {s : String} {u : Url} (h : parse? s = some u) (hs : '#' ∉ s.toList)
    (hq : '?' ∉ s.toList) :
    build? (String.ofList (splitScheme s.toList).1)
      (String.ofList (splitPath (splitScheme s.toList).2).1)
      (String.ofList (splitPath (splitScheme s.toList).2).2) none none = some u := by
  unfold parse? at h
  split_ifs at h
  simp only [cut_of_not_mem hs, cut_of_not_mem hq] at h
  exact h

theorem not_mem_of_parse? {s : String} {u : Url} (h : parse? s = some u) (hf : u.fragment = none)
    (hq : u.query = none) : '#' ∉ s.toList ∧ '?' ∉ s.toList := by
  unfold parse? at h
  split_ifs at h
  simp only at h
  obtain ⟨-, hquery, hfragment, -⟩ := build?_eq_some h
  rw [hf] at hfragment
  rw [hq] at hquery
  have hs : '#' ∉ s.toList := not_mem_of_cut (Option.map_eq_none_iff.mp hfragment.symm)
  rw [cut_of_not_mem hs] at hquery
  exact ⟨hs, not_mem_of_cut (Option.map_eq_none_iff.mp hquery.symm)⟩

/-! ### More behind an address -/

theorem exists_of_splitScheme {cs : List Char} (h : (splitScheme cs).1 ≠ []) :
    ∃ rest, cs.head?.any Char.isAlpha = true ∧
      cs = cs.takeWhile isSchemeChar ++ ':' :: rest ∧
      splitScheme cs = (cs.takeWhile isSchemeChar, rest) := by
  unfold splitScheme at h ⊢
  by_cases ha : cs.head?.any Char.isAlpha = true
  · simp only [if_pos ha] at h ⊢
    have hcs := List.takeWhile_append_dropWhile (p := isSchemeChar) (l := cs)
    have hdrop : cs.drop (cs.takeWhile isSchemeChar).length = cs.dropWhile isSchemeChar := by
      have hleft := @List.drop_left _ (cs.takeWhile isSchemeChar) (cs.dropWhile isSchemeChar)
      rwa [hcs] at hleft
    rw [hdrop] at h ⊢
    split at h
    · next rest hrest =>
      rw [hrest] at hcs
      exact ⟨rest, ha, hcs.symm, rfl⟩
    · exact absurd rfl h
  · simp only [if_neg ha] at h
    split at h <;> exact absurd rfl h

theorem splitScheme_append {cs : List Char} (h : (splitScheme cs).1 ≠ []) (ds : List Char) :
    splitScheme (cs ++ ds) = ((splitScheme cs).1, (splitScheme cs).2 ++ ds) := by
  obtain ⟨rest, ha, hcs, hsplit⟩ := exists_of_splitScheme h
  have hcolon : isSchemeChar ':' = false := by decide
  have hds : cs ++ ds = cs.takeWhile isSchemeChar ++ ':' :: (rest ++ ds) := by
    conv_lhs => rw [hcs, List.append_assoc, List.cons_append]
  have htake : (cs ++ ds).takeWhile isSchemeChar = cs.takeWhile isSchemeChar := by
    rw [hds, takeWhile_append_cons hcolon]
    conv_rhs => rw [hcs, takeWhile_append_cons hcolon]
  have hhead : (cs ++ ds).head? = cs.head? := by
    cases cs with
    | nil => cases ha
    | cons c cs => rfl
  rw [hsplit]
  unfold splitScheme
  rw [hhead, if_pos ha, htake]
  simp only [hds, List.drop_left]

theorem splitPath_append {cs : List Char} (h : (splitPath cs).1 ≠ []) (ds : List Char) :
    splitPath (cs ++ '/' :: ds) = ((splitPath cs).1, (splitPath cs).2 ++ '/' :: ds) := by
  unfold splitPath at h
  split at h
  · next cs =>
    rw [List.cons_append, List.cons_append, splitPath, splitPath,
      takeWhile_append_cons (p := (· != '/')) (by decide),
      dropWhile_append_cons (p := (· != '/')) (by decide)]
  · exact absurd rfl h

theorem exists_splitOn_splitPath {cs : List Char} (h : (splitPath cs).1 ≠ []) :
    ∃ rest, (splitPath cs).2.splitOn '/' = [] :: rest := by
  unfold splitPath at h ⊢
  split at h
  · next cs =>
    simp only
    cases hd : cs.dropWhile (· != '/') with
    | nil => exact ⟨[], rfl⟩
    | cons c ds =>
      have hc : c = '/' := by
        have := List.head?_dropWhile_not (· != '/') cs
        rw [hd] at this
        simpa using this
      exact ⟨ds.splitOn '/', by rw [List.splitOn_cons_eq_if_modifyHead, if_pos (by simp [hc])]⟩
  · exact absurd rfl h

theorem ne_empty_of_encode? {authority host : String} (h : host ≠ "")
    (he : Host.encode? (splitAuthority authority).2.1 = some host) : authority ≠ "" := by
  rintro rfl
  have hempty : Host.encode? (splitAuthority "").2.1 = some "" := by decide +kernel
  rw [hempty] at he
  exact h (Option.some.inj he).symm

theorem ne_empty_of_lower {s : String} (h : Text.lower s ≠ "") : s ≠ "" := by
  rintro rfl
  have hempty : Text.lower "" = "" := by decide +kernel
  exact h hempty

/-- What the text of an absolute address is made of. -/
theorem exists_of_parse? {s : String} {u : Url} (h : parse? s = some u)
    (habsolute : u.isAbsolute = true) (hs : '#' ∉ s.toList) (hq : '?' ∉ s.toList) :
    (splitScheme s.toList).1 ≠ [] ∧ (splitPath (splitScheme s.toList).2).1 ≠ [] ∧
      u.path = quote isPathSafe
        (withoutDots (String.ofList (splitPath (splitScheme s.toList).2).2)) := by
  have hbuild := build?_of_parse? h hs hq
  obtain ⟨hscheme, -, -, hhost, hpath⟩ := build?_eq_some hbuild
  simp only [isAbsolute, Bool.and_eq_true, bne_iff_ne] at habsolute
  have hname : String.ofList (splitScheme s.toList).1 ≠ "" :=
    ne_empty_of_lower (hscheme ▸ habsolute.1)
  have hauthority := ne_empty_of_encode? habsolute.2 hhost
  exact ⟨by simpa using hname, by simpa using hauthority, hpath hname⟩

theorem isAbsolute_of_build? {scheme authority path path' : String} {u u' : Url}
    (h : build? scheme authority path none none = some u)
    (h' : build? scheme authority path' none none = some u') : u'.isAbsolute = u.isAbsolute := by
  obtain ⟨hscheme, -, -, hhost, -⟩ := build?_eq_some h
  obtain ⟨hscheme', -, -, hhost', -⟩ := build?_eq_some h'
  rw [hhost] at hhost'
  rw [isAbsolute, isAbsolute, hscheme, hscheme', Option.some.inj hhost']

/-- A path behind the text of an absolute address without query and fragment belongs to the path of
that address. -/
theorem parse?_append {base path : String} {address u : Url} (hbase : parse? base = some address)
    (habsolute : address.isAbsolute = true) (hquery : address.query = none)
    (hfragment : address.fragment = none) {body : List Char} (hpath : path.toList = '/' :: body)
    (hsign : '#' ∉ body) (hmark : '?' ∉ body) (hu : parse? (base ++ path) = some u) :
    u.isAbsolute = true ∧ ∃ (front : String) (rest : List (List Char)),
      segments front = [] :: rest ∧ address.path = quote isPathSafe (withoutDots front) ∧
      u.path = quote isPathSafe (withoutDots (front ++ path)) := by
  obtain ⟨hs, hq⟩ := not_mem_of_parse? hbase hfragment hquery
  have hs' : '#' ∉ (base ++ path).toList := by simp [hs, hpath, hsign]
  have hq' : '?' ∉ (base ++ path).toList := by simp [hq, hpath, hmark]
  obtain ⟨hscheme, hauthority, haddress⟩ := exists_of_parse? hbase habsolute hs hq
  -- the scheme and the authority end before the path
  have hrest : splitPath (splitScheme (base ++ path).toList).2 =
      ((splitPath (splitScheme base.toList).2).1,
        (splitPath (splitScheme base.toList).2).2 ++ path.toList) := by
    rw [String.toList_append, hpath, splitScheme_append hscheme, splitPath_append hauthority]
  have hname : (splitScheme (base ++ path).toList).1 = (splitScheme base.toList).1 := by
    rw [String.toList_append, splitScheme_append hscheme]
  have hbuild := build?_of_parse? hu hs' hq'
  rw [hrest, hname] at hbuild
  have habsolute' : u.isAbsolute = true := by
    rw [isAbsolute_of_build? (build?_of_parse? hbase hs hq) hbuild, habsolute]
  obtain ⟨-, -, hupath⟩ := exists_of_parse? hu habsolute' hs' hq'
  obtain ⟨rest, hsplit⟩ := exists_splitOn_splitPath hauthority
  refine ⟨habsolute', String.ofList (splitPath (splitScheme base.toList).2).2, rest,
    by rw [segments, String.toList_ofList, hsplit], haddress, ?_⟩
  rw [hupath, hrest, String.ofList_append, String.ofList_toList]

/-! ### Sending a path -/

theorem build?_of_withQuery? {u u' : Url} {query : Option String}
    (h : u.withQuery? query = some u') :
    build? u.scheme u.authority u.path query u.fragment = some u' := by
  simp only [withQuery?] at h
  split_ifs at h
  exact h

/-- An address that paths stand behind: absolute, without query and fragment. -/
structure IsBase (u : Url) : Prop where
  absolute : u.isAbsolute = true
  query : u.query = none
  fragment : u.fragment = none

/-- Text that belongs to the path it stands in: no query and no fragment begins in it. -/
structure IsPathText (s : List Char) : Prop where
  query : '?' ∉ s
  fragment : '#' ∉ s

theorem splitOn_intercalate_map_encodePath {segments : List (List Char)}
    (hslash : ∀ s ∈ segments, '/' ∉ s) (hne : segments ≠ []) :
    (['/'].intercalate (segments.map encodePath)).splitOn '/' = segments.map encodePath := by
  have h := keeps_encodeChar.splitOn_flatMap (['/'].intercalate segments)
  rwa [keeps_encodeChar.flatMap_intercalate, List.splitOn_intercalate '/' hslash hne] at h

theorem not_dots_splitOn_intercalate {segments : List (List Char)}
    (hslash : ∀ s ∈ segments, '/' ∉ s) (h : ∀ s ∈ segments, isDots s = false) :
    ∀ s ∈ (['/'].intercalate segments).splitOn '/', isDots s = false := by
  by_cases hnil : segments = []
  · rw [hnil]
    exact List.forall_mem_singleton.mpr rfl
  · rwa [List.splitOn_intercalate '/' hslash hnil]

theorem isDots_encodePath_of_isDots {s : List Char} (h : isDots s = true) :
    isDots (encodePath s) = true := by
  rw [isDots, Bool.or_eq_true, beq_iff_eq, beq_iff_eq] at h
  rcases h with rfl | rfl <;> decide

theorem isDots_segment {s : String} :
    isDots (Percent.segment s).toList = false ↔ s ≠ "." ∧ s ≠ ".." := by
  have hone : (Percent.segment ".").toList = ['.'] := by decide +kernel
  have htwo : (Percent.segment "..").toList = ['.', '.'] := by decide +kernel
  have heq : ∀ dots, (Percent.segment s).toList = (Percent.segment dots).toList ↔ s = dots :=
    fun dots => ⟨fun h => Percent.segment_injective (String.toList_injective h),
      fun h => by rw [h]⟩
  rw [isDots, Bool.or_eq_false_iff, beq_eq_false_iff_ne, beq_eq_false_iff_ne, ← htwo, ← hone, Ne,
    Ne, heq, heq]

end Url

/-- Segments of a request go over the wire as they are, encoded, behind the path of the service, unless
there are dot segments among them. -/
theorem HttpSender.outgoing_path {c : HttpSender} {r : Request} {id : String} {out : SentRequest}
    {base : Url} {segments : List (List Char)} (hout : c.outgoing r id = .ok out)
    (hread : Url.parse? (c.settings.baseAddress r.service) = some base) (hbase : base.IsBase)
    (hpath : r.path.toList = '/' :: ['/'].intercalate segments)
    (hslash : ∀ s ∈ segments, '/' ∉ s) (htext : ∀ s ∈ segments, Url.IsPathText s) :
    out.url.path.toList =
        base.path.toList ++ '/' :: ['/'].intercalate (segments.map Url.encodePath) ↔
      ∀ s ∈ segments, Url.isDots s = false := by
  obtain ⟨address, haddress, -, hurl⟩ := outgoing_eq_ok hout
  obtain ⟨u, hu, hrooted⟩ := Option.bind_eq_some_iff.mp haddress
  obtain ⟨habsolute, front, rest, hfront, hbasePath, hupath⟩ := Url.parse?_append hread
    hbase.absolute hbase.query hbase.fragment hpath
    (not_mem_intercalate (by decide) fun s hs => (htext s hs).fragment)
    (not_mem_intercalate (by decide) fun s hs => (htext s hs).query) hu
  rw [Url.rooted?, if_pos habsolute] at hrooted
  obtain rfl := Option.some.inj hrooted
  have hscheme : u.scheme ≠ "" := by
    rw [Url.isAbsolute, Bool.and_eq_true, bne_iff_ne] at habsolute
    exact habsolute.1
  obtain ⟨-, -, -, -, houtPath⟩ := Url.build?_eq_some (Url.build?_of_withQuery? hurl)
  have hkept : out.url.path = u.path := by
    rw [houtPath hscheme, hupath, Url.withoutDots_quote_withoutDots, Url.quote_quote]
  rw [hkept]
  constructor
  · intro h s hs
    -- what has been taken apart has no dot segments left
    have hnot : ∀ s ∈ Url.segments u.path, Url.isDots s = false := by
      rw [hupath, Url.segments_quote]
      exact List.forall_mem_map.mpr fun s hs =>
        Url.isDots_encodePath (Url.not_dots_segments_withoutDots _ s hs)
    rw [Url.segments, h, List.splitOn_append_cons_self,
      Url.splitOn_intercalate_map_encodePath hslash (List.ne_nil_of_mem hs)] at hnot
    have hencoded := hnot _ (List.mem_append_right _ (List.mem_map_of_mem hs))
    by_contra hdots
    rw [Url.isDots_encodePath_of_isDots (by simpa using hdots)] at hencoded
    cases hencoded
  · intro hdots
    have hbody := Url.not_dots_splitOn_intercalate hslash hdots
    rw [hupath, hbasePath, Url.toList_quote, Url.toList_quote,
      Url.toList_withoutDots_append hfront hbody (by rw [String.toList_append, hpath])]
    show List.flatMap _ _ = List.flatMap _ _ ++ _
    rw [List.flatMap_append, List.flatMap_cons, Url.keeps_encodeChar.separator,
      Url.keeps_encodeChar.flatMap_intercalate]
    rfl

end HttpContract
