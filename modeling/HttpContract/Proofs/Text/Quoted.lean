import Mathlib.Algebra.Group.Nat.Defs
import HttpContract.Proofs.Text.Percent
import HttpContract.Text.Docstring

/-!
# Quoted text

The literal of a text holds its delimiter at both ends and, unless escaped, nowhere else
(`closing?_flatMap_encodeChar`), and what is between them reads as the text
(`content?_flatMap_encodeChar`). Both are laws of `encodeChar`, carried along the text. So literals can
be told from what is behind them (`encode_append_inj`), and a reader that knows longer quotes finds a
literal whole as long as no further quote of its kind follows it (`Docstring.literal?_encode`).
-/

namespace HttpContract

namespace Hex

theorem digit?_lowerDigit : ∀ n < 16, digit? (lowerDigit n) = some n := by decide

theorem lowerDigit_mem : ∀ n < 16, lowerDigit n ∈ "0123456789abcdef".toList := by decide

theorem length_fixed (width n : Nat) : (fixed width n).length = width := by
  induction width generalizing n with
  | zero => rfl
  | succ w ih => rw [fixed, List.length_append, ih, List.length_singleton]

theorem mem_fixed {width n : Nat} {c : Char} (h : c ∈ fixed width n) :
    c ∈ "0123456789abcdef".toList := by
  induction width generalizing n with
  | zero => cases h
  | succ w ih =>
    rcases List.mem_append.mp h with h | h
    · exact ih h
    · rw [List.mem_singleton.mp h]
      exact lowerDigit_mem _ (Nat.mod_lt _ (by decide))

theorem value?_append_singleton (cs : List Char) (c : Char) :
    value? (cs ++ [c]) = (value? cs).bind fun n => (digit? c).map (n * 16 + ·) := by
  unfold value?
  rw [List.foldlM_append]
  cases cs.foldlM (fun n c => (digit? c).map (n * 16 + ·)) 0 with
  | none => rfl
  | some n =>
    show ((digit? c).map (n * 16 + ·) >>= fun n => [].foldlM _ n) = (digit? c).map (n * 16 + ·)
    cases digit? c <;> rfl

theorem value?_fixed {width n : Nat} (h : n < 16 ^ width) : value? (fixed width n) = some n := by
  induction width generalizing n with
  | zero =>
    rw [Nat.lt_one_iff.mp h]
    rfl
  | succ w ih =>
    have hdiv : n / 16 < 16 ^ w := by
      rw [Nat.div_lt_iff_lt_mul (by decide)]
      exact h
    rw [fixed, value?_append_singleton, ih hdiv, Option.bind_some,
      digit?_lowerDigit _ (Nat.mod_lt _ (by decide)), Option.map_some, Nat.div_add_mod']

end Hex

namespace Quoted
variable {q c : Char} {cs ds rest : List Char} {names : CharacterNames}

/-- The characters that delimit literals. -/
def IsDelimiter (q : Char) : Prop := q = '\'' ∨ q = '"'

theorem isDelimiter_delimiter (cs : List Char) : IsDelimiter (delimiter cs) := by
  unfold delimiter
  split
  · exact .inr rfl
  · exact .inl rfl

/-! ### Where a literal ends -/

/-- What is in front of a part of a text that a scan leaves alone. -/
def prefixed (cs : List Char) (r : List Char × List Char) : List Char × List Char := (cs ++ r.1, r.2)

theorem map_prefixed_nil (r : Option (List Char × List Char)) : r.map (prefixed []) = r := by
  cases r <;> rfl

section
variable {delim : List Char}

theorem closing?_delim (delim rest : List Char) : closing? delim (delim ++ rest) = some ([], rest) := by
  have hd : delim.isPrefixOf (delim ++ rest) = true :=
    List.isPrefixOf_iff_prefix.mpr (List.prefix_append delim rest)
  rw [closing?.eq_def, if_pos hd, List.drop_left]

theorem closing?_cons (hd : delim.isPrefixOf (c :: cs) = false) (hc : c ≠ '\\') :
    closing? delim (c :: cs) = (closing? delim cs).map (prefixed [c]) := by
  rw [closing?, if_neg (by rw [hd]; exact Bool.false_ne_true)]
  · rfl
  · intro c' rest h
    exact absurd h hc

theorem closing?_escape (hd : delim.isPrefixOf ('\\' :: c :: cs) = false) :
    closing? delim ('\\' :: c :: cs) = (closing? delim cs).map (prefixed ['\\', c]) := by
  rw [closing?, if_neg (by rw [hd]; exact Bool.false_ne_true)]
  rfl

end

theorem isPrefixOf_singleton (h : q ≠ c) : [q].isPrefixOf (c :: cs) = false := by
  simp [List.isPrefixOf, h]

theorem closing?_of_plain (hplain : ∀ c ∈ cs, c ≠ q ∧ c ≠ '\\') :
    closing? [q] (cs ++ rest) = (closing? [q] rest).map (prefixed cs) := by
  induction cs with
  | nil => rw [List.nil_append, map_prefixed_nil]
  | cons c cs ih =>
    rw [List.forall_mem_cons] at hplain
    obtain ⟨⟨hq, hslash⟩, hcs⟩ := hplain
    rw [List.cons_append, closing?_cons (isPrefixOf_singleton hq.symm) hslash, ih hcs, Option.map_map]
    rfl

theorem closing?_of_escape (hq : q ≠ '\\') (hplain : ∀ c ∈ cs, c ≠ q ∧ c ≠ '\\') :
    closing? [q] ('\\' :: c :: cs ++ rest) = (closing? [q] rest).map (prefixed ('\\' :: c :: cs)) := by
  rw [List.cons_append, List.cons_append, closing?_escape (isPrefixOf_singleton hq),
    closing?_of_plain hplain, Option.map_map]
  congr 1

/-! ### What a character is written as -/

theorem escapedChar?_toNat (c : Char) : escapedChar? c.toNat = some c := by
  have hvalid : c.toNat.isValidChar := c.valid
  have hlt : c.toNat < 0x110000 := by
    rcases hvalid with h | h
    · omega
    · exact h.2
  rw [escapedChar?, if_pos hlt, charOf?, dif_pos hvalid, Option.getD_some]
  rfl

/-- The digits behind the letter of a numeric escape. -/
theorem escaped?_fixed {letter : Char} {width : Nat} (hw : escapeWidth? letter = some width)
    (hc : c.toNat < 16 ^ width) (names : CharacterNames) (rest : List Char) :
    escaped? names (letter :: (Hex.fixed width c.toNat ++ rest)) = some ([c], width + 1) := by
  have htake : (Hex.fixed width c.toNat ++ rest).take width = Hex.fixed width c.toNat :=
    List.take_left' (Hex.length_fixed width c.toNat)
  have hletter : letter ≠ '\n' ∧ letter ≠ 'N' ∧ simpleEscape? letter = none := by
    unfold escapeWidth? at hw
    split at hw
    · decide
    · decide
    · decide
    · cases hw
  obtain ⟨hline, hname, hsimple⟩ := hletter
  rw [escaped?, if_neg hline, if_neg hname, hsimple, hw]
  simp only [htake, Hex.length_fixed, if_true, Hex.value?_fixed hc, Option.bind_some,
    escapedChar?_toNat, Option.map_some]

/-- A named escape is read as the character of that name, if there is one. -/
theorem escaped?_name {name : List Char} (hne : name ≠ []) (hname : '\x7d' ∉ name) (rest : List Char) :
    escaped? names ('N' :: '\x7b' :: (name ++ '\x7d' :: rest)) =
      (names (String.ofList name)).map fun c => ([c], name.length + 3) := by
  have htake : (name ++ '\x7d' :: rest).takeWhile (· != '\x7d') = name := by
    rw [List.takeWhile_append_of_pos fun c hc => by simpa using fun h : c = '\x7d' => hname (h ▸ hc)]
    simp
  have hlength : name.length < (name ++ '\x7d' :: rest).length := by simp
  have hline : ¬ 'N' = '\n' := by decide
  rw [escaped?, if_neg hline, if_pos rfl, named?]
  simp only [htake, if_pos (And.intro hne hlength), Option.map_map]
  rfl

example : escaped? (fun n => if n = "BULLET" then some '\u2022' else none)
    "N\x7bBULLET\x7d!".toList = some (['\u2022'], 9) := by decide +kernel

example : escaped? .none "N\x7bBULLET\x7d!".toList = none := by decide +kernel

theorem encodeChar_cases (hq : IsDelimiter q) (c : Char) :
    (encodeChar q c = [c] ∧ c ≠ q ∧ c ≠ '\\' ∧ Text.isPrintable c = true) ∨
      ∃ d ds, encodeChar q c = '\\' :: d :: ds ∧ (∀ x ∈ ds, x ∈ "0123456789abcdef".toList) ∧
        Text.isPrintable d = true ∧
        ∀ names rest, escaped? names (d :: (ds ++ rest)) = some ([c], ds.length + 1) := by
  have hnil : ∀ x ∈ ([] : List Char), x ∈ "0123456789abcdef".toList := fun _ h => nomatch h
  have hhex : ∀ {width}, ∀ x ∈ Hex.fixed width c.toNat, x ∈ "0123456789abcdef".toList :=
    fun x h => Hex.mem_fixed h
  -- an escape of its own, or else the character itself, or else its number
  unfold encodeChar
  cases he : escape? q c with
  | some e =>
    refine .inr ?_
    unfold escape? at he
    split_ifs at he with hown hn hr ht
    · cases he
      have hread : Text.isPrintable c = true ∧ ∀ names rest, escaped? names (c :: rest) = some ([c], 1) := by
        rcases hown with rfl | rfl
        · rcases hq with rfl | rfl
          · exact ⟨by decide +kernel, fun names rest => rfl⟩
          · exact ⟨by decide +kernel, fun names rest => rfl⟩
        · exact ⟨by decide +kernel, fun names rest => rfl⟩
      exact ⟨c, [], rfl, hnil, hread⟩
    · cases he
      subst hn
      exact ⟨'n', [], rfl, hnil, by decide +kernel, fun names rest => rfl⟩
    · cases he
      subst hr
      exact ⟨'r', [], rfl, hnil, by decide +kernel, fun names rest => rfl⟩
    · cases he
      subst ht
      exact ⟨'t', [], rfl, hnil, by decide +kernel, fun names rest => rfl⟩
  | none =>
    unfold escape? at he
    split_ifs at he with hown hn hr ht
    rw [not_or] at hown
    simp only
    split_ifs with hprintable hx hu
    · exact .inl ⟨rfl, hown.1, hown.2, hprintable⟩
    · refine .inr ⟨'x', _, rfl, hhex, by decide +kernel, fun names rest => ?_⟩
      rw [Hex.length_fixed]
      exact escaped?_fixed rfl hx names rest
    · refine .inr ⟨'u', _, rfl, hhex, by decide +kernel, fun names rest => ?_⟩
      rw [Hex.length_fixed]
      exact escaped?_fixed rfl hu names rest
    · refine .inr ⟨'U', _, rfl, hhex, by decide +kernel, fun names rest => ?_⟩
      rw [Hex.length_fixed]
      refine escaped?_fixed rfl ?_ names rest
      have hvalid : c.toNat.isValidChar := c.valid
      rcases hvalid with h | h <;> omega

theorem not_delimiter_of_hex (hq : IsDelimiter q) {x : Char} (hx : x ∈ "0123456789abcdef".toList) :
    x ≠ q ∧ x ≠ '\\' := by
  have hplain : ∀ x ∈ "0123456789abcdef".toList, x ≠ '\'' ∧ x ≠ '"' ∧ x ≠ '\\' := by simp
  obtain ⟨hsingle, hdouble, hslash⟩ := hplain x hx
  rcases hq with rfl | rfl
  · exact ⟨hsingle, hslash⟩
  · exact ⟨hdouble, hslash⟩

/-- Characters between delimiters that stand for one character: itself, or an escape. -/
inductive Writes (q c : Char) : List Char → Prop
  | plain (hdelimiter : c ≠ q) (hslash : c ≠ '\\') (hline : c ≠ '\n') : Writes q c [c]
  | escape {d : Char} {ds : List Char} (hds : ∀ x ∈ ds, x ∈ "0123456789abcdef".toList) (hline : d ≠ '\n')
    (hread : ∀ names rest, escaped? names (d :: (ds ++ rest)) = some ([c], ds.length + 1)) :
    Writes q c ('\\' :: d :: ds)

theorem encodeChar_writes (hq : IsDelimiter q) (c : Char) : Writes q c (encodeChar q c) := by
  have hline : ∀ {c}, Text.isPrintable c = true → c ≠ '\n' := by
    rintro c hc rfl
    exact absurd hc (by decide +kernel)
  rcases encodeChar_cases hq c with ⟨he, hne, hslash, hprintable⟩ | ⟨d, ds, he, hds, hprintable, hread⟩
  · rw [he]
    exact .plain hne hslash (hline hprintable)
  · rw [he]
    exact .escape hds (hline hprintable) hread

namespace Writes

theorem closing?_append (hq : IsDelimiter q) (h : Writes q c cs) (rest : List Char) :
    closing? [q] (cs ++ rest) = (closing? [q] rest).map (prefixed cs) := by
  have hslash : q ≠ '\\' := by rcases hq with rfl | rfl <;> decide
  cases h with
  | plain hne hback => exact closing?_of_plain (List.forall_mem_singleton.mpr ⟨hne, hback⟩)
  | escape hds => exact closing?_of_escape hslash fun x hx => not_delimiter_of_hex hq (hds x hx)

theorem content?_append (h : Writes q c cs) (rest : List Char) :
    content? names (cs ++ rest) = (content? names rest).map (c :: ·) := by
  cases h with
  | plain _ hback =>
    rw [List.singleton_append, content?]
    intro h
    exact absurd h hback
  | @escape d ds _ _ hread =>
    have hdrop : (d :: (ds ++ rest)).drop (ds.length + 1) = rest := by
      rw [List.drop_succ_cons, List.drop_left]
    rw [List.cons_append, List.cons_append, content?, hread]
    simp only [hdrop]
    rfl

theorem line_not_mem (h : Writes q c cs) : '\n' ∉ cs := by
  cases h with
  | plain _ _ hline => exact fun h => hline (List.mem_singleton.mp h).symm
  | escape hds hline =>
    intro h
    rcases List.mem_cons.mp h with h | h
    · exact absurd h (by decide)
    · rcases List.mem_cons.mp h with h | h
      · exact hline h.symm
      · exact absurd (hds _ h) (by decide)

section
variable {α : Type} {f : α → List Char} {g : α → Char}

theorem closing?_flatMap (hq : IsDelimiter q) (h : ∀ a, Writes q (g a) (f a)) (as : List α)
    (rest : List Char) :
    closing? [q] (as.flatMap f ++ q :: rest) = some (as.flatMap f, rest) := by
  induction as with
  | nil => exact closing?_delim [q] rest
  | cons a as ih =>
    rw [List.flatMap_cons, List.append_assoc, (h a).closing?_append hq, ih]
    rfl

theorem content?_flatMap (h : ∀ a, Writes q (g a) (f a)) (as : List α) :
    content? names (as.flatMap f) = some (as.map g) := by
  induction as with
  | nil => rw [List.flatMap_nil, content?, List.map_nil]
  | cons a as ih => rw [List.flatMap_cons, (h a).content?_append, ih, Option.map_some, List.map_cons]

theorem line_not_mem_flatMap (h : ∀ a, Writes q (g a) (f a)) (as : List α) : '\n' ∉ as.flatMap f := by
  intro hmem
  obtain ⟨a, -, ha⟩ := List.mem_flatMap.mp hmem
  exact (h a).line_not_mem ha

end

end Writes

/-! ### Escapes -/

/-- Whether the character behind a text is escaped: behind a backslash it is, unless that one is itself. -/
def escapes (cs : List Char) : Bool := cs.foldl (fun escaped c => !escaped && c == '\\') false

theorem escapes_append (h : escapes cs = false) (ds : List Char) : escapes (cs ++ ds) = escapes ds := by
  unfold escapes at h ⊢
  rw [List.foldl_append, h]

theorem escapes_of_plain (h : ∀ c ∈ cs, c ≠ '\\') : escapes cs = false := by
  induction cs with
  | nil => rfl
  | cons c cs ih =>
    obtain ⟨hc, hcs⟩ := List.forall_mem_cons.mp h
    have hhead : escapes [c] = false := beq_eq_false_iff_ne.mpr hc
    exact (escapes_append hhead cs).trans (ih hcs)

/-- Text in which each delimiter is escaped, and which does not escape what is behind it. -/
structure Guards (q : Char) (cs : List Char) : Prop where
  escaped : ∀ front rest, cs = front ++ q :: rest → escapes front = true
  open_end : escapes cs = false

namespace Guards

theorem nil : Guards q [] := ⟨fun _ _ h => by simp at h, rfl⟩

theorem append (hcs : Guards q cs) (hds : Guards q ds) : Guards q (cs ++ ds) := by
  refine ⟨fun front rest h => ?_, (escapes_append hcs.open_end ds).trans hds.open_end⟩
  rcases List.append_eq_append_iff.mp h with ⟨more, rfl, hmore⟩ | ⟨more, hmore, hrest⟩
  · exact (escapes_append hcs.open_end more).trans (hds.escaped _ _ hmore)
  · cases more with
    | nil => cases hds.escaped [] rest hrest.symm
    | cons c more =>
      obtain ⟨rfl, -⟩ := List.cons.inj hrest
      exact hcs.escaped _ _ hmore

theorem flatMap {α : Type} {f : α → List Char} (h : ∀ a, Guards q (f a)) (as : List α) :
    Guards q (as.flatMap f) := by
  induction as with
  | nil => exact .nil
  | cons a as ih => exact (h a).append ih

end Guards

theorem Writes.guards (hq : IsDelimiter q) (h : Writes q c cs) : Guards q cs := by
  cases h with
  | plain hdelimiter hslash =>
    refine ⟨fun front rest h => ?_, escapes_of_plain (List.forall_mem_singleton.mpr hslash)⟩
    have hmem : q ∈ [c] := by simp [h]
    exact absurd (List.mem_singleton.mp hmem).symm hdelimiter
  | @escape d ds hds =>
    have hplain : ∀ x ∈ ds, x ≠ q ∧ x ≠ '\\' := fun x hx => not_delimiter_of_hex hq (hds x hx)
    have hdigits : escapes ds = false := escapes_of_plain fun x hx => (hplain x hx).2
    refine ⟨fun front rest h => ?_, hdigits⟩
    match front, h with
    | [], h =>
      obtain ⟨hslash, -⟩ := List.cons.inj h
      rcases hq with rfl | rfl <;> cases hslash
    | [_], h =>
      obtain ⟨rfl, -⟩ := List.cons.inj h
      rfl
    | _ :: _ :: front, h =>
      have hmem : q ∈ ds := by simp [(List.cons.inj (List.cons.inj h).2).2]
      exact absurd rfl (hplain q hmem).1

theorem content?_encodeChar (hq : IsDelimiter q) (c : Char) (rest : List Char) :
    content? names (encodeChar q c ++ rest) = (content? names rest).map (c :: ·) :=
  (encodeChar_writes hq c).content?_append rest

theorem closing?_flatMap_encodeChar (hq : IsDelimiter q) (cs rest : List Char) :
    closing? [q] (cs.flatMap (encodeChar q) ++ q :: rest) =
      some (cs.flatMap (encodeChar q), rest) :=
  Writes.closing?_flatMap hq (encodeChar_writes hq) cs rest

theorem content?_flatMap_encodeChar (hq : IsDelimiter q) (names : CharacterNames) (cs : List Char) :
    content? names (cs.flatMap (encodeChar q)) = some cs :=
  (Writes.content?_flatMap (encodeChar_writes hq) cs).trans (congrArg some cs.map_id')

theorem encode_append (cs rest : List Char) : encode cs ++ rest = delimiter cs ::
    (cs.flatMap (encodeChar (delimiter cs)) ++ delimiter cs :: rest) := by
  rw [encode, List.cons_append, List.append_assoc, List.singleton_append]

/-- A literal can be told from what is behind it, whatever that is. -/
theorem encode_append_inj {rest' : List Char} (h : encode cs ++ rest = encode ds ++ rest') :
    cs = ds ∧ rest = rest' := by
  have hq := isDelimiter_delimiter cs
  rw [encode_append, encode_append, List.cons.injEq] at h
  obtain ⟨hdelimiter, h⟩ := h
  rw [← hdelimiter] at h
  have hclosing := closing?_flatMap_encodeChar hq cs rest
  rw [h, closing?_flatMap_encodeChar hq, Option.some.injEq, Prod.mk.injEq] at hclosing
  obtain ⟨hbody, hrest⟩ := hclosing
  have hcontent := content?_flatMap_encodeChar hq .none cs
  rw [← hbody, content?_flatMap_encodeChar hq] at hcontent
  exact ⟨(Option.some.inj hcontent).symm, hrest.symm⟩

theorem text_append_inj {s t rest rest' : String} (h : text s ++ rest = text t ++ rest') :
    s = t ∧ rest = rest' := by
  have hchars := congrArg String.toList h
  rw [String.toList_append, String.toList_append, text, text, String.toList_ofList,
    String.toList_ofList] at hchars
  obtain ⟨hs, hrest⟩ := encode_append_inj hchars
  exact ⟨String.toList_inj.mp hs, String.toList_inj.mp hrest⟩

theorem isPrintable_of_mem_encodeChar (hq : IsDelimiter q) (c : Char) :
    ∀ x ∈ encodeChar q c, Text.isPrintable x = true := by
  have hhex : ∀ x ∈ "0123456789abcdef".toList, Text.isPrintable x = true :=
    List.all_eq_true.mp (by decide +kernel)
  have hslash : Text.isPrintable '\\' = true := by decide +kernel
  rcases encodeChar_cases hq c with ⟨he, -, -, hprintable⟩ | ⟨d, ds, he, hds, hprintable, -⟩
  · rw [he]
    exact List.forall_mem_singleton.mpr hprintable
  · rw [he]
    exact List.forall_mem_cons.mpr ⟨hslash, List.forall_mem_cons.mpr
      ⟨hprintable, fun x hx => hhex x (hds x hx)⟩⟩

/-- A literal is printed whole: it goes over no line and holds no NUL. -/
theorem isPrintable_of_mem_encode (cs : List Char) : ∀ x ∈ encode cs, Text.isPrintable x = true := by
  have hq := isDelimiter_delimiter cs
  have hdelimiter : Text.isPrintable (delimiter cs) = true := by
    rcases hq with hq | hq <;> rw [hq] <;> decide +kernel
  refine List.forall_mem_cons.mpr ⟨hdelimiter, List.forall_mem_append.mpr
    ⟨fun x hx => ?_, List.forall_mem_singleton.mpr hdelimiter⟩⟩
  obtain ⟨c, -, hc⟩ := List.mem_flatMap.mp hx
  exact isPrintable_of_mem_encodeChar hq c x hc

theorem not_mem_encode {x : Char} (hx : Text.isPrintable x = false) (cs : List Char) :
    x ∉ encode cs := by
  intro h
  rw [isPrintable_of_mem_encode cs x h] at hx
  cases hx

/-- A literal that is not empty does not begin with its delimiter twice. -/
theorem head?_encodeChar_ne (hq : IsDelimiter q) (c : Char) : (encodeChar q c).head? ≠ some q := by
  have hslash : '\\' ≠ q := by rcases hq with rfl | rfl <;> decide
  rcases encodeChar_cases hq c with ⟨he, hne, -, -⟩ | ⟨d, ds, he, -, -, -⟩
  · rw [he]
    exact fun h => hne (Option.some.inj h)
  · rw [he]
    exact fun h => hslash (Option.some.inj h)

/-! ### Literals read back -/

theorem read?_text (s : String) : read? names (text s) = some s := by
  have hq := isDelimiter_delimiter s.toList
  have hquote : delimiter s.toList = '\'' ∨ delimiter s.toList = '"' := hq
  simp only [read?, text, String.toList_ofList, encode, if_pos hquote,
    closing?_flatMap_encodeChar hq _ [], content?_flatMap_encodeChar hq, Option.map_some,
    String.ofList_toList]

theorem escape?_writes (hq : IsDelimiter q) {e : List Char} (h : escape? q c = some e) :
    Writes q c e := by
  have hchar := encodeChar_writes hq c
  rw [encodeChar, h] at hchar
  exact hchar

/-- The character that stands for a byte. -/
def byteChar (b : UInt8) : Char := Char.ofNat b.toNat

theorem toNat_byteChar (b : UInt8) : (byteChar b).toNat = b.toNat := by
  have hlt : b.toNat < 256 := b.toNat_lt
  have hvalid : b.toNat.isValidChar := .inl (by omega)
  rw [byteChar, Char.ofNat, dif_pos hvalid]
  rfl

theorem encodeByte_writes (hq : IsDelimiter q) (b : UInt8) :
    Writes q (byteChar b) (encodeByte q b) := by
  have hnat := toNat_byteChar b
  have hlt : b.toNat < 256 := b.toNat_lt
  have hbyte : Char.ofNat b.toNat = byteChar b := rfl
  simp only [encodeByte, hbyte]
  cases he : escape? q (byteChar b) with
  | some e => exact escape?_writes hq he
  | none =>
    unfold escape? at he
    split_ifs at he with hown hn hr ht
    rw [not_or] at hown
    simp only
    split_ifs
    · exact .plain hown.1 hown.2 hn
    · refine .escape (fun x hx => Hex.mem_fixed hx) (by decide) fun names rest => ?_
      rw [← hnat, Hex.length_fixed]
      exact escaped?_fixed rfl (by omega) names rest

theorem mapM_byteChar (bs : Bytes) : (bs.map byteChar).mapM (fun c =>
    if c.toNat < 256 then some (UInt8.ofNat c.toNat) else none) = some bs := by
  induction bs with
  | nil => rfl
  | cons b bs ih =>
    have hlt : b.toNat < 256 := b.toNat_lt
    rw [List.map_cons, List.mapM_cons, ih, toNat_byteChar, if_pos hlt, UInt8.ofNat_toNat]
    rfl

theorem readBytes?_bytes (bs : Bytes) : readBytes? (bytes bs) = some bs := by
  set q := delimiter (bs.map byteChar) with hdef
  have hq : IsDelimiter q := isDelimiter_delimiter _
  have hquote : q = '\'' ∨ q = '"' := hq
  have hread : read? .none (String.ofList (q :: (bs.flatMap (encodeByte q) ++ [q]))) =
      some (String.ofList (bs.map byteChar)) := by
    simp only [read?, String.toList_ofList, if_pos hquote,
      Writes.closing?_flatMap hq (encodeByte_writes hq) bs [],
      Writes.content?_flatMap (encodeByte_writes hq), Option.map_some]
  show readBytes? (String.ofList ('b' :: q :: (bs.flatMap (encodeByte q) ++ [q]))) = some bs
  simp only [readBytes?, String.toList_ofList, hread, Option.bind_some, mapM_byteChar]

end Quoted

namespace Docstring
open Quoted

theorem isPrefixOf_of_head? {q : Char} {cs ds : List Char} (h : cs.head? ≠ some q) :
    (q :: ds).isPrefixOf cs = false := by
  cases cs with
  | nil => rfl
  | cons c cs =>
    have hne : q ≠ c := fun he => h (congrArg some he.symm)
    simp [List.isPrefixOf, hne]

theorem opening?_flatMap_encodeChar {q : Char} (hq : IsDelimiter q) (cs : List Char)
    {rest : List Char} (h : rest.head? ≠ some q) :
    opening? (q :: (cs.flatMap (encodeChar q) ++ q :: rest)) =
      some ([q], cs.flatMap (encodeChar q) ++ q :: rest) := by
  have hshort : [q, q].isPrefixOf (cs.flatMap (encodeChar q) ++ q :: rest) = false := by
    cases cs with
    | nil =>
      show (q == q && [q].isPrefixOf rest) = false
      rw [isPrefixOf_of_head? h, Bool.and_false]
    | cons c cs =>
      refine isPrefixOf_of_head? ?_
      have hhead := head?_encodeChar_ne hq c
      rw [List.flatMap_cons]
      cases he : encodeChar q c with
      | nil =>
        rcases encodeChar_cases hq c with ⟨hc, -⟩ | ⟨d, ds, hc, -⟩
        · rw [he] at hc
          cases hc
        · rw [he] at hc
          cases hc
      | cons x xs =>
        rw [he] at hhead
        exact hhead
  have hdelimiter : q = '"' ∨ q = '\'' := hq.symm
  rw [opening?, if_pos hdelimiter, hshort]
  rfl

/-- A literal is read whole, as its text, if no further quote of its kind follows it. -/
theorem literal?_encode (cs : List Char) {rest : List Char} (h : rest.head? ≠ some (delimiter cs)) :
    literal? names (encode cs ++ rest) = some (cs, rest) := by
  have hq := isDelimiter_delimiter cs
  have hline : '\n' ∉ cs.flatMap (encodeChar (delimiter cs)) :=
    Writes.line_not_mem_flatMap (encodeChar_writes hq) cs
  rw [encode_append, literal?, opening?_flatMap_encodeChar hq cs h]
  simp only [Option.bind_eq_bind, Option.bind_some, closing?_flatMap_encodeChar hq]
  rw [if_neg (by simpa using hline), content?_flatMap_encodeChar hq]
  rfl

end Docstring

end HttpContract
