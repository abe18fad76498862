import HttpContract.Proofs.Lists
import HttpContract.Proofs.Number.Layout
import HttpContract.Proofs.Text.Quoted
import HttpContract.Schema.OfType
import HttpContract.Text.Printable
import Mathlib

/-!
# Literals of values

`Literal.scan?` reads the literal that a text begins with: a token of the quoted, the numeric or the word
kind, and the value it denotes. The values with a literal are those of `Value.IsLiteral`: each one is read
back from its source form, whatever stops the token behind it (`scan?_append`), and nothing else is ever
read (`isLiteral_of_scan?`).
-/

namespace HttpContract

open Number

namespace Value

/-- The values that a literal can denote. -/
def IsLiteral : Value → Prop
  | .null | .bool _ | .int _ | .text _ | .bytes _ => True
  | .float x => x.isFinite = true
  | _ => False

end Value

/-! ### Values of whole literals -/

namespace TypeExpr
variable {s : String} {c : Char} {cs : List Char} {v : Value}

theorem literalValue?_of_head (hs : s.toList = c :: cs) (hword : c ≠ 'N' ∧ c ≠ 'T' ∧ c ≠ 'F') :
    literalValue? s = match Quoted.read? .none s, Quoted.readBytes? s with
      | some t, _ => some (.text t)
      | none, some bs => some (.bytes bs)
      | none, none =>
        (s.toInt?.map Value.int).orElse fun _ => ((float? s).filter (·.isFinite)).map .float := by
  unfold literalValue?
  split
  · exact absurd (List.cons.inj hs).1.symm hword.1
  · exact absurd (List.cons.inj hs).1.symm hword.2.1
  · exact absurd (List.cons.inj hs).1.symm hword.2.2
  · rfl

theorem read?_of_head (hs : s.toList = c :: cs) (hc : ¬ Quoted.IsDelimiter c) :
    Quoted.read? .none s = none := by
  unfold Quoted.read?
  rw [hs]
  exact if_neg hc

theorem readBytes?_of_head (hs : s.toList = c :: cs) (hc : c ≠ 'b') : Quoted.readBytes? s = none := by
  unfold Quoted.readBytes?
  rw [hs]
  split
  · next h => exact absurd (List.cons.inj h).1 hc
  · rfl

theorem literalValue?_of_numberChar (hs : s.toList = c :: cs) (hc : isNumberChar c = true) :
    literalValue? s =
      (s.toInt?.map Value.int).orElse fun _ => ((float? s).filter (·.isFinite)).map .float := by
  have hne : ∀ d : Char, isNumberChar d = false → c ≠ d := by
    rintro d hd rfl
    exact Bool.false_ne_true (hd.symm.trans hc)
  rw [literalValue?_of_head hs ⟨hne _ (by decide), hne _ (by decide), hne _ (by decide)⟩,
    read?_of_head hs (not_or.mpr ⟨hne _ (by decide), hne _ (by decide)⟩),
    readBytes?_of_head hs (hne _ (by decide))]

theorem isLiteral_of_literalValue? (h : literalValue? s = some v) : v.IsLiteral := by
  unfold literalValue? at h
  split at h
  · cases h; trivial
  · cases h; trivial
  · cases h; trivial
  · split at h
    · cases h; trivial
    · cases h; trivial
    · cases hi : s.toInt? with
      | some i =>
        rw [hi] at h
        cases h
        trivial
      | none =>
        rw [hi, Option.map_none, Option.orElse_none] at h
        obtain ⟨x, hx, rfl⟩ := Option.map_eq_some_iff.mp h
        exact (Option.filter_eq_some_iff.mp hx).2

end TypeExpr

/-! ### Source forms of values -/

namespace Value
open TypeExpr

/-- What a source form that denotes a value looks like: a word, a quoted text, quoted bytes or a number. -/
inductive Form : List Char → Prop
  | word {cs : List Char} (h : cs ∈ ["None".toList, "True".toList, "False".toList]) : Form cs
  | text (cs : List Char) : Form (Quoted.encode cs)
  | bytes (bs : Bytes) : Form (Quoted.bytes bs).toList
  | number {d : Char} {cs : List Char} (negative : Bool) (hd : d.isDigit = true)
    (hcs : ∀ c ∈ cs, isNumberChar c = true) (hzero : d = '0' → cs.head?.all (!·.isDigit)) :
    Form ((if negative then ['-'] else []) ++ d :: cs)

theorem toList_natLiteral (n : Nat) : ∃ d cs, (toString n).toList = d :: cs ∧ d.isDigit = true ∧
    (∀ c ∈ cs, isNumberChar c = true) ∧ (d = '0' → cs.head?.all (!·.isDigit)) := by
  have hdigits := allDigits_toDigits n
  rw [Nat.toString_eq_repr, Nat.toList_repr]
  cases h : Nat.toDigits 10 n with
  | nil => exact absurd h Nat.toDigits_ne_nil
  | cons d cs =>
    rw [h] at hdigits
    refine ⟨d, cs, rfl, hdigits d List.mem_cons_self,
      fun c hc => isNumberChar_of_isDigit (hdigits c (List.mem_cons_of_mem d hc)), ?_⟩
    rintro rfl
    rcases Nat.eq_zero_or_pos n with rfl | hn
    · rw [Nat.toDigits_zero] at h
      rw [(List.cons.inj h).2.symm]
      rfl
    · exact absurd (congrArg List.head? h) (Binary64.head?_toDigits hn)

theorem form_int (i : Int) : Form (toString i).toList := by
  cases i with
  | ofNat n =>
    obtain ⟨d, cs, h, hd, hcs, hzero⟩ := toList_natLiteral n
    show Form (toString n).toList
    rw [h]
    exact .number false hd hcs hzero
  | negSucc n =>
    obtain ⟨d, cs, h, hd, hcs, hzero⟩ := toList_natLiteral (n + 1)
    show Form ("-" ++ toString (n + 1)).toList
    rw [String.toList_append, h]
    exact .number true hd hcs hzero

theorem form_float {x : Binary64} (hx : x.isFinite) : Form (x.write .source).toList := by
  obtain ⟨negative, cs, digits, k, htext, hplain, hspells, -⟩ := Binary64.write_eq .source hx
  obtain ⟨d, rest, rfl, hhead⟩ := hplain.head
  obtain ⟨d', rest', hcons, hd⟩ := hspells.head
  obtain ⟨rfl, rfl⟩ := List.cons.inj hcons
  rw [htext, String.toList_ofList]
  refine .number negative hd (fun c hc => hspells.chars c (List.mem_cons_of_mem d hc)) fun hzero => ?_
  rw [hhead hzero]
  rfl

theorem form_literal {v : Value} (h : v.IsLiteral) : Form v.literal.toList := by
  cases v with
  | null => exact .word (by decide)
  | bool b => cases b <;> exact .word (by decide)
  | int i => exact form_int i
  | float x => exact form_float h
  | text s =>
    show Form (Quoted.text s).toList
    rw [Quoted.text, String.toList_ofList]
    exact .text s.toList
  | bytes bs => exact .bytes bs
  | _ => cases h

theorem toInt?_eq_none_of_mem {s : String} {c : Char} (hc : c ∈ s.toList) (hdigit : c.isDigit = false)
    (hother : c ≠ '_' ∧ c ≠ '-') : s.toInt? = none := by
  have hnat : ∀ t : String, c ∈ t.toList → t.isNat = false := by
    intro t ht
    rw [Bool.eq_false_iff]
    intro h
    rcases (String.isNat_iff.mp h).2.1 c ht with hc | hc
    · exact Bool.false_ne_true (hdigit.symm.trans hc)
    · exact hother.1 hc
  refine String.toInt?_eq_none (Bool.eq_false_iff.mpr fun hint => ?_)
  rcases String.isInt_iff.mp hint with hs | ⟨t, rfl, ht⟩
  · exact Bool.false_ne_true ((hnat s hc).symm.trans hs)
  · rw [String.toList_append, List.mem_append] at hc
    rcases hc with hc | hc
    · exact hother.2 (List.mem_singleton.mp hc)
    · exact Bool.false_ne_true ((hnat t hc).symm.trans ht)

theorem toInt?_toString (i : Int) : (toString i).toInt? = some i := by
  rw [Int.toString_eq_repr]
  exact Int.toInt?_repr i

theorem literalValue?_int (i : Int) : literalValue? (toString i) = some (.int i) := by
  have hnumber : ∃ c cs, (toString i).toList = c :: cs ∧ isNumberChar c = true := by
    cases i with
    | ofNat n =>
      obtain ⟨d, cs, h, hd, -⟩ := toList_natLiteral n
      exact ⟨d, cs, h, isNumberChar_of_isDigit hd⟩
    | negSucc n => exact ⟨'-', _, String.toList_append .., rfl⟩
  obtain ⟨c, cs, hs, hc⟩ := hnumber
  rw [literalValue?_of_numberChar hs hc, toInt?_toString]
  rfl

theorem literalValue?_float {x : Binary64} (hx : x.isFinite = true) :
    literalValue? (x.write .source) = some (.float x) := by
  obtain ⟨negative, cs, digits, k, htext, hplain, hspells, -⟩ := Binary64.write_eq .source hx
  obtain ⟨d, rest, rfl, hd⟩ := hspells.head
  have hnumber : ∃ c cs, (x.write .source).toList = c :: cs ∧ isNumberChar c = true := by
    rw [htext, String.toList_ofList]
    cases negative with
    | true => exact ⟨'-', _, rfl, rfl⟩
    | false => exact ⟨d, rest, rfl, isNumberChar_of_isDigit hd⟩
  have hint : (x.write .source).toInt? = none := by
    have hmem : ∀ c, c ∈ d :: rest → c ∈ (x.write .source).toList := by
      intro c hc
      rw [htext, String.toList_ofList]
      exact List.mem_append_right _ hc
    rcases hplain.mark with h | h
    · exact toInt?_eq_none_of_mem (hmem _ h) (by decide) (by decide)
    · exact toInt?_eq_none_of_mem (hmem _ h) (by decide) (by decide)
  obtain ⟨c, cs, hs, hc⟩ := hnumber
  rw [literalValue?_of_numberChar hs hc, hint, Binary64.float?_write .source hx,
    Option.filter_some_pos hx]
  rfl

theorem literalValue?_text (s : String) : literalValue? (Quoted.text s) = some (.text s) := by
  have hs : (Quoted.text s).toList = Quoted.delimiter s.toList :: _ := String.toList_ofList
  have hword : Quoted.delimiter s.toList ≠ 'N' ∧ Quoted.delimiter s.toList ≠ 'T' ∧
      Quoted.delimiter s.toList ≠ 'F' := by
    rcases Quoted.isDelimiter_delimiter s.toList with h | h <;> rw [h] <;> decide
  rw [literalValue?_of_head hs hword, Quoted.read?_text]

theorem literalValue?_bytes (bs : Bytes) : literalValue? (Quoted.bytes bs) = some (.bytes bs) := by
  have hs : (Quoted.bytes bs).toList = 'b' :: _ := String.toList_ofList
  have hquote : ¬ Quoted.IsDelimiter 'b' := by
    unfold Quoted.IsDelimiter
    decide
  rw [literalValue?_of_head hs (by decide), read?_of_head hs hquote, Quoted.readBytes?_bytes]

/-- A value that a literal can denote is read back from its source form. -/
theorem literalValue?_literal {v : Value} (h : v.IsLiteral) : literalValue? v.literal = some v := by
  cases v with
  | null => rfl
  | bool b => cases b <;> rfl
  | int i => exact literalValue?_int i
  | float x => exact literalValue?_float h
  | text s => exact literalValue?_text s
  | bytes bs => exact literalValue?_bytes bs
  | _ => cases h

end Value

/-! ### Literals at the beginning of a text -/

namespace Literal
variable {q c : Char} {cs rest : List Char} {v : Value}

/-- Whether a character is a quote. -/
def isQuote (c : Char) : Bool := c == '\'' || c == '"'

/-- Splits off what stands between quotes, which does not go over lines, with its quotes. -/
def quoted? (q : Char) (cs : List Char) : Option (List Char × List Char) :=
  (Quoted.closing? [q] cs).bind fun r =>
    if r.1.contains '\n' then none else some (q :: (r.1 ++ [q]), r.2)

/-- Whether a number begins as one does: behind its sign a digit, and no further digit behind a zero. -/
def isNumber (cs : List Char) : Bool :=
  match if cs.head? = some '-' then cs.drop 1 else cs with
  | [] => false
  | d :: ds => d.isDigit && (d != '0' || ds.head?.all (!·.isDigit))

/-- Splits off the token of the literal that a text begins with. -/
def token? (cs : List Char) : Option (List Char × List Char) :=
  match cs with
  | [] => none
  | c :: rest =>
    if isQuote c then quoted? c rest
    else if c = 'b' ∧ rest.head?.any isQuote then
      (quoted? (rest.headD '\'') (rest.drop 1)).map (Quoted.prefixed ['b'])
    else if c.isDigit || c == '-' then
      let number := cs.takeWhile isNumberChar
      if isNumber number then some (number, cs.dropWhile isNumberChar) else none
    else if Text.isNameStart c then
      some (cs.takeWhile Text.isNameChar, cs.dropWhile Text.isNameChar)
    else none

/-- The literal that a text begins with, and what is behind it. -/
def scan? (cs : List Char) : Option (Value × List Char) :=
  (token? cs).bind fun r => (TypeExpr.literalValue? (String.ofList r.1)).map (·, r.2)

/-- The value of a text that is a literal. -/
def read? (s : String) : Option Value :=
  match scan? s.toList with
  | some (v, []) => some v
  | _ => none

/-- Whether a text goes on with nothing that numbers or words are made of. -/
def Stops (rest : List Char) : Prop :=
  ∀ c ∈ rest.head?, isNumberChar c = false ∧ Text.isNameChar c = false

theorem stops_nil : Stops [] := fun _ h => nomatch h

theorem quoted?_flatMap {α : Type} {f : α → List Char} {g : α → Char} (hq : Quoted.IsDelimiter q)
    (h : ∀ a, Quoted.Writes q (g a) (f a)) (as : List α) (rest : List Char) :
    quoted? q (as.flatMap f ++ q :: rest) = some (q :: (as.flatMap f ++ [q]), rest) := by
  have hline : ¬ (as.flatMap f).contains '\n' = true := by
    rw [List.contains_iff_mem]
    exact Quoted.Writes.line_not_mem_flatMap h as
  rw [quoted?, Quoted.Writes.closing?_flatMap hq h, Option.bind_some]
  exact if_neg hline

theorem isQuote_of_isDelimiter (hq : Quoted.IsDelimiter q) : isQuote q = true := by
  rcases hq with rfl | rfl <;> rfl

theorem token?_quote (hq : Quoted.IsDelimiter q) (cs : List Char) : token? (q :: cs) = quoted? q cs := by
  rw [token?, if_pos (isQuote_of_isDelimiter hq)]

theorem token?_bytes (hq : Quoted.IsDelimiter q) (cs : List Char) :
    token? ('b' :: q :: cs) = (quoted? q cs).map (Quoted.prefixed ['b']) := by
  have hquote : 'b' = 'b' ∧ (q :: cs).head?.any isQuote = true := ⟨rfl, isQuote_of_isDelimiter hq⟩
  rw [token?, if_neg (by decide), if_pos hquote]
  rfl

theorem not_isQuote_of_numberChar (h : isNumberChar c = true) : ¬ isQuote c = true ∧ c ≠ 'b' := by
  constructor
  · intro hq
    rw [isQuote, Bool.or_eq_true, beq_iff_eq, beq_iff_eq] at hq
    rcases hq with rfl | rfl <;> exact absurd h (by decide)
  · rintro rfl
    exact absurd h (by decide)

theorem token?_number {d : Char} (negative : Bool) (hd : d.isDigit = true)
    (hcs : ∀ c ∈ cs, isNumberChar c = true) (hzero : d = '0' → cs.head?.all (!·.isDigit))
    (hrest : Stops rest) :
    token? ((if negative then ['-'] else []) ++ d :: cs ++ rest) =
      some ((if negative then ['-'] else []) ++ d :: cs, rest) := by
  set token := (if negative then ['-'] else []) ++ d :: cs with htoken
  have hchars : ∀ c ∈ token, isNumberChar c = true := by
    intro c hc
    rcases List.mem_append.mp hc with hc | hc
    · split_ifs at hc
      · rw [List.mem_singleton.mp hc]
        rfl
      · cases hc
    · rcases List.mem_cons.mp hc with rfl | hc
      · exact isNumberChar_of_isDigit hd
      · exact hcs c hc
  have hfirst : ∃ c cs', token = c :: cs' ∧ (c.isDigit || c == '-') = true := by
    cases negative with
    | true => exact ⟨'-', d :: cs, rfl, rfl⟩
    | false => exact ⟨d, cs, rfl, by rw [hd, Bool.true_or]⟩
  have hnumber : isNumber token = true := by
    have hbehind : (if token.head? = some '-' then token.drop 1 else token) = d :: cs := by
      cases negative with
      | true => rfl
      | false => exact if_neg fun h => ne_of_isDigit hd (by decide) (Option.some.inj h)
    unfold isNumber
    rw [hbehind]
    by_cases h : d = '0'
    · simp [hd, hzero h]
    · simp [hd, h]
  obtain ⟨hspan, hbehind⟩ := takeWhile_append_stops hchars fun c hc => (hrest c hc).1
  obtain ⟨c, cs', hcons, hc⟩ := hfirst
  obtain ⟨hquote, hb⟩ := not_isQuote_of_numberChar (hchars c (hcons ▸ List.mem_cons_self))
  rw [hcons] at hspan hbehind hnumber ⊢
  rw [List.cons_append] at hspan hbehind ⊢
  rw [token?, if_neg hquote, if_neg fun h => hb h.1, if_pos hc]
  simp only [hspan, hbehind]
  exact if_pos hnumber

theorem nameChars_of_word (h : cs ∈ ["None".toList, "True".toList, "False".toList]) :
    ∀ c ∈ cs, Text.isNameChar c = true := by
  have hall : cs.all Char.isAlpha = true := by
    simp only [List.mem_cons, List.not_mem_nil, or_false] at h
    rcases h with rfl | rfl | rfl <;> rfl
  intro c hc
  simp only [Text.isNameChar, Text.isNameStart, List.all_eq_true.mp hall c hc, Bool.true_or]

theorem token?_append (h : Value.Form cs) (hrest : Stops rest) :
    token? (cs ++ rest) = some (cs, rest) := by
  cases h with
  | word h =>
    obtain ⟨hspan, hbehind⟩ := takeWhile_append_stops (nameChars_of_word h) fun c hc => (hrest c hc).2
    simp only [List.mem_cons, List.not_mem_nil, or_false] at h
    rcases h with rfl | rfl | rfl <;> exact congrArg some (Prod.ext hspan hbehind)
  | text cs =>
    have hq := Quoted.isDelimiter_delimiter cs
    rw [Quoted.encode_append, token?_quote hq, quoted?_flatMap hq (Quoted.encodeChar_writes hq)]
    rfl
  | bytes bs =>
    set q := Quoted.delimiter (bs.map Quoted.byteChar) with hdef
    have hq : Quoted.IsDelimiter q := Quoted.isDelimiter_delimiter _
    have hlist : (Quoted.bytes bs).toList = 'b' :: q :: (bs.flatMap (Quoted.encodeByte q) ++ [q]) :=
      String.toList_ofList
    rw [hlist, List.cons_append, List.cons_append, List.append_assoc, List.singleton_append,
      token?_bytes hq, quoted?_flatMap hq (Quoted.encodeByte_writes hq)]
    rfl
  | number negative hd hcs hzero => exact token?_number negative hd hcs hzero hrest

/-- A value that a literal can denote is read back from the beginning of a text. -/
theorem scan?_append (h : v.IsLiteral) (hrest : Stops rest) :
    scan? (v.literal.toList ++ rest) = some (v, rest) := by
  rw [scan?, token?_append (Value.form_literal h) hrest, Option.bind_some, String.ofList_toList,
    Value.literalValue?_literal h]
  rfl

theorem isLiteral_of_scan? (h : scan? cs = some (v, rest)) : v.IsLiteral := by
  obtain ⟨r, -, hr⟩ := Option.bind_eq_some_iff.mp h
  obtain ⟨w, hw, heq⟩ := Option.map_eq_some_iff.mp hr
  obtain ⟨rfl, -⟩ := Prod.mk.inj heq
  exact TypeExpr.isLiteral_of_literalValue? hw

theorem read?_literal (h : v.IsLiteral) : read? v.literal = some v := by
  have hscan := scan?_append h stops_nil
  rw [List.append_nil] at hscan
  rw [read?, hscan]

end Literal

end HttpContract
