import HttpContract.ClientSource
import HttpContract.Proofs.Text.Quoted

/-!
# Docstrings

A docstring is a text between three quotes at each side, as it is. `Docstring.Whole` says of a text
when the quotes behind it are the ones that close it, and `closing?_iff_whole` that this is so: taking
escapes for one character each, the text has no three quotes in it and does not end in one, and its last
backslash does not take the closing quotes for its own. The docstring of a text is one literal, wherever
it stands, exactly if the text is whole and its escapes are well formed (`literal?_docstring`).
-/

namespace HttpContract.Docstring
open Quoted

/-- The quotes at each side of a docstring. -/
def mark : List Char := ['"', '"', '"']

/-- The text with a backslash in place of each escape; none if a backslash ends the text. -/
def bare : List Char → Option (List Char)
  | [] => some []
  | '\\' :: _ :: cs => (bare cs).map ('\\' :: ·)
  | ['\\'] => none
  | c :: cs => (bare cs).map (c :: ·)

/-- A text that the quotes behind it close, and none before. -/
def Whole (cs : List Char) : Prop :=
  ∃ b, bare cs = some b ∧ ¬ mark <:+: b ∧ b.getLast? ≠ some '"'

variable {c : Char} {cs rest : List Char} {names : CharacterNames}

theorem whole_nil : Whole [] := ⟨[], rfl, by decide, by decide⟩

theorem bare_cons (h : c ≠ '\\') : bare (c :: cs) = (bare cs).map (c :: ·) := by
  rw [bare]
  · intro c' rest hc
    exact absurd hc h
  · intro hc
    exact absurd hc h

theorem bare_eq_nil (h : bare cs = some []) : cs = [] := by
  unfold bare at h
  split at h
  · rfl
  · obtain ⟨b, -, hb⟩ := Option.map_eq_some_iff.mp h
    cases hb
  · cases h
  · obtain ⟨b, -, hb⟩ := Option.map_eq_some_iff.mp h
    cases hb

/-- A text begins alike when escapes are taken for backslashes. -/
theorem prefix_bare_iff {m b : List Char} (hm : '\\' ∉ m) (hb : bare cs = some b) :
    m <+: b ↔ m <+: cs := by
  induction m generalizing cs b with
  | nil => exact ⟨fun _ => List.nil_prefix, fun _ => List.nil_prefix⟩
  | cons x m ih =>
    rw [List.mem_cons, not_or] at hm
    obtain ⟨hx, hm⟩ := hm
    unfold bare at hb
    split at hb
    · cases hb
      exact Iff.rfl
    · obtain ⟨b', -, rfl⟩ := Option.map_eq_some_iff.mp hb
      rw [List.cons_prefix_cons, List.cons_prefix_cons]
      exact ⟨fun h => absurd h.1.symm hx, fun h => absurd h.1.symm hx⟩
    · cases hb
    · obtain ⟨b', hb', rfl⟩ := Option.map_eq_some_iff.mp hb
      rw [List.cons_prefix_cons, List.cons_prefix_cons, ih hm hb']

theorem whole_escape : Whole ('\\' :: c :: cs) ↔ Whole cs := by
  have hmark : ∀ b, mark <:+: '\\' :: b ↔ mark <:+: b := by
    intro b
    rw [List.infix_cons_iff]
    exact or_iff_right (by simp [mark, List.cons_prefix_cons])
  have hlast : ∀ b : List Char, ('\\' :: b).getLast? = some '"' ↔ b.getLast? = some '"' := by
    intro b
    cases b with
    | nil => exact ⟨fun h => absurd h (by decide), fun h => absurd h (by decide)⟩
    | cons x xs => rw [List.getLast?_cons_cons]
  unfold Whole
  rw [bare]
  cases bare cs with
  | none => exact ⟨fun ⟨_, h, _⟩ => (nomatch h), fun ⟨_, h, _⟩ => (nomatch h)⟩
  | some b =>
    simp only [Option.map_some, Option.some.injEq, exists_eq_left', hmark, ne_eq, hlast]

theorem whole_cons (hc : c ≠ '\\') (hmark : ¬ mark <+: c :: (cs ++ mark)) :
    Whole (c :: cs) ↔ Whole cs := by
  unfold Whole
  rw [bare_cons hc]
  cases hb : bare cs with
  | none => exact ⟨fun ⟨_, h, _⟩ => (nomatch h), fun ⟨_, h, _⟩ => (nomatch h)⟩
  | some b =>
    have hbegins : ¬ mark <+: c :: b := by
      rw [prefix_bare_iff (by decide) (show bare (c :: cs) = some (c :: b) by rw [bare_cons hc, hb]; rfl)]
      exact fun h => hmark (h.trans (List.prefix_append (c :: cs) mark))
    have hinfix : mark <:+: c :: b ↔ mark <:+: b := List.infix_cons_iff.trans (or_iff_right hbegins)
    have hlast : (c :: b).getLast? = some '"' ↔ b.getLast? = some '"' := by
      cases b with
      | nil =>
        refine ⟨fun h => ?_, fun h => nomatch h⟩
        obtain rfl := bare_eq_nil hb
        obtain rfl := Option.some.inj h
        exact absurd (by decide) hmark
      | cons x xs => rw [List.getLast?_cons_cons]
    simp only [Option.map_some, Option.some.injEq, exists_eq_left', hinfix, ne_eq, hlast]

theorem not_whole_of_mark (hmark : mark <+: c :: (cs ++ mark)) : ¬ Whole (c :: cs) := by
  rintro ⟨b, hb, hinfix, hlast⟩
  have hslash : c ≠ '\\' := by
    rintro rfl
    exact absurd (List.cons_prefix_cons.mp hmark).1 (by decide)
  by_cases hbegins : mark <+: c :: cs
  · exact hinfix ((prefix_bare_iff (by decide) hb).mpr hbegins).isInfix
  · -- the text is one quote or two
    obtain ⟨rfl, htail⟩ := List.cons_prefix_cons.mp hmark
    cases cs with
    | nil =>
      cases hb
      exact hlast rfl
    | cons d cs =>
      obtain ⟨rfl, hthird⟩ := List.cons_prefix_cons.mp htail
      cases cs with
      | nil =>
        cases hb
        exact hlast rfl
      | cons e cs =>
        obtain ⟨rfl, -⟩ := List.cons_prefix_cons.mp hthird
        exact hbegins (List.prefix_append mark cs)

theorem map_prefixed_eq_some_iff {r : Option (List Char × List Char)} {ds : List Char} :
    r.map (prefixed ds) = some (ds ++ cs, rest) ↔ r = some (cs, rest) := by
  cases r with
  | none => exact ⟨fun h => (nomatch h), fun h => (nomatch h)⟩
  | some r =>
    obtain ⟨body, behind⟩ := r
    rw [Option.map_some, Option.some.injEq, Option.some.injEq, prefixed, Prod.mk.injEq, Prod.mk.injEq,
      List.append_cancel_left_eq]

/-- The quotes behind a text close it exactly if it is whole. -/
theorem closing?_iff_whole :
    closing? mark (cs ++ (mark ++ rest)) = some (cs, rest) ↔ Whole cs := by
  induction cs using bare.induct with
  | case1 => exact ⟨fun _ => whole_nil, fun _ => closing?_delim mark rest⟩
  | case2 c cs ih =>
    rw [List.cons_append, List.cons_append, closing?_escape rfl, whole_escape, ← ih]
    exact map_prefixed_eq_some_iff
  | case3 =>
    refine ⟨fun h => ?_, fun ⟨_, h, _⟩ => (nomatch h)⟩
    rw [List.cons_append, List.nil_append, mark, List.cons_append, closing?_escape rfl] at h
    obtain ⟨r, -, hr⟩ := Option.map_eq_some_iff.mp h
    exact absurd (congrArg (·.1.length) hr) (by simp [prefixed])
  | case4 c cs hescape hslash ih =>
    have hc : c ≠ '\\' := by
      rintro rfl
      cases cs with
      | nil => exact hslash rfl rfl
      | cons d ds => exact hescape d ds rfl rfl
    by_cases hmark : mark <+: c :: (cs ++ mark)
    · refine ⟨fun h => ?_, fun h => absurd h (not_whole_of_mark hmark)⟩
      have hd : mark.isPrefixOf (c :: (cs ++ (mark ++ rest))) = true := by
        rw [List.isPrefixOf_iff_prefix, ← List.append_assoc]
        exact hmark.trans (List.prefix_append (c :: (cs ++ mark)) rest)
      rw [List.cons_append, closing?.eq_def, if_pos hd] at h
      cases h
    · have hd : mark.isPrefixOf (c :: (cs ++ (mark ++ rest))) = false := by
        rw [Bool.eq_false_iff, ne_eq, List.isPrefixOf_iff_prefix, ← List.append_assoc]
        intro h
        refine hmark (List.prefix_of_prefix_length_le h (List.prefix_append (c :: (cs ++ mark)) rest) ?_)
        rw [List.length_cons, List.length_append]
        omega
      rw [List.cons_append, closing?_cons hd hc, whole_cons hc hmark, ← ih]
      exact map_prefixed_eq_some_iff

/-! ### Reading -/

theorem eq_of_closing? {delim body behind : List Char} (h : closing? delim cs = some (body, behind)) :
    cs = body ++ (delim ++ behind) := by
  fun_induction closing? delim cs generalizing body behind with
  | case1 cs hd =>
    cases h
    rw [List.nil_append, List.prefix_iff_eq_append.mp (List.isPrefixOf_iff_prefix.mp hd)]
  | case2 => cases h
  | case3 c cs hd ih =>
    obtain ⟨r, hr, he⟩ := Option.map_eq_some_iff.mp h
    cases he
    rw [ih hr]
    rfl
  | case4 c cs hd hescape ih =>
    obtain ⟨r, hr, he⟩ := Option.map_eq_some_iff.mp h
    cases he
    rw [ih hr]
    rfl

/-- What the docstring of a text says: its quotes close it, and its escapes are well formed. -/
def Says (names : CharacterNames) (text : String) (said : List Char) : Prop :=
  Whole text.toList ∧ content? names text.toList = some said

theorem toList_docstring (text : String) :
    (ClientSource.docstring text).toList = mark ++ (text.toList ++ mark) := by
  rw [ClientSource.docstring, String.toList_append, String.toList_append, List.append_assoc]
  rfl

/-- A docstring is one literal, wherever it stands, exactly if it says something. -/
theorem literal?_docstring {text : String} {said : List Char} :
    literal? names ((ClientSource.docstring text).toList ++ rest) = some (said, rest) ↔ Says names text said := by
  have hshape : (ClientSource.docstring text).toList ++ rest =
      mark ++ (text.toList ++ (mark ++ rest)) := by
    rw [toList_docstring, List.append_assoc, List.append_assoc]
  have hopening : opening? (mark ++ (text.toList ++ (mark ++ rest))) =
      some (mark, text.toList ++ (mark ++ rest)) := rfl
  rw [hshape, literal?, hopening]
  simp only [Option.bind_eq_bind, Option.bind_some]
  constructor
  · intro h
    obtain ⟨⟨body, behind⟩, hclosing, h⟩ := Option.bind_eq_some_iff.mp h
    rw [if_neg fun hlong => absurd hlong.1 (by decide)] at h
    obtain ⟨t, ht, h⟩ := Option.bind_eq_some_iff.mp h
    cases h
    have hbody : text.toList = body := List.append_cancel_right (eq_of_closing? hclosing)
    subst hbody
    exact ⟨closing?_iff_whole.mp hclosing, ht⟩
  · rintro ⟨hwhole, hsaid⟩
    rw [closing?_iff_whole.mpr hwhole, Option.bind_some,
      if_neg fun hlong => absurd hlong.1 (by decide), hsaid]
    rfl

theorem read?_docstring {text : String} {said : List Char} (h : Says names text said) :
    read? names (ClientSource.docstring text) = some (String.ofList said) := by
  have hliteral : literal? names (ClientSource.docstring text).toList = some (said, []) := by
    have hnil : literal? names ((ClientSource.docstring text).toList ++ []) = some (said, []) :=
      literal?_docstring.mpr h
    rwa [List.append_nil] at hnil
  have hgap : (ClientSource.docstring text).toList.dropWhile isGap =
      (ClientSource.docstring text).toList := by
    rw [toList_docstring]
    rfl
  have htexts : ∀ n, texts? names (n + 2) (ClientSource.docstring text).toList = some said := by
    intro n
    rw [texts?, hgap]
    obtain ⟨behind, hbegins⟩ : ∃ behind, (ClientSource.docstring text).toList = '"' :: behind :=
      ⟨_, toList_docstring text⟩
    rw [hbegins] at hliteral ⊢
    show (literal? names ('"' :: behind)).bind _ = _
    rw [hliteral]
    show some (said ++ []) = some said
    rw [List.append_nil]
  have hlength : (ClientSource.docstring text).toList.length + 1 = text.toList.length + 5 + 2 := by
    rw [toList_docstring]
    simp only [List.length_append, mark, List.length_cons, List.length_nil]
    omega
  rw [read?, hlength, htexts, Option.map_some]

/-! ### Literals in docstrings -/

theorem content?_append (h : '\\' ∉ cs) : content? names (cs ++ rest) = (content? names rest).map (cs ++ ·) := by
  induction cs with
  | nil => cases hrest : content? names rest <;> simp [hrest]
  | cons c cs ih =>
    rw [List.mem_cons, not_or] at h
    rw [List.cons_append, content?, ih h.2, Option.map_map]
    · rfl
    · exact fun hc => absurd hc.symm h.1

theorem content?_flatMap_encodeChar_append {q : Char} (hq : IsDelimiter q) (cs rest : List Char) :
    content? names (cs.flatMap (encodeChar q) ++ rest) = (content? names rest).map (cs ++ ·) := by
  induction cs with
  | nil => cases hrest : content? names rest <;> simp [hrest]
  | cons c cs ih =>
    rw [List.flatMap_cons, List.append_assoc, content?_encodeChar hq, ih, Option.map_map]
    rfl

theorem bare_append (h : '\\' ∉ cs) : bare (cs ++ rest) = (bare rest).map (cs ++ ·) := by
  induction cs with
  | nil => cases hrest : bare rest <;> simp [hrest]
  | cons c cs ih =>
    rw [List.mem_cons, not_or] at h
    rw [List.cons_append, bare_cons (Ne.symm h.1), ih h.2, Option.map_map]
    rfl

/-- A text with a run of others in the place of each character that is no quote. -/
inductive Spread : List Char → List Char → Prop
  | nil : Spread [] []
  | quote {xs cs : List Char} (h : Spread xs cs) : Spread ('"' :: xs) ('"' :: cs)
  | other {run xs cs : List Char} {c : Char} (hc : c ≠ '"') (hrun : '"' ∉ run) (hne : run ≠ [])
      (h : Spread xs cs) : Spread (run ++ xs) (c :: cs)

namespace Spread
variable {xs tail : List Char}

theorem count (h : Spread xs cs) : xs.count '"' = cs.count '"' := by
  induction h with
  | nil => rfl
  | quote _ ih => rw [List.count_cons_self, List.count_cons_self, ih]
  | other hc hrun _ _ ih =>
    rw [List.count_append, List.count_eq_zero.mpr hrun, List.count_cons_of_ne hc, ih, Nat.zero_add]

theorem replicate_prefix_iff (h : Spread xs cs) (htail : '"' ∉ tail) (n : Nat) :
    List.replicate n '"' <+: xs ++ tail ↔ List.replicate n '"' <+: cs := by
  induction h generalizing n with
  | nil =>
    cases n with
    | zero => exact ⟨fun _ => List.nil_prefix, fun _ => List.nil_prefix⟩
    | succ n =>
      refine ⟨fun h => absurd ?_ htail, fun h => nomatch List.prefix_nil.mp h⟩
      exact h.subset List.mem_cons_self
  | quote _ ih =>
    cases n with
    | zero => exact ⟨fun _ => List.nil_prefix, fun _ => List.nil_prefix⟩
    | succ n => rw [List.replicate_succ, List.cons_append, List.cons_prefix_cons,
        List.cons_prefix_cons, ih]
  | @other run xs cs c hc hrun hne _ _ =>
    cases n with
    | zero => exact ⟨fun _ => List.nil_prefix, fun _ => List.nil_prefix⟩
    | succ n =>
      obtain ⟨r, run, rfl⟩ := List.exists_cons_of_ne_nil hne
      rw [List.replicate_succ, List.cons_append, List.cons_append, List.cons_prefix_cons,
        List.cons_prefix_cons]
      refine ⟨fun h => absurd ?_ hrun, fun h => absurd h.1.symm hc⟩
      rw [h.1]
      exact List.mem_cons_self

theorem infix_append_iff {run : List Char} (hrun : '"' ∉ run) :
    mark <:+: run ++ xs ↔ mark <:+: xs := by
  induction run with
  | nil => exact Iff.rfl
  | cons r run ih =>
    rw [List.mem_cons, not_or] at hrun
    rw [List.cons_append, List.infix_cons_iff, ih hrun.2]
    exact or_iff_right fun h => hrun.1 (List.cons_prefix_cons.mp h).1

/-- Three quotes in a row stay so and do not come up. -/
theorem infix_iff (h : Spread xs cs) (htail : '"' ∉ tail) : mark <:+: xs ++ tail ↔ mark <:+: cs := by
  induction h with
  | nil =>
    refine ⟨fun h => absurd (h.subset List.mem_cons_self) htail, fun h => absurd h ?_⟩
    decide
  | @quote xs cs h ih =>
    have hbegins := (Spread.quote h).replicate_prefix_iff htail 3
    rw [List.cons_append] at hbegins ⊢
    rw [List.infix_cons_iff, List.infix_cons_iff, ih]
    exact or_congr_left hbegins
  | other hc hrun _ _ ih =>
    rw [List.append_assoc, infix_append_iff hrun, ih, List.infix_cons_iff]
    exact (or_iff_right fun h => hc (List.cons_prefix_cons.mp h).1.symm).symm

end Spread

/-- What is left of a literal when its escapes are taken for backslashes. -/
theorem exists_spread {q : Char} (hq : IsDelimiter q) (h : q = '\'' ∨ '"' ∉ cs) :
    ∃ xs, Spread xs cs ∧
      ∀ rest, bare (cs.flatMap (encodeChar q) ++ rest) = (bare rest).map (xs ++ ·) := by
  induction cs with
  | nil =>
    refine ⟨[], .nil, fun rest => ?_⟩
    cases hrest : bare rest <;> simp [hrest]
  | cons c cs ih =>
    obtain ⟨xs, hspread, hxs⟩ := ih (h.imp_right fun h hmem => h (List.mem_cons_of_mem c hmem))
    rcases encodeChar_cases hq c with ⟨he, hne, hslash, -⟩ | ⟨d, ds, he, hds, -, -⟩
    · have hbare : ∀ rest, bare ((c :: cs).flatMap (encodeChar q) ++ rest) =
          (bare rest).map ((c :: xs) ++ ·) := by
        intro rest
        rw [List.flatMap_cons, he, List.append_assoc, List.singleton_append, bare_cons hslash, hxs,
          Option.map_map]
        rfl
      by_cases hquote : c = '"'
      · subst hquote
        exact ⟨_, hspread.quote, hbare⟩
      · exact ⟨[c] ++ xs, .other hquote (by simpa using Ne.symm hquote) (List.cons_ne_nil _ _) hspread,
          hbare⟩
    · have hquote : c ≠ '"' := by
        rintro rfl
        rcases h with rfl | h
        · cases he
        · exact h List.mem_cons_self
      have hplain : ∀ x ∈ ds, x ≠ '"' ∧ x ≠ '\\' := fun x hx =>
        not_delimiter_of_hex (.inr rfl) (hds x hx)
      refine ⟨('\\' :: ds) ++ xs, .other hquote ?_ (List.cons_ne_nil _ _) hspread, fun rest => ?_⟩
      · rw [List.mem_cons, not_or]
        exact ⟨by decide, fun hmem => (hplain _ hmem).1 rfl⟩
      · rw [List.flatMap_cons, he, List.append_assoc, List.cons_append, List.cons_append, bare,
          bare_append fun hmem => (hplain _ hmem).2 rfl, hxs, Option.map_map, Option.map_map]
        cases bare rest <;> simp

/-- A literal among other characters leaves a docstring whole exactly if its text has no three quotes
in a row. -/
theorem whole_encode_iff {front tail : List Char} (hfront : '"' ∉ front ∧ '\\' ∉ front)
    (htail : '"' ∉ tail ∧ '\\' ∉ tail) (hne : tail ≠ []) (cs : List Char) :
    Whole (front ++ (encode cs ++ tail)) ↔ ¬ mark <:+: cs := by
  have hq := isDelimiter_delimiter cs
  have hdouble : delimiter cs = '"' → '"' ∉ cs := by
    intro h
    unfold delimiter at h
    split_ifs at h with hcontains
    · simpa using (Bool.and_eq_true_iff.mp hcontains).2
    · cases h
  have hslash : '\\' ∉ [delimiter cs] := by
    rcases hq with hq | hq <;> rw [hq] <;> decide
  obtain ⟨xs, hspread, hxs⟩ := exists_spread hq (hq.imp_right hdouble)
  have hbare : bare (front ++ (encode cs ++ tail)) =
      some (front ++ ([delimiter cs] ++ (xs ++ ([delimiter cs] ++ tail)))) := by
    have htailBare : bare tail = some tail := by
      have h : bare (tail ++ []) = (bare []).map (tail ++ ·) := bare_append htail.2
      rwa [List.append_nil, bare, Option.map_some, List.append_nil] at h
    have hshape : encode cs ++ tail = [delimiter cs] ++
        (cs.flatMap (encodeChar (delimiter cs)) ++ ([delimiter cs] ++ tail)) := by
      simp only [encode, List.cons_append, List.append_assoc, List.nil_append]
    rw [hshape, bare_append hfront.2, bare_append hslash, hxs, bare_append hslash, htailBare]
    rfl
  -- the docstring ends as the tail does, so not in a quote
  have hlast : (front ++ ([delimiter cs] ++ (xs ++ ([delimiter cs] ++ tail)))).getLast? ≠ some '"' := by
    intro h
    rw [← List.append_assoc, ← List.append_assoc, ← List.append_assoc, List.getLast?_append,
      List.getLast?_eq_some_getLast hne, Option.some_or] at h
    have hmem := List.getLast_mem hne
    rw [Option.some.inj h] at hmem
    exact htail.1 hmem
  have hmark : mark <:+: front ++ ([delimiter cs] ++ (xs ++ ([delimiter cs] ++ tail))) ↔
      mark <:+: cs := by
    rw [Spread.infix_append_iff hfront.1]
    rcases hq with hq | hq
    · have hsingle : '"' ∉ [delimiter cs] := by rw [hq]; decide
      rw [Spread.infix_append_iff hsingle]
      refine hspread.infix_iff fun h => ?_
      rcases List.mem_append.mp h with h | h
      · exact hsingle h
      · exact htail.1 h
    · -- two quotes are not enough
      have hnone : cs.count '"' = 0 := List.count_eq_zero.mpr (hdouble hq)
      refine ⟨fun h => ?_, fun h => ?_⟩
      · have hcount := h.sublist.count_le '"'
        rw [List.count_append, List.count_append, List.count_append, hspread.count, hnone,
          List.count_eq_zero.mpr htail.1, hq] at hcount
        exact absurd hcount (by decide)
      · have hcount := h.sublist.count_le '"'
        rw [hnone] at hcount
        exact absurd hcount (by decide)
  unfold Whole
  simp only [hbare, Option.some.injEq, exists_eq_left', hmark]
  exact and_iff_left hlast

theorem whole_append {front : List Char} (hfront : '"' ∉ front ∧ '\\' ∉ front) :
    Whole (front ++ cs) ↔ Whole cs := by
  unfold Whole
  rw [bare_append hfront.2]
  cases bare cs with
  | none => exact ⟨fun ⟨_, h, _⟩ => (nomatch h), fun ⟨_, h, _⟩ => (nomatch h)⟩
  | some b =>
    have hlast : (front ++ b).getLast? = some '"' ↔ b.getLast? = some '"' := by
      rw [List.getLast?_append]
      cases b.getLast? with
      | some c => exact Iff.rfl
      | none => exact ⟨fun h => absurd (List.mem_of_getLast? h) hfront.1, fun h => nomatch h⟩
    simp only [Option.map_some, Option.some.injEq, exists_eq_left', Spread.infix_append_iff hfront.1,
      ne_eq, hlast]

/-- The docstring of a text that holds a literal says something exactly if there are no three quotes in
a row in the literal. -/
theorem exists_says_encode_iff {front tail text : String} {t : String}
    (hfront : '"' ∉ front.toList ∧ '\\' ∉ front.toList)
    (htail : '"' ∉ tail.toList ∧ '\\' ∉ tail.toList) (hne : tail.toList ≠ [])
    (htext : text.toList = front.toList ++ (encode t.toList ++ tail.toList)) :
    (∃ said, Says names text said) ↔ ¬ mark <:+: t.toList := by
  have hslash : '\\' ∉ [delimiter t.toList] := by
    rcases isDelimiter_delimiter t.toList with hq | hq <;> rw [hq] <;> decide
  have hshape : encode t.toList ++ tail.toList = [delimiter t.toList] ++
      (t.toList.flatMap (encodeChar (delimiter t.toList)) ++
        ([delimiter t.toList] ++ (tail.toList ++ []))) := by
    simp only [encode, List.cons_append, List.append_assoc, List.nil_append, List.append_nil]
  have hcontent : ∃ said, content? names (front.toList ++ (encode t.toList ++ tail.toList)) = some said := by
    rw [hshape, content?_append hfront.2, content?_append hslash,
      content?_flatMap_encodeChar_append (isDelimiter_delimiter _), content?_append hslash,
      content?_append htail.2, content?]
    exact ⟨_, rfl⟩
  obtain ⟨said, hsaid⟩ := hcontent
  rw [← whole_encode_iff hfront htail hne]
  unfold Says
  rw [htext, hsaid]
  constructor
  · rintro ⟨_, h, _⟩
    exact h
  · exact fun h => ⟨said, h, rfl⟩

/-- Plain characters in front of a text do not matter to its docstring. -/
theorem exists_says_append_iff {front text : String}
    (hfront : '"' ∉ front.toList ∧ '\\' ∉ front.toList) :
    (∃ said, Says names (front ++ text) said) ↔ ∃ said, Says names text said := by
  unfold Says
  rw [String.toList_append, whole_append hfront, content?_append hfront.2]
  constructor
  · rintro ⟨said, hwhole, hsaid⟩
    obtain ⟨rest, hrest, -⟩ := Option.map_eq_some_iff.mp hsaid
    exact ⟨rest, hwhole, hrest⟩
  · rintro ⟨said, hwhole, hsaid⟩
    exact ⟨_, hwhole, by rw [hsaid, Option.map_some]⟩

theorem exists_says_of_plain {text : String} (h : '"' ∉ text.toList ∧ '\\' ∉ text.toList) :
    ∃ said, Says names text said := by
  have hcontent : content? names "".toList = some [] := by
    rw [String.toList_empty, content?]
  have hempty : ∃ said, Says names "" said := ⟨[], whole_nil, hcontent⟩
  rw [← exists_says_append_iff h, String.append_empty] at hempty
  exact hempty

end HttpContract.Docstring
