import HttpContract.Client.Loading
import HttpContract.Proofs.Declaration.Parameters
import HttpContract.Proofs.PathTemplate.Segments

/-!
# Trees of types

The expression that names a type is the text of a tree of names, values and argument lists in brackets.
`TypeTree.read?` reads such texts: a text reads back as its tree exactly if the tree is clean
(`TypeTree.read?_text_iff`), and a tree that is clean but for members of enumerations is the text of no
expression (`TypeTree.read?_text_eq_none`).
-/

namespace HttpContract

theorem Value.exists_angle_of_isMember {v : Value} (h : v.isMember = true) :
    ∃ cs, v.literal.toList = '<' :: cs := by
  cases v with
  | member cls kind name value => exact toList_literal_member cls kind name value
  | _ => cases h

/-- What an expression that names a type is made of. -/
inductive TypeTree
  | name (dotted : String)
  | ellipsis
  | literal (v : Value)
  | subscript (base : String) (args : List TypeTree)
deriving Repr, Inhabited

namespace TypeTree

mutual

/-- The source of a tree. -/
def text : TypeTree → String
  | name dotted => dotted
  | ellipsis => "..."
  | literal v => v.literal
  | subscript base args =>
    if args.isEmpty then base else base ++ "[" ++ String.intercalate ", " (texts args) ++ "]"

def texts : List TypeTree → List String
  | [] => []
  | t :: ts => text t :: texts ts

end

mutual

/-- Whether all names are dotted identifiers, all values have literals, and no brackets are empty. -/
def IsClean : TypeTree → Prop
  | name dotted => TypeReference.isNameChain dotted = true
  | ellipsis => True
  | literal v => v.IsLiteral
  | subscript base args => TypeReference.isNameChain base = true ∧ args ≠ [] ∧ AreClean args

def AreClean : List TypeTree → Prop
  | [] => True
  | t :: ts => IsClean t ∧ AreClean ts

end

mutual

/-- Whether the tree is clean but for members of enumerations. -/
def IsProper : TypeTree → Prop
  | name dotted => TypeReference.isNameChain dotted = true
  | ellipsis => True
  | literal v => v.IsLiteral ∨ v.isMember = true
  | subscript base args => TypeReference.isNameChain base = true ∧ args ≠ [] ∧ AreProper args

def AreProper : List TypeTree → Prop
  | [] => True
  | t :: ts => IsProper t ∧ AreProper ts

end

mutual

theorem IsClean.isProper : (t : TypeTree) → t.IsClean → t.IsProper
  | name _, h => h
  | ellipsis, _ => trivial
  | literal _, h => .inl h
  | subscript _ args, h => ⟨h.1, h.2.1, AreClean.areProper args h.2.2⟩

theorem AreClean.areProper : (ts : List TypeTree) → AreClean ts → AreProper ts
  | [], _ => trivial
  | t :: ts, h => ⟨IsClean.isProper t h.1, AreClean.areProper ts h.2⟩

end

/-! ### Reading -/

/-- Whether a character may stand in a dotted name. -/
def isChainChar (c : Char) : Bool := Text.isNameChar c || c == '.'

/-- Splits off the dotted name that a text begins with. -/
def scanName? (cs : List Char) : Option (String × List Char) :=
  let dotted := String.ofList (cs.takeWhile isChainChar)
  let rest := cs.dropWhile isChainChar
  if TypeReference.isNameChain dotted && !rest.head?.any Literal.isQuote then some (dotted, rest)
  else none

mutual

/-- The tree that a text begins with, and what is behind it, as far as the fuel goes. -/
def scan? : Nat → List Char → Option (TypeTree × List Char)
  | 0, _ => none
  | fuel + 1, cs =>
    match scanName? cs with
    | some (base, '[' :: rest) => (scanArgs? fuel rest).map fun r => (.subscript base r.1, r.2)
    | some (dotted, rest) => some (.name dotted, rest)
    | none =>
      match Literal.scan? cs with
      | some (v, rest) => some (.literal v, rest)
      | none => if cs.take 3 = ['.', '.', '.'] then some (.ellipsis, cs.drop 3) else none

/-- The trees in front of a closing bracket, at least one, and what is behind it. -/
def scanArgs? : Nat → List Char → Option (List TypeTree × List Char)
  | 0, _ => none
  | fuel + 1, cs =>
    match scan? fuel cs with
    | some (t, ']' :: rest) => some ([t], rest)
    | some (t, ',' :: ' ' :: rest) => (scanArgs? fuel rest).map fun r => (t :: r.1, r.2)
    | _ => none

end

/-- The tree of a text that is an expression. -/
def read? (s : String) : Option TypeTree :=
  match scan? s.length s.toList with
  | some (t, []) => some t
  | _ => none

/-! ### Names -/

variable {s : String} {c : Char} {cs rest : List Char} {t : TypeTree} {ts : List TypeTree} {fuel : Nat}

theorem chars_of_mem_splitOn (h : TypeReference.isNameChain s = true) :
    ∀ part ∈ s.toList.splitOn '.', ∃ c cs, part = c :: cs ∧ Text.isNameStart c = true ∧
      ∀ d ∈ cs, Text.isNameChar d = true := by
  intro part hpart
  have hname : Text.isIdentifier (String.ofList part) = true :=
    List.all_eq_true.mp h _ (List.mem_map_of_mem hpart)
  unfold Text.isIdentifier at hname
  rw [String.toList_ofList] at hname
  cases part with
  | nil => cases hname
  | cons c cs =>
    simp only [Bool.and_eq_true, List.all_eq_true] at hname
    exact ⟨c, cs, rfl, hname.1.1, hname.1.2⟩

theorem isChainChar_of_mem (h : TypeReference.isNameChain s = true) :
    ∀ c ∈ s.toList, isChainChar c = true := by
  intro c hc
  unfold isChainChar
  by_cases hdot : c = '.'
  · rw [hdot, beq_self_eq_true, Bool.or_true]
  · obtain ⟨part, hpart, hmem⟩ := exists_mem_splitOn hc hdot
    obtain ⟨d, ds, rfl, hd, hds⟩ := chars_of_mem_splitOn h part hpart
    rcases List.mem_cons.mp hmem with rfl | hmem
    · rw [Text.isNameChar, hd, Bool.true_or, Bool.true_or]
    · rw [hds c hmem, Bool.true_or]

theorem head_of_isNameChain (h : TypeReference.isNameChain s = true) :
    ∃ c cs, s.toList = c :: cs ∧ Text.isNameStart c = true := by
  have hparts := chars_of_mem_splitOn h
  cases hs : s.toList with
  | nil =>
    rw [hs] at hparts
    obtain ⟨c, cs, hnil, -⟩ := hparts [] List.mem_cons_self
    cases hnil
  | cons c cs =>
    refine ⟨c, cs, rfl, ?_⟩
    obtain ⟨part, parts, hsplit⟩ := List.exists_cons_of_ne_nil (List.splitOn_ne_nil '.' cs)
    rw [hs, List.splitOn_cons_eq_if_modifyHead, hsplit, List.modifyHead_cons] at hparts
    split_ifs at hparts
    · obtain ⟨d, ds, hnil, -⟩ := hparts _ List.mem_cons_self
      cases hnil
    · obtain ⟨d, ds, hcons, hd, -⟩ := hparts _ List.mem_cons_self
      rwa [(List.cons.inj hcons).1]

/-- A text in which neither a name goes on nor brackets open. -/
def Ends (rest : List Char) : Prop := ∀ c ∈ rest.head?, c = ',' ∨ c = ']'

theorem Ends.stops (h : Ends rest) : Literal.Stops rest := fun c hc => by
  rcases h c hc with rfl | rfl <;> decide

theorem ends_cons (h : c = ',' ∨ c = ']') : Ends (c :: rest) := by
  intro d hd
  rwa [← Option.some.inj hd]

theorem scanName?_append (h : TypeReference.isNameChain s = true)
    (hrest : ∀ c ∈ rest.head?, isChainChar c = false ∧ Literal.isQuote c = false) :
    scanName? (s.toList ++ rest) = some (s, rest) := by
  obtain ⟨hspan, hbehind⟩ :=
    takeWhile_append_stops (isChainChar_of_mem h) fun c hc => (hrest c hc).1
  have hquote : rest.head?.any Literal.isQuote = false := by
    cases hhead : rest.head? with
    | none => rfl
    | some c => exact (hrest c hhead).2
  simp only [scanName?, hspan, hbehind, String.ofList_toList, h, hquote]
  rfl

theorem not_isNameStart_of_isDigit (h : c.isDigit = true) : Text.isNameStart c = false := by
  obtain ⟨hlow, hhigh⟩ : 48 ≤ c.toNat ∧ c.toNat ≤ 57 := by
    simpa [Char.isDigit, UInt32.le_iff_toNat_le] using h
  rw [← Char.ofNat_toNat c]
  generalize c.toNat = n at hlow hhigh
  interval_cases n <;> rfl

theorem scanName?_of_head (h : isChainChar c = false) (cs : List Char) : scanName? (c :: cs) = none := by
  have hc : ¬ isChainChar c = true := by
    rw [h]
    exact Bool.false_ne_true
  unfold scanName?
  rw [List.takeWhile_cons_of_neg hc]
  rfl

theorem scanName?_digit (h : c.isDigit = true) (cs : List Char) : scanName? (c :: cs) = none := by
  have hc : isChainChar c = true := by
    rw [isChainChar, Text.isNameChar, h, Bool.or_true, Bool.true_or]
  have hname : TypeReference.isNameChain (String.ofList (c :: cs.takeWhile isChainChar)) = false := by
    rw [Bool.eq_false_iff]
    intro hname
    obtain ⟨d, ds, hcons, hd⟩ := head_of_isNameChain hname
    rw [String.toList_ofList] at hcons
    rw [← (List.cons.inj hcons).1, not_isNameStart_of_isDigit h] at hd
    cases hd
  simp only [scanName?, List.takeWhile_cons_of_pos hc, hname, Bool.false_and, Bool.false_eq_true,
    if_false]

theorem scanName?_bracket (h : TypeReference.isNameChain s = true) (cs : List Char) :
    scanName? (s.toList ++ '[' :: cs) = some (s, '[' :: cs) := by
  refine scanName?_append h fun c hc => ?_
  rw [← Option.some.inj hc]
  decide

/-- Neither words and numbers nor quoted texts are taken for names. -/
theorem scanName?_form (h : Value.Form cs) (hrest : Ends rest) : scanName? (cs ++ rest) = none := by
  have hstop : ∀ c ∈ rest.head?, isChainChar c = false := by
    intro c hc
    rcases hrest c hc with rfl | rfl <;> decide
  have hdelimiter : ∀ q, Quoted.IsDelimiter q → isChainChar q = false ∧ Literal.isQuote q = true := by
    intro q hq
    rcases hq with rfl | rfl <;> decide
  cases h with
  | word h =>
    have hchars : ∀ c ∈ cs, isChainChar c = true := fun c hc => by
      rw [isChainChar, Literal.nameChars_of_word h c hc, Bool.true_or]
    obtain ⟨hspan, hbehind⟩ := takeWhile_append_stops hchars hstop
    have hname : TypeReference.isNameChain (String.ofList cs) = false := by
      simp only [List.mem_cons, List.not_mem_nil, or_false] at h
      rcases h with rfl | rfl | rfl <;> decide +kernel
    simp only [scanName?, hspan, hname]
    rfl
  | text cs =>
    rw [Quoted.encode_append]
    exact scanName?_of_head (hdelimiter _ (Quoted.isDelimiter_delimiter cs)).1 _
  | bytes bs =>
    obtain ⟨hchain, hquote⟩ := hdelimiter _ (Quoted.isDelimiter_delimiter (bs.map Quoted.byteChar))
    have hchain' : ¬ isChainChar (Quoted.delimiter (bs.map Quoted.byteChar)) = true := by
      rw [hchain]
      exact Bool.false_ne_true
    have hlist : (Quoted.bytes bs).toList = 'b' :: Quoted.delimiter (bs.map Quoted.byteChar) :: _ :=
      String.toList_ofList
    have hb : isChainChar 'b' = true := by decide
    simp only [scanName?, hlist, List.cons_append, List.takeWhile_cons_of_pos hb,
      List.dropWhile_cons_of_pos hb, List.dropWhile_cons_of_neg hchain', List.head?_cons,
      Option.any_some, hquote, Bool.not_true, Bool.and_false, Bool.false_eq_true, if_false]
  | number negative hd hcs hzero =>
    cases negative with
    | true => exact scanName?_of_head (by decide) _
    | false => exact scanName?_digit hd _

/-! ### Reading back -/

mutual

/-- How much fuel the reading of a tree takes. -/
def size : TypeTree → Nat
  | name _ | ellipsis | literal _ => 1
  | subscript _ args => 1 + sizeAll args

def sizeAll : List TypeTree → Nat
  | [] => 0
  | t :: ts => 1 + size t + sizeAll ts

end

/-- The texts of arguments, up to the closing bracket. -/
def argumentChars (ts : List TypeTree) : List Char :=
  ", ".toList.intercalate ((texts ts).map String.toList) ++ [']']

theorem argumentChars_singleton (t : TypeTree) : argumentChars [t] = t.text.toList ++ [']'] := by
  rw [argumentChars, texts, texts, List.map_cons, List.map_nil, List.intercalate_singleton]

theorem argumentChars_cons_cons (t u : TypeTree) (ts : List TypeTree) :
    argumentChars (t :: u :: ts) = t.text.toList ++ ',' :: ' ' :: argumentChars (u :: ts) := by
  have hcomma : ", ".toList = [',', ' '] := rfl
  simp only [argumentChars, texts, List.map_cons, List.intercalate_cons_cons, hcomma, List.append_assoc,
    List.cons_append, List.nil_append]

theorem toList_text_subscript (base : String) (h : ts ≠ []) :
    (subscript base ts).text.toList = base.toList ++ '[' :: argumentChars ts := by
  have hne : ¬ ts.isEmpty = true := by rwa [List.isEmpty_iff]
  have hopen : "[".toList = ['['] := rfl
  have hclose : "]".toList = [']'] := rfl
  rw [text, if_neg hne, String.toList_append, String.toList_append, String.toList_append,
    String.toList_intercalate, hopen, hclose, argumentChars]
  simp only [List.append_assoc, List.cons_append, List.nil_append]

theorem length_form_pos (h : Value.Form cs) : 0 < cs.length := by
  cases h with
  | word h =>
    simp only [List.mem_cons, List.not_mem_nil, or_false] at h
    rcases h with rfl | rfl | rfl <;> decide
  | text cs => exact Nat.succ_pos _
  | bytes bs =>
    have hlist : (Quoted.bytes bs).toList = 'b' :: _ := String.toList_ofList
    rw [hlist]
    exact Nat.succ_pos _
  | number =>
    rw [List.length_append]
    exact Nat.lt_of_lt_of_le (Nat.succ_pos _) (Nat.le_add_left _ _)

mutual

theorem size_le : (t : TypeTree) → t.IsProper → t.size ≤ t.text.toList.length
  | name dotted, h => by
    obtain ⟨c, cs, hcons, -⟩ := head_of_isNameChain h
    rw [size, text, hcons]
    exact Nat.succ_pos _
  | ellipsis, _ => by decide
  | literal v, h => by
    rw [size, text]
    rcases h with h | h
    · exact length_form_pos (Value.form_literal h)
    · obtain ⟨cs, hcs⟩ := Value.exists_angle_of_isMember h
      rw [hcs]
      exact Nat.succ_pos _
  | subscript base args, h => by
    have hargs := sizeAll_le args h.2.1 h.2.2
    rw [size, toList_text_subscript base h.2.1, List.length_append, List.length_cons]
    omega

theorem sizeAll_le : (ts : List TypeTree) → ts ≠ [] → AreProper ts →
    sizeAll ts ≤ (argumentChars ts).length
  | [], h, _ => absurd rfl h
  | [t], _, h => by
    have ht := size_le t h.1
    rw [argumentChars_singleton, List.length_append, sizeAll, sizeAll, List.length_singleton]
    omega
  | t :: u :: ts, _, h => by
    have ht := size_le t h.1
    have hts := sizeAll_le (u :: ts) (List.cons_ne_nil _ _) h.2
    rw [argumentChars_cons_cons, List.length_append, sizeAll, List.length_cons, List.length_cons]
    omega

end

theorem scan?_of_name (h : scanName? cs = some (s, rest)) (hrest : rest.head? ≠ some '[') :
    scan? (fuel + 1) cs = some (.name s, rest) := by
  rw [scan?, h]
  split
  · next heq =>
    obtain ⟨-, rfl⟩ := Prod.mk.inj (Option.some.inj heq)
    exact absurd rfl hrest
  · next heq =>
    obtain ⟨rfl, rfl⟩ := Prod.mk.inj (Option.some.inj heq)
    rfl
  · next heq => cases heq

theorem scan?_of_bracket (h : scanName? cs = some (s, '[' :: rest)) :
    scan? (fuel + 1) cs = (scanArgs? fuel rest).map fun r => (.subscript s r.1, r.2) := by
  rw [scan?, h]
  rfl

theorem scan?_of_no_name (h : scanName? cs = none) : scan? (fuel + 1) cs =
    match Literal.scan? cs with
    | some (v, rest) => some (.literal v, rest)
    | none => if cs.take 3 = ['.', '.', '.'] then some (.ellipsis, cs.drop 3) else none := by
  rw [scan?, h]

theorem size_pos (t : TypeTree) : 0 < t.size := by
  cases t with
  | subscript =>
    rw [size]
    exact Nat.lt_of_lt_of_le Nat.one_pos (Nat.le_add_right 1 _)
  | _ =>
    rw [size]
    exact Nat.one_pos

theorem Ends.head (h : Ends rest) : ∀ c ∈ rest.head?,
    (isChainChar c = false ∧ Literal.isQuote c = false) ∧ c ≠ '[' := fun c hc => by
  rcases h c hc with rfl | rfl <;> decide

theorem scanName?_dots (hrest : Ends rest) : scanName? (['.', '.', '.'] ++ rest) = none := by
  have hdot : isChainChar '.' = true := rfl
  have hchars : ∀ c ∈ ['.', '.', '.'], isChainChar c = true :=
    List.forall_mem_cons.mpr ⟨hdot, List.forall_mem_cons.mpr ⟨hdot, List.forall_mem_singleton.mpr hdot⟩⟩
  have hname : TypeReference.isNameChain (String.ofList ['.', '.', '.']) = false := by decide +kernel
  obtain ⟨hspan, -⟩ := takeWhile_append_stops hchars fun c hc => (hrest.head c hc).1.1
  simp only [scanName?, hspan, hname]
  rfl

theorem token?_dot (cs : List Char) : Literal.token? ('.' :: cs) = none := by
  rw [Literal.token?, if_neg (by decide), if_neg fun h => absurd h.1 (by decide), if_neg (by decide),
    if_neg (by decide)]

mutual

theorem scan?_text : (t : TypeTree) → t.IsClean → ∀ fuel rest, Ends rest → t.size ≤ fuel →
    scan? fuel (t.text.toList ++ rest) = some (t, rest)
  | t, _, 0, _, _, hfuel => absurd hfuel (Nat.not_le_of_lt t.size_pos)
  | name dotted, h, fuel + 1, rest, hrest, _ => by
    rw [text]
    exact scan?_of_name (scanName?_append h fun c hc => (hrest.head c hc).1) fun hc =>
      (hrest.head _ hc).2 rfl
  | ellipsis, _, fuel + 1, rest, hrest, _ => by
    have hdots : "...".toList = ['.', '.', '.'] := rfl
    rw [text, hdots, scan?_of_no_name (scanName?_dots hrest), Literal.scan?, List.cons_append,
      token?_dot]
    rfl
  | literal v, h, fuel + 1, rest, hrest, _ => by
    rw [text, scan?_of_no_name (scanName?_form (Value.form_literal h) hrest),
      Literal.scan?_append h hrest.stops]
  | subscript base args, ⟨hbase, hne, hargs⟩, fuel + 1, rest, _, hfuel => by
    rw [size] at hfuel
    rw [toList_text_subscript base hne, List.append_assoc, List.cons_append,
      scan?_of_bracket (scanName?_bracket hbase _),
      scanArgs?_argumentChars args hne hargs fuel rest (by omega)]
    rfl

theorem scanArgs?_argumentChars : (ts : List TypeTree) → ts ≠ [] → AreClean ts → ∀ fuel rest,
    sizeAll ts ≤ fuel → scanArgs? fuel (argumentChars ts ++ rest) = some (ts, rest)
  | [], h, _, _, _, _ => absurd rfl h
  | t :: ts, _, _, 0, _, hfuel => by
    rw [sizeAll] at hfuel
    omega
  | [t], _, h, fuel + 1, rest, hfuel => by
    rw [sizeAll, sizeAll] at hfuel
    rw [argumentChars_singleton, List.append_assoc, List.singleton_append, scanArgs?,
      scan?_text t h.1 fuel (']' :: rest) (ends_cons (.inr rfl)) (by omega)]
    rfl
  | t :: u :: ts, _, h, fuel + 1, rest, hfuel => by
    rw [sizeAll] at hfuel
    rw [argumentChars_cons_cons, List.append_assoc, List.cons_append, List.cons_append, scanArgs?,
      scan?_text t h.1 fuel (',' :: ' ' :: (argumentChars (u :: ts) ++ rest)) (ends_cons (.inl rfl))
        (by omega)]
    show (scanArgs? fuel (argumentChars (u :: ts) ++ rest)).map _ = _
    rw [scanArgs?_argumentChars (u :: ts) (List.cons_ne_nil _ _) h.2 fuel rest (by omega)]
    rfl

end

/-! ### Nothing else is read -/

theorem isNameChain_of_scanName? (h : scanName? cs = some (s, rest)) :
    TypeReference.isNameChain s = true := by
  unfold scanName? at h
  simp only at h
  split_ifs at h with hname
  obtain ⟨rfl, -⟩ := Prod.mk.inj (Option.some.inj h)
  exact (Bool.and_eq_true_iff.mp hname).1

theorem isClean_of_scan? (fuel : Nat) :
    (∀ cs t rest, scan? fuel cs = some (t, rest) → t.IsClean) ∧
      ∀ cs ts rest, scanArgs? fuel cs = some (ts, rest) → ts ≠ [] ∧ AreClean ts := by
  induction fuel with
  | zero => exact ⟨fun _ _ _ h => (nomatch h), fun _ _ _ h => nomatch h⟩
  | succ fuel ih =>
    obtain ⟨ihone, ihall⟩ := ih
    constructor
    · intro cs t rest h
      rw [scan?] at h
      split at h
      · next base rest' hname =>
        obtain ⟨⟨args, rest''⟩, hargs, heq⟩ := Option.map_eq_some_iff.mp h
        obtain ⟨rfl, -⟩ := Prod.mk.inj heq
        exact ⟨isNameChain_of_scanName? hname, ihall _ _ _ hargs⟩
      · next hname =>
        obtain ⟨rfl, -⟩ := Prod.mk.inj (Option.some.inj h)
        exact isNameChain_of_scanName? hname
      · split at h
        · next hscan =>
          obtain ⟨rfl, -⟩ := Prod.mk.inj (Option.some.inj h)
          exact Literal.isLiteral_of_scan? hscan
        · split_ifs at h
          obtain ⟨rfl, -⟩ := Prod.mk.inj (Option.some.inj h)
          trivial
    · intro cs ts rest h
      rw [scanArgs?] at h
      split at h
      · next hone =>
        obtain ⟨rfl, -⟩ := Prod.mk.inj (Option.some.inj h)
        exact ⟨List.cons_ne_nil _ _, ihone _ _ _ hone, trivial⟩
      · next hone =>
        obtain ⟨⟨args, rest''⟩, hargs, heq⟩ := Option.map_eq_some_iff.mp h
        obtain ⟨rfl, -⟩ := Prod.mk.inj heq
        exact ⟨List.cons_ne_nil _ _, ihone _ _ _ hone, (ihall _ _ _ hargs).2⟩
      · cases h

/-! ### Members of enumerations -/

theorem scan?_angle (fuel : Nat) (cs : List Char) : scan? fuel ('<' :: cs) = none := by
  cases fuel with
  | zero => rfl
  | succ fuel =>
    have htoken : Literal.token? ('<' :: cs) = none := by
      rw [Literal.token?, if_neg (by decide), if_neg fun h => absurd h.1 (by decide),
        if_neg (by decide), if_neg (by decide)]
    rw [scan?_of_no_name (scanName?_of_head (by decide) cs), Literal.scan?, htoken]
    exact if_neg fun h => absurd (List.cons.inj h).1 (by decide)

mutual

/-- The reading of a tree stops at the first member of an enumeration. -/
theorem scan?_text_eq_none : (t : TypeTree) → t.IsProper → ¬ t.IsClean → ∀ fuel rest,
    t.size ≤ fuel → scan? fuel (t.text.toList ++ rest) = none
  | name _, h, hnot, _, _, _ => absurd h hnot
  | ellipsis, _, hnot, _, _, _ => absurd trivial hnot
  | literal v, h, hnot, fuel, rest, _ => by
    obtain ⟨cs, hcs⟩ := Value.exists_angle_of_isMember (h.resolve_left hnot)
    rw [text, hcs, List.cons_append, scan?_angle]
  | subscript base args, _, _, 0, _, hfuel => absurd hfuel (Nat.not_le_of_lt (size_pos _))
  | subscript base args, ⟨hbase, hne, hargs⟩, hnot, fuel + 1, rest, hfuel => by
    rw [size] at hfuel
    rw [toList_text_subscript base hne, List.append_assoc, List.cons_append,
      scan?_of_bracket (scanName?_bracket hbase _),
      scanArgs?_argumentChars_eq_none args hne hargs (fun h => hnot ⟨hbase, hne, h⟩) fuel rest
        (by omega)]
    rfl

theorem scanArgs?_argumentChars_eq_none : (ts : List TypeTree) → ts ≠ [] → AreProper ts →
    ¬ AreClean ts → ∀ fuel rest, sizeAll ts ≤ fuel → scanArgs? fuel (argumentChars ts ++ rest) = none
  | [], h, _, _, _, _, _ => absurd rfl h
  | t :: ts, _, _, _, 0, _, hfuel => by
    rw [sizeAll] at hfuel
    omega
  | [t], _, h, hnot, fuel + 1, rest, hfuel => by
    rw [sizeAll, sizeAll] at hfuel
    rw [argumentChars_singleton, List.append_assoc, scanArgs?,
      scan?_text_eq_none t h.1 (fun ht => hnot ⟨ht, trivial⟩) fuel _ (by omega)]
  | t :: u :: ts, _, h, hnot, fuel + 1, rest, hfuel => by
    rw [sizeAll] at hfuel
    rw [argumentChars_cons_cons, List.append_assoc, List.cons_append, List.cons_append, scanArgs?]
    by_cases ht : t.IsClean
    · rw [scan?_text t ht fuel (',' :: ' ' :: (argumentChars (u :: ts) ++ rest)) (ends_cons (.inl rfl))
        (by omega)]
      show (scanArgs? fuel (argumentChars (u :: ts) ++ rest)).map _ = _
      rw [scanArgs?_argumentChars_eq_none (u :: ts) (List.cons_ne_nil _ _) h.2
        (fun hts => hnot ⟨ht, hts⟩) fuel rest (by omega)]
      rfl
    · rw [scan?_text_eq_none t h.1 ht fuel _ (by omega)]

end

/-! ### Texts of trees -/

/-- The text of a tree reads back as the tree exactly if the tree is clean. -/
theorem read?_text_iff (t : TypeTree) : read? t.text = some t ↔ t.IsClean := by
  constructor
  · intro h
    unfold read? at h
    split at h
    · next hscan =>
      obtain rfl := Option.some.inj h
      exact (isClean_of_scan? _).1 _ _ _ hscan
    · cases h
  · intro h
    have hsize := size_le t h.isProper
    have hscan := scan?_text t h t.text.length [] (fun _ h => nomatch h) (by rwa [← String.length_toList])
    rw [List.append_nil] at hscan
    rw [read?, hscan]

/-- The text of a tree that is clean but for members of enumerations is no expression if there are
any. -/
theorem read?_text_eq_none (h : t.IsProper) (hnot : ¬ t.IsClean) : read? t.text = none := by
  have hsize := size_le t h
  have hscan := scan?_text_eq_none t h hnot t.text.length [] (by rwa [← String.length_toList])
  rw [List.append_nil] at hscan
  rw [read?, hscan]

end TypeTree

end HttpContract
