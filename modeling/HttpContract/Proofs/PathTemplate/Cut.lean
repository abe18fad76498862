import HttpContract.PathTemplate
import Mathlib.Data.List.Infix

/-!
# Cuts of a template

A `Cut` is literal text, then tokens each followed by literal text; `Cut.Of` says that it is a cut of
a given text, with no placeholder left inside a literal. Every text has one (`of_cutOf_pieces`), and
no other (`Cut.Of.eq_cutOf`), so every way to look for placeholders finds the same ones.
-/

namespace HttpContract.PathTemplate

/-- A token as it stands in a template. -/
def placeholder (name : List Char) : List Char := '\x7b' :: (name ++ ['\x7d'])

/-- A token is not empty and holds no brace. -/
def IsToken (name : List Char) : Prop := name ≠ [] ∧ ∀ c ∈ name, isPlain c = true

/-- Text without a placeholder in it. -/
def IsLiteral (cs : List Char) : Prop := ∀ name, IsToken name → ¬ placeholder name <:+: cs

/-- Literal text, then tokens each with the literal text behind it. -/
structure Cut where
  first : List Char
  rest : List (List Char × List Char)

namespace Cut

/-- The names of the tokens, in order. -/
def tokens (k : Cut) : List (List Char) := k.rest.map (·.1)

def literals (k : Cut) : List (List Char) := k.first :: k.rest.map (·.2)

/-- The literals as they are, with some text for each token. -/
def write (k : Cut) (f : List Char → List Char) : List Char :=
  k.first ++ k.rest.flatMap fun r => f r.1 ++ r.2

/-- A cut of a text that leaves no placeholder in a literal. -/
structure Of (k : Cut) (path : List Char) : Prop where
  text : k.write placeholder = path
  tokens : ∀ name ∈ k.tokens, IsToken name
  literals : ∀ l ∈ k.literals, IsLiteral l

end Cut

theorem not_isPlain_open : isPlain '\x7b' = false := by decide

/-! ### One token -/

theorem token?_eq_some {cs name rest : List Char} (h : token? cs = some (name, rest)) :
    IsToken name ∧ cs = name ++ '\x7d' :: rest := by
  unfold token? at h
  split at h
  · next c name' rest' h1 h2 =>
    cases h
    have hcs := List.takeWhile_append_dropWhile (p := isPlain) (l := cs)
    rw [h1, h2] at hcs
    refine ⟨⟨List.cons_ne_nil _ _, fun x hx => ?_⟩, hcs.symm⟩
    rw [← h1] at hx
    exact List.all_eq_true.mp List.all_takeWhile x hx
  · cases h

theorem token?_append {name : List Char} (hn : IsToken name) (rest : List Char) :
    token? (name ++ '\x7d' :: rest) = some (name, rest) := by
  obtain ⟨hne, hp⟩ := hn
  have ht : (name ++ '\x7d' :: rest).takeWhile isPlain = name := by
    rw [List.takeWhile_append_of_pos hp, List.takeWhile_cons_of_neg (by decide), List.append_nil]
  have hd : (name ++ '\x7d' :: rest).dropWhile isPlain = '\x7d' :: rest := by
    rw [List.dropWhile_append_of_pos hp, List.dropWhile_cons_of_neg (by decide)]
  obtain ⟨c, cs, rfl⟩ := List.exists_cons_of_ne_nil hne
  unfold token?
  rw [ht, hd]
  rfl

theorem token?_ne_none {name cs : List Char} (hn : IsToken name)
    (h : name ++ ['\x7d'] <+: cs) : token? cs ≠ none := by
  obtain ⟨rest, rfl⟩ := h
  rw [List.append_assoc, List.singleton_append, token?_append hn]
  exact Option.some_ne_none _

/-! ### The pieces of a text -/

theorem pieces_token {name : List Char} (hn : IsToken name) (rest : List Char) :
    pieces (placeholder name ++ rest) = .token name :: pieces rest := by
  have h := token?_append hn rest
  show pieces ('\x7b' :: (name ++ ['\x7d'] ++ rest)) = _
  rw [List.append_assoc, List.singleton_append, pieces, if_pos rfl]
  split
  · next name' rest' h' =>
    rw [h] at h'
    cases h'
    rfl
  · next h' => rw [h] at h'; cases h'

theorem pieces_char {c : Char} {cs : List Char} (h : c = '\x7b' → token? cs = none) :
    pieces (c :: cs) = .char c :: pieces cs := by
  rw [pieces]
  split
  · next hc =>
    split
    · next name rest h' => rw [h hc] at h'; cases h'
    · rfl
  · rfl

/-- The literals and tokens that pieces make up. -/
def cutOf : List Piece → Cut
  | [] => ⟨[], []⟩
  | .char c :: ps => ⟨c :: (cutOf ps).first, (cutOf ps).rest⟩
  | .token name :: ps => ⟨[], (name, (cutOf ps).first) :: (cutOf ps).rest⟩

/-- The text of a piece, with some text for a token. -/
def Piece.write (f : List Char → List Char) : Piece → List Char
  | .char c => [c]
  | .token name => f name

def Piece.name? : Piece → Option (List Char)
  | .char _ => none
  | .token name => some name

theorem write_cutOf (f : List Char → List Char) (ps : List Piece) :
    (cutOf ps).write f = ps.flatMap (Piece.write f) := by
  induction ps with
  | nil => rfl
  | cons p ps ih =>
    rw [List.flatMap_cons, ← ih]
    cases p with
    | char c => rfl
    | token name => simp only [Cut.write, cutOf, Piece.write, List.flatMap_cons, List.nil_append,
        List.append_assoc]

theorem tokens_cutOf (ps : List Piece) : (cutOf ps).tokens = ps.filterMap Piece.name? := by
  induction ps with
  | nil => rfl
  | cons p ps ih =>
    cases p with
    | char c => rw [List.filterMap_cons_none rfl, ← ih]; rfl
    | token name => rw [List.filterMap_cons_some (f := Piece.name?) (b := name) rfl, ← ih]; rfl

theorem flatMap_write_pieces (cs : List Char) :
    (pieces cs).flatMap (Piece.write placeholder) = cs := by
  fun_induction pieces cs with
  | case1 => rfl
  | case2 cs name rest h _ ih =>
    rw [List.flatMap_cons, ih, (token?_eq_some h).2]
    simp only [Piece.write, placeholder, List.cons_append, List.append_assoc, List.nil_append]
  | case3 cs h ih => rw [List.flatMap_cons, ih]; rfl
  | case4 c cs h ih => rw [List.flatMap_cons, ih]; rfl

theorem isToken_of_mem_pieces {cs name : List Char} (h : Piece.token name ∈ pieces cs) :
    IsToken name := by
  fun_induction pieces cs with
  | case1 => cases h
  | case2 cs name' rest ht _ ih =>
    rcases List.mem_cons.mp h with heq | h
    · cases heq
      exact (token?_eq_some ht).1
    · exact ih h
  | case3 cs _ ih => exact ih (by simpa using h)
  | case4 c cs _ ih => exact ih (by simpa using h)

/-! ### Literals hold no placeholder -/

theorem isLiteral_nil : IsLiteral [] := by
  intro name _ h
  exact List.cons_ne_nil _ _ (List.infix_nil.mp h)

/-- A literal grows to the left as long as no placeholder starts there. -/
theorem IsLiteral.cons {c : Char} {cs : List Char} (h : IsLiteral cs)
    (hc : c = '\x7b' → ∀ name, IsToken name → ¬ name ++ ['\x7d'] <+: cs) : IsLiteral (c :: cs) := by
  intro name hn hi
  rcases List.infix_cons_iff.mp hi with hp | hi
  · obtain ⟨rfl, hp'⟩ := List.cons_prefix_cons.mp hp
    exact hc rfl name hn hp'
  · exact h name hn hi

theorem prefix_first_cutOf (ps : List Piece) :
    (cutOf ps).first <+: ps.flatMap (Piece.write placeholder) := by
  rw [← write_cutOf]
  exact List.prefix_append ..

theorem literals_cutOf_pieces (cs : List Char) : ∀ l ∈ (cutOf (pieces cs)).literals, IsLiteral l := by
  fun_induction pieces cs with
  | case1 =>
    intro l hl
    rw [List.mem_singleton.mp hl]
    exact isLiteral_nil
  | case2 cs name rest h _ ih =>
    intro l hl
    rcases List.mem_cons.mp hl with rfl | hl
    · exact isLiteral_nil
    · exact ih l hl
  | case3 cs h ih =>
    intro l hl
    rcases List.mem_cons.mp hl with rfl | hl
    · refine (ih _ (List.mem_cons_self ..)).cons fun _ name hn hp => ?_
      have hcs := hp.trans (prefix_first_cutOf (pieces cs))
      rw [flatMap_write_pieces] at hcs
      exact token?_ne_none hn hcs h
    · exact ih l (List.mem_cons_of_mem _ hl)
  | case4 c cs h ih =>
    intro l hl
    rcases List.mem_cons.mp hl with rfl | hl
    · exact (ih _ (List.mem_cons_self ..)).cons fun hc => absurd hc h
    · exact ih l (List.mem_cons_of_mem _ hl)

theorem of_cutOf_pieces (cs : List Char) : (cutOf (pieces cs)).Of cs where
  text := by rw [write_cutOf, flatMap_write_pieces]
  tokens := by
    intro name h
    rw [tokens_cutOf] at h
    obtain ⟨p, hp, hn⟩ := List.mem_filterMap.mp h
    cases p with
    | char c => cases hn
    | token n => cases hn; exact isToken_of_mem_pieces hp
  literals := literals_cutOf_pieces cs

/-! ### A text has one cut only -/

/-- What may stand behind a literal: nothing, or a placeholder. -/
theorem write_eq_first_or_open (k : Cut) :
    k.write placeholder = k.first ∨ ∃ cs, k.write placeholder = k.first ++ '\x7b' :: cs := by
  unfold Cut.write
  cases k.rest with
  | nil => exact .inl (List.append_nil _)
  | cons r rs => exact .inr ⟨_, rfl⟩

/-- A token that starts inside a literal ends inside it. -/
theorem prefix_of_append_eq {name l cs rest : List Char} (hn : IsToken name)
    (h : l ++ '\x7b' :: cs = name ++ '\x7d' :: rest) : name ++ ['\x7d'] <+: l := by
  rcases List.append_eq_append_iff.mp h with ⟨as, rfl, h'⟩ | ⟨bs, rfl, h'⟩
  · -- the literal would end inside the token, where no brace opens
    cases as with
    | nil => cases h'
    | cons a as =>
      obtain ⟨rfl, -⟩ := List.cons.inj h'
      have := hn.2 '\x7b' (by simp)
      rw [not_isPlain_open] at this
      cases this
  · cases bs with
    | nil => cases h'
    | cons b bs =>
      obtain ⟨rfl, -⟩ := List.cons.inj h'
      exact ⟨bs, by simp⟩

theorem token?_write_eq_none {k : Cut} (h : IsLiteral ('\x7b' :: k.first)) :
    token? (k.write placeholder) = none := by
  by_contra hne
  obtain ⟨⟨name, rest⟩, ht⟩ := Option.ne_none_iff_exists'.mp hne
  obtain ⟨hn, heq⟩ := token?_eq_some ht
  have hp : name ++ ['\x7d'] <+: k.first := by
    rcases write_eq_first_or_open k with hw | ⟨cs, hw⟩
    · exact ⟨rest, by rw [List.append_assoc, List.singleton_append, ← heq, hw]⟩
    · exact prefix_of_append_eq hn (hw ▸ heq)
  exact h name hn (List.infix_cons_iff.mpr (.inl (List.cons_prefix_cons.mpr ⟨rfl, hp⟩)))

theorem IsLiteral.tail {c : Char} {cs : List Char} (h : IsLiteral (c :: cs)) : IsLiteral cs :=
  fun name hn hi => h name hn (List.infix_cons hi)

/-- The pieces of what a cut writes make up that cut: along its literals and tokens. -/
theorem cutOf_pieces_write : ∀ (rest : List (List Char × List Char)) (first : List Char),
    (∀ r ∈ rest, IsToken r.1 ∧ IsLiteral r.2) → IsLiteral first →
    cutOf (pieces ((⟨first, rest⟩ : Cut).write placeholder)) = ⟨first, rest⟩
  | [], [], _, _ => by
    show cutOf (pieces []) = _
    rw [pieces]
    rfl
  | r :: rs, [], hr, _ => by
    have ih := cutOf_pieces_write rs r.2 (fun x hx => hr x (List.mem_cons_of_mem _ hx))
      (hr r (List.mem_cons_self ..)).2
    have hw : (⟨[], r :: rs⟩ : Cut).write placeholder =
        placeholder r.1 ++ (⟨r.2, rs⟩ : Cut).write placeholder := by
      simp only [Cut.write, List.flatMap_cons, List.nil_append, List.append_assoc]
    rw [hw, pieces_token (hr r (List.mem_cons_self ..)).1, cutOf, ih]
  | rest, c :: first, hr, hl => by
    have ih := cutOf_pieces_write rest first hr hl.tail
    show cutOf (pieces (c :: (⟨first, rest⟩ : Cut).write placeholder)) = _
    rw [pieces_char, cutOf, ih]
    rintro rfl
    exact token?_write_eq_none hl

theorem Cut.Of.eq_cutOf {k : Cut} {cs : List Char} (h : k.Of cs) : k = cutOf (pieces cs) := by
  rw [← h.text]
  refine (cutOf_pieces_write k.rest k.first (fun r hr => ⟨?_, ?_⟩) ?_).symm
  · exact h.tokens r.1 (List.mem_map_of_mem hr)
  · exact h.literals r.2 (List.mem_cons_of_mem _ (List.mem_map_of_mem hr))
  · exact h.literals k.first (List.mem_cons_self ..)

/-! ### Tokens and expansions of a template -/

theorem tokens_eq_tokens_cutOf (path : String) :
    tokens path = (cutOf (pieces path.toList)).tokens.map String.ofList := by
  rw [tokens_cutOf, tokens, List.map_filterMap]
  congr 1
  funext p
  cases p <;> rfl

theorem expand_congr {path : String} {f g : String → Option String}
    (h : ∀ t ∈ tokens path, f t = g t) : expand path f = expand path g := by
  rw [expand, expand]
  refine congrArg String.ofList (List.flatMap_congr fun p hp => ?_)
  cases p with
  | char c => rfl
  | token name =>
    have ht : String.ofList name ∈ tokens path := List.mem_filterMap.mpr ⟨_, hp, rfl⟩
    simp only [Piece.expand, h _ ht]

theorem toList_expand (path : String) (value? : String → Option String) (text : String → String)
    (h : ∀ t ∈ tokens path, value? t = some (text t)) :
    (expand path value?).toList =
      (cutOf (pieces path.toList)).write fun name => (text (String.ofList name)).toList := by
  rw [expand, String.toList_ofList, write_cutOf]
  refine List.flatMap_congr fun p hp => ?_
  cases p with
  | char c => rfl
  | token name =>
    have ht : String.ofList name ∈ tokens path := List.mem_filterMap.mpr ⟨_, hp, rfl⟩
    simp only [Piece.expand, Piece.write, h _ ht]

end HttpContract.PathTemplate
