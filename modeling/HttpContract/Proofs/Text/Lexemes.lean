import HttpContract.Proofs.Text.Quoted
import HttpContract.Text.Printable

/-!
# Lexemes

Lines of code as names, signs and literals. `Lexeme.next?` takes the longest name that a line goes on with;
a name right in front of a quote would change what the literal means, so none is read there. Lexemes of
which none runs into the next are read back as what was written (`lexes_write`), and the entries of a
dictionary display are found among them (`entries?_display`).
-/

namespace HttpContract

/-- A part of a line of code. -/
inductive Lexeme
  | name (n : String)
  /-- Punctuation, or a blank. -/
  | sign (c : Char)
  /-- The literal of a text. -/
  | text (t : String)
deriving DecidableEq

namespace Lexeme

/-- Whether a character is a lexeme by itself. -/
def isSign (c : Char) : Bool := " =.,:()[]\x7b\x7d".toList.contains c

/-- The next lexeme, and what is behind it. -/
def next? : List Char → Option (Lexeme × List Char)
  | [] => none
  | c :: cs =>
    if Text.isNameChar c then
      let behind := (c :: cs).dropWhile Text.isNameChar
      if behind.head? = some '"' ∨ behind.head? = some '\'' then none
      else some (name (String.ofList ((c :: cs).takeWhile Text.isNameChar)), behind)
    else if isSign c then some (sign c, cs)
    else (Docstring.literal? .none (c :: cs)).map fun r => (text (String.ofList r.1), r.2)

/-- Whether a line is read as lexemes, up to what is behind them. -/
inductive Lexes : List Char → List Lexeme → List Char → Prop
  | done {rest : List Char} : Lexes rest [] rest
  | step {l : Lexeme} {cs behind rest : List Char} {ls : List Lexeme} (hnext : next? cs = some (l, behind))
      (h : Lexes behind ls rest) : Lexes cs (l :: ls) rest

/-- A line is read in one way, as far as it is read. -/
theorem Lexes.prefix_or_prefix {cs rest rest' : List Char} {ls ls' : List Lexeme} (h : Lexes cs ls rest)
    (h' : Lexes cs ls' rest') : ls <+: ls' ∨ ls' <+: ls := by
  induction h generalizing ls' with
  | done => exact .inl List.nil_prefix
  | step hnext _ ih =>
    cases h' with
    | done => exact .inr List.nil_prefix
    | step hnext' h' =>
      obtain ⟨rfl, rfl⟩ := Prod.mk.inj (Option.some.inj (hnext.symm.trans hnext'))
      rcases ih h' with hp | hp
      · exact .inl (List.cons_prefix_cons.mpr ⟨rfl, hp⟩)
      · exact .inr (List.cons_prefix_cons.mpr ⟨rfl, hp⟩)

/-- A lexeme as it is written. -/
def write : Lexeme → List Char
  | name n => n.toList
  | sign c => [c]
  | text t => (Quoted.text t).toList

/-- The texts of the literals among lexemes. -/
def texts : List Lexeme → List String
  | [] => []
  | text t :: ls => t :: texts ls
  | _ :: ls => texts ls

/-! ### Lexemes that stand apart -/

/-- A text of name characters, at least one. -/
def IsWord (s : String) : Prop := s.toList ≠ [] ∧ ∀ c ∈ s.toList, Text.isNameChar c = true

instance (s : String) : Decidable (IsWord s) :=
  decidable_of_iff (s.toList ≠ [] ∧ s.toList.all Text.isNameChar = true) (by
    rw [List.all_eq_true, IsWord])

/-- Whether a name or a literal ends in front of a text: there is a sign, or nothing. -/
def Stops (rest : List Char) : Prop := ∀ c ∈ rest.head?, isSign c = true

/-- Lexemes of which none runs into what is behind it. -/
def Apart (rest : List Char) : List Lexeme → Prop
  | [] => True
  | .sign c :: ls => isSign c = true ∧ Apart rest ls
  | .name n :: ls => IsWord n ∧ Stops (ls.flatMap write ++ rest) ∧ Apart rest ls
  | .text _ :: ls => Stops (ls.flatMap write ++ rest) ∧ Apart rest ls

variable {c : Char} {n t : String} {cs rest : List Char} {ls : List Lexeme}

theorem isSign_spec (h : isSign c = true) :
    Text.isNameChar c = false ∧ c ≠ '"' ∧ c ≠ '\'' := by
  have hsigns : " =.,:()[]\x7b\x7d".toList.all
      (fun c => !Text.isNameChar c && c != '"' && c != '\'') = true := by decide +kernel
  have hc := List.all_eq_true.mp hsigns c (List.contains_iff_mem.mp h)
  simpa [and_assoc] using hc

theorem next?_sign (h : isSign c = true) : next? (c :: cs) = some (.sign c, cs) := by
  have hname : ¬ Text.isNameChar c = true := Bool.not_eq_true _ |>.mpr (isSign_spec h).1
  rw [next?, if_neg hname, if_pos h]

theorem next?_name (hn : IsWord n) (hrest : Stops rest) :
    next? (n.toList ++ rest) = some (.name n, rest) := by
  obtain ⟨hne, hchars⟩ := hn
  have htake : (n.toList ++ rest).takeWhile Text.isNameChar = n.toList ∧
      (n.toList ++ rest).dropWhile Text.isNameChar = rest := by
    rw [List.takeWhile_append_of_pos hchars, List.dropWhile_append_of_pos hchars]
    cases rest with
    | nil => simp
    | cons c cs => simp [(isSign_spec (hrest c rfl)).1]
  have hquote : ¬ (rest.head? = some '"' ∨ rest.head? = some '\'') := by
    rintro (h | h)
    · exact (isSign_spec (hrest _ h)).2.1 rfl
    · exact (isSign_spec (hrest _ h)).2.2 rfl
  have hof : String.ofList n.toList = n := String.ofList_toList
  generalize n.toList = chars at hne hchars htake hof
  cases chars with
  | nil => exact absurd rfl hne
  | cons c cs =>
    rw [List.cons_append] at htake ⊢
    rw [next?, if_pos (hchars c List.mem_cons_self)]
    simp only [htake, if_neg hquote, hof]

theorem next?_text (hrest : Stops rest) :
    next? ((Quoted.text t).toList ++ rest) = some (.text t, rest) := by
  have hq := Quoted.isDelimiter_delimiter t.toList
  have hhead : rest.head? ≠ some (Quoted.delimiter t.toList) := by
    intro h
    obtain ⟨-, hdouble, hsingle⟩ := isSign_spec (hrest _ h)
    exact hq.elim hsingle hdouble
  have hread : Docstring.literal? .none (Quoted.encode t.toList ++ rest) = _ :=
    Docstring.literal?_encode t.toList hhead
  have hsigns : Text.isNameChar '\'' = false ∧ isSign '\'' = false ∧ Text.isNameChar '"' = false ∧
      isSign '"' = false := by decide +kernel
  have hopens : ¬ Text.isNameChar (Quoted.delimiter t.toList) = true ∧
      ¬ isSign (Quoted.delimiter t.toList) = true := by
    rcases hq with hq | hq <;> rw [hq] <;> simp [hsigns]
  rw [Quoted.text, String.toList_ofList]
  rw [Quoted.encode_append] at hread ⊢
  rw [next?, if_neg hopens.1, if_neg hopens.2, hread, Option.map_some, String.ofList_toList]

/-- Lexemes that stand apart are read back from what they are written as. -/
theorem lexes_write (h : Apart rest ls) : Lexes (ls.flatMap write ++ rest) ls rest := by
  induction ls with
  | nil => exact .done
  | cons l ls ih =>
    rw [List.flatMap_cons, List.append_assoc]
    cases l with
    | sign c => exact .step (next?_sign h.1) (ih h.2)
    | name n => exact .step (next?_name h.1 h.2.1) (ih h.2.2)
    | text t => exact .step (next?_text h.1) (ih h.2)

@[simp] theorem write_name : (name n).write = n.toList := rfl

@[simp] theorem write_sign : (sign c).write = [c] := rfl

@[simp] theorem write_text : (text t).write = (Quoted.text t).toList := rfl

@[simp] theorem texts_nil : texts [] = [] := rfl

@[simp] theorem texts_name : texts (.name n :: ls) = texts ls := rfl

@[simp] theorem texts_sign : texts (.sign c :: ls) = texts ls := rfl

@[simp] theorem texts_text : texts (.text t :: ls) = t :: texts ls := rfl

@[simp] theorem texts_append {ms : List Lexeme} : texts (ls ++ ms) = texts ls ++ texts ms := by
  induction ls with
  | nil => rfl
  | cons l ls ih => cases l <;> simp [ih]

@[simp] theorem stops_nil : Stops [] := fun _ h => nomatch h

@[simp] theorem stops_cons : Stops (c :: cs) ↔ isSign c = true :=
  ⟨fun h => h c rfl, fun h _ hc => Option.some.inj hc ▸ h⟩

@[simp] theorem apart_nil : Apart rest [] := trivial

@[simp] theorem apart_sign : Apart rest (.sign c :: ls) ↔ isSign c = true ∧ Apart rest ls := Iff.rfl

@[simp] theorem apart_name :
    Apart rest (.name n :: ls) ↔ IsWord n ∧ Stops (ls.flatMap write ++ rest) ∧ Apart rest ls := Iff.rfl

@[simp] theorem apart_text :
    Apart rest (.text t :: ls) ↔ Stops (ls.flatMap write ++ rest) ∧ Apart rest ls := Iff.rfl

@[simp] theorem apart_append {ms : List Lexeme} :
    Apart rest (ls ++ ms) ↔ Apart (ms.flatMap write ++ rest) ls ∧ Apart rest ms := by
  induction ls with
  | nil => simp
  | cons l ls ih => cases l <;> simp [ih, and_assoc]

/-! ### Dictionary displays -/

/-- The entries behind the opening brace of a display, from texts to names. -/
def entriesBehind? : List Lexeme → Option (List (String × String))
  | [.sign '\x7d'] => some []
  | [.text k, .sign ':', .name n, .sign '\x7d'] => some [(k, n)]
  | .text k :: .sign ':' :: .name n :: .sign ',' :: ls => (entriesBehind? ls).map ((k, n) :: ·)
  | _ => none

/-- The entries of a display, in order. Blanks count for nothing. -/
def entries? (ls : List Lexeme) : Option (List (String × String)) :=
  match ls.filter (· != .sign ' ') with
  | .sign '\x7b' :: ls => entriesBehind? ls
  | _ => none

/-- The lexemes of an entry of a display. -/
def entry (b : String × String) : List Lexeme := [.text b.1, .sign ':', .sign ' ', .name b.2]

/-- What is behind the opening brace of a display. -/
def displayBehind (bs : List (String × String)) : List Lexeme :=
  [Lexeme.sign ',', .sign ' '].intercalate (bs.map entry) ++ [.sign '\x7d']

/-- The lexemes of a display of entries. -/
def display (bs : List (String × String)) : List Lexeme := .sign '\x7b' :: displayBehind bs

theorem displayBehind_cons_cons (b b' : String × String) (bs : List (String × String)) :
    displayBehind (b :: b' :: bs) =
      entry b ++ .sign ',' :: .sign ' ' :: displayBehind (b' :: bs) := by
  rw [displayBehind, List.map_cons, List.map_cons, List.intercalate_cons_cons, List.append_assoc,
    List.append_assoc]
  rfl

theorem entriesBehind?_displayBehind (bs : List (String × String)) :
    entriesBehind? ((displayBehind bs).filter (· != .sign ' ')) = some bs := by
  induction bs with
  | nil => rfl
  | cons b bs ih =>
    cases bs with
    | nil => rfl
    | cons b' bs =>
      rw [displayBehind_cons_cons]
      simp [entry, entriesBehind?, ih]

theorem entries?_display (bs : List (String × String)) : entries? (display bs) = some bs :=
  entriesBehind?_displayBehind bs

/-- The braces, commas and colons of a display keep its names and texts apart. -/
theorem apart_display {bs : List (String × String)} (h : ∀ b ∈ bs, IsWord b.2) (rest : List Char) :
    Apart rest (display bs) := by
  have hbehind : Apart rest (displayBehind bs) := by
    induction bs with
    | nil => simp [displayBehind, isSign]
    | cons b bs ih =>
      obtain ⟨hb, hbs⟩ := List.forall_mem_cons.mp h
      cases bs with
      | nil => simp [displayBehind, entry, hb, isSign]
      | cons b' bs =>
        rw [displayBehind_cons_cons]
        simp [entry, hb, ih hbs, isSign]
  simp [display, hbehind, isSign]

theorem texts_display (bs : List (String × String)) :
    texts (display bs) = bs.map (·.1) := by
  have hbehind : texts (displayBehind bs) = bs.map (·.1) := by
    induction bs with
    | nil => rfl
    | cons b bs ih =>
      cases bs with
      | nil => rfl
      | cons b' bs =>
        rw [displayBehind_cons_cons]
        simp [entry, ih]
  simp [display, hbehind]

end Lexeme

end HttpContract
