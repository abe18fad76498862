import HttpContract.Proofs.Declaration.Eligibility
import HttpContract.Proofs.PathTemplate.Segments
import HttpContract.Text.Printable
import Mathlib.Data.List.Infix

/-!
# Visible classes

A class is visible if it stands at the top of its module under open names (`ClassName.IsVisible`).
Where a class stands is a `DefinitionSite`; its qualified name shows whether it is inside a
function, and the check of visibility looks for nothing else. A class that stands in other classes
only is therefore taken for public by its own name and its module alone
(`public_iff_outside_functions`).
-/

namespace HttpContract

/-! ### Rows of characters -/

namespace Text

theorem occurs_iff_infix {row cs : List Char} : occurs row cs = true ↔ row <:+: cs := by
  induction cs with
  | nil => rw [occurs, List.isEmpty_iff, List.infix_nil]
  | cons c cs ih => rw [occurs, Bool.or_eq_true, List.isPrefixOf_iff_prefix, ih, List.infix_cons_iff]

theorem not_mem_of_isIdentifier {s : String} {c : Char} (h : isIdentifier s = true)
    (hc : isNameChar c = false) : c ∉ s.toList := by
  unfold isIdentifier at h
  cases hs : s.toList with
  | nil => exact List.not_mem_nil
  | cons d ds =>
    rw [hs, Bool.and_eq_true, Bool.and_eq_true, List.all_eq_true] at h
    obtain ⟨⟨hstart, hrest⟩, -⟩ := h
    intro hmem
    rcases List.mem_cons.mp hmem with rfl | hmem
    · rw [isNameChar, hstart] at hc
      cases hc
    · rw [hrest c hmem] at hc
      cases hc

theorem split_append_dot {s name : String} (h : '.' ∉ name.toList) :
    split '.' (s ++ "." ++ name) = split '.' s ++ [name] := by
  have hlist : (s ++ "." ++ name).toList = s.toList ++ '.' :: name.toList := by
    rw [String.toList_append, String.toList_append, List.append_assoc]
    rfl
  rw [split, hlist, List.splitOn_append_cons_self, List.splitOn_eq_singleton h, List.map_append,
    List.map_singleton, String.ofList_toList]
  rfl

end Text

/-! ### Sites -/

/-- A name that a definition can have. -/
abbrev DefinedName := { s : String // Text.isIdentifier s = true }

/-- Where a class is defined: at the top of its module, in the body of a class or in that of a
function. -/
inductive DefinitionSite
  | top (name : DefinedName)
  | inClass (outer : DefinitionSite) (name : DefinedName)
  | inFunction (outer : DefinitionSite) (name : DefinedName)

namespace DefinitionSite

/-- The name of the class that is defined. -/
def name : DefinitionSite → String
  | top n | inClass _ n | inFunction _ n => n

/-- What stands between a function and what is defined in its body. -/
def localsMark : String := "<locals>"

/-- Its qualified name, which tells what it is defined in. -/
def qualname : DefinitionSite → String
  | top n => n
  | inClass outer n => outer.qualname ++ "." ++ n
  | inFunction outer n => outer.qualname ++ "." ++ localsMark ++ "." ++ n

/-- The class by its module and its qualified name. -/
def className (module : String) (d : DefinitionSite) : ClassName := ⟨module, d.qualname⟩

/-- That the class is defined in nothing but its module. -/
def IsTop (d : DefinitionSite) : Prop := ∃ n, d = top n

/-- Whether there is a function around the class, at whatever distance. -/
def IsLocal : DefinitionSite → Prop
  | top _ => False
  | inClass outer _ => outer.IsLocal
  | inFunction .. => True

variable {d : DefinitionSite} {module : String}

theorem dot_not_mem (n : DefinedName) : '.' ∉ n.val.toList :=
  Text.not_mem_of_isIdentifier n.property (by decide)

theorem split_qualname (d : DefinitionSite) :
    ∃ outer, Text.split '.' d.qualname = outer ++ [d.name] := by
  cases d with
  | top n =>
    refine ⟨[], ?_⟩
    rw [qualname, name, Text.split, List.splitOn_eq_singleton (dot_not_mem n), List.map_singleton,
      String.ofList_toList]
    rfl
  | inClass outer n => exact ⟨_, Text.split_append_dot (dot_not_mem n)⟩
  | inFunction outer n => exact ⟨_, Text.split_append_dot (dot_not_mem n)⟩

theorem simple_className : (d.className module).simple = d.name := by
  obtain ⟨outer, h⟩ := d.split_qualname
  rw [ClassName.simple, className, h, List.getLastD_concat]

theorem qualname_eq_name_iff : d.qualname = d.name ↔ d.IsTop := by
  have hdot : ∀ (s : String) (n : DefinedName), s ++ "." ++ n.val ≠ n.val := by
    intro s n h
    have hmem : '.' ∈ (s ++ "." ++ n.val).toList := by simp
    rw [h] at hmem
    exact dot_not_mem n hmem
  cases d with
  | top n => exact iff_of_true rfl ⟨n, rfl⟩
  | inClass outer n => exact iff_of_false (hdot _ n) nofun
  | inFunction outer n => exact iff_of_false (hdot _ n) nofun

theorem locals_infix_iff : localsMark.toList <:+: d.qualname.toList ↔ d.IsLocal := by
  have hdot : '.' ∉ localsMark.toList := by decide
  have hname : ∀ n : DefinedName, ¬ localsMark.toList <:+: n.val.toList := by
    intro n h
    have hmem : '<' ∈ n.val.toList := h.subset (by decide)
    exact Text.not_mem_of_isIdentifier n.property (by decide) hmem
  have hsplit : ∀ s t : String, localsMark.toList <:+: (s ++ "." ++ t).toList ↔
      localsMark.toList <:+: s.toList ∨ localsMark.toList <:+: t.toList := by
    intro s t
    rw [String.toList_append, String.toList_append, List.append_assoc]
    exact infix_append_cons_iff hdot
  induction d with
  | top n => exact iff_of_false (hname n) not_false
  | inClass outer n ih =>
    rw [qualname, hsplit, or_iff_left (hname n)]
    exact ih
  | inFunction outer n =>
    rw [qualname, hsplit, hsplit]
    exact iff_of_true (.inl (.inr (List.infix_refl _))) trivial

end DefinitionSite

/-! ### Visibility -/

namespace ClassName

/-- Neither the name of the class nor a segment of its module is kept private by an underscore. A
segment between double underscores is not. -/
def HasOpenNames (c : ClassName) : Prop :=
  c.simple.startsWith "_" = false ∧ ∀ s ∈ Text.split '.' c.module, s.startsWith "_" = true →
    s.startsWith "__" = true ∧ s.endsWith "__" = true

/-- Whether a class is what a contract has to be: open names, and nothing but a module around it. -/
def IsVisible (c : ClassName) : Prop := c.qualname = c.simple ∧ c.HasOpenNames

theorem isPublic_iff {c : ClassName} : c.isPublic = true ↔
    ¬ DefinitionSite.localsMark.toList <:+: c.qualname.toList ∧ c.HasOpenNames := by
  have hsegment : ∀ s : String, (!isPrivateSegment s) = true ↔
      (s.startsWith "_" = true → s.startsWith "__" = true ∧ s.endsWith "__" = true) := by
    intro s
    rw [isPrivateSegment]
    cases s.startsWith "_" <;> simp
  have hlocals : (!Text.occurs "<locals>".toList c.qualname.toList) = true ↔
      ¬ DefinitionSite.localsMark.toList <:+: c.qualname.toList := by
    rw [← Text.occurs_iff_infix, Bool.not_eq_true', Bool.not_eq_true]
    rfl
  rw [isPublic, Bool.and_eq_true, Bool.and_eq_true, hlocals, Bool.not_eq_true', List.all_eq_true]
  simp only [hsegment, HasOpenNames]
  rw [and_comm (a := c.simple.startsWith "_" = false), and_assoc]

end ClassName

namespace Program
variable {p : Program} {c : ClassName}

/-- A class is refused for its visibility if it is an interface and the check takes it for private. -/
theorem refusedFor_isPublic_iff : p.RefusedFor (.declared c) .isPublic ↔
    p.IsInterface (.declared c) ∧ c.isPublic = false := by
  have hclass : p.IsInterface (.declared c) → p.isClass c = true := by
    simp only [IsInterface, isClass]
    cases p.scope.find? c with
    | none => exact False.elim
    | some body => cases body <;> simp
  -- the one constraint that is checked before this one is that of interfaces
  rw [refusedFor_iff]
  constructor
  · rintro ⟨hviolated, before, after, hsplit, hbefore⟩
    have hinterface : p.IsInterface (.declared c) := by
      have hmem : Constraint.interface ∈ before := by
        cases before with
        | nil => cases (List.cons.inj hsplit).1
        | cons v before => exact (List.cons.inj hsplit).1 ▸ List.mem_cons_self
      exact not_not.mp (hbefore _ hmem)
    refine ⟨hinterface, ?_⟩
    by_contra hpublic
    exact hviolated ⟨hclass hinterface, by simpa using hpublic⟩
  · rintro ⟨hinterface, hprivate⟩
    refine ⟨fun h => by simp [h.2] at hprivate, [.interface], _, rfl, ?_⟩
    rw [List.forall_mem_singleton]
    exact not_not_intro hinterface

end Program

/-- Wherever a class is defined: it is visible exactly at the top of its module, under open names. The
check of contracts takes it for public under open names anywhere outside of functions, also in other
classes, and whatever these are called. Exactly the interfaces that it takes for private are refused
for their visibility. -/
theorem public_iff_outside_functions (p : Program) (module : String) (d : DefinitionSite) :
    let c := d.className module
    (c.IsVisible ↔ d.IsTop ∧ c.HasOpenNames) ∧
      (c.isPublic = true ↔ ¬ d.IsLocal ∧ c.HasOpenNames) ∧
      (p.RefusedFor (.declared c) .isPublic ↔
        p.IsInterface (.declared c) ∧ ¬ (¬ d.IsLocal ∧ c.HasOpenNames)) := by
  intro c
  have hpublic : c.isPublic = true ↔ ¬ d.IsLocal ∧ c.HasOpenNames := by
    rw [ClassName.isPublic_iff]
    exact and_congr_left' (not_congr DefinitionSite.locals_infix_iff)
  refine ⟨?_, hpublic, ?_⟩
  · rw [ClassName.IsVisible, DefinitionSite.simple_className]
    exact and_congr_left' DefinitionSite.qualname_eq_name_iff
  · rw [Program.refusedFor_isPublic_iff, ← hpublic, Bool.not_eq_true]

/-- A class inside a private class is taken for public, one inside a function is not. -/
example : ClassName.isPublic ⟨"app.api", "_Outer.Users"⟩ = true ∧
    ClassName.isPublic ⟨"app.api", "make.<locals>.Users"⟩ = false := by decide +kernel

end HttpContract
