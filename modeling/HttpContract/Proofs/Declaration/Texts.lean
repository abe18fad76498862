import HttpContract.Proofs.Declaration.AsyncForms

/-!
# Texts in types

A type may be given as a text, alone or inside another type. `Function.texts` are the texts of a
function in the order in which they are read. A function whose texts all name types is read on; any
other fails as the first text that names none (`Function.errorOf?_resolved`). What a text means is given from
outside; a problem of it that is not reported as a fault of the contract breaks the reading off
(`Function.signature_eq_broken_iff`).
-/

namespace HttpContract

namespace Forward

/-- Why a text names no type, if it does not. -/
def Evaluation.problem? (meaning : Evaluation) (text : String) : Option Problem := errorOf? (meaning text)

/-- What the reading of a contract breaks off with, if the problem of a text is not reported. -/
def Problem.breakdown? : Problem → Option Breakdown
  | unresolved _ => none
  | breaks b => some b

theorem Problem.failure_eq_broken_iff {problem : Problem} {contract method : String} {b : Breakdown} :
    problem.failure contract method = .broken b ↔ problem.breakdown? = some b := by
  cases problem <;> simp [failure, breakdown?]

end Forward

/-! ### Types -/

namespace TypeExpr
variable {meaning : Forward.Evaluation}

mutual

/-- The texts in a type that stand for types. -/
def texts : TypeExpr → List String
  | forward t => [t]
  | subscript b args => texts b ++ textsAll args
  | union ms | bars ms => textsAll ms
  | annotated b _ => texts b
  | callable none result => texts result
  | callable (some parameters) result => textsAll parameters ++ texts result
  | _ => []

def textsAll : List TypeExpr → List String
  | [] => []
  | a :: as => texts a ++ textsAll as

end

mutual

/-- A type cannot be read exactly if one of its texts names no type, and the first of these says
why. -/
theorem errorOf?_resolved : (a : TypeExpr) → errorOf? (a.resolved meaning) = a.texts.findSome? meaning.problem?
  | forward t => by
    rw [resolved, texts, List.findSome?_singleton]
    rfl
  | subscript b args => by
    rw [resolved, errorOf?_bind_bind, errorOf?_resolved b, errorOf?_resolvedAll args, texts,
      List.findSome?_append]
  | union ms => by rw [resolved, errorOf?_map, errorOf?_resolvedAll ms, texts]
  | bars ms => by rw [resolved, errorOf?_map, errorOf?_resolvedAll ms, texts]
  | annotated b marks => by
    rw [texts, ← errorOf?_resolved b, resolved]
    exact errorOf?_map _
  | callable none result => by rw [resolved, errorOf?_map, errorOf?_resolved result, texts]
  | callable (some parameters) result => by
    rw [resolved, errorOf?_bind_bind, errorOf?_resolvedAll parameters, errorOf?_resolved result, texts,
      List.findSome?_append]
  | nothing | named _ | declared .. | literal _ | typeVar _ | newType _ | alien _ => rfl

theorem errorOf?_resolvedAll :
    (as : List TypeExpr) → errorOf? (resolvedAll meaning as) = (textsAll as).findSome? meaning.problem?
  | [] => rfl
  | a :: as => by
    rw [resolvedAll, errorOf?_bind_bind, errorOf?_resolved a, errorOf?_resolvedAll as, textsAll,
      List.findSome?_append]

end

end TypeExpr

/-! ### Functions -/

namespace Function
variable {f : Function} {meaning : Forward.Evaluation} {contract name : String}

/-- The texts in the types of a function, in the order in which they are read. -/
def texts (f : Function) : List String :=
  f.parameters.flatMap (fun p => (p.type.map TypeExpr.texts).getD []) ++
    (f.returns.map TypeExpr.texts).getD []

theorem errorOf?_resolved (f : Function) (meaning : Forward.Evaluation) :
    errorOf? (f.resolved meaning) = f.texts.findSome? meaning.problem? := by
  have htype : ∀ type : Option TypeExpr, errorOf? (type.mapM (TypeExpr.resolved meaning)) =
      ((type.map TypeExpr.texts).getD []).findSome? meaning.problem? := by
    intro type
    cases type with
    | none => rfl
    | some a =>
      rw [Option.map_some, Option.getD_some, ← TypeExpr.errorOf?_resolved]
      exact errorOf?_map some
  have hparameter : ∀ p : DeclaredParameter, errorOf? (p.type.mapM (TypeExpr.resolved meaning) >>= fun type =>
      pure ({ p with type } : DeclaredParameter)) =
        ((p.type.map TypeExpr.texts).getD []).findSome? meaning.problem? := by
    intro p
    rw [← htype]
    exact errorOf?_map _
  rw [resolved, errorOf?_bind_bind, errorOf?_mapM, htype, texts, List.findSome?_append,
    findSome?_flatMap]
  simp only [hparameter]

/-- A function that cannot be read has a text that names no type, or is refused itself. -/
theorem signature_eq_error {e : Failure} (h : f.signature meaning contract name = .error e) :
    (∃ problem, f.texts.findSome? meaning.problem? = some problem ∧
      e = problem.failure contract name) ∨ ∃ fault, e = .rejected fault contract (some name) := by
  have hrefused : ∀ {α : Type} {x : Except Fault α} {e : Failure},
      x.mapError (refusal contract name) = .error e →
        ∃ fault, e = .rejected fault contract (some name) := by
    intro α x e h
    obtain ⟨fault, -, hfault⟩ := mapError_eq_error.mp h
    exact ⟨fault, hfault.symm⟩
  unfold signature at h
  rcases bind_eq_error.mp h with h | ⟨f', -, h⟩
  · obtain ⟨problem, hproblem, h⟩ := mapError_eq_error.mp h
    rw [← errorOf?_eq_some_iff, errorOf?_resolved] at hproblem
    exact .inl ⟨problem, hproblem, h.symm⟩
  · right
    rcases bind_eq_error.mp h with h | ⟨parameters, -, h⟩
    · obtain ⟨-, p, -, -, -, h⟩ := mapM_eq_error_iff.mp h
      exact hrefused h
    · rcases bind_eq_error.mp h with h | ⟨returns, -, h⟩
      · exact hrefused h
      · cases h

/-- Reading a function ends without a report exactly if the first of its texts that names no type has
a problem that is not reported. -/
theorem signature_eq_broken_iff {b : Breakdown} : f.signature meaning contract name = .error (.broken b) ↔
    (f.texts.findSome? meaning.problem?).bind Forward.Problem.breakdown? = some b := by
  rw [Option.bind_eq_some_iff]
  constructor
  · intro h
    rcases signature_eq_error h with ⟨problem, hproblem, hb⟩ | ⟨fault, hfault⟩
    · exact ⟨problem, hproblem, Forward.Problem.failure_eq_broken_iff.mp hb.symm⟩
    · cases hfault
  · rintro ⟨problem, hproblem, hb⟩
    rw [← errorOf?_resolved, errorOf?_eq_some_iff] at hproblem
    unfold signature
    rw [hproblem, ← Forward.Problem.failure_eq_broken_iff.mpr hb]
    rfl

end Function

end HttpContract
