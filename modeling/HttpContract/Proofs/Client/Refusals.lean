import HttpContract.Proofs.Client.Generation
import HttpContract.Proofs.Client.SourceTexts
import HttpContract.Proofs.Declaration.Texts

/-!
# Refusals

How generating a client fails. Once a subject is read, checked and planned there is always a source of
it (`Generation.sourceOf_cases`), so what is left are the reports about the subject and about its
methods (`Program.Blames`), and the texts in types that break the reading of a method off
(`Program.BreaksOff`); `refusals_name_their_cause` says which of them it is, whatever texts mean.
-/

namespace HttpContract

namespace Generation
variable {settings : GenerationSettings} {c : Candidate} {k : Contract}

theorem exists_plans (h : Contract.ofCandidate c = .ok k) : ∃ plans, k.plans = .ok plans := by
  have hplan : ∀ o ∈ k.operations, ∃ plan, o.plan = .ok plan := by
    intro o ho
    obtain ⟨m, -, hm⟩ := Contract.exists_of_mem_operations h ho
    obtain ⟨e, -, -, rfl⟩ := Signature.ofSignature_eq_ok hm
    obtain ⟨plan, hplan, -⟩ := m.exists_plan e
    exact ⟨plan, hplan⟩
  cases hplans : k.plans with
  | ok plans => exact ⟨plans, rfl⟩
  | error e =>
    obtain ⟨before, o, after, ho, -, he⟩ := mapM_eq_error_iff.mp hplans
    obtain ⟨plan, hplan⟩ := hplan o (by simp [ho])
    rw [hplan] at he
    cases he

theorem sourceOf_cases (settings : GenerationSettings) (c : Candidate) :
    (∃ e, Contract.ofCandidate c = .error e ∧ sourceOf settings c = .error e) ∨
      ∃ g, sourceOf settings c = .ok g := by
  unfold sourceOf
  cases hk : Contract.ofCandidate c with
  | error e => exact .inl ⟨e, rfl, rfl⟩
  | ok k =>
    obtain ⟨plans, hplans⟩ := exists_plans hk
    right
    rw [ok_bind, hplans, ok_bind, ClientSource.emit_eq _ hplans]
    exact ⟨_, rfl⟩

end Generation

namespace Program
variable {p : Program} {s : Subject} {n : ClassName}

/-- A subject may be a contract, but among its methods, in their order, the first that cannot be read
has a text whose problem is not reported, and no other problem before it. -/
def BreaksOff (p : Program) (s : Subject) (b : Breakdown) : Prop :=
  (∀ v, ¬ p.Violates s v) ∧ ∃ n before m after, s = .declared n ∧
    p.methods (p.lineageOf n) = before ++ m :: after ∧
    (∀ m' ∈ before, ∃ signature, m'.2.signature (p.evaluation n.full m'.1) n.full m'.1 = .ok signature) ∧
    (m.2.texts.findSome? (p.evaluation n.full m.1).problem?).bind Forward.Problem.breakdown? = some b

theorem signatures_eq_broken_iff {b : Breakdown} : p.signatures n = .error (.broken b) ↔
    ∃ before m after, p.methods (p.lineageOf n) = before ++ m :: after ∧
      (∀ m' ∈ before, ∃ signature, m'.2.signature (p.evaluation n.full m'.1) n.full m'.1 = .ok signature) ∧
      (m.2.texts.findSome? (p.evaluation n.full m.1).problem?).bind Forward.Problem.breakdown? = some b := by
  unfold signatures
  rw [mapM_eq_error_iff]
  simp only [Function.signature_eq_broken_iff]

/-- What is wrong with a class that may be a contract shows when its methods are read, or when one of
them is checked. -/
theorem describe_eq_error {c : ContractClass} {e : Failure} (hnone : (p.outline n c).violation? = none)
    (hc : p.candidateOf s = (p.signatures n).map fun methods => { p.outline n c with methods })
    (h : p.describe s = .error e) : p.signatures n = .error e ∨
      ∃ m ∈ p.methods (p.lineageOf n), ∃ fault, e = .rejected fault n.full (some m.1) ∧
        m.2.operation (p.evaluation n.full m.1) n.full m.1 = .error e := by
  have hkept : ∀ methods : List Signature,
      ({ p.outline n c with methods } : Candidate).violation? = none := fun _ => hnone
  unfold describe at h
  rw [hc] at h
  cases hs : p.signatures n with
  | error e' =>
    rw [hs] at h
    cases h
    exact .inl rfl
  | ok methods =>
    rw [hs] at h
    obtain ⟨before, m, after, hmethods, -, hm⟩ := (Contract.ofCandidate_eq_error_iff (hkept methods)).mp h
    have hmem : m ∈ methods := by
      replace hmethods : methods = before ++ m :: after := hmethods
      simp [hmethods]
    obtain ⟨m', hm', hsignature⟩ := exists_of_mem_mapM hs m hmem
    obtain ⟨fault, hfault⟩ := Signature.exists_rejected hm
    rw [Function.name_signature hsignature] at hfault
    refine .inr ⟨m', hm', fault, hfault, ?_⟩
    rw [Function.operation, hsignature]
    exact hm

theorem describe_eq_broken_iff {b : Breakdown} :
    p.describe s = .error (.broken b) ↔ p.BreaksOff s b := by
  rcases p.candidateOf_cases s with ⟨c, v, hc, hv, hstands⟩ | ⟨n, c, rfl, -, hnone, hstands, hc⟩
  · obtain ⟨contract, hrefused⟩ := refusedFor_of_violation? hc hv
    have hviolates := (hstands v).mp (Candidate.isFirst_of_violation? hv).1
    rw [hrefused]
    exact iff_of_false (fun h => nomatch h) fun h => h.1 v hviolates
  · have heligible : ∀ v, ¬ p.Violates (.declared n) v := fun v hv =>
      Candidate.violation?_eq_none_iff.mp hnone v ((hstands v).mpr hv)
    constructor
    · intro h
      rcases describe_eq_error hnone hc h with h | ⟨m, hm, fault, hfault, hown⟩
      · exact ⟨heligible, n, by simpa using signatures_eq_broken_iff.mp h⟩
      · cases hfault
    · rintro ⟨-, n', before, m, after, hn, hbroken⟩
      cases hn
      rw [describe, hc, signatures_eq_broken_iff.mpr ⟨before, m, after, hbroken⟩]
      rfl

end Program

end HttpContract
