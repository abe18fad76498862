import HttpContract.Client.Execution
import HttpContract.Proofs.Http.Request
import HttpContract.Proofs.Plan.Declared
import HttpContract.Proofs.Text.Percent

/-!
# Placeholders of planned calls

A plan binds a value to each token of its template and to no other key (`exists_plan`). Together with
the cuts of a template and the laws of escaped text this gives `placeholders_filled`: a call replaces
all placeholders, and what it puts there stays inside its place.
-/

namespace HttpContract

/-- The path variables that a step binds, with the names of their parameters. -/
def Step.pathBindings : Step → List (String × String)
  | bindPath bs => bs
  | _ => []

/-- What the plan fills placeholders with. -/
def CallPlan.pathBindings (p : CallPlan) : List (String × String) :=
  p.steps.flatMap Step.pathBindings

namespace Signature
variable {m : Signature} {e : Endpoint}

/-- The steps of the body can be made and bind no path variable, even where names are shared. -/
theorem exists_bodySteps (m : Signature) (e : Endpoint) :
    ∃ body, (m.operation e).bodySteps = .ok body ∧ body.flatMap Step.pathBindings = [] := by
  unfold Operation.bodySteps
  cases hb : (m.withRole .body).head? with
  | none => exact ⟨[], by rw [operation, hb]; rfl, rfl⟩
  | some p =>
    have hbody : (m.operation e).body = some p.name := by rw [operation, hb]; rfl
    have hp : p.binding ∈ (m.operation e).parameters :=
      List.mem_map_of_mem (mem_of_mem_withRole (List.mem_of_head? hb))
    obtain ⟨b, hf⟩ : ∃ b, (m.operation e).parameter? p.name = some b :=
      Option.isSome_iff_exists.mp (List.find?_isSome.mpr ⟨_, hp, beq_self_eq_true _⟩)
    rw [hbody]
    simp only [hf]
    refine ⟨_, rfl, ?_⟩
    rw [List.flatMap_cons, List.flatMap_map]
    exact List.flatMap_eq_nil_iff.mpr fun _ _ => rfl

theorem pathBindings_bindingSteps (m : Signature) :
    (m.bindingSteps .pathVariable .bindPath).flatMap Step.pathBindings = m.pairs .pathVariable := by
  unfold bindingSteps
  split_ifs with h
  · rw [pairs, List.isEmpty_iff.mp h]
    rfl
  · exact List.append_nil _

theorem pathBindings_queries (m : Signature) :
    (m.bindingSteps .queryParameter .bindQuery).flatMap Step.pathBindings = [] := by
  unfold bindingSteps
  split_ifs <;> rfl

theorem pathBindings_returnSteps (m : Signature) : m.returnSteps.flatMap Step.pathBindings = [] := by
  unfold returnSteps
  cases m.shape.isVoid with
  | true => rfl
  | false => cases m.declaredResult <;> rfl

theorem exists_plan (m : Signature) (e : Endpoint) :
    ∃ plan, (m.operation e).plan = .ok plan ∧ plan.pathBindings = m.pairs .pathVariable := by
  obtain ⟨body, hb, hv⟩ := exists_bodySteps m e
  unfold Operation.plan
  rw [hb, returnSteps_operation, bindingSteps_operation, bindingSteps_operation]
  refine ⟨_, rfl, ?_⟩
  simp only [CallPlan.pathBindings, List.flatMap_append, pathBindings_bindingSteps,
    pathBindings_queries, pathBindings_returnSteps, hv, List.flatMap_map]
  simp [Step.pathBindings]

end Signature

namespace Frame

theorem get?_values {frame : Frame} {bs : List (String × String)} {filled : List (String × Value)}
    (hn : (bs.map (·.1)).Nodup) (h : frame.values bs = .ok filled) :
    ∀ b ∈ bs, ∃ v, frame.value b.2 = .ok v ∧ Entries.get? filled b.1 = some v := by
  induction bs generalizing filled with
  | nil => exact fun b hb => nomatch hb
  | cons b bs ih =>
    rw [List.map_cons, List.nodup_cons] at hn
    unfold values at h ih
    rw [List.mapM_cons] at h
    cases hv : frame.value b.2 with
    | error e => rw [hv] at h; cases h
    | ok v =>
      cases hr : bs.mapM fun b => (frame.value b.2).map (b.1, ·) with
      | error e => rw [hv, hr] at h; cases h
      | ok rest =>
        rw [hv, hr] at h
        cases h
        refine List.forall_mem_cons.mpr ⟨⟨v, hv, Entries.get?_cons_self⟩, fun b' hb' => ?_⟩
        obtain ⟨v', hv', hg⟩ := ih hn.2 hr b' hb'
        have hne : b.1 ≠ b'.1 := fun he => hn.1 (he ▸ List.mem_map_of_mem hb')
        exact ⟨v', hv', by rw [Entries.get?_cons_of_ne hne, hg]⟩

end Frame

open PathTemplate in
/-- A template is cut into literals and placeholders in one way only, and a request fills exactly
these; what it fills them with is escaped and reads back; and the plan of an accepted method gives
each token of its path the value of one parameter, and has none to spare. -/
theorem placeholders_filled :
    (∀ path : String, ∃ k : Cut, k.Of path.toList ∧ (∀ k' : Cut, k'.Of path.toList → k' = k) ∧
      tokens path = k.tokens.map String.ofList ∧
      ∀ (b : Binder) (method : String) (filled params : List (String × Value))
        (text : String → String),
        (∀ t ∈ tokens path, ∃ v, Entries.get? filled t = some v ∧ valueText v = .ok (text t)) →
        b.request method path filled params = (Binder.query params).map fun q =>
          { method, service := b.service, params := q
            path := b.join (String.ofList (k.write fun t =>
              (Percent.segment (text (String.ofList t))).toList)) }) ∧
    (∀ s : String, Percent.Escaped (Percent.segment s).toList ∧
      Utf8.decode? (Percent.decode (Percent.segment s).toList) = some s) ∧
    (∀ (m : Signature) (contract : String) (o : Operation),
      Operation.ofSignature m contract = .ok o → ∃ plan, o.plan = .ok plan ∧
        (∀ t, t ∈ plan.pathBindings.map (·.1) ↔ t ∈ tokens o.path) ∧
        ∀ (frame : Frame) (filled : List (String × Value)),
          frame.values plan.pathBindings = .ok filled →
          ∀ b ∈ plan.pathBindings, ∃ v, frame.value b.2 = .ok v ∧
            Entries.get? filled b.1 = some v) := by
  refine ⟨fun path => ⟨cutOf (pieces path.toList), of_cutOf_pieces _, fun k' h => h.eq_cutOf,
    tokens_eq_tokens_cutOf path, fun b method filled params text h => ?_⟩,
    fun s => ⟨Percent.escaped_segment s, Percent.decode?_decode_segment s⟩, fun m contract o ho => ?_⟩
  · rw [Binder.request_of_texts b method params h, Binder.filledPath_of_texts h]
  · obtain ⟨e, -, ha, rfl⟩ := Signature.ofSignature_eq_ok ho
    obtain ⟨plan, hp, hv⟩ := Signature.exists_plan m e
    have hk : plan.pathBindings.map (·.1) = m.keys .pathVariable := by
      rw [hv, Signature.pairs, List.map_map]
      rfl
    refine ⟨plan, hp, fun t => ?_, fun frame filled h => Frame.get?_values ?_ h⟩
    · rw [hk]
      exact ha.tokens t
    · rw [hk]
      exact ha.pathKeys

/-- A slash in a value does not end its segment, and a token that stands twice is replaced twice. -/
theorem placeholders_filled_twice : ∃ k : PathTemplate.Cut,
    k.tokens.map String.ofList = ["id", "id"] ∧
    (⟨"docs", ""⟩ : Binder).request "GET" "/{id}/of/{id}" [("id", .text "a/b")] [] =
      .ok { method := "GET", service := "docs"
            path := Binder.join ⟨"docs", ""⟩ (String.ofList (k.write fun _ => "a%2Fb".toList)) } ∧
    Utf8.decode? (Percent.decode "a%2Fb".toList) = some "a/b" := by
  obtain ⟨hcut, hseg, -⟩ := placeholders_filled
  obtain ⟨k, -, -, ht, hr⟩ := hcut "/{id}/of/{id}"
  have hs : Percent.segment "a/b" = "a%2Fb" := by decide +kernel
  have htokens : PathTemplate.tokens "/{id}/of/{id}" = ["id", "id"] := by decide +kernel
  have h := hr ⟨"docs", ""⟩ "GET" [("id", .text "a/b")] [] (fun _ => "a/b") fun t h => by
    rw [htokens] at h
    rw [show t = "id" by simpa using h]
    exact ⟨.text "a/b", Entries.get?_cons_self, rfl⟩
  rw [hs] at h
  exact ⟨k, by rw [← ht, htokens], h, hs ▸ (hseg "a/b").2⟩

end HttpContract
