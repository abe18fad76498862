import HttpContract.Proofs.Client.Echo
import HttpContract.Proofs.Client.Signatures

/-!
# Holders

A call changes its holders as the response says and not otherwise (`holders_change_with_responses`).
Holders are filled in the order of the parameters, and if one cannot be, those before it keep what they
have got (`receiveAll_holders`). What a holder gets is what `Binding.Reads` says of the headers.
-/

namespace HttpContract

/-! ### Reading headers -/

namespace Binding

/-- What a body reads from a response for a parameter. -/
def fetch (x : CallContext) (p : Response) (b : Binding) : Except CallError Value := do
  (x.obstacles.pass .readHeader 3).mapError CallError.broken
  p.headerAs x.scope b.key b.valueType.target

/-- What the headers of a response are for a parameter: nothing, a text, or a text that is read as a
value of another type. A name that is none in the charset of the headers is not looked up. -/
inductive Reads (scope : Scope) (p : Response) (b : Binding) : Except CallError Value → Prop
  | absent (hkey : p.headerCharset.has (Text.lower b.key)) (h : p.valuesOf b.key = []) :
    Reads scope p b (.ok .null)
  | text (hkey : p.headerCharset.has (Text.lower b.key)) (h : p.valuesOf b.key ≠ [])
    (htype : b.valueType.target.takesText) :
    Reads scope p b (.ok (.text (String.intercalate ", " (p.valuesOf b.key))))
  | value {s : Schema} {reading : Accepted} (hkey : p.headerCharset.has (Text.lower b.key))
    (h : p.valuesOf b.key ≠ []) (htype : b.valueType.target.takesText = false)
    (hs : b.valueType.target.schema? scope = some s)
    (hread : s.read (.string (String.intercalate ", " (p.valuesOf b.key))) = .ok reading) :
    Reads scope p b (.ok reading.value)
  | mismatch {s : Schema} {issues : List Issue} (hkey : p.headerCharset.has (Text.lower b.key))
    (h : p.valuesOf b.key ≠ []) (htype : b.valueType.target.takesText = false)
    (hs : b.valueType.target.schema? scope = some s)
    (hread : s.read (.string (String.intercalate ", " (p.valuesOf b.key))) = .error issues) :
    Reads scope p b (.error (.service (.header b.key (b.valueType.target.targetText scope)
      (String.intercalate ", " (p.valuesOf b.key)))))
  | noSchema (hkey : p.headerCharset.has (Text.lower b.key)) (h : p.valuesOf b.key ≠ [])
    (htype : b.valueType.target.takesText = false) (hs : b.valueType.target.schema? scope = none) :
    Reads scope p b (.error (.broken .noSchema))
  | unwritable (hkey : p.headerCharset.has (Text.lower b.key) = false) :
    Reads scope p b (.error (.broken .unwritableText))

theorem reads_fetch {x : CallContext} (hx : x.obstacles.pass .readHeader 3 = .ok ()) (p : Response)
    (b : Binding) : b.Reads x.scope p (b.fetch x p) := by
  have hvalues : p.header? b.key = if (p.valuesOf b.key).isEmpty then none
      else some (String.intercalate ", " (p.valuesOf b.key)) := rfl
  rw [fetch, hx]
  simp only [Except.mapError, bind, Except.bind, Response.headerAs, Response.lookup]
  cases hkey : p.headerCharset.has (Text.lower b.key) with
  | false => exact .unwritable hkey
  | true =>
    cases hempty : (p.valuesOf b.key).isEmpty with
    | true =>
      rw [hempty, if_pos rfl] at hvalues
      rw [if_pos rfl, hvalues]
      exact .absent hkey (List.isEmpty_iff.mp hempty)
    | false =>
      rw [hempty, if_neg Bool.false_ne_true] at hvalues
      have hsome : p.valuesOf b.key ≠ [] := List.isEmpty_eq_false_iff.mp hempty
      rw [if_pos rfl, hvalues]
      simp only
      cases htype : b.valueType.target.takesText with
      | true => exact .text hkey hsome htype
      | false =>
        simp only [Bool.false_eq_true, ↓reduceIte]
        cases hs : b.valueType.target.schema? x.scope with
        | none => exact .noSchema hkey hsome htype hs
        | some schema =>
          simp only
          cases hread : schema.read (.string (String.intercalate ", " (p.valuesOf b.key))) with
          | ok reading => exact .value hkey hsome htype hs hread
          | error issues => exact .mismatch hkey hsome htype hs hread

/-- The step that fills the holder of a parameter. -/
def fill (b : Binding) : Step := .extractHeader b.key b.name b.valueType

end Binding

/-! ### Filling holders -/

namespace Frame

/-- The parameters are holders or are left out. -/
def Holds (frame : Frame) (bs : List Binding) : Prop :=
  ∀ b ∈ bs, frame.value b.name = .ok .null ∨ ∃ old, frame.value b.name = .ok (.out old)

/-- Whether a parameter is not left out. -/
def IsGiven (frame : Frame) (b : Binding) : Prop := frame.value b.name ≠ .ok .null

/-- What a response makes of the holders of some parameters; nothing else changes. -/
structure Filled (frame : Frame) (x : CallContext) (p : Response) (bs : List Binding) (frame' : Frame) :
    Prop where
  filled : ∀ b ∈ bs, frame.IsGiven b → ∃ v, b.fetch x p = .ok v ∧ frame'.value b.name = .ok (.out v)
  kept : ∀ n, (∀ b ∈ bs, frame.IsGiven b → b.name ≠ n) → frame'.value n = frame.value n

/-- How the holders of some parameters are filled: all of them, after which the result is what it is; or
those before the first that cannot be read, which is then what the call ends with. -/
inductive Receives (frame : Frame) (x : CallContext) (p : Response) (bs : List Binding)
    (returned : Except CallError Value) : Except CallError Value → Frame → Prop
  | all {frame' : Frame} (h : frame.Filled x p bs frame') :
    Receives frame x p bs returned returned frame'
  | stops {before behind : List Binding} {b : Binding} {e : CallError} {frame' : Frame}
    (hbs : bs = before ++ b :: behind) (hgiven : frame.IsGiven b) (he : b.fetch x p = .error e)
    (h : frame.Filled x p before frame') : Receives frame x p bs returned (.error e) frame'

variable {frame frame' : Frame} {x : CallContext} {p : Response} {b : Binding} {bs : List Binding}

theorem value_eq_ok_iff {n : String} {v : Value} :
    frame.value n = .ok v ↔ Entries.get? frame n = some v := by
  rw [value]
  cases Entries.get? frame n with
  | none => simp
  | some w => simp

theorem value_set_self (frame : Frame) (n : String) (v : Value) : (frame.set n v).value n = .ok v := by
  rw [value, set, Entries.get?_insert_self]
  rfl

theorem Filled.nil : frame.Filled x p [] frame :=
  ⟨fun _ h => (nomatch h), fun _ _ => rfl⟩

theorem Filled.cons_of_left_out (hb : ¬ frame.IsGiven b) (h : frame.Filled x p bs frame') :
    frame.Filled x p (b :: bs) frame' where
  filled b' hb' hgiven := by
    rcases List.mem_cons.mp hb' with rfl | hb'
    · exact absurd hgiven hb
    · exact h.filled b' hb' hgiven
  kept n hn := h.kept n fun b' hb' => hn b' (List.mem_cons_of_mem _ hb')

/-- Filling one holder, and then those of other parameters. -/
theorem Filled.cons {v : Value} (hv : b.fetch x p = .ok v) (hgiven : frame.IsGiven b)
    (hne : ∀ b' ∈ bs, b'.name ≠ b.name) (h : (frame.set b.name (.out v)).Filled x p bs frame') :
    frame.Filled x p (b :: bs) frame' := by
  have hother : ∀ b' ∈ bs, (frame.set b.name (.out v)).IsGiven b' ↔ frame.IsGiven b' := by
    intro b' hb'
    rw [IsGiven, IsGiven, value_set_of_ne (hne b' hb')]
  constructor
  · intro b' hb' hgiven'
    rcases List.mem_cons.mp hb' with rfl | hb'
    · refine ⟨v, hv, ?_⟩
      rw [h.kept b'.name fun b'' hb'' _ => hne b'' hb'', value_set_self]
    · exact h.filled b' hb' ((hother b' hb').mpr hgiven')
  · intro n hn
    have hne' : n ≠ b.name := (hn b List.mem_cons_self hgiven).symm
    rw [h.kept n fun b' hb' hgiven' => hn b' (List.mem_cons_of_mem _ hb') ((hother b' hb').mp hgiven'),
      value_set_of_ne hne']

theorem Receives.cons_of_left_out {returned result : Except CallError Value} (hb : ¬ frame.IsGiven b)
    (h : frame.Receives x p bs returned result frame') :
    frame.Receives x p (b :: bs) returned result frame' := by
  cases h with
  | all h => exact .all (h.cons_of_left_out hb)
  | stops hbs hgiven he h =>
    exact .stops (by rw [hbs, List.cons_append]) hgiven he (h.cons_of_left_out hb)

theorem Receives.cons {returned result : Except CallError Value} {v : Value}
    (hv : b.fetch x p = .ok v) (hgiven : frame.IsGiven b) (hne : ∀ b' ∈ bs, b'.name ≠ b.name)
    (h : (frame.set b.name (.out v)).Receives x p bs returned result frame') :
    frame.Receives x p (b :: bs) returned result frame' := by
  cases h with
  | all h => exact .all (h.cons hv hgiven hne)
  | stops hbs hgiven' he h =>
    subst hbs
    have hnext := hne _ (List.mem_append_right _ List.mem_cons_self)
    rw [IsGiven, value_set_of_ne hnext] at hgiven'
    exact .stops (List.cons_append ..).symm hgiven' he
      (h.cons hv hgiven fun b' hb' => hne b' (List.mem_append_left _ hb'))

/-- Where all holders can be read, all are filled, and the result is what it is. -/
theorem Receives.filled_of_forall {returned result : Except CallError Value}
    (h : frame.Receives x p bs returned result frame')
    (hall : ∀ b ∈ bs, frame.IsGiven b → ∃ v, b.fetch x p = .ok v) :
    result = returned ∧ frame.Filled x p bs frame' := by
  cases h with
  | all h => exact ⟨rfl, h⟩
  | stops hbs hgiven he _ =>
    obtain ⟨v, hv⟩ := hall _ (hbs ▸ List.mem_append_right _ List.mem_cons_self) hgiven
    rw [he] at hv
    cases hv

theorem Holds.set {n : String} {v : Value} (h : frame.Holds bs) (hne : ∀ b ∈ bs, b.name ≠ n) :
    (frame.set n v).Holds bs := by
  intro b hb
  rw [value_set_of_ne (hne b hb)]
  exact h b hb

end Frame

section
variable {frame : Frame} {x : CallContext} {p : Response} {b : Binding} {bs : List Binding}

theorem Step.receive_fill_of_left_out (h : frame.value b.name = .ok .null) :
    b.fill.receive x p frame = .ok (frame, none) := by
  rw [Binding.fill, receive, h]
  rfl

theorem Step.receive_fill {old : Value} (h : frame.value b.name = .ok (.out old)) :
    b.fill.receive x p frame =
      (b.fetch x p).map fun v => (frame.set b.name (.out v), none) := by
  rw [Binding.fill, receive, h, Binding.fetch]
  simp only [Except.mapError, bind, Except.bind]
  cases x.obstacles.pass .readHeader 3 with
  | error e => rfl
  | ok _ =>
    simp only
    cases p.headerAs x.scope b.key b.valueType.target with
    | error e => rfl
    | ok v => rfl

/-- The holders are filled in order, up to the first that cannot be. -/
theorem receiveAll_holders (hn : (bs.map (·.name)).Nodup) (h : frame.Holds bs) {rest : List Step}
    {returned : Except CallError Value}
    (hrest : ∀ frame, receiveAll x p rest frame = (returned, frame)) :
    frame.Receives x p bs returned (receiveAll x p (bs.map Binding.fill ++ rest) frame).1
      (receiveAll x p (bs.map Binding.fill ++ rest) frame).2 := by
  induction bs generalizing frame with
  | nil =>
    rw [List.map_nil, List.nil_append, hrest]
    exact .all .nil
  | cons b bs ih =>
    rw [List.map_cons, List.nodup_cons] at hn
    have hne : ∀ b' ∈ bs, b'.name ≠ b.name := fun b' hb' he => hn.1 (he ▸ List.mem_map_of_mem hb')
    obtain ⟨hb, hbs⟩ := List.forall_mem_cons.mp h
    rw [List.map_cons, List.cons_append, receiveAll]
    rcases hb with hnull | ⟨old, hold⟩
    · -- left out: the step does nothing
      have hout : ¬ frame.IsGiven b := fun hgiven => hgiven hnull
      rw [Step.receive_fill_of_left_out hnull]
      exact (ih hn.2 hbs).cons_of_left_out hout
    · have hgiven : frame.IsGiven b := by
        rw [Frame.IsGiven, hold]
        simp
      rw [Step.receive_fill hold]
      cases hv : b.fetch x p with
      | error e => exact .stops rfl hgiven hv .nil
      | ok v => exact (ih hn.2 (Frame.Holds.set hbs hne)).cons hv hgiven hne

end

/-! ### Runs -/

/-- The steps that give a result back read it and leave the holders as they are. -/
theorem Step.exists_receive_return (x : CallContext) (p : Response) {step : Step}
    (h : (∃ type format, step = .returnBody type format) ∨
      ∃ type header, step = .returnHeader type header) :
    ∃ result : Except CallError Value,
      ∀ frame, step.receive x p frame = result.map fun v => (frame, some v) := by
  rcases h with ⟨type, format, rfl⟩ | ⟨type, header, rfl⟩
  · by_cases hraw : format = some .raw
    · refine ⟨(x.obstacles.pass .decodeRaw 2).mapError .broken |>.map fun _ =>
        p.rawBody (type.rawForm.getD .bytes), fun frame => ?_⟩
      rw [receive, if_pos hraw]
      cases x.obstacles.pass .decodeRaw 2 <;> rfl
    · refine ⟨(x.obstacles.pass .decodeJson 2).mapError .broken >>= fun _ =>
        p.bodyAs x.scope type.target, fun frame => ?_⟩
      rw [receive, if_neg hraw]
      cases x.obstacles.pass .decodeJson 2 with
      | error b => rfl
      | ok _ =>
        simp only [Except.mapError, bind, Except.bind]
        cases p.bodyAs x.scope type.target <;> rfl
  · refine ⟨(x.obstacles.pass .readHeader 3).mapError .broken >>= fun _ =>
      p.headerAs x.scope (header.getD "") type.target, fun frame => ?_⟩
    rw [receive]
    cases x.obstacles.pass .readHeader 3 with
    | error b => rfl
    | ok _ =>
      simp only [Except.mapError, bind, Except.bind]
      cases p.headerAs x.scope (header.getD "") type.target <;> rfl

namespace Operation
variable {o : Operation} {plan : CallPlan} {x : CallContext} {p : Response}

/-- What a response gives back. -/
def returned (o : Operation) (x : CallContext) (p : Response) : Except CallError Value :=
  (receiveAll x p (o.returnSteps.toOption.getD []) []).1

theorem receiveAll_returnSteps {returns : List Step} (h : o.returnSteps = .ok returns) (frame : Frame) :
    receiveAll x p returns frame = (o.returned x p, frame) := by
  have hreturned : o.returned x p = (receiveAll x p returns []).1 := by
    rw [returned, h]
    rfl
  have hone {step : Step} (hstep : (∃ type format, step = .returnBody type format) ∨
      ∃ type header, step = .returnHeader type header) :
      receiveAll x p [step] frame = ((receiveAll x p [step] []).1, frame) := by
    obtain ⟨result, hresult⟩ := Step.exists_receive_return x p hstep
    simp only [receiveAll, hresult]
    cases result <;> rfl
  rw [hreturned]
  unfold returnSteps at h
  split_ifs at h
  · cases h
    rfl
  · split at h
    · cases h
    · cases h
      exact hone (.inr ⟨_, _, rfl⟩)
    · cases h
      exact hone (.inl ⟨_, _, rfl⟩)

theorem steps_of_plan (h : o.plan = .ok plan) : ∃ before returns, o.returnSteps = .ok returns ∧
    plan.steps = before ++ .invoke o.completion ::
      ((o.withRole .responseHeader).map Binding.fill ++ returns) ∧
    ∀ step ∈ before, ∀ mode, step ≠ .invoke mode := by
  unfold Operation.plan at h
  obtain ⟨body, hbody, h⟩ := bind_eq_ok.mp h
  obtain ⟨returns, hreturns, h⟩ := bind_eq_ok.mp h
  refine ⟨o.bindingSteps .pathVariable .bindPath ++ o.bindingSteps .queryParameter .bindQuery ++
    [.construct o.verb o.path] ++ (o.requestHeaders.map fun h => .attachHeader h.1 h.2) ++ body,
    returns, hreturns, ?_, ?_⟩
  · rw [← Except.ok.inj h]
    simp only [List.append_assoc]
    rfl
  · rintro step hstep mode rfl
    simp only [List.mem_append, or_assoc] at hstep
    rcases hstep with hstep | hstep | hstep | hstep | hstep
    · exact bindingSteps_ne_invoke o _ (by simp) _ hstep mode rfl
    · exact bindingSteps_ne_invoke o _ (by simp) _ hstep mode rfl
    · simp at hstep
    · simp at hstep
    · exact bodySteps_ne_invoke hbody _ hstep mode rfl

end Operation

section
variable {x : CallContext} {frame : Frame} {o : Operation} {plan : CallPlan}

/-- A run fails before it hands over a request, and leaves everything as it is; or it hands over the one
that is built, and what the sending gives it decides. -/
theorem CallPlan.run_cases (hplan : o.plan = .ok plan) (x : CallContext) (frame : Frame) :
    (plan.requests x frame = [] ∧ ∃ b, ∀ {σ : Type}
      (send : Completion → Request → σ → Except CallError Response × σ) (s : σ),
        plan.run x send frame s = (.error (.broken b), frame, s)) ∨
    ∃ r returns, o.returnSteps = .ok returns ∧ plan.requests x frame = [r] ∧ ∀ {σ : Type}
      (send : Completion → Request → σ → Except CallError Response × σ) (s : σ),
        plan.run x send frame s = match send o.completion r s with
          | (.error e, s) => (.error e, frame, s)
          | (.ok p, s) =>
            let received := receiveAll x p
              ((o.withRole .responseHeader).map Binding.fill ++ returns) frame
            (received.1, received.2, s) := by
  obtain ⟨before, returns, hreturns, hsteps, hbefore⟩ := Operation.steps_of_plan hplan
  simp only [requests, run, hsteps, runSteps_append hbefore]
  cases Step.buildAll x frame before {} with
  | error b => exact .inl ⟨rfl, b, fun _ _ => rfl⟩
  | ok d =>
    simp only [runSteps]
    cases d.request with
    | none => exact .inl ⟨rfl, _, fun _ _ => rfl⟩
    | some r =>
      cases x.obstacles.pass (.sending o.completion) 1 with
      | error b => exact .inl ⟨rfl, b, fun _ _ => rfl⟩
      | ok _ => exact .inr ⟨r, returns, hreturns, rfl, fun _ _ => rfl⟩

end

/-! ### Calls -/

namespace Arguments
variable {fs : List Formal} {a : Arguments} {frame : Frame}

theorem get?_frame (hnames : (fs.map (·.name)).Nodup)
    (h : List.Forall₂ (fun f e => f.name = e.1 ∧ a.given? fs f = some e.2) fs frame) {f : Formal}
    (hf : f ∈ fs) {v : Value} (hv : a.given? fs f = some v) : Entries.get? frame f.name = some v := by
  have hkeys : fs.map (·.name) = frame.map (·.1) := by
    rw [← List.forall₂_eq_eq_eq, List.forall₂_map_left_iff, List.forall₂_map_right_iff]
    exact h.imp fun _ _ h => h.1
  obtain ⟨e, he, hname, hgiven⟩ := exists_of_mem_forall₂ h f hf
  rw [hv] at hgiven
  refine Entries.get?_of_mem (hkeys ▸ hnames) ?_
  rw [hname, Option.some.inj hgiven]
  exact he

theorem given?_of_placed {f : Formal} {v : Value} (hseats : (seats fs).Nodup)
    (h : (f.name, v) ∈ a.placed fs) : a.given? fs f = some v := by
  have hkeys : ((a.placed fs).map (·.1)).Nodup := hseats.sublist (sublist_fst_zip _ _)
  rw [given?, Entries.get?_of_mem hkeys h]
  rfl

theorem given?_of_named {f : Formal} {v : Value} (hname : f.takesName = true)
    (hplaced : f.name ∉ (a.placed fs).map (·.1)) (hnamed : (a.named.map (·.1)).Nodup)
    (h : (f.name, v) ∈ a.named) : a.given? fs f = some v := by
  have hnone : Entries.get? (a.placed fs) f.name = none := by
    cases hget : Entries.get? (a.placed fs) f.name with
    | none => rfl
    | some w => exact absurd (List.mem_map_of_mem (Entries.mem_of_get? hget)) hplaced
  rw [given?, hnone, if_pos hname, Entries.get?_of_mem hnamed h]
  rfl

theorem updated_of_bind? (hsingle : ∀ f ∈ fs, f.isSingle = true) (hnames : (fs.map (·.name)).Nodup)
    (hnamed : (a.named.map (·.1)).Nodup) (h : a.bind? fs = some frame) : a.updated fs frame = a := by
  obtain ⟨hlength, hfit, hframe⟩ := (bind?_eq_some_iff hsingle).mp h
  have hseats : (seats fs).Nodup := hnames.sublist (List.filter_sublist.map _)
  have hpositional : (a.positional.mapIdx fun i v =>
      (((seats fs)[i]?).bind (Entries.get? frame)).getD v) = a.positional := by
    refine List.ext_getElem (List.length_mapIdx ..) fun i _ hi => ?_
    have hi' : i < (seats fs).length := hi.trans_le hlength
    obtain ⟨f, hf, hname⟩ := List.mem_map.mp (List.getElem_mem hi')
    have hplaced : (f.name, a.positional[i]) ∈ a.placed fs := by
      rw [hname]
      exact List.mem_iff_getElem.mpr ⟨i, by simpa [placed] using ⟨hi', hi⟩, by simp [placed]⟩
    have hvalue := get?_frame hnames hframe (List.mem_filter.mp hf).1 (given?_of_placed hseats hplaced)
    rw [List.getElem_mapIdx, List.getElem?_eq_getElem hi', Option.bind_some, ← hname, hvalue,
      Option.getD_some]
  have hbyname : (a.named.map fun n => (n.1, (Entries.get? frame n.1).getD n.2)) = a.named := by
    refine (List.map_congr_left fun n hn => ?_).trans a.named.map_id
    obtain ⟨⟨f, hf, htakes, hname⟩, hplaced⟩ := (namesFit_iff hsingle).mp hfit n hn
    have hvalue := get?_frame hnames hframe hf
      (given?_of_named (v := n.2) htakes (hname ▸ hplaced) hnamed (hname ▸ hn))
    rw [← hname, hvalue, hname]
    rfl
  rw [updated, hpositional, hbyname]

end Arguments

namespace Operation

theorem isSingle_of_mem_formals (o : Operation) : ∀ f ∈ o.formals, f.isSingle = true := by
  intro f hf
  rcases List.mem_append.mp hf with hf | hf
  · obtain ⟨b, -, rfl⟩ := List.mem_map.mp hf
    rfl
  · obtain ⟨b, -, rfl⟩ := List.mem_map.mp hf
    rfl

theorem names_formals (o : Operation) : o.formals.map (·.name) = o.parameters.map (·.name) := by
  unfold formals
  simp only [List.map_append, List.map_map]
  conv_rhs => rw [← List.takeWhile_append_dropWhile (p := (!·.keywordOnly)) (l := o.parameters)]
  rw [List.map_append]
  rfl

end Operation

open ClientRegistry in
/-- A call of a method that is not called like a function that its plan needs. One that gets no response
leaves its arguments as they are: if nothing can be sent, it fails by itself, and else as the sending
does. If there is a response, the holders are filled in the order of the parameters, and then comes what
the response gives back, be it an error. If a holder cannot be filled, the call ends with that; the
holders before it are filled, and it and those behind it are as they were. A holder gets what the headers
of its name have, ignoring case, or nothing if there is none, unless the name is none in the charset of
the headers. -/
theorem holders_change_with_responses {f : ClientRegistry} {client : BoundClient}
    {candidate : Candidate} (hclient : client.cls.IsClientOf f.program candidate) {o : Operation}
    (ho : o ∈ client.cls.contract.operations) (hn : (o.parameters.map (·.name)).Nodup)
    (hstate : o.name ∉ ClientClass.stateNames) :
    ∃ plan, o.plan = .ok plan ∧ ((∀ q ∈ plan.primitives, q.name ∉ client.cls.methodNames) →
      ∀ (a : Arguments) (frame : Frame) (t : Traffic),
      a.bind? o.formals = some frame → (a.named.map (·.1)).Nodup →
      frame.Holds (o.withRole .responseHeader) →
      let x := client.cls.contract.context f.program.scope
      let report := (f.call client o.name a t).1
      (plan.requests x frame = [] → (∃ b, report.result = .error (.broken b)) ∧ report.arguments = a) ∧
      ∀ r ∈ plan.requests x frame,
        (∀ e, (send client o.completion r (f.client, t)).1 = .error e →
          report.result = .error e ∧ report.arguments = a) ∧
        ∀ p, (send client o.completion r (f.client, t)).1 = .ok p →
          (∃ frame', frame.Receives x p (o.withRole .responseHeader) (o.returned x p)
              report.result frame' ∧
            report.arguments = a.updated o.formals frame') ∧
          ∀ b : Binding, b.Reads f.program.scope p (b.fetch x p)) := by
  have hplan := hclient.exists_plan ho
  refine ⟨_, hplan, fun hfree a frame t ha hnamed hholds => ?_⟩
  intro x report
  have hreport : report =
      let out := (client.cls.plan o).run x (send client) frame (f.client, t)
      { result := out.1, isAsync := o.isAsync, arguments := a.updated o.formals out.2.1 } := by
    simp only [report, call_eq_performed hclient ho hstate hfree ha, performed]
    rfl
  have hsame : a.updated o.formals frame = a := Arguments.updated_of_bind?
    o.isSingle_of_mem_formals (o.names_formals ▸ hn) hnamed ha
  -- the run hands over nothing, or one request, and then it goes on by the answer to that
  rcases CallPlan.run_cases hplan x frame with ⟨hnone, b, hrun⟩ |
    ⟨r, returns, hreturns, hone, hrun⟩
  · rw [hnone]
    refine ⟨fun _ => ?_, List.forall_mem_nil _⟩
    simp only [hreport, hrun]
    exact ⟨⟨b, rfl⟩, hsame⟩
  · rw [hone]
    refine ⟨fun h => absurd h (List.cons_ne_nil _ _), List.forall_mem_singleton.mpr ?_⟩
    have hsent := hrun (send client) (f.client, t)
    constructor
    · intro e he
      cases hs : send client o.completion r (f.client, t) with
      | mk answer s =>
        rw [hs] at he hsent
        obtain rfl : answer = .error e := he
        simp only [hreport, hsent]
        exact ⟨trivial, hsame⟩
    · intro p hp
      refine ⟨?_, fun b => Binding.reads_fetch (x := x) rfl p b⟩
      cases hs : send client o.completion r (f.client, t) with
      | mk answer s =>
        rw [hs] at hp hsent
        obtain rfl : answer = .ok p := hp
        simp only [hreport, hsent]
        exact ⟨_, receiveAll_holders (hn.sublist (List.filter_sublist.map _)) hholds
          (Operation.receiveAll_returnSteps hreturns), rfl⟩

/-- A contract with a method that fills a holder from a header. -/
def tagScope : Scope :=
  [{ name := ⟨"app", "Tags"⟩
     body := .contract {
       kind := .protocol, service := some ⟨"users", ""⟩
       members := [("check", .method {
         parameters := [{ name := "tag", type := some (.annotated (.subscript (.named "Out") [.named "str"])
           [.keyed .responseHeader (some "ETag")]) }]
         endpoint := some ⟨"GET", "/check"⟩, returns := some .nothing } false)] } }]

/-- A registry for a program with one method, which fills a holder. -/
def tagRegistry : ClientRegistry where
  program := { scope := tagScope, lineages := (tagScope.declare.toOption).getD [] }
  settings := {}
  client := HttpSender.usersSender
  tree := ⟨[], []⟩

def tagCandidate : Candidate :=
  ((tagRegistry.program.candidate ⟨"app", "Tags"⟩).toOption).getD default

def tagContract : Contract := ((Contract.ofCandidate tagCandidate).toOption).getD default

def tagClient : BoundClient where
  cls := {
    subject := ⟨"app", "Tags"⟩
    contract := tagContract
    plans := (tagContract.plans.toOption).getD []
    name := "appTags"
    module := "declient.generated"
    doc := ""
    isFinal := false }
  logger := "app"

theorem isClientOf_tagClient : tagClient.cls.IsClientOf tagRegistry.program tagCandidate := by
  have hmade : (tagRegistry.program.candidate ⟨"app", "Tags"⟩).toOption.isSome = true ∧
      (Contract.ofCandidate tagCandidate).toOption.isSome = true ∧
      tagContract.plans.toOption.isSome = true := by
    decide +kernel
  obtain ⟨hcandidate, hcontract, hplans⟩ := hmade
  exact ⟨eq_ok_getD hcandidate _, eq_ok_getD hcontract _, eq_ok_getD hplans _⟩

def tagBinding : Binding where
  name := "tag"
  type := ⟨"declient_sdk.messages", "Out", [.builtin "str"], false, none, none⟩
  role := .responseHeader
  key := "ETag"
  valueType := .builtin "str"

def tagOperation : Operation where
  name := "check"
  verb := "GET"
  path := "/check"
  completion := .sync
  returns := .none
  isVoid := true
  parameters := [tagBinding]
  resultPlace := some (.body (some .auto) none)

theorem operations_tagContract : tagContract.operations = [tagOperation] := by
  with_unfolding_all rfl

/-- A response without the header empties the holder. -/
theorem holders_change_with_responses_tag :
    tagClient.cls.IsClientOf tagRegistry.program tagCandidate ∧
      (tagRegistry.call tagClient "check" ⟨[.out (.text "old")], []⟩
        { script := [.response {}] }).1.arguments = ⟨[.out .null], []⟩ := by
  refine ⟨isClientOf_tagClient, ?_⟩
  have ho : tagOperation ∈ tagClient.cls.contract.operations :=
    operations_tagContract ▸ List.mem_singleton_self _
  obtain ⟨plan, hplan, hcalls⟩ := holders_change_with_responses isClientOf_tagClient ho
    (List.nodup_singleton _) (by decide)
  have hown : plan = ⟨"check", [.construct "GET" "/check", .invoke .sync, tagBinding.fill]⟩ :=
    Except.ok.inj hplan.symm
  subst hown
  have hrequests : CallPlan.requests ⟨"check", [.construct "GET" "/check", .invoke .sync, tagBinding.fill]⟩
      (tagContract.context tagScope) [("tag", .out (.text "old"))] =
        [{ method := "GET", service := "users", path := "/check" }] := by
    with_unfolding_all rfl
  have hsent : (ClientRegistry.send tagClient .sync
      { method := "GET", service := "users", path := "/check" }
      (tagRegistry.client, { script := [.response {}] })).1 = .ok {} := by
    with_unfolding_all rfl
  have hnames : tagClient.cls.methodNames = ["check"] := by
    rw [ClientClass.methodNames, show tagClient.cls.contract.operations = _ from operations_tagContract]
    rfl
  have hfree : ∀ q : Primitive, q.name ∉ tagClient.cls.methodNames := by
    rw [hnames]
    intro q
    cases q <;> decide
  obtain ⟨-, hreceived⟩ := hcalls (fun q _ => hfree q) ⟨[.out (.text "old")], []⟩
    [("tag", .out (.text "old"))] { script := [.response {}] } rfl List.nodup_nil (List.forall_mem_singleton.mpr (.inr ⟨_, rfl⟩))
  obtain ⟨-, hresponse⟩ := hreceived _ (hrequests ▸ List.mem_singleton_self _)
  obtain ⟨⟨frame', hframe, harguments⟩, -⟩ := hresponse {} hsent
  have hfetch : tagBinding.fetch
      (tagClient.cls.contract.context tagRegistry.program.scope) {} = .ok .null := by
    with_unfolding_all rfl
  obtain ⟨-, hfilled⟩ := hframe.filled_of_forall (List.forall_mem_singleton.mpr fun _ => ⟨_, hfetch⟩)
  obtain ⟨v, hv, htag⟩ := hfilled.filled tagBinding (List.mem_singleton_self _) nofun
  rw [hfetch] at hv
  cases hv
  have hheld : Entries.get? frame' "tag" = some (.out .null) := Frame.value_eq_ok_iff.mp htag
  refine harguments.trans ?_
  simp only [Arguments.updated, List.mapIdx_cons, List.mapIdx_nil, List.map_nil]
  have hseat : (Arguments.seats tagOperation.formals)[0]? = some "tag" := rfl
  rw [hseat, Option.bind_some, hheld]
  rfl

end HttpContract
