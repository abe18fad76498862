import HttpContract.Proofs.Client.SourcePieces

/-!
# Texts in sources

The literals of a source are read back wherever they stand, and its docstrings exactly if they say
something. If they all do, a reader that goes over the source finds the pieces that it was written from
(`reads_pieces`).
-/

namespace HttpContract

namespace ClientSource
variable {p : Piece} {ps qs : List Piece} {names : CharacterNames}

/-! ### Reading -/

/-- What a reader makes of a source. -/
inductive Token
  | char (c : Char)
  | text (cs : List Char)
deriving DecidableEq

/-- A character that begins neither a literal nor a comment. -/
def isCode (c : Char) : Bool := c != '"' && c != '\'' && c != '#'

/-- The tokens of a source: the characters of the code, and the text of each literal. -/
inductive Reads (names : CharacterNames) : List Char → List Token → Prop
  | nil : Reads names [] []
  | char {c : Char} {cs : List Char} {ts : List Token} (hc : isCode c = true) (h : Reads names cs ts) :
      Reads names (c :: cs) (.char c :: ts)
  | text {cs rest t : List Char} {ts : List Token} (hliteral : Docstring.literal? names cs = some (t, rest))
      (h : Reads names rest ts) : Reads names cs (.text t :: ts)

theorem not_isCode_of_literal? {c : Char} {cs : List Char} {r : List Char × List Char}
    (h : Docstring.literal? names (c :: cs) = some r) : isCode c = false := by
  obtain ⟨⟨delim, rest⟩, hopening, -⟩ := Option.bind_eq_some_iff.mp h
  unfold Docstring.opening? at hopening
  simp only at hopening
  split_ifs at hopening with hquote
  all_goals rcases hquote with rfl | rfl <;> rfl

theorem Reads.unique {cs : List Char} {ts ts' : List Token} (h : Reads names cs ts) (h' : Reads names cs ts') :
    ts = ts' := by
  induction h generalizing ts' with
  | nil =>
    cases h' with
    | nil => rfl
    | text hliteral _ => cases hliteral
  | char hc _ ih =>
    cases h' with
    | char _ h' => rw [ih h']
    | text hliteral _ =>
      rw [not_isCode_of_literal? hliteral] at hc
      cases hc
  | text hliteral _ ih =>
    cases h' with
    | nil => cases hliteral
    | char hc _ =>
      rw [not_isCode_of_literal? hliteral] at hc
      cases hc
    | text hliteral' h' =>
      rw [hliteral] at hliteral'
      cases hliteral'
      rw [ih h']

/-! ### Spacing -/

/-- Whether pieces begin with code that a literal may stand in front of. -/
def StartsCode : List Piece → Prop
  | .code s :: _ => s.toList.head?.any isCode = true
  | _ => False

/-- Pieces in which there is code behind each literal. -/
def Spaced : List Piece → Prop
  | [] => True
  | .literal _ :: ps => StartsCode ps ∧ Spaced ps
  | _ :: ps => Spaced ps

@[simp] theorem spaced_nil : Spaced [] := trivial

@[simp] theorem spaced_code {s : String} : Spaced (.code s :: ps) ↔ Spaced ps := Iff.rfl

@[simp] theorem spaced_doc {t : String} : Spaced (.doc t :: ps) ↔ Spaced ps := Iff.rfl

@[simp] theorem spaced_literal {t : String} :
    Spaced (.literal t :: ps) ↔ StartsCode ps ∧ Spaced ps := Iff.rfl

theorem StartsCode.append (h : StartsCode ps) : StartsCode (ps ++ qs) := by
  cases ps with
  | nil => exact h.elim
  | cons p ps => cases p <;> exact h

theorem Spaced.append (hps : Spaced ps) (hqs : Spaced qs) : Spaced (ps ++ qs) := by
  induction ps with
  | nil => exact hqs
  | cons p ps ih =>
    cases p with
    | code s => exact ih hps
    | literal t => exact ⟨hps.1.append, ih hps.2⟩
    | doc t => exact ih hps

theorem Spaced.of_append (h : Spaced (ps ++ qs)) : Spaced qs := by
  induction ps with
  | nil => exact h
  | cons p ps ih =>
    cases p with
    | code s => exact ih h
    | literal t => exact ih h.2
    | doc t => exact ih h

theorem spaced_intercalate {s : String} {pss : List (List Piece)} (h : ∀ ps ∈ pss, Spaced ps) :
    Spaced ([.code s].intercalate pss) := by
  induction pss with
  | nil => exact spaced_nil
  | cons ps pss ih =>
    rw [List.forall_mem_cons] at h
    cases pss with
    | nil =>
      rw [List.intercalate_singleton]
      exact h.1
    | cons qs pss =>
      rw [List.intercalate_cons_cons]
      exact (h.1.append (spaced_code.mpr spaced_nil)).append (ih h.2)

/-- Pieces that code may follow. -/
def Leads (ps : List Piece) : Prop := ∀ qs, StartsCode qs → Spaced qs → Spaced (ps ++ qs)

theorem leads_ofSource (source : String) : Leads [.ofSource source] := by
  intro qs hstarts hqs
  unfold Piece.ofSource
  split
  · split_ifs
    · exact ⟨hstarts, hqs⟩
    · exact hqs
  · exact hqs

theorem Spaced.leads (h : Spaced ps) : Leads ps := fun _ _ hqs => h.append hqs

theorem leads_intercalate {pss : List (List Piece)} (h : ∀ ps ∈ pss, Leads ps) :
    Leads ([.code ", "].intercalate pss) := by
  induction pss with
  | nil => exact spaced_nil.leads
  | cons ps pss ih =>
    rw [List.forall_mem_cons] at h
    cases pss with
    | nil =>
      rw [List.intercalate_singleton]
      exact h.1
    | cons qs pss =>
      intro rs hstarts hrs
      rw [List.intercalate_cons_cons, List.append_assoc, List.append_assoc]
      have hcomma : StartsCode ([.code ", "] ++ ([.code ", "].intercalate (qs :: pss) ++ rs)) := rfl
      exact h.1 _ hcomma (ih h.2 rs hstarts hrs)

mutual

theorem leads_typePieces : (t : TypeReference) → Leads (typePieces t)
  | ⟨module, qualname, args, awaitable, rawForm, literal⟩ => by
    unfold typePieces
    cases literal with
    | some source => exact leads_ofSource source
    | none =>
      simp only
      split_ifs
      · exact (spaced_code.mpr spaced_nil).leads
      · intro qs hstarts hqs
        rw [List.cons_append, List.cons_append, List.append_assoc, spaced_code, spaced_code]
        exact leads_intercalate (leads_typePiecesAll args) _ rfl (spaced_code.mpr hqs)

theorem leads_typePiecesAll : (ts : List TypeReference) → ∀ ps ∈ typePiecesAll ts, Leads ps
  | [] => by
    rw [typePiecesAll]
    exact fun _ h => nomatch h
  | t :: ts => by
    rw [typePiecesAll, List.forall_mem_cons]
    exact ⟨leads_typePieces t, leads_typePiecesAll ts⟩

end

theorem spaced_mappingPieces (bs : List (String × String)) : Spaced (mappingPieces bs) := by
  unfold mappingPieces
  rw [spaced_code]
  refine (spaced_intercalate ?_).append (spaced_code.mpr spaced_nil)
  intro line hline
  obtain ⟨b, -, rfl⟩ := List.mem_map.mp hline
  exact ⟨rfl, trivial⟩

theorem spaced_whenGivenPieces {indent parameter : String} {line : List Piece} (h : Spaced line) :
    ∀ l ∈ whenGivenPieces indent parameter line, Spaced l := by
  simp [whenGivenPieces, h]

theorem spaced_stepPieces (indent : String) (o : Operation) (step : Step) :
    ∀ line ∈ stepPieces indent o step, Spaced line := by
  have htype : ∀ t : TypeReference, Spaced (typePieces t ++ [.code ")"]) := fun t =>
    leads_typePieces t _ rfl (spaced_code.mpr spaced_nil)
  cases step with
  | bindPath bs => exact List.forall_mem_singleton.mpr (spaced_mappingPieces bs)
  | bindQuery bs => exact List.forall_mem_singleton.mpr (spaced_mappingPieces bs)
  | construct verb path => exact List.forall_mem_singleton.mpr ⟨rfl, rfl, trivial⟩
  | attachHeader header p => exact spaced_whenGivenPieces ⟨rfl, trivial⟩
  | attachBody p format contentType =>
    cases hgiven : Location.given contentType with
    | none =>
      simp only [stepPieces, hgiven, List.forall_mem_cons]
      exact ⟨trivial, trivial, fun _ h => nomatch h⟩
    | some t =>
      simp only [stepPieces, hgiven, List.forall_mem_cons]
      exact ⟨⟨rfl, trivial⟩, trivial, fun _ h => nomatch h⟩
  | attachContentHeader header p => exact spaced_whenGivenPieces ⟨rfl, trivial⟩
  | invoke mode => exact List.forall_mem_singleton.mpr trivial
  | extractHeader header p type => exact spaced_whenGivenPieces ⟨rfl, htype type⟩
  | returnHeader type header =>
    refine List.forall_mem_singleton.mpr ?_
    cases header with
    | none => exact htype type
    | some name => exact ⟨rfl, htype type⟩
  | returnBody type format =>
    unfold stepPieces
    simp only
    split_ifs
    · exact List.forall_mem_singleton.mpr ⟨rfl, trivial⟩
    · exact List.forall_mem_singleton.mpr (htype type)

theorem leads_parameterPieces (b : Binding) : Leads (parameterPieces b) := by
  intro qs hstarts hqs
  unfold parameterPieces
  rw [List.cons_append, List.cons_append, spaced_code, spaced_code, List.append_assoc]
  split
  · exact leads_typePieces b.type _ rfl (leads_ofSource _ qs hstarts hqs)
  · exact leads_typePieces b.type _ hstarts hqs

theorem spaced_signaturePieces (o : Operation) : Spaced (signaturePieces o) := by
  have hparameters : ∀ bs : List Binding, ∀ ps ∈ bs.map parameterPieces, Leads ps := by
    intro bs ps hps
    obtain ⟨b, -, rfl⟩ := List.mem_map.mp hps
    exact leads_parameterPieces b
  have hall : ∀ ps ∈ [.code "self"] :: parametersPieces o.parameters, Leads ps := by
    rw [List.forall_mem_cons]
    refine ⟨(spaced_code.mpr spaced_nil).leads, fun ps hps => ?_⟩
    unfold parametersPieces at hps
    rcases List.mem_append.mp hps with hps | hps
    · exact hparameters _ ps hps
    · split_ifs at hps
      · cases hps
      · rcases List.mem_cons.mp hps with rfl | hps
        · exact (spaced_code.mpr spaced_nil).leads
        · exact hparameters _ ps hps
  have hreturns : Leads (if o.isVoid then [.code "None"] else typePieces o.returns) := by
    split_ifs
    · exact (spaced_code.mpr spaced_nil).leads
    · exact leads_typePieces o.returns
  exact leads_intercalate hall _ rfl (hreturns _ rfl trivial)

theorem spaced_indented {indent : String} {lines : List (List Piece)} (h : ∀ line ∈ lines, Spaced line) :
    ∀ line ∈ lines.map (.code indent :: ·), Spaced line := by
  intro line hline
  obtain ⟨inner, hinner, rfl⟩ := List.mem_map.mp hline
  exact h inner hinner

theorem spaced_methodPieces (indent : String) (o : Operation) (plan : CallPlan) :
    ∀ line ∈ methodPieces indent o plan, Spaced line := by
  unfold methodPieces
  rw [List.forall_mem_cons, List.forall_mem_cons]
  refine ⟨spaced_signaturePieces o, trivial, spaced_indented fun line hline => ?_⟩
  obtain ⟨step, -, hstep⟩ := List.mem_flatMap.mp hline
  exact spaced_stepPieces indent o step line hstep

/-- There is code behind every literal of a source. -/
theorem spaced_sourcePieces (options : SourceOptions) (c : Contract)
    (planned : List (Operation × CallPlan)) : Spaced (sourcePieces options c planned) := by
  refine spaced_intercalate fun line hline => ?_
  -- the lines may be looked at one by one, as none of them ends in a literal
  have hconstructor : ∀ line ∈ constructorPieces options.indent c, Spaced line := by
    simp only [constructorPieces, List.forall_mem_cons]
    exact ⟨trivial, ⟨rfl, rfl, trivial⟩, fun _ h => nomatch h⟩
  have hmethods : ∀ line ∈ planned.flatMap fun p =>
      [] :: (methodPieces options.indent p.1 p.2).map (.code options.indent :: ·), Spaced line := by
    intro line hline
    obtain ⟨p, -, hp⟩ := List.mem_flatMap.mp hline
    rcases List.mem_cons.mp hp with rfl | hp
    · exact spaced_nil
    · exact spaced_indented (spaced_methodPieces options.indent p.1 p.2) line hp
  have hsealed : ∀ line ∈ if options.isSealed then [[Piece.code "@typing.final"]] else [],
      Spaced line := by
    split_ifs <;> simp
  have himports : ∀ line ∈ (imports c).map fun module => [Piece.code "import ", .code module],
      Spaced line := by
    intro line hline
    obtain ⟨module, -, rfl⟩ := List.mem_map.mp hline
    exact trivial
  have hempty : ∀ line : List Piece, line = [] → Spaced line := by
    rintro line rfl
    exact spaced_nil
  simp only [linePieces, classPieces, List.mem_append, List.mem_cons, List.not_mem_nil, or_false]
    at hline
  rcases hline with (((((rfl | rfl) | hline) | rfl | rfl) | ((hline | rfl | rfl | rfl) | hline) | hline) | rfl)
  · exact trivial
  · exact trivial
  · exact himports line hline
  · exact trivial
  · exact trivial
  · exact hsealed line hline
  · exact trivial
  · exact trivial
  · exact trivial
  · exact spaced_indented hconstructor line hline
  · exact hmethods line hline
  · exact trivial

/-! ### What is read -/

theorem head?_ne_of_startsCode {q : Char} (h : StartsCode ps) (hq : Quoted.IsDelimiter q) :
    (writeAll ps).toList.head? ≠ some q := by
  cases ps with
  | nil => exact h.elim
  | cons p ps =>
    cases p with
    | literal t => exact h.elim
    | doc t => exact h.elim
    | code s =>
      rw [writeAll_cons, Piece.write_code, String.toList_append]
      cases hs : s.toList with
      | nil =>
        rw [StartsCode, hs] at h
        cases h
      | cons c cs =>
        have hc : isCode c = true := by
          rw [StartsCode, hs] at h
          exact h
        rintro ⟨⟩
        rcases hq with rfl | rfl
        · cases hc
        · cases hc

theorem literal?_writeAll {t : String} (h : StartsCode ps) :
    Docstring.literal? names (writeAll (.literal t :: ps)).toList =
      some (t.toList, (writeAll ps).toList) := by
  rw [writeAll_cons, Piece.write_literal, String.toList_append, Quoted.text, String.toList_ofList]
  exact Docstring.literal?_encode _ (head?_ne_of_startsCode h (Quoted.isDelimiter_delimiter _))

theorem literal?_writeAll_doc {t : String} {said : List Char} :
    Docstring.literal? names (writeAll (.doc t :: ps)).toList = some (said, (writeAll ps).toList) ↔
      Docstring.Says names t said := by
  rw [writeAll_cons, Piece.write_doc, String.toList_append]
  exact Docstring.literal?_docstring

/-- What a reader should make of a piece. -/
def Piece.tokens (names : CharacterNames) : Piece → List Token
  | code s => s.toList.map .char
  | literal t => [.text t.toList]
  | doc t => [.text ((Quoted.content? names t.toList).getD [])]

theorem Reads.code {cs rest : List Char} {ts : List Token} (hcs : ∀ c ∈ cs, isCode c = true)
    (h : Reads names rest ts) : Reads names (cs ++ rest) (cs.map .char ++ ts) := by
  induction cs with
  | nil => exact h
  | cons c cs ih =>
    rw [List.forall_mem_cons] at hcs
    exact .char hcs.1 (ih hcs.2)

/-- Pieces are read as what they were written from, if the docstrings among them say something and
there are no quotes in the code. -/
theorem reads_pieces (hs : Spaced ps) (hcode : ∀ s, .code s ∈ ps → ∀ c ∈ s.toList, isCode c = true)
    (hdocs : ∀ t ∈ docs ps, ∃ said, Docstring.Says names t said) :
    Reads names (writeAll ps).toList (ps.flatMap (Piece.tokens names)) := by
  induction ps with
  | nil => exact .nil
  | cons p ps ih =>
    have hcode' : ∀ s, .code s ∈ ps → ∀ c ∈ s.toList, isCode c = true :=
      fun s hs => hcode s (List.mem_cons_of_mem p hs)
    cases p with
    | code s =>
      rw [writeAll_cons, Piece.write_code, String.toList_append, List.flatMap_cons]
      exact Reads.code (hcode s List.mem_cons_self) (ih hs hcode' hdocs)
    | literal t => exact .text (literal?_writeAll hs.1) (ih hs.2 hcode' hdocs)
    | doc t =>
      rw [docs_doc, List.forall_mem_cons] at hdocs
      obtain ⟨⟨said, hsays⟩, hdocs⟩ := hdocs
      have htokens : Piece.tokens names (.doc t) = [.text said] := by
        rw [Piece.tokens, hsays.2, Option.getD_some]
      rw [List.flatMap_cons, htokens]
      exact .text (literal?_writeAll_doc.mpr hsays) (ih hs hcode' hdocs)

end ClientSource

end HttpContract
