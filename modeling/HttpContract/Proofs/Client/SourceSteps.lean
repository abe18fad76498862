import HttpContract.Proofs.Client.SourcePieces
import HttpContract.Proofs.Plan.References

/-!
# Steps in sources

The lines of a method's body tell the steps of its plan, up to what the emission leaves out on purpose
(`Step.Alike`, `body_lines_eq_iff_alike`). The beginning of a line tells the form of its step
(`Form.eq_of_line`). Behind it, literals can be told from what follows them whatever they hold, names
because no name goes on there, and types because nothing but a bracket follows them. So a step can be
told from the lines below it (`Emitted.alike`), and a body is read step by step.
-/

namespace HttpContract

theorem RawForm.name_inj {f g : RawForm} (h : f.name = g.name) : f = g := by
  cases f <;> cases g <;> first | rfl | exact absurd h (by decide)

namespace ClientSource

/-! ### Names and what is behind them -/

/-- A text of name characters alone. -/
def IsName (s : String) : Prop := ∀ c ∈ s.toList, Text.isNameChar c = true

/-- Text that no name goes on with. -/
def EndsName (s : String) : Prop := s.toList.head?.any Text.isNameChar = false

theorem endsName_append {s : String} (h : (s.toList.head?.any fun c => !Text.isNameChar c) = true)
    (t : String) : EndsName (s ++ t) := by
  unfold EndsName
  rw [String.toList_append]
  cases hs : s.toList with
  | nil =>
    rw [hs] at h
    cases h
  | cons c cs =>
    rw [hs] at h
    exact Bool.not_eq_true' _ |>.mp h

theorem isName_of_isIdentifier {s : String} (h : Text.isIdentifier s = true) : IsName s := by
  unfold Text.isIdentifier at h
  unfold IsName
  cases hs : s.toList with
  | nil => exact fun _ hc => nomatch hc
  | cons c cs =>
    rw [hs, Bool.and_eq_true, Bool.and_eq_true, List.all_eq_true] at h
    obtain ⟨⟨hstart, hrest⟩, -⟩ := h
    refine List.forall_mem_cons.mpr ⟨?_, hrest⟩
    rw [Text.isNameChar, hstart, Bool.true_or]

theorem takeWhile_name {s rest : String} (hs : IsName s) (hrest : EndsName rest) :
    (s ++ rest).toList.takeWhile Text.isNameChar = s.toList := by
  rw [String.toList_append, List.takeWhile_append_of_pos hs]
  unfold EndsName at hrest
  cases hr : rest.toList with
  | nil => simp
  | cons c cs =>
    rw [hr] at hrest
    have hc : Text.isNameChar c = false := hrest
    simp [hc]

theorem name_append_inj {s t rest rest' : String} (hs : IsName s) (ht : IsName t)
    (hrest : EndsName rest) (hrest' : EndsName rest') (h : s ++ rest = t ++ rest') :
    s = t ∧ rest = rest' := by
  have hst : s = t := by
    rw [← String.toList_inj, ← takeWhile_name hs hrest, h, takeWhile_name ht hrest']
  subst hst
  exact ⟨rfl, (String.append_right_inj s).mp h⟩

/-! ### Dictionary displays -/

/-- A dictionary display behind its first entry. -/
def mappingRest : List (String × String) → String
  | [] => "\x7d"
  | b :: bs => ", " ++ (Quoted.text b.1 ++ (": " ++ (b.2 ++ mappingRest bs)))

theorem mapping_cons (b : String × String) (bs : List (String × String)) :
    mapping (b :: bs) = "\x7b" ++ (Quoted.text b.1 ++ (": " ++ (b.2 ++ mappingRest bs))) := by
  have hentries : String.intercalate ", " ((b :: bs).map fun b => Quoted.text b.1 ++ ": " ++ b.2) ++
      "\x7d" = Quoted.text b.1 ++ (": " ++ (b.2 ++ mappingRest bs)) := by
    induction bs generalizing b with
    | nil => simp [mappingRest, String.append_assoc]
    | cons c cs ih =>
      have hc := ih c
      rw [List.map_cons] at hc ⊢
      rw [List.map_cons, String.intercalate_cons_cons, String.append_assoc, hc, mappingRest]
      simp [String.append_assoc]
  rw [mapping, String.append_assoc, hentries]

theorem endsName_mappingRest (bs : List (String × String)) : EndsName (mappingRest bs) := by
  cases bs with
  | nil => rfl
  | cons b bs => exact endsName_append (by decide) _

/-- The names of a dictionary display. -/
def AreNames (bs : List (String × String)) : Prop := ∀ b ∈ bs, IsName b.2

theorem comma_append_ne_brace {r : String} : ", " ++ r ≠ "\x7d" := by
  intro h
  have := congrArg String.toList h
  simp at this

theorem mappingRest_inj {bs bs' : List (String × String)} (hbs : AreNames bs) (hbs' : AreNames bs')
    (h : mappingRest bs = mappingRest bs') : bs = bs' := by
  induction bs generalizing bs' with
  | nil =>
    cases bs' with
    | nil => rfl
    | cons b' bs' => exact absurd h.symm comma_append_ne_brace
  | cons b bs ih =>
    cases bs' with
    | nil => exact absurd h comma_append_ne_brace
    | cons b' bs' =>
      obtain ⟨hb, hbs⟩ := List.forall_mem_cons.mp hbs
      obtain ⟨hb', hbs'⟩ := List.forall_mem_cons.mp hbs'
      obtain ⟨hkey, h⟩ := Quoted.text_append_inj ((String.append_right_inj _).mp h)
      obtain ⟨hname, h⟩ := name_append_inj hb hb' (endsName_mappingRest bs)
        (endsName_mappingRest bs') ((String.append_right_inj _).mp h)
      rw [Prod.ext hkey hname, ih hbs hbs' h]

theorem text_append_ne_brace {s r : String} : Quoted.text s ++ r ≠ "\x7d" := by
  intro h
  have hhead := congrArg (fun s => s.toList.head?) h
  rw [String.toList_append, Quoted.text, String.toList_ofList, Quoted.encode_append] at hhead
  rcases Quoted.isDelimiter_delimiter s.toList with hq | hq
  · rw [hq] at hhead
    cases hhead
  · rw [hq] at hhead
    cases hhead

theorem mapping_inj {bs bs' : List (String × String)} (hbs : AreNames bs) (hbs' : AreNames bs')
    (h : mapping bs = mapping bs') : bs = bs' := by
  have hnil : mapping [] = "\x7b" ++ "\x7d" := rfl
  cases bs with
  | nil =>
    cases bs' with
    | nil => rfl
    | cons b' bs' =>
      rw [hnil, mapping_cons, String.append_right_inj] at h
      exact absurd h.symm text_append_ne_brace
  | cons b bs =>
    cases bs' with
    | nil =>
      rw [hnil, mapping_cons, String.append_right_inj] at h
      exact absurd h text_append_ne_brace
    | cons b' bs' =>
      rw [mapping_cons, mapping_cons, String.append_right_inj] at h
      refine mappingRest_inj hbs hbs' ?_
      rw [mappingRest, mappingRest, h]

/-! ### Forms of steps -/

/-- The forms that the lines of a step take. -/
inductive Form
  | bindPath
  | bindQuery
  | construct
  /-- A line that runs if an argument is given. -/
  | given
  | attachJson
  | attachRaw
  | invoke
  | invokeAsync
  | returnHeader
  | returnJson
  | returnRaw
deriving DecidableEq

namespace Form

/-- All forms. -/
def all : List Form :=
  [bindPath, bindQuery, construct, given, attachJson, attachRaw, invoke, invokeAsync, returnHeader,
    returnJson, returnRaw]

theorem mem_all (f : Form) : f ∈ all := by cases f <;> decide

/-- What the first line begins with. -/
def opening : Form → List Piece
  | bindPath => [.code variablesLocal, .code " = "]
  | bindQuery => [.code paramsLocal, .code " = "]
  | construct => [.code requestLocal, .code " = self.create_request("]
  | given => [.code "if "]
  | attachJson => [.code contentLocal, .code " = self.", .code "json_content", .code "("]
  | attachRaw => [.code contentLocal, .code " = self.", .code "raw_content", .code "("]
  | invoke => [.code responseLocal, .code " = ", .code "self.invoke", .code "("]
  | invokeAsync => [.code responseLocal, .code " = ", .code "await self.invoke_async", .code "("]
  | returnHeader => [.code "return self.get_header_value("]
  | returnJson => [.code "return self.read_json("]
  | returnRaw => [.code "return self.read_raw("]

theorem eq_of_opens : ∀ f ∈ all, ∀ g ∈ all,
    (writeAll f.opening).toList <+: (writeAll g.opening).toList → f = g := by
  decide +kernel

theorem behind (f : Form) {ps qs : List Piece}
    (h : writeAll (f.opening ++ ps) = writeAll (f.opening ++ qs)) : writeAll ps = writeAll qs := by
  rw [writeAll_append, writeAll_append] at h
  exact (String.append_right_inj _).mp h

theorem eq_of_line {f g : Form} {ps qs : List Piece}
    (h : writeAll (f.opening ++ ps) = writeAll (g.opening ++ qs)) : f = g := by
  have hf : (writeAll f.opening).toList <+: (writeAll (f.opening ++ ps)).toList := by
    rw [writeAll_append, String.toList_append]
    exact List.prefix_append _ _
  have hg : (writeAll g.opening).toList <+: (writeAll (f.opening ++ ps)).toList := by
    rw [h, writeAll_append, String.toList_append]
    exact List.prefix_append _ _
  rcases List.prefix_or_prefix_of_prefix hf hg with hp | hp
  · exact eq_of_opens f (mem_all f) g (mem_all g) hp
  · exact (eq_of_opens g (mem_all g) f (mem_all f) hp).symm

end Form

/-- The forms in which an operation's steps are emitted, and what the emission relies on. -/
inductive Emitted (o : Operation) : Form → Step → Prop
  | bindPath {bs : List (String × String)} (hbs : AreNames bs) : Emitted o .bindPath (.bindPath bs)
  | bindQuery {bs : List (String × String)} (hbs : AreNames bs) :
      Emitted o .bindQuery (.bindQuery bs)
  | construct {verb path : String} : Emitted o .construct (.construct verb path)
  | attachHeader {header p : String} (hp : IsName p) : Emitted o .given (.attachHeader header p)
  | attachJson {p : String} {contentType : Option String} (hp : IsName p) :
      Emitted o .attachJson (.attachBody p (some .json) contentType)
  | attachRaw {p : String} {contentType : Option String} (hp : IsName p) :
      Emitted o .attachRaw (.attachBody p (some .raw) contentType)
  | attachContentHeader {header p : String} (hp : IsName p) :
      Emitted o .given (.attachContentHeader header p)
  | invoke (ho : o.completion = .sync) : Emitted o .invoke (.invoke .sync)
  | invokeAsync (ho : o.completion = .async) : Emitted o .invokeAsync (.invoke .async)
  | extractHeader {header p : String} {type : TypeReference} (hp : IsName p) :
      Emitted o .given (.extractHeader header p type)
  | returnHeader {type : TypeReference} {header : String} :
      Emitted o .returnHeader (.returnHeader type (some header))
  | returnJson {type : TypeReference} : Emitted o .returnJson (.returnBody type (some .json))
  | returnRaw {type : TypeReference} {form : RawForm} (hform : type.rawForm = some form) :
      Emitted o .returnRaw (.returnBody type (some .raw))

section
variable {o o' : Operation} {f f' : Form} {s s' : Step} {indent : String}

theorem Emitted.exists_opening (h : Emitted o f s) (indent : String) :
    ∃ ps more, stepPieces indent o s = (f.opening ++ ps) :: more := by
  cases h with
  | invoke ho =>
    have hsync : o.isAsync = false := by rw [Operation.isAsync, ho]; rfl
    exact ⟨_, _, by rw [stepPieces, hsync]; rfl⟩
  | invokeAsync ho =>
    have hasync : o.isAsync = true := by rw [Operation.isAsync, ho]; rfl
    exact ⟨_, _, by rw [stepPieces, hasync]; rfl⟩
  | _ => exact ⟨_, _, rfl⟩

theorem Emitted.form_eq {rest rest' : List String} (hs : Emitted o f s) (hs' : Emitted o' f' s')
    (h : stepLines indent o s ++ rest = stepLines indent o' s' ++ rest') : f = f' := by
  obtain ⟨ps, more, hps⟩ := hs.exists_opening indent
  obtain ⟨ps', more', hps'⟩ := hs'.exists_opening indent
  rw [← write_stepPieces, ← write_stepPieces, hps, hps'] at h
  exact Form.eq_of_line (List.cons.inj h).1

end

end ClientSource

/-! ### Steps that do the same -/

namespace Step

/-- Steps that do the same: what they are emitted from agrees but for an empty content type, which is
as good as none, and for types, of which only the expression counts, or the form of a raw payload. -/
inductive Alike : Step → Step → Prop
  | same (s : Step) : Alike s s
  | attachBody {p : String} {format : Option BodyEncoding} {contentType contentType' : Option String}
      (h : Location.given contentType = Location.given contentType') :
      Alike (.attachBody p format contentType) (.attachBody p format contentType')
  | extractHeader {header p : String} {type type' : TypeReference} (h : type.render = type'.render) :
      Alike (.extractHeader header p type) (.extractHeader header p type')
  | returnHeader {header : Option String} {type type' : TypeReference}
      (h : type.render = type'.render) : Alike (.returnHeader type header) (.returnHeader type' header)
  | returnJson {type type' : TypeReference} (h : type.render = type'.render) :
      Alike (.returnBody type (some .json)) (.returnBody type' (some .json))
  | returnRaw {type type' : TypeReference} (h : type.rawForm = type'.rawForm) :
      Alike (.returnBody type (some .raw)) (.returnBody type' (some .raw))

theorem Alike.kind_eq {s s' : Step} (h : s.Alike s') : s.kind = s'.kind := by
  cases h <;> rfl

end Step

namespace ClientSource
variable {o o' : Operation} {f f' : Form} {s s' : Step} {indent : String}

theorem writeAll_code_inj {c : String} {ps qs : List Piece}
    (h : writeAll (.code c :: ps) = writeAll (.code c :: qs)) : writeAll ps = writeAll qs :=
  (String.append_right_inj c).mp h

theorem writeAll_literal_inj {t u : String} {ps qs : List Piece}
    (h : writeAll (.literal t :: ps) = writeAll (.literal u :: qs)) :
    t = u ∧ writeAll ps = writeAll qs :=
  Quoted.text_append_inj h

theorem writeAll_name_inj {p q : String} {ps qs : List Piece} (hp : IsName p) (hq : IsName q)
    (hps : EndsName (writeAll ps)) (hqs : EndsName (writeAll qs))
    (h : writeAll (.code p :: ps) = writeAll (.code q :: qs)) : p = q ∧ writeAll ps = writeAll qs :=
  name_append_inj hp hq hps hqs h

theorem render_inj {t u : TypeReference}
    (h : writeAll (typePieces t ++ [.code ")"]) = writeAll (typePieces u ++ [.code ")"])) :
    t.render = u.render := by
  rw [writeAll_append, writeAll_append, write_typePieces, write_typePieces] at h
  exact (String.append_left_inj _).mp h

theorem mappingPieces_inj {bs bs' : List (String × String)} (hbs : AreNames bs) (hbs' : AreNames bs')
    (h : writeAll (mappingPieces bs) = writeAll (mappingPieces bs')) : bs = bs' := by
  rw [write_mappingPieces, write_mappingPieces] at h
  exact mapping_inj hbs hbs' h

/-- What stands behind the argument that becomes the body. -/
def contentTypePieces (contentType : Option String) : List Piece :=
  match Location.given contentType with
  | some t => [.code ", ", .literal t, .code ")"]
  | none => [.code ")"]

theorem stepPieces_attachBody (indent : String) (o : Operation) (p : String)
    (format : Option BodyEncoding) (contentType : Option String) :
    stepPieces indent o (.attachBody p format contentType) =
      [.code contentLocal :: .code " = self." ::
          .code (if format = some .raw then "raw_content" else "json_content") :: .code "(" ::
          .code p :: contentTypePieces contentType,
        [.code requestLocal, .code ".content = ", .code contentLocal]] := by
  cases hgiven : Location.given contentType <;> simp [stepPieces, contentTypePieces, hgiven]

theorem attached_inj {p p' : String} {t t' : Option String} (hp : IsName p) (hp' : IsName p')
    (h : writeAll (.code p :: contentTypePieces t) = writeAll (.code p' :: contentTypePieces t')) :
    p = p' ∧ Location.given t = Location.given t' := by
  unfold contentTypePieces at h
  have hcomma : ∀ t, EndsName (writeAll [.code ", ", .literal t, .code ")"]) :=
    fun t => endsName_append (by decide) _
  have hclose : EndsName (writeAll [.code ")"]) := endsName_append (by decide) _
  have hne : ∀ t, writeAll [.code ", ", .literal t, .code ")"] ≠ writeAll [.code ")"] := by
    intro t ht
    have hhead := congrArg (fun s => s.toList.head?) ht
    simp at hhead
  cases hgiven : Location.given t with
  | none =>
    cases hgiven' : Location.given t' with
    | none =>
      rw [hgiven, hgiven'] at h
      exact ⟨(writeAll_name_inj hp hp' hclose hclose h).1, rfl⟩
    | some u =>
      rw [hgiven, hgiven'] at h
      exact absurd (writeAll_name_inj hp hp' hclose (hcomma u) h).2.symm (hne u)
  | some v =>
    cases hgiven' : Location.given t' with
    | none =>
      rw [hgiven, hgiven'] at h
      exact absurd (writeAll_name_inj hp hp' (hcomma v) hclose h).2 (hne v)
    | some u =>
      rw [hgiven, hgiven'] at h
      obtain ⟨hname, hbehind⟩ := writeAll_name_inj hp hp' (hcomma v) (hcomma u) h
      exact ⟨hname, congrArg some (writeAll_literal_inj (writeAll_code_inj hbehind)).1⟩

/-! ### Lines that run if an argument is given -/

theorem whenGiven_inj {p p' : String} {line line' : List Piece} {rest rest' : List String}
    (hp : IsName p) (hp' : IsName p')
    (h : (whenGivenPieces indent p line).map writeAll ++ rest =
      (whenGivenPieces indent p' line').map writeAll ++ rest') :
    p = p' ∧ writeAll line = writeAll line' ∧ rest = rest' := by
  have hends : EndsName (writeAll [.code " is not None:"]) := endsName_append (by decide) _
  obtain ⟨hfirst, h⟩ := List.cons.inj h
  obtain ⟨hsecond, hrest⟩ := List.cons.inj h
  exact ⟨(writeAll_name_inj hp hp' hends hends (Form.given.behind hfirst)).1,
    writeAll_code_inj hsecond, hrest⟩

theorem isName_requestLocal : IsName requestLocal := List.all_eq_true.mp (by decide)

theorem isName_contentLocal : IsName contentLocal := List.all_eq_true.mp (by decide)

theorem endsName_headers (ps : List Piece) : EndsName (writeAll (.code ".headers[" :: ps)) :=
  endsName_append (by decide) _

/-- The headers of the request are not those of its content. -/
theorem not_request_content {ps qs : List Piece}
    (h : writeAll (.code requestLocal :: .code ".headers[" :: ps) =
      writeAll (.code contentLocal :: .code ".headers[" :: qs)) : False := by
  have hlocals := (writeAll_name_inj isName_requestLocal isName_contentLocal (endsName_headers ps)
    (endsName_headers qs) h).1
  exact absurd hlocals (by decide)

/-- A header that is sent is not one that is read. -/
theorem not_headers_value {target p : String} {ps qs : List Piece} (ht : IsName target)
    (hp : IsName p) (h : writeAll (.code target :: .code ".headers[" :: ps) =
      writeAll (.code p :: .code ".value = self.get_header_value(" :: qs)) : False := by
  have hends : EndsName (writeAll (.code ".value = self.get_header_value(" :: qs)) :=
    endsName_append (by decide) _
  have hbehind := (writeAll_name_inj ht hp (endsName_headers ps) hends h).2
  have hsecond := congrArg (fun s => s.toList[1]?) hbehind
  simp at hsecond

theorem Emitted.alike_of_given {rest rest' : List String} (hs : Emitted o .given s)
    (hs' : Emitted o' .given s')
    (h : stepLines indent o s ++ rest = stepLines indent o' s' ++ rest') :
    Step.Alike s s' ∧ rest = rest' := by
  rw [← write_stepPieces, ← write_stepPieces] at h
  cases hs with
  | @attachHeader header p hp =>
    cases hs' with
    | @attachHeader header' p' hp' =>
      obtain ⟨hname, hline, hrest⟩ := whenGiven_inj hp hp' h
      have hheader := (writeAll_literal_inj (writeAll_code_inj (writeAll_code_inj hline))).1
      rw [hname, hheader]
      exact ⟨.same _, hrest⟩
    | attachContentHeader hp' => exact (not_request_content (whenGiven_inj hp hp' h).2.1).elim
    | extractHeader hp' =>
      exact (not_headers_value isName_requestLocal hp' (whenGiven_inj hp hp' h).2.1).elim
  | @attachContentHeader header p hp =>
    cases hs' with
    | attachHeader hp' => exact (not_request_content (whenGiven_inj hp hp' h).2.1.symm).elim
    | @attachContentHeader header' p' hp' =>
      obtain ⟨hname, hline, hrest⟩ := whenGiven_inj hp hp' h
      have hheader := (writeAll_literal_inj (writeAll_code_inj (writeAll_code_inj hline))).1
      rw [hname, hheader]
      exact ⟨.same _, hrest⟩
    | extractHeader hp' =>
      exact (not_headers_value isName_contentLocal hp' (whenGiven_inj hp hp' h).2.1).elim
  | @extractHeader header p type hp =>
    cases hs' with
    | attachHeader hp' =>
      exact (not_headers_value isName_requestLocal hp (whenGiven_inj hp hp' h).2.1.symm).elim
    | attachContentHeader hp' =>
      exact (not_headers_value isName_contentLocal hp (whenGiven_inj hp hp' h).2.1.symm).elim
    | @extractHeader header' p' type' hp' =>
      obtain ⟨hname, hline, hrest⟩ := whenGiven_inj hp hp' h
      subst hname
      have hcall := writeAll_code_inj (writeAll_code_inj hline)
      obtain ⟨hheader, hbehind⟩ := writeAll_literal_inj (writeAll_code_inj (writeAll_code_inj hcall))
      rw [hheader]
      exact ⟨.extractHeader (render_inj (writeAll_code_inj hbehind)), hrest⟩

/-! ### Lines of steps -/

/-- A step is told by its lines, whatever stands below them. -/
theorem Emitted.alike {rest rest' : List String} (hs : Emitted o f s) (hs' : Emitted o' f' s')
    (h : stepLines indent o s ++ rest = stepLines indent o' s' ++ rest') :
    Step.Alike s s' ∧ rest = rest' := by
  obtain rfl : f = f' := hs.form_eq hs' h
  -- one form has one opening, so what the steps are carried out with is to be read behind it
  have hgiven := h
  rw [← write_stepPieces, ← write_stepPieces] at h
  cases hs with
  | @bindPath bs hbs =>
    cases hs' with
    | @bindPath bs' hbs' =>
      obtain ⟨hline, hrest⟩ := List.cons.inj h
      rw [mappingPieces_inj hbs hbs' (Form.bindPath.behind hline)]
      exact ⟨.same _, hrest⟩
  | @bindQuery bs hbs =>
    cases hs' with
    | @bindQuery bs' hbs' =>
      obtain ⟨hline, hrest⟩ := List.cons.inj h
      rw [mappingPieces_inj hbs hbs' (Form.bindQuery.behind hline)]
      exact ⟨.same _, hrest⟩
  | @construct verb path =>
    cases hs' with
    | @construct verb' path' =>
      obtain ⟨hline, hrest⟩ := List.cons.inj h
      obtain ⟨hverb, hbehind⟩ := writeAll_literal_inj (Form.construct.behind hline)
      obtain ⟨hpath, -⟩ := writeAll_literal_inj (writeAll_code_inj hbehind)
      rw [hverb, hpath]
      exact ⟨.same _, hrest⟩
  | @attachJson p contentType hp =>
    cases hs' with
    | @attachJson p' contentType' hp' =>
      rw [stepPieces_attachBody, stepPieces_attachBody] at h
      obtain ⟨hline, hlines⟩ := List.cons.inj h
      obtain ⟨hname, hgiven⟩ := attached_inj hp hp' (Form.attachJson.behind hline)
      rw [hname]
      exact ⟨.attachBody hgiven, (List.cons.inj hlines).2⟩
  | @attachRaw p contentType hp =>
    cases hs' with
    | @attachRaw p' contentType' hp' =>
      rw [stepPieces_attachBody, stepPieces_attachBody] at h
      obtain ⟨hline, hlines⟩ := List.cons.inj h
      obtain ⟨hname, hgiven⟩ := attached_inj hp hp' (Form.attachRaw.behind hline)
      rw [hname]
      exact ⟨.attachBody hgiven, (List.cons.inj hlines).2⟩
  | invoke ho =>
    cases hs' with
    | invoke ho' => exact ⟨.same _, (List.cons.inj h).2⟩
  | invokeAsync ho =>
    cases hs' with
    | invokeAsync ho' => exact ⟨.same _, (List.cons.inj h).2⟩
  | @returnHeader type header =>
    cases hs' with
    | @returnHeader type' header' =>
      obtain ⟨hline, hrest⟩ := List.cons.inj h
      have hheader := writeAll_code_inj (writeAll_code_inj (Form.returnHeader.behind hline))
      obtain ⟨hheader, hbehind⟩ := writeAll_literal_inj hheader
      rw [hheader]
      exact ⟨.returnHeader (render_inj (writeAll_code_inj hbehind)), hrest⟩
  | @returnJson type =>
    cases hs' with
    | @returnJson type' =>
      obtain ⟨hline, hrest⟩ := List.cons.inj h
      have htype := writeAll_code_inj (writeAll_code_inj (Form.returnJson.behind hline))
      exact ⟨.returnJson (render_inj htype), hrest⟩
  | @returnRaw type form hform =>
    cases hs' with
    | @returnRaw type' form' hform' =>
      obtain ⟨hline, hrest⟩ := List.cons.inj h
      have hname := writeAll_code_inj (writeAll_code_inj (Form.returnRaw.behind hline))
      have hforms := RawForm.name_inj (writeAll_literal_inj hname).1
      rw [hform, hform'] at hforms
      exact ⟨.returnRaw (by rw [hform, hform']; exact congrArg some hforms), hrest⟩
  | attachHeader hp => exact Emitted.alike_of_given (.attachHeader hp) hs' hgiven
  | attachContentHeader hp => exact Emitted.alike_of_given (.attachContentHeader hp) hs' hgiven
  | extractHeader hp => exact Emitted.alike_of_given (.extractHeader hp) hs' hgiven

theorem forall₂_alike {ss ss' : List Step} (hs : ∀ s ∈ ss, ∃ f, Emitted o f s)
    (hs' : ∀ s ∈ ss', ∃ f, Emitted o' f s)
    (h : ss.flatMap (stepLines indent o) = ss'.flatMap (stepLines indent o')) :
    List.Forall₂ Step.Alike ss ss' := by
  have hne : ∀ {o f s}, Emitted o f s → ∀ rest, stepLines indent o s ++ rest ≠ [] := by
    intro o f s hs rest
    obtain ⟨ps, more, hps⟩ := hs.exists_opening indent
    rw [← write_stepPieces, hps]
    exact List.cons_ne_nil _ _
  induction ss generalizing ss' with
  | nil =>
    cases ss' with
    | nil => exact .nil
    | cons s' ss' =>
      obtain ⟨f', hf'⟩ := hs' s' List.mem_cons_self
      exact absurd h.symm (hne hf' _)
  | cons s ss ih =>
    rw [List.forall_mem_cons] at hs
    obtain ⟨⟨f, hf⟩, hs⟩ := hs
    cases ss' with
    | nil => exact absurd h (hne hf _)
    | cons s' ss' =>
      rw [List.forall_mem_cons] at hs'
      obtain ⟨⟨f', hf'⟩, hs'⟩ := hs'
      rw [List.flatMap_cons, List.flatMap_cons] at h
      obtain ⟨halike, hrest⟩ := hf.alike hf' h
      exact .cons halike (ih hs hs' hrest)

/-- The other way round, steps that do the same have the same lines, where it is agreed what requests
are made from. -/
theorem Emitted.stepLines_eq (hs : Emitted o f s) (hs' : Emitted o' f' s') (h : Step.Alike s s')
    (hpath : (o.withRole .pathVariable).isEmpty = (o'.withRole .pathVariable).isEmpty)
    (hquery : (o.withRole .queryParameter).isEmpty = (o'.withRole .queryParameter).isEmpty) :
    stepLines indent o s = stepLines indent o' s' := by
  cases h with
  | same s =>
    cases hs with
    | construct => simp only [stepLines, hpath, hquery]
    | invoke ho =>
      cases hs' with
      | invoke ho' => simp only [stepLines, Operation.isAsync, ho, ho']
    | invokeAsync ho =>
      cases hs' with
      | invokeAsync ho' => simp only [stepLines, Operation.isAsync, ho, ho']
    | _ => simp only [stepLines]
  | attachBody h => simp only [stepLines, h]
  | extractHeader h => simp only [stepLines, h]
  | returnHeader h => simp only [stepLines, h]
  | returnJson h => simp only [stepLines, h, reduceCtorEq, Option.some.injEq, ↓reduceIte]
  | returnRaw h => simp only [stepLines, h, ↓reduceIte]

theorem flatMap_stepLines_eq {ss ss' : List Step} (hs : ∀ s ∈ ss, ∃ f, Emitted o f s)
    (hs' : ∀ s ∈ ss', ∃ f, Emitted o' f s) (h : List.Forall₂ Step.Alike ss ss')
    (hpath : (o.withRole .pathVariable).isEmpty = (o'.withRole .pathVariable).isEmpty)
    (hquery : (o.withRole .queryParameter).isEmpty = (o'.withRole .queryParameter).isEmpty) :
    ss.flatMap (stepLines indent o) = ss'.flatMap (stepLines indent o') := by
  induction h with
  | nil => rw [List.flatMap_nil, List.flatMap_nil]
  | cons halike _ ih =>
    rw [List.forall_mem_cons] at hs hs'
    obtain ⟨⟨f, hf⟩, hs⟩ := hs
    obtain ⟨⟨f', hf'⟩, hs'⟩ := hs'
    rw [List.flatMap_cons, List.flatMap_cons, hf.stepLines_eq hf' halike hpath hquery, ih hs hs']

end ClientSource

/-! ### Steps of plans -/

namespace Signature
open ClientSource
variable {m m' : Signature} {e e' : Endpoint}

theorem areNames_pairs (hid : ∀ p ∈ m.parameters, IsName p.name) (r : Role) :
    AreNames (m.pairs r) := by
  intro b hb
  obtain ⟨p, hp, rfl⟩ := List.mem_map.mp hb
  exact hid p (mem_of_mem_withRole hp)

theorem emitted_of_mem_steps (ha : m.Acceptable e.path)
    (hid : ∀ p ∈ m.parameters, IsName p.name) {s : Step} (h : s ∈ m.steps e) :
    ∃ f, Emitted (m.operation e) f s := by
  have hname : ∀ {r p}, p ∈ m.withRole r → IsName p.name := fun hp =>
    hid _ (mem_of_mem_withRole hp)
  rcases mem_steps h with h | rfl | h
  · cases h with
    | bindPath => exact ⟨_, .bindPath (areNames_pairs hid _)⟩
    | bindQuery => exact ⟨_, .bindQuery (areNames_pairs hid _)⟩
    | construct => exact ⟨_, .construct⟩
    | attachHeader hh => exact ⟨_, .attachHeader (areNames_pairs hid _ _ hh)⟩
    | attachBody hp =>
      rcases Parameter.settled_binding (ha.bindable _ (mem_of_mem_withRole hp))
        (declaredRole_of_mem_withRole hp) with hformat | ⟨hformat, -⟩
      · rw [hformat]
        exact ⟨_, .attachJson (hname hp)⟩
      · rw [hformat]
        exact ⟨_, .attachRaw (hname hp)⟩
    | attachContentHeader hh => exact ⟨_, .attachContentHeader (areNames_pairs hid _ _ hh)⟩
  · have hcompletion : (m.operation e).completion = m.shape.completion := rfl
    cases hc : m.shape.completion with
    | sync => exact ⟨_, .invoke (hcompletion.trans hc)⟩
    | async => exact ⟨_, .invokeAsync (hcompletion.trans hc)⟩
  · cases h with
    | extractHeader hp => exact ⟨_, .extractHeader (hname hp)⟩
    | @returnHeader name hv hr =>
      obtain ⟨key, hkey⟩ : ∃ key, name = some key := by
        cases hh : m.returnHeaders with
        | nil =>
          rw [declaredResult, hh] at hr
          cases hr
        | cons key keys =>
          rw [declaredResult, hh] at hr
          cases hr
          cases name with
          | none => exact absurd rfl (ha.returned.headerNamed none (hh ▸ List.mem_cons_self))
          | some key => exact ⟨key, rfl⟩
      rw [hkey]
      exact ⟨_, .returnHeader⟩
    | returnBody hv hr =>
      rcases settled_declaredResult ha.returned hv hr with hformat | ⟨hformat, hform⟩
      · rw [hformat]
        exact ⟨_, .returnJson⟩
      · rw [hformat]
        obtain ⟨form, hform⟩ := Option.isSome_iff_exists.mp hform
        exact ⟨_, .returnRaw hform⟩

/-- Whether requests are made from path variables and from a query shows in the kinds of the steps. -/
theorem mem_stepKinds_iff (m : Signature) :
    ("bind-path-variables" ∈ m.stepKinds ↔ (m.withRole .pathVariable).isEmpty = false) ∧
      ("bind-query-params" ∈ m.stepKinds ↔ (m.withRole .queryParameter).isEmpty = false) := by
  unfold stepKinds
  constructor
  · cases (m.withRole .pathVariable).isEmpty <;> simp [List.mem_replicate]
  · cases (m.withRole .queryParameter).isEmpty <;> simp [List.mem_replicate]

theorem isEmpty_withRole_eq (h : List.Forall₂ Step.Alike (m.steps e) (m'.steps e')) :
    (m.withRole .pathVariable).isEmpty = (m'.withRole .pathVariable).isEmpty ∧
      (m.withRole .queryParameter).isEmpty = (m'.withRole .queryParameter).isEmpty := by
  have hkinds : m.stepKinds = m'.stepKinds := by
    rw [← map_kind_steps m e, ← map_kind_steps m' e', ← List.forall₂_eq_eq_eq,
      List.forall₂_map_left_iff, List.forall₂_map_right_iff]
    exact h.imp fun _ _ => Step.Alike.kind_eq
  obtain ⟨hpath, hquery⟩ := mem_stepKinds_iff m
  obtain ⟨hpath', hquery'⟩ := mem_stepKinds_iff m'
  rw [hkinds] at hpath hquery
  exact ⟨Bool.eq_iff_iff.mpr (not_iff_not.mp (by simpa using hpath.symm.trans hpath')),
    Bool.eq_iff_iff.mpr (not_iff_not.mp (by simpa using hquery.symm.trans hquery'))⟩

end Signature

section
open ClientSource

/-- Two accepted methods whose parameters have names of name characters, as every identifier is one, have
the same body lines, those below the docstring, exactly if their plans do the same step by step: the same
kinds of steps with the same keys, header names, parameters, verb and path, formats and way to complete,
the same content type, an empty one being none, the same expression for each type that is converted to,
and the same form of raw payloads. Whatever a key, a header name, a path or a content type holds, it
cannot pass for anything else. -/
theorem body_lines_eq_iff_alike {m m' : Signature} {contract contract' : String} {o o' : Operation}
    (ho : Operation.ofSignature m contract = .ok o)
    (ho' : Operation.ofSignature m' contract' = .ok o')
    (hn : (m.parameters.map (·.name)).Nodup) (hn' : (m'.parameters.map (·.name)).Nodup)
    (hid : ∀ p ∈ m.parameters, IsName p.name) (hid' : ∀ p ∈ m'.parameters, IsName p.name)
    (indent : String) :
    ∃ plan plan', o.plan = .ok plan ∧ o'.plan = .ok plan' ∧
      ((methodLines indent o plan).drop 2 = (methodLines indent o' plan').drop 2 ↔
        List.Forall₂ Step.Alike plan.steps plan'.steps) := by
  obtain ⟨e, -, ha, rfl⟩ := Signature.ofSignature_eq_ok ho
  obtain ⟨e', -, ha', rfl⟩ := Signature.ofSignature_eq_ok ho'
  have hs := fun s => Signature.emitted_of_mem_steps (s := s) ha hid
  have hs' := fun s => Signature.emitted_of_mem_steps (s := s) ha' hid'
  refine ⟨_, _, Signature.plan_operation hn e, Signature.plan_operation hn' e', fun h => ?_,
    fun h => ?_⟩
  · have hlines := List.map_injective_iff.mpr (fun s t h => (String.append_right_inj indent).mp h) h
    exact forall₂_alike hs hs' hlines
  · obtain ⟨hpath, hquery⟩ := Signature.isEmpty_withRole_eq h
    refine congrArg (List.map (indent ++ ·)) (flatMap_stepLines_eq hs hs' h ?_ ?_)
    · rw [Signature.withRole_operation, Signature.withRole_operation, List.isEmpty_map,
        List.isEmpty_map, hpath]
    · rw [Signature.withRole_operation, Signature.withRole_operation, List.isEmpty_map,
        List.isEmpty_map, hquery]

/-- A method with a query of two entries. -/
def plainQuery : Signature where
  name := "search"
  returns := .none
  parameters := [
    { name := "p", type := .builtin "str", marks := [.keyed .query (some "a")] },
    { name := "q", type := .builtin "str", marks := [.keyed .query (some "b")] }]
  endpoint := some ⟨"GET", "/x"⟩

/-- A method with a query of one entry, whose key holds quotes. -/
def quotedQuery : Signature where
  name := "search"
  returns := .none
  parameters := [
    { name := "q", type := .builtin "str", marks := [.keyed .query (some "a\": p, \"b")] }]
  endpoint := some ⟨"GET", "/x"⟩

/-- A key with quotes does not pass for two entries. -/
theorem body_lines_ne_quotedQuery : ∃ o o' plan plan',
    Operation.ofSignature plainQuery "app.Docs" = .ok o ∧
      Operation.ofSignature quotedQuery "app.Docs" = .ok o' ∧ o.plan = .ok plan ∧
      o'.plan = .ok plan' ∧
      (methodLines "  " o plan).drop 2 ≠ (methodLines "  " o' plan').drop 2 := by
  have ho : Operation.ofSignature plainQuery "app.Docs" = .ok (plainQuery.operation ⟨"GET", "/x"⟩) :=
    ofSignature_of_isSome rfl (by decide +kernel)
  have ho' : Operation.ofSignature quotedQuery "app.Docs" =
      .ok (quotedQuery.operation ⟨"GET", "/x"⟩) := ofSignature_of_isSome rfl (by decide +kernel)
  have hid : ∀ p ∈ plainQuery.parameters, IsName p.name := by
    simp only [plainQuery, List.forall_mem_cons]
    exact ⟨isName_of_isIdentifier (by decide), isName_of_isIdentifier (by decide),
      List.forall_mem_nil _⟩
  have hid' : ∀ p ∈ quotedQuery.parameters, IsName p.name :=
    List.forall_mem_singleton.mpr (isName_of_isIdentifier (by decide))
  obtain ⟨plan, plan', hplan, hplan', hlines⟩ := body_lines_eq_iff_alike ho ho' (by decide)
    (by decide) hid hid' "  "
  refine ⟨_, _, plan, plan', ho, ho', hplan, hplan', fun h => ?_⟩
  have hquery : ∀ {bs bs'}, Step.Alike (.bindQuery bs) (.bindQuery bs') → bs = bs' := by
    rintro bs _ ⟨⟩
    rfl
  have halike := hlines.mp h
  rw [Signature.plan_operation (by decide)] at hplan hplan'
  cases hplan
  cases hplan'
  cases halike with
  | cons hfirst _ => exact absurd (hquery hfirst) (by decide)

end

end HttpContract
