import HttpContract.Proofs.Client.BodyNames
import HttpContract.Proofs.Client.SourceSteps
import HttpContract.Proofs.Text.Lexemes

/-!
# Quoted lines

The lines that the texts of a contract are brought into, as lexemes: those of each step
(`Step.codeLines`, `write_codeLines`) and the one that hands on the name and the route of the service. No
lexeme runs into the next (`apart_codeLines`), so the lines are read back, each text as one literal, and
each dictionary as the entries of its step (`quoted_texts_read_back`). A type at the end of a line is left
unread.
-/

namespace HttpContract
open ClientSource Lexeme

namespace ClientSource

/-- A line of a body: how deep it stands, what a reader makes of it, and the rest, which is a type and what
closes it. -/
structure CodeLine where
  depth : Nat
  read : List Lexeme
  unread : String

/-- A line so many levels deep. -/
def indented (indent : String) : Nat → String → String
  | 0, s => s
  | n + 1, s => indent ++ indented indent n s

namespace CodeLine

/-- A line without what indents it. -/
def text (l : CodeLine) : String := String.ofList (l.read.flatMap Lexeme.write) ++ l.unread

/-- A line as it stands in the source. -/
def write (indent : String) (l : CodeLine) : String := indented indent l.depth l.text

/-- The texts of the literals that are read. -/
def texts (l : CodeLine) : List String := Lexeme.texts l.read

/-- Whether a line is read so, and in no other way. -/
def IsRead (l : CodeLine) : Prop :=
  Lexes l.text.toList l.read l.unread.toList ∧
    ∀ ls rest, Lexes l.text.toList ls rest → l.read <+: ls ∨ ls <+: l.read

end CodeLine

/-- What stands between a target and its value. -/
def assigns : List Lexeme := [.sign ' ', .sign '=', .sign ' ']

def comma : List Lexeme := [.sign ',', .sign ' ']

/-- The beginning of a call of a method of the client. -/
def calls (function : String) : List Lexeme := [.name "self", .sign '.', .name function, .sign '(']

def returns : List Lexeme := [.name "return", .sign ' ']

/-- The rest of a line behind the arguments of a call in front of a type. -/
def typed (t : TypeReference) : String := t.render ++ ")"

/-- A line that is carried out where a parameter is given. -/
def givenLines (parameter : String) (line : List Lexeme) (unread : String) : List CodeLine :=
  [⟨0, [.name "if", .sign ' ', .name parameter, .sign ' ', .name "is", .sign ' ', .name "not",
      .sign ' ', .name "None", .sign ':'], ""⟩,
    ⟨1, line, unread⟩]

/-- The lines that set a header to the text of a parameter. -/
def headerLines (object header parameter : String) : List CodeLine :=
  givenLines parameter ([.name object, .sign '.', .name "headers", .sign '[', .text header, .sign ']'] ++
    assigns ++ calls "format_value" ++ [.name parameter, .sign ')']) ""

end ClientSource

namespace Step

/-- The texts that a step brings into the code, in order. -/
def texts : Step → List String
  | bindPath bs | bindQuery bs => bs.map (·.1)
  | construct verb path => [verb, path]
  | attachHeader header _ | attachContentHeader header _ | extractHeader header _ _ => [header]
  | attachBody _ _ contentType => (Location.given contentType).toList
  | invoke _ => []
  | returnHeader _ header => header.toList
  | returnBody type format => if format = some .raw then [(type.rawForm.getD .bytes).name] else []

/-- The lines of a step. -/
def codeLines (o : Operation) : Step → List CodeLine
  | bindPath bs => [⟨0, .name variablesLocal :: assigns ++ display bs, ""⟩]
  | bindQuery bs => [⟨0, .name paramsLocal :: assigns ++ display bs, ""⟩]
  | construct verb path =>
    let bound := if (o.withRole .pathVariable).isEmpty then display [] else [.name variablesLocal]
    let params := if (o.withRole .queryParameter).isEmpty then display [] else [.name paramsLocal]
    [⟨0, .name requestLocal :: assigns ++ calls "create_request" ++ .text verb :: comma ++
      .text path :: comma ++ bound ++ comma ++ params ++ [.sign ')'], ""⟩]
  | attachHeader header p => headerLines requestLocal header p
  | attachBody p format contentType =>
    let encoder := if format = some .raw then "raw_content" else "json_content"
    let args := match Location.given contentType with
      | some t => comma ++ [.text t]
      | none => []
    [⟨0, .name contentLocal :: assigns ++ calls encoder ++ .name p :: args ++ [.sign ')'], ""⟩,
      ⟨0, [.name requestLocal, .sign '.', .name "content"] ++ assigns ++ [.name contentLocal], ""⟩]
  | attachContentHeader header p => headerLines contentLocal header p
  | invoke _ =>
    let call := if o.isAsync then .name "await" :: .sign ' ' :: calls "invoke_async" else calls "invoke"
    [⟨0, .name responseLocal :: assigns ++ call ++ [.name requestLocal, .sign ')'], ""⟩]
  | extractHeader header p type =>
    givenLines p ([.name p, .sign '.', .name "value"] ++ assigns ++ calls "get_header_value" ++
      .name responseLocal :: comma ++ .text header :: comma) (typed type)
  | returnHeader type header =>
    [⟨0, returns ++ calls "get_header_value" ++ .name responseLocal :: comma ++
      ((header.map Lexeme.text).getD (.name "None")) :: comma, typed type⟩]
  | returnBody type format =>
    if format = some .raw then
      [⟨0, returns ++ calls "read_raw" ++ .name responseLocal :: comma ++
        [.text (type.rawForm.getD .bytes).name, .sign ')'], ""⟩]
    else [⟨0, returns ++ calls "read_json" ++ .name responseLocal :: comma, typed type⟩]

end Step

namespace ClientSource

/-! ### Common parts of lines -/

section
variable {function indent unread : String} {ls : List Lexeme} {rest : List Char}

@[simp] theorem CodeLine.toList_write_zero :
    ((CodeLine.mk 0 ls unread).write indent).toList = ls.flatMap Lexeme.write ++ unread.toList := by
  simp [CodeLine.write, CodeLine.text, indented]

@[simp] theorem CodeLine.toList_write_one : ((CodeLine.mk 1 ls unread).write indent).toList =
    indent.toList ++ (ls.flatMap Lexeme.write ++ unread.toList) := by
  simp [CodeLine.write, CodeLine.text, indented]

@[simp] theorem write_assigns : assigns.flatMap Lexeme.write = " = ".toList := rfl

@[simp] theorem write_comma : comma.flatMap Lexeme.write = ", ".toList := rfl

@[simp] theorem write_calls :
    (calls function).flatMap Lexeme.write = ("self." ++ function ++ "(").toList := by
  simp [calls]

@[simp] theorem write_returns : returns.flatMap Lexeme.write = "return ".toList := rfl

@[simp] theorem texts_assigns : Lexeme.texts assigns = [] := rfl

@[simp] theorem texts_comma : Lexeme.texts comma = [] := rfl

@[simp] theorem texts_calls : Lexeme.texts (calls function) = [] := rfl

@[simp] theorem texts_returns : Lexeme.texts returns = [] := rfl

@[simp] theorem apart_assigns : Apart rest assigns := by simp [assigns, isSign]

@[simp] theorem apart_comma : Apart rest comma := by simp [comma, isSign]

@[simp] theorem apart_calls : Apart rest (calls function) ↔ IsWord function := by
  have hself : IsWord "self" := by decide +kernel
  simp [calls, hself, isSign]

@[simp] theorem apart_returns : Apart rest returns := by
  have hreturn : IsWord "return" := by decide +kernel
  simp [returns, hreturn, isSign]

end

theorem write_display (bs : List (String × String)) :
    (display bs).flatMap Lexeme.write = (mapping bs).toList := by
  have hbehind : ∀ b bs, (displayBehind (b :: bs)).flatMap Lexeme.write =
      (Quoted.text b.1 ++ (": " ++ (b.2 ++ mappingRest bs))).toList := by
    intro b bs
    induction bs generalizing b with
    | nil => simp [displayBehind, entry, mappingRest]
    | cons b' bs ih =>
      rw [displayBehind_cons_cons]
      simp [entry, ih, mappingRest]
  cases bs with
  | nil => rfl
  | cons b bs => simp [mapping_cons, display, hbehind]

theorem write_codeLines (indent : String) (o : Operation) (s : Step) :
    (s.codeLines o).map (·.write indent) = stepLines indent o s := by
  cases s with
  | bindPath bs | bindQuery bs =>
    simp [Step.codeLines, stepLines, write_display, toString, ← String.toList_inj]
  | construct verb path =>
    have hempty : (display []).flatMap Lexeme.write = "\x7b\x7d".toList := rfl
    simp only [Step.codeLines, stepLines]
    split_ifs <;> simp [hempty, toString, String.intercalate_cons_cons, ← String.toList_inj]
  | attachHeader header p | attachContentHeader header p =>
    simp [Step.codeLines, headerLines, givenLines, stepLines, whenGiven, toString, ← String.toList_inj]
  | attachBody p format contentType =>
    cases hgiven : Location.given contentType <;> by_cases hraw : format = some .raw <;>
      simp [Step.codeLines, stepLines, hgiven, hraw, toString, ← String.toList_inj]
  | invoke mode =>
    by_cases hasync : o.isAsync = true <;>
      simp [Step.codeLines, stepLines, hasync, toString, ← String.toList_inj]
  | extractHeader header p type =>
    simp [Step.codeLines, givenLines, stepLines, whenGiven, typed, toString, ← String.toList_inj]
  | returnHeader type header =>
    cases header <;>
      simp [Step.codeLines, stepLines, optionalLiteral, typed, toString, ← String.toList_inj]
  | returnBody type format =>
    by_cases hraw : format = some .raw <;>
      simp [Step.codeLines, stepLines, hraw, typed, toString, ← String.toList_inj]

/-- The names that stand in the code of any body. -/
def codeNames : List String :=
  locals ++ ["if", "is", "not", "None", "await", "headers", "content", "value", "format_value",
    "create_request", "json_content", "raw_content", "invoke", "invoke_async", "get_header_value",
    "read_raw", "read_json"]

theorem isWord_of_mem_codeNames : ∀ n ∈ codeNames, IsWord n := by decide +kernel

/-- No lexeme of a step runs into the next, whatever its texts hold. -/
theorem apart_codeLines {o : Operation} {s : Step} (h : ∀ n ∈ s.arguments, IsWord n) :
    ∀ l ∈ s.codeLines o, Apart l.unread.toList l.read := by
  have hnames := isWord_of_mem_codeNames
  simp only [codeNames, locals, List.forall_mem_append, List.forall_mem_cons, List.not_mem_nil,
    false_implies, implies_true, and_true] at hnames
  cases s with
  | bindPath bs | bindQuery bs =>
    have hbs : ∀ b ∈ bs, IsWord b.2 := List.forall_mem_map.mp h
    simp [Step.codeLines, hnames, apart_display hbs, isSign]
  | construct verb path =>
    have hempty : ∀ rest, Apart rest (display []) := apart_display (List.forall_mem_nil _)
    simp only [Step.codeLines]
    split_ifs <;> simp [hempty, hnames, isSign]
  | attachHeader header p | attachContentHeader header p =>
    have hp := h p (List.mem_singleton_self _)
    simp [Step.codeLines, headerLines, givenLines, hnames, hp, isSign]
  | attachBody p format contentType =>
    have hp := h p (List.mem_singleton_self _)
    cases hgiven : Location.given contentType <;> by_cases hraw : format = some .raw <;>
      simp [Step.codeLines, hgiven, hraw, hnames, hp, isSign]
  | invoke mode =>
    by_cases hasync : o.isAsync = true <;> simp [Step.codeLines, hasync, hnames, isSign]
  | extractHeader header p type =>
    have hp := h p (List.mem_singleton_self _)
    simp [Step.codeLines, givenLines, hnames, hp, isSign]
  | returnHeader type header => cases header <;> simp [Step.codeLines, hnames, isSign]
  | returnBody type format =>
    by_cases hraw : format = some .raw <;> simp [Step.codeLines, hraw, hnames, isSign]

theorem texts_codeLines (o : Operation) (s : Step) : (s.codeLines o).flatMap CodeLine.texts = s.texts := by
  cases s with
  | bindPath bs | bindQuery bs => simp [Step.codeLines, Step.texts, CodeLine.texts, texts_display]
  | construct verb path =>
    simp only [Step.codeLines]
    split_ifs <;> simp [Step.texts, CodeLine.texts, texts_display]
  | attachBody p format contentType =>
    cases hgiven : Location.given contentType <;>
      simp [Step.codeLines, Step.texts, hgiven, CodeLine.texts]
  | invoke mode =>
    by_cases hasync : o.isAsync = true <;> simp [Step.codeLines, Step.texts, hasync, CodeLine.texts]
  | returnHeader type header => cases header <;> simp [Step.codeLines, Step.texts, CodeLine.texts]
  | returnBody type format =>
    by_cases hraw : format = some .raw <;> simp [Step.codeLines, Step.texts, hraw, CodeLine.texts]
  | _ => simp [Step.codeLines, Step.texts, headerLines, givenLines, CodeLine.texts]

theorem unread_codeLines (o : Operation) (s : Step) :
    ∀ l ∈ s.codeLines o, l.unread = "" ∨ ∃ t ∈ s.types, l.unread = typed t := by
  cases s with
  | returnBody type format =>
    by_cases hraw : format = some .raw <;> simp [Step.codeLines, Step.types, hraw]
  | _ => simp [Step.codeLines, Step.types, headerLines, givenLines]

/-- The line of the constructor that hands on the name and the route of the service. -/
def constructorLine (c : Contract) : CodeLine where
  depth := 1
  read := [.name "super", .sign '(', .sign ')', .sign '.', .name "__init__", .sign '(', .name "client"] ++
    comma ++ .text c.serviceName :: comma ++ .text c.baseRoute :: comma ++
      [.name "logger", .sign '=', .name "logger", .sign ')']
  unread := ""

theorem mem_constructorLines (indent : String) (c : Contract) :
    (constructorLine c).write indent ∈ constructorLines indent c := by
  refine List.mem_cons_of_mem _ (List.mem_singleton.mpr ?_)
  simp [constructorLine, toString, ← String.toList_inj]

theorem apart_constructorLine (c : Contract) : Apart [] (constructorLine c).read := by
  have hnames : ∀ n ∈ ["super", "__init__", "client", "logger"], IsWord n := by decide +kernel
  simp only [List.forall_mem_cons, List.not_mem_nil, false_implies, implies_true, and_true] at hnames
  simp [constructorLine, hnames, isSign]

theorem texts_constructorLine (c : Contract) :
    (constructorLine c).texts = [c.serviceName, c.baseRoute] := by
  simp [constructorLine, CodeLine.texts]

section
variable {options : SourceOptions} {c : Contract} {planned : List (Operation × CallPlan)} {line : String}

theorem mem_lines_of_mem_constructorLines (h : line ∈ constructorLines options.indent c) :
    options.indent ++ line ∈ lines options c planned := by
  have hclass : options.indent ++ line ∈ classLines options c planned :=
    List.mem_append_left _ (List.mem_append_right _ (List.mem_map_of_mem h))
  exact List.mem_append_left _ (List.mem_append_right _ hclass)

theorem mem_lines_of_mem_stepLines {p : Operation × CallPlan} (hp : p ∈ planned) {s : Step}
    (hs : s ∈ p.2.steps) (h : line ∈ stepLines options.indent p.1 s) :
    options.indent ++ (options.indent ++ line) ∈ lines options c planned := by
  have hmethod : options.indent ++ line ∈ methodLines options.indent p.1 p.2 :=
    List.mem_cons_of_mem _ (List.mem_cons_of_mem _
      (List.mem_map_of_mem (List.mem_flatMap.mpr ⟨s, hs, h⟩)))
  have hclass : options.indent ++ (options.indent ++ line) ∈ classLines options c planned :=
    List.mem_append_right _ (List.mem_flatMap.mpr
      ⟨p, hp, List.mem_cons_of_mem _ (List.mem_map_of_mem hmethod)⟩)
  exact List.mem_append_left _ (List.mem_append_right _ hclass)

end

theorem CodeLine.isRead {l : CodeLine} (h : Apart l.unread.toList l.read) : l.IsRead := by
  have hread : Lexes l.text.toList l.read l.unread.toList := by
    rw [CodeLine.text, String.toList_append, String.toList_ofList]
    exact lexes_write h
  exact ⟨hread, fun _ _ hother => hread.prefix_or_prefix hother⟩

end ClientSource

/-! ### Accepted contracts -/

namespace Step

/-- The dictionary that a step makes, with the local that holds it. -/
def mapping? : Step → Option (String × List (String × String))
  | bindPath bs => some (variablesLocal, bs)
  | bindQuery bs => some (paramsLocal, bs)
  | _ => none

theorem codeLines_of_mapping? {o : Operation} {s : Step} {target : String}
    {bs : List (String × String)} (h : s.mapping? = some (target, bs)) :
    s.codeLines o = [⟨0, .name target :: assigns ++ display bs, ""⟩] := by
  unfold mapping? at h
  split at h <;> cases h <;> rfl

end Step

namespace Signature
variable {m : Signature} {e : Endpoint}

/-- The entries of a dictionary have distinct keys, so it holds just them, in order. -/
theorem merge_mapping (ha : m.Acceptable e.path) {s : Step} (hs : s ∈ m.steps e) {target : String}
    {bs : List (String × String)} (h : s.mapping? = some (target, bs)) : Entries.merge bs = bs := by
  have hkeys : ∀ r, (m.keys r).Nodup → ((m.pairs r).map (·.1)).Nodup := by
    intro r hr
    rw [pairs, List.map_map]
    exact hr
  have hbs : (bs.map (·.1)).Nodup := by
    rcases mem_steps hs with hs | rfl | hs
    · cases hs with
      | bindPath =>
        cases h
        exact hkeys _ ha.pathKeys
      | bindQuery =>
        cases h
        exact hkeys _ ha.queryKeys
      | _ => cases h
    · cases h
    · cases hs <;> cases h
  exact Entries.foldl_insert hbs fun _ _ => List.not_mem_nil

end Signature

theorem Lexeme.isWord_of_isIdentifier {s : String} (h : Text.isIdentifier s = true) : IsWord s := by
  refine ⟨fun hempty => ?_, isName_of_isIdentifier h⟩
  rw [Text.isIdentifier, hempty] at h
  cases h

/-- The characters that end a line. -/
def lineBreaks : List Char :=
  ['\n', '\r', '\x0b', '\x0c', '\x1c', '\x1d', '\x1e', '\x85', '\u2028', '\u2029']

theorem isPrintable_of_mem_lineBreaks : ∀ x ∈ lineBreaks, Text.isPrintable x = false := by
  have hnone : lineBreaks.any Text.isPrintable = false := by decide +kernel
  exact fun x hx => Bool.eq_false_iff.mpr (List.any_eq_false.mp hnone x hx)

/-- The literal of a text holds no line break, and no delimiter between its ends that is not escaped; so a
reader finds one literal, which denotes the text, whatever is behind it that is no such delimiter. In the
source of an accepted contract whose parameters have identifiers for names, the lines that texts are brought
into are read in one way from their beginning behind the indentation, up to the type that some of them end
with: the line of the constructor, with the name and the route of the service for literals, and the lines of
each step of each plan, with its verb and path, its keys, its header names, its content type or the name of
its form for literals, each once and in order. The dictionaries among them have the entries of the step, in
order and with distinct keys. -/
theorem quoted_texts_read_back :
    (∀ s : String, ∃ q body, Quoted.IsDelimiter q ∧ (Quoted.text s).toList = q :: (body ++ [q]) ∧
      (∀ x ∈ lineBreaks, x ∉ (Quoted.text s).toList) ∧ Quoted.Guards q body ∧
      ∀ names : CharacterNames,
        Quoted.content? names body = some s.toList ∧ Quoted.read? names (Quoted.text s) = some s ∧
        ∀ rest, rest.head? ≠ some q →
          Docstring.literal? names ((Quoted.text s).toList ++ rest) = some (s.toList, rest)) ∧
    ∀ {candidate : Candidate} {c : Contract}, Contract.ofCandidate candidate = .ok c →
      (∀ m ∈ candidate.methods, (m.parameters.map (·.name)).Nodup) →
      (∀ m ∈ candidate.methods, ∀ p ∈ m.parameters, Text.isIdentifier p.name = true) →
      ∀ options, ∃ plans, c.plans = .ok plans ∧
        emit options c plans = .ok (String.intercalate "\n" (lines options c (planned c plans))) ∧
        (∃ l : CodeLine, options.indent ++ l.write options.indent ∈ lines options c (planned c plans) ∧
          l.IsRead ∧ l.unread = "" ∧ l.texts = [c.serviceName, c.baseRoute]) ∧
        ∀ p ∈ planned c plans, ∀ s ∈ p.2.steps, ∃ code : List CodeLine,
          code.map (·.write options.indent) = stepLines options.indent p.1 s ∧
          (∀ l ∈ code,
            options.indent ++ (options.indent ++ l.write options.indent) ∈
              lines options c (planned c plans) ∧
            l.IsRead ∧ (l.unread = "" ∨ ∃ t ∈ s.types, l.unread = typed t)) ∧
          code.flatMap CodeLine.texts = s.texts ∧
          ∀ target bs, s.mapping? = some (target, bs) → Entries.merge bs = bs ∧ ∃ ls,
            code = [⟨0, .name target :: assigns ++ ls, ""⟩] ∧ Lexeme.entries? ls = some bs := by
  refine ⟨fun s => ?_, fun {candidate c} hc hn hid options => ?_⟩
  · have hq := Quoted.isDelimiter_delimiter s.toList
    have htoList : (Quoted.text s).toList = Quoted.encode s.toList := String.toList_ofList
    refine ⟨_, _, hq, htoList, fun x hx => ?_,
      .flatMap (fun c => (Quoted.encodeChar_writes hq c).guards hq) _,
      fun names => ⟨Quoted.content?_flatMap_encodeChar hq names _, Quoted.read?_text s,
        fun rest hrest => ?_⟩⟩
    · rw [htoList]
      exact Quoted.not_mem_encode (isPrintable_of_mem_lineBreaks x hx) _
    · rw [htoList]
      exact Docstring.literal?_encode _ hrest
  · obtain ⟨plans, hplans⟩ := Contract.exists_plans hc
    refine ⟨plans, hplans, emit_eq_lines options hplans, ⟨constructorLine c,
      mem_lines_of_mem_constructorLines (mem_constructorLines _ c),
      CodeLine.isRead (apart_constructorLine c), rfl, texts_constructorLine c⟩, fun p hp s hs => ?_⟩
    obtain ⟨-, o, ho, hplan⟩ := exists_of_mem_planned hplans hp
    obtain ⟨m, hm, ho'⟩ := Contract.exists_of_mem_operations hc ho
    obtain ⟨e, -, ha, rfl⟩ := Signature.ofSignature_eq_ok ho'
    rw [Signature.plan_operation (hn m hm) e] at hplan
    have hstep : s ∈ m.steps e := by
      rw [← Except.ok.inj hplan] at hs
      exact hs
    have hwords : ∀ n ∈ s.arguments, IsWord n := by
      intro n hn
      obtain ⟨b, hb, rfl⟩ := Signature.arguments_of_mem_steps hstep n hn
      obtain ⟨q, hq, rfl⟩ := List.mem_map.mp hb
      exact Lexeme.isWord_of_isIdentifier (hid m hm q hq)
    have hwrite := write_codeLines options.indent p.1 s
    refine ⟨s.codeLines p.1, hwrite, fun l hl => ⟨?_, CodeLine.isRead (apart_codeLines hwords l hl),
      unread_codeLines p.1 s l hl⟩, texts_codeLines p.1 s, fun target bs h =>
        ⟨Signature.merge_mapping ha hstep h, display bs, Step.codeLines_of_mapping? h, entries?_display bs⟩⟩
    have hline : l.write options.indent ∈ stepLines options.indent p.1 s :=
      hwrite ▸ List.mem_map_of_mem hl
    exact mem_lines_of_mem_stepLines hp hs hline

/-- A service and a key with quotes and a backslash. -/
def quotedKeys : Candidate :=
  { documents with
    service := some ⟨"it's \"docs\"", "/v1/"⟩
    methods := [{
      name := "search", returns := .none, endpoint := some ⟨"GET", "/x"⟩
      parameters := [
        { name := "q", type := .builtin "str", marks := [.keyed .query (some "a': p, \"b\\")] }] }] }

def quotedKeysContract : Contract := ((Contract.ofCandidate quotedKeys).toOption).getD default

/-- The name of the service is read back, and so is the key. -/
theorem quoted_texts_read_back_keys : Contract.ofCandidate quotedKeys = .ok quotedKeysContract ∧
    ∃ plans, quotedKeysContract.plans = .ok plans ∧
      (∃ l : CodeLine,
        "    " ++ l.write "    " ∈ lines {} quotedKeysContract (planned quotedKeysContract plans) ∧
        l.IsRead ∧ l.texts = ["it's \"docs\"", "/v1/"]) ∧
      ∀ p ∈ planned quotedKeysContract plans, ∀ s ∈ p.2.steps, ∃ code : List CodeLine,
        code.map (·.write "    ") = stepLines "    " p.1 s ∧ (∀ l ∈ code, l.IsRead) ∧
        code.flatMap CodeLine.texts = s.texts := by
  have hc : Contract.ofCandidate quotedKeys = .ok quotedKeysContract := eq_ok_getD (by decide +kernel) _
  have htexts : [quotedKeysContract.serviceName, quotedKeysContract.baseRoute] =
      ["it's \"docs\"", "/v1/"] := by decide +kernel
  obtain ⟨plans, hplans, -, ⟨l, hl, hread, -, hservice⟩, hsteps⟩ := quoted_texts_read_back.2 hc
    (List.forall_mem_singleton.mpr (by decide))
    (List.forall_mem_singleton.mpr (List.forall_mem_singleton.mpr (by decide))) {}
  refine ⟨hc, plans, hplans, ⟨l, hl, hread, hservice.trans htexts⟩, fun p hp s hs => ?_⟩
  obtain ⟨code, hwrite, hlines, htexts, -⟩ := hsteps p hp s hs
  exact ⟨code, hwrite, fun l hl => (hlines l hl).2.1, htexts⟩

end HttpContract
