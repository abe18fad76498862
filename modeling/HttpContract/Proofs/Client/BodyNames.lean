import HttpContract.Proofs.Client.Annotations
import HttpContract.Proofs.Plan.Declared
import HttpContract.Proofs.Value.Literal

/-!
# Names in bodies

The body of a method as statements: its lines are those of `Step.statements`, step by step
(`Step.flatMap_lines_statements`). What a name means at a statement is `Operation.Means`: the client, an
argument, a local that has been assigned, or a type. A step that finds what it relies on (`Step.Ready`)
evaluates only names that mean something (`Operation.IsClear.scoped_statements`), and each step of a plan
finds the locals of the steps in front of it (`Signature.scoped_steps`). No parameter has the name of a
local or of a type, since a method with such a parameter is not accepted; so much makes
`Signature.bodies_evaluate_known_names`. A type may still start with the name of the client or of a
local: nothing refuses that.
-/

namespace HttpContract

/-! ### Statements -/

/-- An expression in the body of a method. -/
inductive Expression
  | name (n : String)
  | text (t : String)
  | nothing
  /-- A dictionary display from quoted keys to names. -/
  | mapping (entries : List (String × String))
  | type (t : TypeReference)
  | member (object : Expression) (field : String)
  | item (object : Expression) (key : String)
  | call (function : Expression) (args : List Expression)
  | awaited (e : Expression)

namespace TypeReference

mutual

/-- The sources of the values in a reference. -/
def sources : TypeReference → List String
  | ⟨_, _, args, _, _, literal⟩ => literal.toList ++ sourcesOfAll args

def sourcesOfAll : List TypeReference → List String
  | [] => []
  | t :: ts => sources t ++ sourcesOfAll ts

end

/-- Whether a source evaluates no name. -/
def evaluatesNothing (source : String) : Bool := source == "..." || (Literal.read? source).isSome

/-- The names that the rendered expression evaluates. A source that is no literal counts as a name. -/
def evaluated (t : TypeReference) : List String := t.heads ++ t.sources.filter (!evaluatesNothing ·)

/-- Whether the values in a reference evaluate no names. -/
def IsPlain (t : TypeReference) : Prop := ∀ source ∈ t.sources, evaluatesNothing source = true

theorem mem_sourcesOfAll {source : String} {ts : List TypeReference} :
    source ∈ sourcesOfAll ts ↔ ∃ t ∈ ts, source ∈ t.sources := by
  induction ts with
  | nil =>
    simp only [sourcesOfAll, List.not_mem_nil, false_and, exists_false]
  | cons t ts ih => rw [sourcesOfAll, List.mem_append, ih, List.exists_mem_cons_iff]

theorem sources_eq (t : TypeReference) : t.sources = t.literal.toList ++ sourcesOfAll t.args := by
  cases t
  rw [sources]

theorem IsPlain.of_mem_args {t arg : TypeReference} (h : t.IsPlain) (harg : arg ∈ t.args) :
    arg.IsPlain := by
  intro source hsource
  refine h source ?_
  rw [sources_eq]
  exact List.mem_append_right _ (mem_sourcesOfAll.mpr ⟨arg, harg, hsource⟩)

theorem isPlain_of_bare {t : TypeReference} (hargs : t.args = []) (hliteral : t.literal = .none) :
    t.IsPlain := by
  intro source hsource
  rw [sources_eq, hargs, hliteral, sourcesOfAll] at hsource
  cases hsource

end TypeReference

namespace Expression

mutual

/-- The source of an expression. -/
def write : Expression → String
  | name n => n
  | text t => Quoted.text t
  | nothing => "None"
  | mapping entries => ClientSource.mapping entries
  | type t => t.render
  | member object field => write object ++ "." ++ field
  | item object key => write object ++ "[" ++ Quoted.text key ++ "]"
  | call function args => write function ++ "(" ++ String.intercalate ", " (writeAll args) ++ ")"
  | awaited e => "await " ++ write e

def writeAll : List Expression → List String
  | [] => []
  | e :: es => write e :: writeAll es

end

mutual

/-- The names that an expression evaluates. -/
def evaluated : Expression → List String
  | name n => [n]
  | text _ | nothing => []
  | mapping entries => entries.map (·.2)
  | type t => t.evaluated
  | member object _ | item object _ => evaluated object
  | call function args => evaluated function ++ evaluatedAll args
  | awaited e => evaluated e

def evaluatedAll : List Expression → List String
  | [] => []
  | e :: es => evaluated e ++ evaluatedAll es

end

end Expression

/-- A statement in the body of a method. -/
inductive Statement
  | assign (local_ : String) (value : Expression)
  /-- Puts a value into an attribute or an item of an object. -/
  | store (place value : Expression)
  /-- Runs a statement unless an argument is none. -/
  | whenGiven (parameter : String) (inner : Statement)
  | give (value : Expression)

namespace Statement

/-- The lines of a statement. -/
def lines (indent : String) : Statement → List String
  | assign target value => [target ++ " = " ++ value.write]
  | store place value => [place.write ++ " = " ++ value.write]
  | whenGiven parameter inner =>
    ("if " ++ parameter ++ " is not None:") :: (inner.lines indent).map (indent ++ ·)
  | give value => ["return " ++ value.write]

/-- The names that a statement evaluates. -/
def evaluated : Statement → List String
  | assign _ value | give value => value.evaluated
  | store place value => value.evaluated ++ place.evaluated
  | whenGiven parameter inner => parameter :: inner.evaluated

/-- The name that a statement assigns on every way through it. -/
def assigned : Statement → List String
  | assign target _ => [target]
  | _ => []

end Statement

namespace Step
open ClientSource

/-- A call of a function of the client. -/
def clientCall (function : String) (args : List Expression) : Expression :=
  .call (.member (.name "self") function) args

/-- The statements that a step is emitted as. -/
def statements (o : Operation) : Step → List Statement
  | bindPath bs => [.assign variablesLocal (.mapping bs)]
  | bindQuery bs => [.assign paramsLocal (.mapping bs)]
  | construct verb path =>
    let bound := if (o.withRole .pathVariable).isEmpty then .mapping [] else .name variablesLocal
    let params := if (o.withRole .queryParameter).isEmpty then .mapping [] else .name paramsLocal
    [.assign requestLocal (clientCall "create_request" [.text verb, .text path, bound, params])]
  | attachHeader header p =>
    [.whenGiven p (.store (.item (.member (.name requestLocal) "headers") header)
      (clientCall "format_value" [.name p]))]
  | attachBody p format contentType =>
    let encoder := if format = some .raw then "raw_content" else "json_content"
    [.assign contentLocal
      (clientCall encoder (.name p :: (Location.given contentType).toList.map .text)),
     .store (.member (.name requestLocal) "content") (.name contentLocal)]
  | attachContentHeader header p =>
    [.whenGiven p (.store (.item (.member (.name contentLocal) "headers") header)
      (clientCall "format_value" [.name p]))]
  | invoke _ =>
    [.assign responseLocal
      (if o.isAsync then .awaited (clientCall "invoke_async" [.name requestLocal])
        else clientCall "invoke" [.name requestLocal])]
  | extractHeader header p type =>
    [.whenGiven p (.store (.member (.name p) "value")
      (clientCall "get_header_value" [.name responseLocal, .text header, .type type]))]
  | returnHeader type header =>
    [.give (clientCall "get_header_value"
      [.name responseLocal, (header.map Expression.text).getD .nothing, .type type])]
  | returnBody type format =>
    if format = some .raw then
      [.give (clientCall "read_raw" [.name responseLocal, .text (type.rawForm.getD .bytes).name])]
    else [.give (clientCall "read_json" [.name responseLocal, .type type])]

theorem write_clientCall (function : String) (args : List Expression) :
    (clientCall function args).write =
      "self." ++ function ++ "(" ++ String.intercalate ", " (Expression.writeAll args) ++ ")" := by
  rw [clientCall, Expression.write, Expression.write, Expression.write]
  rfl

theorem flatMap_lines_statements (indent : String) (o : Operation) (s : Step) :
    (s.statements o).flatMap (·.lines indent) = stepLines indent o s := by
  have hempty : mapping [] = "\x7b\x7d" := rfl
  cases s with
  | bindPath bs => simp [statements, Statement.lines, Expression.write, stepLines, toString]
  | bindQuery bs => simp [statements, Statement.lines, Expression.write, stepLines, toString]
  | construct verb path =>
    unfold statements stepLines
    split_ifs <;>
      simp [Statement.lines, Expression.write, Expression.writeAll, toString, write_clientCall, hempty,
        ← String.toList_inj]
  | attachHeader header p =>
    simp [statements, Statement.lines, Expression.write, Expression.writeAll, stepLines, toString,
      write_clientCall, whenGiven, ← String.toList_inj]
  | attachBody p format contentType =>
    cases hgiven : Location.given contentType <;>
      simp [statements, Statement.lines, Expression.write, Expression.writeAll, stepLines, toString,
        write_clientCall, hgiven, ← String.toList_inj, String.intercalate_cons_cons]
  | attachContentHeader header p =>
    simp [statements, Statement.lines, Expression.write, Expression.writeAll, stepLines, toString,
      write_clientCall, whenGiven, ← String.toList_inj]
  | invoke mode =>
    cases hasync : o.isAsync <;>
      simp [statements, Statement.lines, Expression.write, Expression.writeAll, stepLines, toString,
        write_clientCall, hasync, ← String.toList_inj]
  | extractHeader header p type =>
    simp [statements, Statement.lines, Expression.write, Expression.writeAll, stepLines, toString,
      write_clientCall, whenGiven, ← String.toList_inj, String.intercalate_cons_cons]
  | returnHeader type header =>
    cases header <;>
      simp [statements, Statement.lines, Expression.write, Expression.writeAll, stepLines, toString,
        write_clientCall, optionalLiteral, ← String.toList_inj, String.intercalate_cons_cons]
  | returnBody type format =>
    by_cases hraw : format = some .raw <;>
      simp [statements, Statement.lines, Expression.write, Expression.writeAll, stepLines, toString,
        write_clientCall, hraw, ← String.toList_inj, String.intercalate_cons_cons]

end Step

/-! ### What names mean -/

namespace ClientSource

/-- The locals of generated bodies. -/
def locals : List String := [variablesLocal, paramsLocal, requestLocal, contentLocal, responseLocal]

theorem startsWith_of_mem_locals {n : String} (h : n ∈ locals) : n.startsWith reservedStart = true := by
  have hall : locals.all (·.startsWith reservedStart) = true := by decide +kernel
  exact List.all_eq_true.mp hall n h

end ClientSource

namespace Operation

/-- The types that a body may evaluate: that of the result and those that headers are converted to. -/
def bodyTypes (o : Operation) : List TypeReference :=
  (if o.isVoid then [] else [o.returns]) ++ (o.withRole .responseHeader).map (·.valueType)

/-- What a name means behind statements of a body. -/
inductive Means (o : Operation) (before : List Statement) : String → Prop
  /-- The client. -/
  | receiver (hfree : ∀ b ∈ o.parameters, b.name ≠ "self") : Means o before "self"
  /-- An argument. -/
  | parameter {b : Binding} (hb : b ∈ o.parameters) : Means o before b.name
  /-- A local that has been assigned. -/
  | assigned {n : String} (hn : n ∈ ClientSource.locals)
    (hbefore : n ∈ before.flatMap Statement.assigned) (hfree : ∀ b ∈ o.parameters, b.name ≠ n) :
    Means o before n
  /-- A type, or a module on the way to it. -/
  | type {n : String} {t : TypeReference} (ht : t ∈ o.bodyTypes) (hn : n ∈ t.heads)
    (hfree : ∀ b ∈ o.parameters, b.name ≠ n) : Means o before n

/-- Whether each name that statements evaluate means something there. -/
def Scoped (o : Operation) : List Statement → List Statement → Prop
  | _, [] => True
  | before, s :: rest => (∀ n ∈ s.evaluated, o.Means before n) ∧ o.Scoped (before ++ [s]) rest

variable {o : Operation} {before ss ts : List Statement} {s : Statement}

theorem scoped_singleton : o.Scoped before [s] ↔ ∀ n ∈ s.evaluated, o.Means before n := by
  rw [Scoped, Scoped, and_true]

theorem scoped_append :
    o.Scoped before (ss ++ ts) ↔ o.Scoped before ss ∧ o.Scoped (before ++ ss) ts := by
  induction ss generalizing before with
  | nil => rw [List.nil_append, List.append_nil, Scoped, true_and]
  | cons s ss ih =>
    rw [List.cons_append, Scoped, Scoped, ih, and_assoc, List.append_assoc, List.singleton_append]

theorem scoped_nil_iff : o.Scoped [] ss ↔
    ∀ before s after, ss = before ++ s :: after → ∀ n ∈ s.evaluated, o.Means before n := by
  constructor
  · rintro h before s after rfl
    exact (scoped_append.mp h).2.1
  · intro h
    induction ss using List.reverseRecOn with
    | nil => trivial
    | append_singleton ss s ih =>
      refine scoped_append.mpr ⟨ih fun before t after hss => ?_, scoped_singleton.mpr ?_⟩
      · exact h before t (after ++ [s]) (by rw [hss, List.append_assoc, List.cons_append])
      · exact h ss s [] rfl

end Operation

namespace Step
open ClientSource

/-- The locals that a step finds. -/
def needs (o : Operation) : Step → List String
  | bindPath _ | bindQuery _ => []
  | construct .. =>
    (if (o.withRole .pathVariable).isEmpty then [] else [variablesLocal]) ++
      (if (o.withRole .queryParameter).isEmpty then [] else [paramsLocal])
  | attachHeader .. | attachBody .. | invoke _ => [requestLocal]
  | attachContentHeader .. => [contentLocal]
  | extractHeader .. | returnHeader .. | returnBody .. => [responseLocal]

/-- The locals that a step leaves. -/
def supplies : Step → List String
  | bindPath _ => [variablesLocal]
  | bindQuery _ => [paramsLocal]
  | construct .. => [requestLocal]
  | attachBody .. => [contentLocal]
  | invoke _ => [responseLocal]
  | _ => []

/-- The arguments that a step evaluates. -/
def arguments : Step → List String
  | bindPath bs | bindQuery bs => bs.map (·.2)
  | attachHeader _ p | attachBody p _ _ | attachContentHeader _ p | extractHeader _ p _ => [p]
  | construct .. | invoke _ | returnHeader .. | returnBody .. => []

/-- The types that a step evaluates. -/
def types : Step → List TypeReference
  | extractHeader _ _ type | returnHeader type _ | returnBody type _ => [type]
  | _ => []

theorem mem_locals_of_mem_needs {o : Operation} {s : Step} {n : String} (h : n ∈ s.needs o) :
    n ∈ locals := by
  have hsub : s.needs o ⊆ locals := by
    cases s with
    | construct verb path =>
      unfold needs
      split_ifs <;> simp [locals]
    | _ => simp [needs, locals]
  exact hsub h

theorem flatMap_assigned_statements (o : Operation) (s : Step) :
    (s.statements o).flatMap Statement.assigned = s.supplies := by
  cases s with
  | returnBody type format =>
    rw [statements]
    split_ifs <;> rfl
  | _ => rfl

/-- What a step relies on: its arguments are parameters, its types are types of the body, and the locals
that it finds have been assigned. -/
structure Ready (o : Operation) (before : List Statement) (s : Step) : Prop where
  arguments : ∀ n ∈ s.arguments, ∃ b ∈ o.parameters, b.name = n
  types : ∀ t ∈ s.types, t ∈ o.bodyTypes ∧ t.IsPlain
  needs : ∀ n ∈ s.needs o, n ∈ before.flatMap Statement.assigned

theorem Ready.append {o : Operation} {before : List Statement} {s : Step} (h : s.Ready o before)
    (more : List Statement) : s.Ready o (before ++ more) := by
  refine ⟨h.arguments, h.types, fun n hn => ?_⟩
  rw [List.flatMap_append]
  exact List.mem_append_left _ (h.needs n hn)

end Step

namespace Operation
open ClientSource

/-- No parameter has the name of the client, of a local or of a type in the body. -/
structure IsClear (o : Operation) : Prop where
  receiver : ∀ b ∈ o.parameters, b.name ≠ "self"
  locals : ∀ b ∈ o.parameters, b.name ∉ locals
  types : ∀ t ∈ o.bodyTypes, ∀ b ∈ o.parameters, b.name ∉ t.heads

variable {o : Operation} {before : List Statement} {s : Step} {n : String}

theorem IsClear.means_local (ho : o.IsClear) (hn : n ∈ ClientSource.locals)
    (hbefore : n ∈ before.flatMap Statement.assigned) : o.Means before n :=
  .assigned hn hbefore fun b hb heq => ho.locals b hb (heq ▸ hn)

theorem IsClear.means_need (ho : o.IsClear) (h : s.Ready o before) (hn : n ∈ s.needs o) :
    o.Means before n :=
  ho.means_local (Step.mem_locals_of_mem_needs hn) (h.needs n hn)

theorem means_argument (h : s.Ready o before) (hn : n ∈ s.arguments) (before' : List Statement) :
    o.Means before' n := by
  obtain ⟨b, hb, rfl⟩ := h.arguments n hn
  exact .parameter hb

theorem IsClear.means_type (ho : o.IsClear) (h : s.Ready o before) {t : TypeReference} (ht : t ∈ s.types)
    (hn : n ∈ t.evaluated) : o.Means before n := by
  obtain ⟨hbody, hplain⟩ := h.types t ht
  rcases List.mem_append.mp hn with hn | hn
  · exact .type hbody hn fun b hb heq => ho.types t hbody b hb (heq ▸ hn)
  · obtain ⟨hsource, hnot⟩ := List.mem_filter.mp hn
    rw [hplain n hsource] at hnot
    cases hnot

/-- Whether each name that an expression evaluates means something. -/
def Reads (o : Operation) (before : List Statement) (e : Expression) : Prop :=
  ∀ n ∈ e.evaluated, o.Means before n

section
variable {e place value : Expression} {args : List Expression} {inner : Statement}

theorem reads_name (h : o.Means before n) : o.Reads before (.name n) := List.forall_mem_singleton.mpr h

theorem reads_text (t : String) : o.Reads before (.text t) := List.forall_mem_nil _

theorem reads_nothing : o.Reads before .nothing := List.forall_mem_nil _

theorem mem_evaluatedAll {es : List Expression} :
    n ∈ Expression.evaluatedAll es ↔ ∃ e ∈ es, n ∈ e.evaluated := by
  induction es with
  | nil =>
    simp only [Expression.evaluatedAll, List.not_mem_nil, false_and, exists_false]
  | cons e es ih => rw [Expression.evaluatedAll, List.mem_append, ih, List.exists_mem_cons_iff]

theorem IsClear.reads_clientCall (ho : o.IsClear) (function : String) (h : ∀ e ∈ args, o.Reads before e) :
    o.Reads before (Step.clientCall function args) := by
  intro n hn
  rw [Step.clientCall, Expression.evaluated, List.mem_append, mem_evaluatedAll] at hn
  rcases hn with hn | ⟨e, he, hn⟩
  · rw [Expression.evaluated, Expression.evaluated] at hn
    rw [List.mem_singleton.mp hn]
    exact .receiver ho.receiver
  · exact h e he n hn

theorem scoped_assign (target : String) (h : o.Reads before value) :
    o.Scoped before [.assign target value] :=
  scoped_singleton.mpr h

theorem scoped_store (hplace : o.Reads before place) (hvalue : o.Reads before value) :
    o.Scoped before [.store place value] :=
  scoped_singleton.mpr (List.forall_mem_append.mpr ⟨hvalue, hplace⟩)

theorem scoped_whenGiven (hn : o.Means before n) (h : o.Scoped before [inner]) :
    o.Scoped before [.whenGiven n inner] :=
  scoped_singleton.mpr (List.forall_mem_cons.mpr ⟨hn, scoped_singleton.mp h⟩)

theorem scoped_give (h : o.Reads before value) : o.Scoped before [.give value] :=
  scoped_singleton.mpr h

theorem IsClear.scoped_header (ho : o.IsClear) {object p : String} (header : String)
    (hobject : o.Means before object) (hp : o.Means before p) :
    o.Scoped before [.whenGiven p (.store (.item (.member (.name object) "headers") header)
      (Step.clientCall "format_value" [.name p]))] :=
  scoped_whenGiven hp (scoped_store (reads_name hobject)
    (ho.reads_clientCall _ (List.forall_mem_singleton.mpr (reads_name hp))))

end

/-- A step that finds what it relies on evaluates only names that mean something. -/
theorem IsClear.scoped_statements (ho : o.IsClear) (h : s.Ready o before) :
    o.Scoped before (s.statements o) := by
  have hneed := fun n => ho.means_need (n := n) h
  have hargument := fun n hn => means_argument (n := n) h hn before
  have htype : ∀ t ∈ s.types, o.Reads before (.type t) := fun t ht n hn => ho.means_type h ht hn
  cases s with
  | bindPath bs => exact scoped_assign _ hargument
  | bindQuery bs => exact scoped_assign _ hargument
  | construct verb path =>
    refine scoped_assign _ (ho.reads_clientCall _ ?_)
    simp only [List.forall_mem_cons, List.not_mem_nil, false_implies, implies_true, and_true]
    refine ⟨reads_text verb, reads_text path, ?_, ?_⟩
    · split_ifs with hempty
      · exact List.forall_mem_nil _
      · exact reads_name (hneed _ (by simp [Step.needs, hempty]))
    · split_ifs with hempty
      · exact List.forall_mem_nil _
      · exact reads_name (hneed _ (by simp [Step.needs, hempty]))
  | attachHeader header p =>
    exact ho.scoped_header header (hneed _ (List.mem_singleton_self _))
      (hargument _ (List.mem_singleton_self _))
  | attachBody p format contentType =>
    have hargs : ∀ e ∈ Expression.name p :: (Location.given contentType).toList.map .text,
        o.Reads before e :=
      List.forall_mem_cons.mpr ⟨reads_name (hargument _ (List.mem_singleton_self _)),
        List.forall_mem_map.mpr fun t _ => reads_text t⟩
    rw [Step.statements, ← List.singleton_append]
    refine scoped_append.mpr ⟨scoped_assign _ (ho.reads_clientCall _ hargs), ?_⟩
    -- the content has just been assigned
    refine scoped_store (reads_name (ho.means_local (by decide) ?_))
      (reads_name (ho.means_local (by decide) ?_))
    · rw [List.flatMap_append]
      exact List.mem_append_left _ (h.needs _ (List.mem_singleton_self _))
    · rw [List.flatMap_append]
      exact List.mem_append_right _ (List.mem_singleton_self _)
  | attachContentHeader header p =>
    exact ho.scoped_header header (hneed _ (List.mem_singleton_self _))
      (hargument _ (List.mem_singleton_self _))
  | invoke mode =>
    have hargs : ∀ e ∈ [Expression.name requestLocal], o.Reads before e :=
      List.forall_mem_singleton.mpr (reads_name (hneed _ (List.mem_singleton_self _)))
    refine scoped_assign _ ?_
    split_ifs
    · exact ho.reads_clientCall _ hargs
    · exact ho.reads_clientCall _ hargs
  | extractHeader header p type =>
    have hp := hargument p (List.mem_singleton_self _)
    refine scoped_whenGiven hp (scoped_store (reads_name hp) (ho.reads_clientCall _ ?_))
    simp only [List.forall_mem_cons, List.not_mem_nil, false_implies, implies_true, and_true]
    exact ⟨reads_name (hneed _ (List.mem_singleton_self _)), reads_text header,
      htype type (List.mem_singleton_self _)⟩
  | returnHeader type header =>
    refine scoped_give (ho.reads_clientCall _ ?_)
    simp only [List.forall_mem_cons, List.not_mem_nil, false_implies, implies_true, and_true]
    refine ⟨reads_name (hneed _ (List.mem_singleton_self _)), ?_,
      htype type (List.mem_singleton_self _)⟩
    cases header with
    | none => exact reads_nothing
    | some header => exact reads_text header
  | returnBody type format =>
    have hresponse := reads_name (hneed responseLocal (List.mem_singleton_self _))
    rw [Step.statements]
    split_ifs
    · exact scoped_give (ho.reads_clientCall _
        (List.forall_mem_cons.mpr ⟨hresponse, List.forall_mem_singleton.mpr (reads_text _)⟩))
    · exact scoped_give (ho.reads_clientCall _ (List.forall_mem_cons.mpr
        ⟨hresponse, List.forall_mem_singleton.mpr (htype type (List.mem_singleton_self _))⟩))

/-- The statements of steps. -/
def statements (o : Operation) (ss : List Step) : List Statement := ss.flatMap (Step.statements o)

theorem statements_append (ss ts : List Step) :
    o.statements (ss ++ ts) = o.statements ss ++ o.statements ts :=
  List.flatMap_append

theorem mem_assigned_statements {ss : List Step} (hs : s ∈ ss) (hn : n ∈ s.supplies) :
    n ∈ (o.statements ss).flatMap Statement.assigned := by
  rw [statements, List.flatMap_assoc]
  refine List.mem_flatMap.mpr ⟨s, hs, ?_⟩
  rwa [Step.flatMap_assigned_statements]

theorem mem_assigned_of_supplies {ss : List Step} {t : Step} (ht : t ∈ ss)
    (hneeds : s.needs o = t.supplies) :
    ∀ n ∈ s.needs o, n ∈ (o.statements ss).flatMap Statement.assigned := by
  rw [hneeds]
  exact fun _ => mem_assigned_statements ht

/-- Steps that each find what they rely on in front of all of them. -/
theorem IsClear.scoped_section (ho : o.IsClear) {ss : List Step} (h : ∀ s ∈ ss, s.Ready o before) :
    o.Scoped before (o.statements ss) := by
  induction ss generalizing before with
  | nil => trivial
  | cons s ss ih =>
    obtain ⟨hs, hss⟩ := List.forall_mem_cons.mp h
    exact scoped_append.mpr ⟨ho.scoped_statements hs, ih fun t ht => (hss t ht).append _⟩

theorem IsClear.scoped_steps_append (ho : o.IsClear) {ss ts : List Step}
    (hss : o.Scoped [] (o.statements ss)) (hts : ∀ s ∈ ts, s.Ready o (o.statements ss)) :
    o.Scoped [] (o.statements (ss ++ ts)) := by
  rw [statements_append]
  exact scoped_append.mpr ⟨hss, ho.scoped_section hts⟩

end Operation

/-! ### Plans -/

namespace Signature
open ClientSource

/-- The types of a method. -/
def types (m : Signature) : List TypeReference := m.returns :: m.parameters.map (·.type)

variable {m : Signature} {e : Endpoint} {before : List Statement} {s : Step}

/-- What holds of the types of a method and of the arguments of types holds of its result. -/
theorem returns_of_types {P : TypeReference → Prop} (hargs : ∀ t, P t → ∀ arg ∈ t.args, P arg)
    (hnone : P .none) (h : ∀ t ∈ m.types, P t) : P m.shape.returns := by
  have hreturns : P m.returns := h _ List.mem_cons_self
  unfold shape Shape.ofReturn
  split_ifs
  · cases hlast : m.returns.args.getLast? with
    | none => exact hnone
    | some t => exact hargs _ hreturns t (List.mem_of_getLast? hlast)
  · exact hreturns

theorem targetType_of_types {P : TypeReference → Prop} (hargs : ∀ t, P t → ∀ arg ∈ t.args, P arg)
    (htext : P (.builtin "str")) (h : ∀ t ∈ m.types, P t) {p : Parameter} (hp : p ∈ m.parameters) :
    P p.targetType := by
  have htype : P p.type := h _ (List.mem_cons_of_mem _ (List.mem_map_of_mem hp))
  unfold Parameter.targetType
  split_ifs
  · cases hhead : p.type.args.head? with
    | none => exact htext
    | some t => exact hargs _ htype t (List.mem_of_head? hhead)
  · exact htype

theorem bodyTypes_operation (m : Signature) (e : Endpoint) : (m.operation e).bodyTypes =
    (if m.shape.isVoid then [] else [m.shape.returns]) ++
      (m.withRole .responseHeader).map (·.targetType) := by
  rw [Operation.bodyTypes, withRole_operation, List.map_map]
  rfl

/-- Acceptance keeps the names of parameters apart from those of just the types in the body. -/
theorem evaluatedNames_eq (m : Signature) (e : Endpoint) :
    m.evaluatedNames = (m.operation e).bodyTypes.flatMap (·.names) := by
  rw [bodyTypes_operation, List.flatMap_append, List.flatMap_map, evaluatedNames]
  split_ifs
  · rfl
  · rw [List.flatMap_singleton]

theorem isClear_operation {path : String} (h : m.Acceptable path)
    (hself : ∀ p ∈ m.parameters, p.name ≠ "self") : (m.operation e).IsClear where
  receiver := List.forall_mem_map.mpr hself
  locals := List.forall_mem_map.mpr fun p hp hlocal => by
    have hreserved : p.name.startsWith reservedStart = true := startsWith_of_mem_locals hlocal
    rw [h.unreserved p hp] at hreserved
    cases hreserved
  types t ht := List.forall_mem_map.mpr fun p hp hhead => by
    refine h.unshadowed p hp ?_
    rw [evaluatedNames_eq m e]
    exact List.mem_flatMap.mpr ⟨t, ht, t.heads_subset_names hhead⟩

/-! ### Steps that find what they rely on -/

theorem exists_binding {p : Parameter} {r : Role} (hp : p ∈ m.withRole r) :
    ∃ b ∈ (m.operation e).parameters, b.name = p.name :=
  ⟨p.binding, List.mem_map_of_mem (mem_of_mem_withRole hp), rfl⟩

theorem exists_binding_of_mem_pairs {r : Role} {h : String × String} (hh : h ∈ m.pairs r) :
    ∃ b ∈ (m.operation e).parameters, b.name = h.2 := by
  obtain ⟨p, hp, rfl⟩ := List.mem_map.mp hh
  exact exists_binding hp

theorem RequestStep.arguments (h : RequestStep m e s) :
    ∀ n ∈ s.arguments, ∃ b ∈ (m.operation e).parameters, b.name = n := by
  cases h with
  | bindPath => exact List.forall_mem_map.mpr fun h hh => exists_binding_of_mem_pairs hh
  | bindQuery => exact List.forall_mem_map.mpr fun h hh => exists_binding_of_mem_pairs hh
  | construct => exact List.forall_mem_nil _
  | attachHeader hh => exact List.forall_mem_singleton.mpr (exists_binding_of_mem_pairs hh)
  | attachBody hp => exact List.forall_mem_singleton.mpr (exists_binding hp)
  | attachContentHeader hh => exact List.forall_mem_singleton.mpr (exists_binding_of_mem_pairs hh)

theorem RequestStep.types (h : RequestStep m e s) : s.types = [] := by
  cases h <;> rfl

theorem ResponseStep.arguments (h : ResponseStep m s) :
    ∀ n ∈ s.arguments, ∃ b ∈ (m.operation e).parameters, b.name = n := by
  cases h with
  | extractHeader hp => exact List.forall_mem_singleton.mpr (exists_binding hp)
  | returnHeader hv hr => exact List.forall_mem_nil _
  | returnBody hv hr => exact List.forall_mem_nil _

theorem ResponseStep.types (h : ResponseStep m s) : ∀ t ∈ s.types, t ∈ (m.operation e).bodyTypes := by
  rw [bodyTypes_operation]
  cases h with
  | @extractHeader p hp =>
    have hbody : p.targetType ∈ (m.withRole .responseHeader).map (·.targetType) :=
      List.mem_map_of_mem hp
    exact List.forall_mem_singleton.mpr (List.mem_append_right _ hbody)
  | returnHeader hv hr =>
    rw [hv]
    exact List.forall_mem_singleton.mpr List.mem_cons_self
  | returnBody hv hr =>
    rw [hv]
    exact List.forall_mem_singleton.mpr List.mem_cons_self

theorem arguments_of_mem_steps (h : s ∈ m.steps e) :
    ∀ n ∈ s.arguments, ∃ b ∈ (m.operation e).parameters, b.name = n := by
  rcases mem_steps h with h | rfl | h
  · exact h.arguments
  · exact List.forall_mem_nil _
  · exact h.arguments

theorem types_of_mem_steps (h : s ∈ m.steps e) : ∀ t ∈ s.types, t ∈ (m.operation e).bodyTypes := by
  rcases mem_steps h with h | rfl | h
  · rw [h.types]
    exact List.forall_mem_nil _
  · exact List.forall_mem_nil _
  · exact h.types

theorem bodyTypes_of_types {P : TypeReference → Prop} (hargs : ∀ t, P t → ∀ arg ∈ t.args, P arg)
    (hnone : P .none) (htext : P (.builtin "str")) (h : ∀ t ∈ m.types, P t) :
    ∀ t ∈ (m.operation e).bodyTypes, P t := by
  rw [bodyTypes_operation]
  refine List.forall_mem_append.mpr ⟨?_, List.forall_mem_map.mpr fun p hp =>
    targetType_of_types hargs htext h (mem_of_mem_withRole hp)⟩
  split_ifs
  · exact List.forall_mem_nil _
  · exact List.forall_mem_singleton.mpr (returns_of_types hargs hnone h)

theorem RequestStep.ready (h : RequestStep m e s)
    (hneeds : ∀ n ∈ s.needs (m.operation e), n ∈ before.flatMap Statement.assigned) :
    s.Ready (m.operation e) before := by
  refine ⟨h.arguments, ?_, hneeds⟩
  rw [h.types]
  exact List.forall_mem_nil _

theorem ResponseStep.ready (h : ResponseStep m s) (hplain : ∀ t ∈ m.types, t.IsPlain)
    (hneeds : ∀ n ∈ s.needs (m.operation e), n ∈ before.flatMap Statement.assigned) :
    s.Ready (m.operation e) before := by
  refine ⟨h.arguments, fun t ht => ?_, hneeds⟩
  have hbody : t ∈ (m.operation e).bodyTypes := h.types t ht
  exact ⟨hbody, bodyTypes_of_types (fun _ h arg harg => h.of_mem_args harg)
    (TypeReference.isPlain_of_bare rfl rfl) (TypeReference.isPlain_of_bare rfl rfl) hplain t hbody⟩

/-! ### The whole body -/

theorem mem_assigned_bindingSteps {r : Role} {step : List (String × String) → Step} {n : String}
    (hn : ∀ bs, n ∈ (step bs).supplies) (hr : ((m.operation e).withRole r).isEmpty = false) :
    n ∈ ((m.operation e).statements (m.bindingSteps r step)).flatMap Statement.assigned := by
  have hr' : (m.withRole r).isEmpty = false := by rwa [withRole_operation, List.isEmpty_map] at hr
  rw [bindingSteps, hr']
  exact Operation.mem_assigned_statements (List.mem_singleton_self _) (hn _)

/-- The request is built from the mappings that have been assigned. -/
theorem ready_construct (m : Signature) (e : Endpoint) :
    (Step.construct e.verb e.path).Ready (m.operation e) ((m.operation e).statements
      (m.bindingSteps .pathVariable .bindPath ++ m.bindingSteps .queryParameter .bindQuery)) := by
  refine RequestStep.construct.ready fun n hn => ?_
  rw [Operation.statements_append, List.flatMap_append]
  rcases List.mem_append.mp hn with hn | hn
  · split_ifs at hn with hempty
    · cases hn
    · exact List.mem_append_left _ (mem_assigned_bindingSteps (fun _ => hn) (by simpa using hempty))
  · split_ifs at hn with hempty
    · cases hn
    · exact List.mem_append_right _ (mem_assigned_bindingSteps (fun _ => hn) (by simpa using hempty))

theorem ResponseStep.needs_eq (h : ResponseStep m s) : s.needs (m.operation e) = [responseLocal] := by
  cases h <;> rfl

theorem construct_mem_requestSteps (m : Signature) (e : Endpoint) :
    Step.construct e.verb e.path ∈ m.requestSteps e := by
  simp [requestSteps]

section
variable (hclear : (m.operation e).IsClear)
include hclear

theorem scoped_bodySteps {ss : List Step} (hss : (m.operation e).Scoped [] ((m.operation e).statements ss))
    (hrequest : Step.construct e.verb e.path ∈ ss) :
    (m.operation e).Scoped [] ((m.operation e).statements (ss ++ m.bodySteps)) := by
  unfold bodySteps
  cases hbody : (m.withRole .body).head? with
  | none => rwa [List.append_nil]
  | some p =>
    rw [List.append_cons]
    refine hclear.scoped_steps_append (hclear.scoped_steps_append hss ?_) ?_
    · exact List.forall_mem_singleton.mpr ((RequestStep.attachBody (List.mem_of_head? hbody)).ready
        (Operation.mem_assigned_of_supplies hrequest rfl))
    · refine List.forall_mem_map.mpr fun h hh => (RequestStep.attachContentHeader hh).ready ?_
      exact Operation.mem_assigned_of_supplies (List.mem_append_right ss (List.mem_singleton_self _)) rfl

theorem scoped_requestSteps :
    (m.operation e).Scoped [] ((m.operation e).statements (m.requestSteps e)) := by
  have hbinding : ∀ s ∈ m.bindingSteps .pathVariable .bindPath ++
      m.bindingSteps .queryParameter .bindQuery, s.Ready (m.operation e) [] := by
    intro s hs
    rcases List.mem_append.mp hs with hs | hs
    · rw [mem_bindingSteps hs]
      exact RequestStep.bindPath.ready (List.forall_mem_nil _)
    · rw [mem_bindingSteps hs]
      exact RequestStep.bindQuery.ready (List.forall_mem_nil _)
  have hconstruct := hclear.scoped_steps_append (hclear.scoped_section hbinding)
    (List.forall_mem_singleton.mpr (ready_construct m e))
  refine scoped_bodySteps hclear (hclear.scoped_steps_append hconstruct ?_)
    (List.mem_append_left _ (List.mem_append_right _ (List.mem_singleton_self _)))
  refine List.forall_mem_map.mpr fun h hh => (RequestStep.attachHeader hh).ready ?_
  exact Operation.mem_assigned_of_supplies (List.mem_append_right _ (List.mem_singleton_self _)) rfl

/-- Each name in the body of a method means something where it stands. -/
theorem scoped_steps (hplain : ∀ t ∈ m.types, t.IsPlain) :
    (m.operation e).Scoped [] ((m.operation e).statements (m.steps e)) := by
  rw [steps, List.append_cons]
  refine hclear.scoped_steps_append (hclear.scoped_steps_append (scoped_requestSteps hclear) ?_) ?_
  · refine List.forall_mem_singleton.mpr ⟨List.forall_mem_nil _, List.forall_mem_nil _, ?_⟩
    exact Operation.mem_assigned_of_supplies (construct_mem_requestSteps m e) rfl
  · intro s hs
    have hresponse : ResponseStep m s := responseStep_of_mem hs
    exact hresponse.ready hplain (Operation.mem_assigned_of_supplies
      (List.mem_append_right _ (List.mem_singleton_self _)) hresponse.needs_eq)

end

end Signature

/-- The lines below the docstring of an accepted method are those of its statements, and each name that
a statement evaluates means something there: the client, an argument, a local that an earlier statement
assigns, or a type. The names of parameters stand for arguments alone. -/
theorem Signature.bodies_evaluate_known_names {m : Signature} {contract : String} {o : Operation}
    (ho : Operation.ofSignature m contract = .ok o) (hnames : (m.parameters.map (·.name)).Nodup)
    (hself : ∀ p ∈ m.parameters, p.name ≠ "self") (hplain : ∀ t ∈ m.types, t.IsPlain) :
    ∃ plan, o.plan = .ok plan ∧
      (∀ indent, ((ClientSource.methodLines indent o plan).drop 2 =
        ((o.statements plan.steps).flatMap (·.lines indent)).map (indent ++ ·))) ∧
      ∀ before s after, o.statements plan.steps = before ++ s :: after →
        ∀ n ∈ s.evaluated, o.Means before n := by
  obtain ⟨e, -, hacceptable, rfl⟩ := ofSignature_eq_ok ho
  refine ⟨_, plan_operation hnames e, fun indent => ?_, ?_⟩
  · rw [Operation.statements, List.flatMap_assoc]
    simp only [Step.flatMap_lines_statements]
    rfl
  · exact Operation.scoped_nil_iff.mp (scoped_steps (isClear_operation hacceptable hself) hplain)

/-- A method with one parameter in each role, which gives back one of two texts. -/
def storeStatus : Signature := { storeDocument with
  returns := ⟨"typing", "Literal", [.ofLiteral "'new'", .ofLiteral "'changed'"], false, none, none⟩ }

theorem Signature.bodies_evaluate_known_names_storeStatus :
    Operation.ofSignature storeStatus "app.Docs" =
        .ok (storeStatus.operation ⟨"PUT", "/docs/{id}"⟩) ∧
      (storeStatus.parameters.map (·.name)).Nodup ∧
      (∀ p ∈ storeStatus.parameters, p.name ≠ "self") ∧ (∀ t ∈ storeStatus.types, t.IsPlain) ∧
      ∃ plan, (storeStatus.operation ⟨"PUT", "/docs/{id}"⟩).plan = .ok plan ∧
        ∀ before s after, (storeStatus.operation ⟨"PUT", "/docs/{id}"⟩).statements plan.steps =
          before ++ s :: after → ∀ n ∈ s.evaluated,
            (storeStatus.operation ⟨"PUT", "/docs/{id}"⟩).Means before n := by
  have ho : Operation.ofSignature storeStatus "app.Docs" =
      .ok (storeStatus.operation ⟨"PUT", "/docs/{id}"⟩) := ofSignature_of_isSome rfl (by decide +kernel)
  have hnames : (storeStatus.parameters.map (·.name)).Nodup := by decide
  have hself : ∀ p ∈ storeStatus.parameters, p.name ≠ "self" := by decide
  have hplain : ∀ t ∈ storeStatus.types, t.IsPlain := by
    unfold TypeReference.IsPlain
    decide +kernel
  obtain ⟨plan, hplan, -, hmeans⟩ := bodies_evaluate_known_names ho hnames hself hplain
  exact ⟨ho, hnames, hself, hplain, plan, hplan, hmeans⟩

end HttpContract
