import HttpContract.Proofs.Client.Requests
import HttpContract.Proofs.Http.Attempts
import HttpContract.Proofs.Http.Url
import HttpContract.Proofs.Plan.Placeholders

/-!
# Resources

Which resource a request addresses. The segments of its path are those of the route and then those of
the template, each placeholder being one segment that reads back as its value.
-/

namespace HttpContract

open Text

namespace PathTemplate

/-- The segments of a template. -/
def segments (path : String) : List (List Piece) := parts (.char '/') (pieces path.toList)

/-- The outermost pieces of a template without the slashes around it. -/
def ends (path : String) : List Piece :=
  (trimBoth (· == .char '/') (pieces path.toList)).head?.toList ++
    (trimBoth (· == .char '/') (pieces path.toList)).getLast?.toList

/-- What a piece becomes when texts are put in the place of the tokens. -/
def fillPiece (text : String → String) : Piece → List Char :=
  Piece.write fun name => (Percent.segment (text (String.ofList name))).toList

/-- What a segment becomes when texts are put in the place of its tokens. -/
def fill (text : String → String) (segment : List Piece) : List Char :=
  segment.flatMap (fillPiece text)

/-- A segment as it stands in the template. -/
def written (segment : List Piece) : List Char := segment.flatMap (Piece.write placeholder)

/-- That a segment has no placeholder. -/
def IsLiteralSegment (segment : List Piece) : Prop := ∀ name, .token name ∉ segment

/-- Every placeholder is a whole segment. -/
def IsSegmented (path : String) : Prop :=
  ∀ segment ∈ segments path, ∀ name, .token name ∈ segment → segment = [.token name]

/-- No placeholder at an end of the template is filled with nothing. -/
def FillsEnds (path : String) (text : String → String) : Prop :=
  ∀ name, .token name ∈ ends path → text (String.ofList name) ≠ ""

/-- No placeholder is filled with dots that an address reads as a step. -/
def AvoidsDots (path : String) (text : String → String) : Prop :=
  ∀ t ∈ tokens path, text t ≠ "." ∧ text t ≠ ".."

theorem keeps_fillPiece (text : String → String) : Keeps (fillPiece text) (.char '/') '/' where
  separator := rfl
  item p hp := by
    cases p with
    | char c =>
      show '/' ∉ [c]
      rw [List.mem_singleton]
      rintro rfl
      exact hp rfl
    | token name => exact Percent.slash_not_mem_segment _

variable {path : String} {text text' : String → String} {segment : List Piece}

theorem fill_token (text : String → String) (name : List Char) :
    fill text [.token name] = (Percent.segment (text (String.ofList name))).toList :=
  List.flatMap_singleton ..

theorem fill_of_isLiteralSegment (h : IsLiteralSegment segment) :
    fill text segment = written segment := by
  refine List.flatMap_congr fun p hp => ?_
  cases p with
  | char c => rfl
  | token name => exact absurd hp (h name)

theorem fill_token_eq_nil {name : List Char} :
    fill text [.token name] = [] ↔ text (String.ofList name) = "" := by
  rw [fill_token, String.toList_eq_nil_iff]
  exact ⟨fun h => Percent.segment_injective (h.trans rfl), fun h => by rw [h]; rfl⟩

namespace IsSegmented

theorem cases (h : IsSegmented path) (hs : segment ∈ segments path) :
    IsLiteralSegment segment ∨
      ∃ name, segment = [.token name] ∧ String.ofList name ∈ tokens path := by
  by_cases hl : IsLiteralSegment segment
  · exact .inl hl
  · obtain ⟨name, hname⟩ := not_forall_not.mp hl
    exact .inr ⟨name, h segment hs name hname,
      List.mem_filterMap.mpr ⟨_, mem_of_mem_parts hs hname, rfl⟩⟩

theorem exists_segment (h : IsSegmented path) {t : String} (ht : t ∈ tokens path) :
    ∃ name, [.token name] ∈ segments path ∧ String.ofList name = t := by
  obtain ⟨p, hp, hname⟩ := List.mem_filterMap.mp ht
  cases p with
  | char c => cases hname
  | token name =>
    cases hname
    obtain ⟨segment, hs, hmem⟩ := exists_mem_parts hp (a := .char '/') (fun h => nomatch h)
    rw [h segment hs name hmem] at hs
    exact ⟨name, hs, rfl⟩

theorem text_eq (h : IsSegmented path) (heq : ∀ name, [.token name] ∈ segments path →
    fill text [.token name] = fill text' [.token name]) {t : String} (ht : t ∈ tokens path) :
    text t = text' t := by
  obtain ⟨name, hs, rfl⟩ := h.exists_segment ht
  have hfill := heq name hs
  rw [fill_token, fill_token] at hfill
  exact Percent.segment_injective (String.toList_injective hfill)

/-- Nothing at an end of the template is an empty segment at that end. -/
theorem fillsEnds (h : IsSegmented path) (hparts : AreParts '/' ((segments path).map (fill text))) :
    FillsEnds path text := by
  intro name hname hempty
  have hfill : fill text [.token name] = [] := fill_token_eq_nil.mpr hempty
  rw [ends, List.mem_append, Option.mem_toList, Option.mem_toList] at hname
  rcases hname with hname | hname
  · obtain ⟨segment, hs, hmem⟩ := exists_head?_parts hname
    rw [h segment (List.mem_of_head? hs) name hmem] at hs
    refine hparts.head ?_
    rw [List.head?_map, Option.mem_map]
    exact ⟨_, hs, hfill⟩
  · obtain ⟨segment, hs, hmem⟩ := exists_getLast?_parts hname
    rw [h segment (List.mem_of_getLast? hs) name hmem] at hs
    refine hparts.last ?_
    rw [List.getLast?_map, Option.mem_map]
    exact ⟨_, hs, hfill⟩

end IsSegmented

/-- Filling a template fills its segments, unless nothing is put at an end. -/
theorem parts_fill (hends : FillsEnds path text) :
    parts '/' ((pieces path.toList).flatMap (fillPiece text)) =
      (segments path).map (fill text) := by
  refine (keeps_fillPiece text).parts_flatMap fun p hp => ?_
  have hmem : p ∈ ends path := by
    rw [ends, List.mem_append, Option.mem_toList, Option.mem_toList]
    exact hp
  cases p with
  | char c => exact List.cons_ne_nil _ _
  | token name =>
    intro h
    refine hends name hmem (fill_token_eq_nil.mp ?_)
    rw [fill_token]
    exact h

end PathTemplate

theorem toList_intercalate_filter (xs ys : List Char) :
    (String.intercalate "/" ([String.ofList xs, String.ofList ys].filter (· != ""))).toList =
      ['/'].intercalate ((if xs.isEmpty then [] else xs.splitOn '/') ++
        (if ys.isEmpty then [] else ys.splitOn '/')) := by
  have hnil : ∀ cs : List Char, (String.ofList cs != "") = !cs.isEmpty := fun cs => by
    cases cs <;> simp
  have hslash : "/".toList = ['/'] := rfl
  rw [String.toList_intercalate, hslash]
  simp only [List.filter_cons, List.filter_nil, hnil]
  cases hx : xs.isEmpty <;> cases hy : ys.isEmpty
  · simp [intercalate_append '/' (List.splitOn_ne_nil '/' xs) (List.splitOn_ne_nil '/' ys)]
  · simp
  · simp
  · simp

theorem Binder.toList_join (service route expanded : String) :
    ((Binder.of service route).join expanded).toList =
      '/' :: ['/'].intercalate (parts '/' route.toList ++ parts '/' expanded.toList) := by
  have h := toList_intercalate_filter (trimBoth (· == '/') route.toList)
    (trimBoth (· == '/') expanded.toList)
  rw [join, String.toList_append]
  exact congrArg ('/' :: ·) h

/-! ### Requests of a method -/

/-- A request of a call whose path arguments have the given texts, by key. -/
def Contract.Requests (k : Contract) (o : Operation) (text : String → String) (r : Request) : Prop :=
  ∃ plan scope frame, ∃ argument : String → Value, o.plan = .ok plan ∧
    (∀ b ∈ o.parameters, frame.value b.name = .ok (argument b.name)) ∧
    (∀ b ∈ o.withRole .pathVariable, valueText (argument b.name) = .ok (text b.key)) ∧
    r ∈ plan.requests (k.context scope) frame

/-- The segments of the route and then those of the template, filled. -/
def Contract.pathSegments (k : Contract) (o : Operation) (text : String → String) :
    List (List Char) :=
  parts '/' k.baseRoute.toList ++ (PathTemplate.segments o.path).map (PathTemplate.fill text)

/-- A segment that an address takes as it is. -/
structure Url.IsSegment (s : List Char) : Prop extends Url.IsPathText s where
  noDots : Url.isDots s = false

/-- The route and the template of a method have no segments but such. -/
structure Contract.HasPlainPath (k : Contract) (o : Operation) : Prop where
  route : ∀ s ∈ parts '/' k.baseRoute.toList, Url.IsSegment s
  literal : ∀ s ∈ PathTemplate.segments o.path, PathTemplate.IsLiteralSegment s →
    Url.IsSegment (PathTemplate.written s)

open PathTemplate

variable {c : Candidate} {k : Contract} {o : Operation} {text text' : String → String}
  {r r' : Request}

theorem Contract.Requests.request (hk : Contract.ofCandidate c = .ok k)
    (hn : ∀ m ∈ c.methods, (m.parameters.map (·.name)).Nodup) (ho : o ∈ k.operations)
    (h : k.Requests o text r) : r.service = k.serviceName ∧ r.path =
      (Binder.of k.serviceName k.baseRoute).join
        (String.ofList ((pieces o.path.toList).flatMap (fillPiece text))) := by
  obtain ⟨plan, scope, frame, argument, hplan, hframe, htext, hr⟩ := h
  obtain ⟨plan', hplan', hiff⟩ := Contract.mem_requests hk hn ho hframe scope
  rw [hplan] at hplan'
  cases hplan'
  obtain ⟨-, rfl⟩ := (hiff r).mp hr
  obtain ⟨m, hm, ho'⟩ := Contract.exists_of_mem_operations hk ho
  obtain ⟨e, -, ha, rfl⟩ := Signature.ofSignature_eq_ok ho'
  refine ⟨rfl, congrArg (Binder.join _) ?_⟩
  have hkeys : (((m.operation e).arguments .pathVariable argument).map (·.1)).Nodup := by
    rw [Signature.keys_arguments]
    exact ha.pathKeys
  rw [Binder.filledPath_of_texts, write_cutOf]
  · rfl
  intro t ht
  have hkey := (ha.tokens t).mpr ht
  rw [← Signature.keys_arguments m e .pathVariable argument] at hkey
  obtain ⟨a, ha', rfl⟩ := List.mem_map.mp hkey
  obtain ⟨b, hb, rfl⟩ := List.mem_map.mp ha'
  exact ⟨_, Entries.get?_of_mem hkeys ha', htext b hb⟩

namespace Contract

theorem slash_not_mem_pathSegments {s : List Char} (hs : s ∈ k.pathSegments o text) : '/' ∉ s := by
  rcases List.mem_append.mp hs with hs | hs
  · exact not_mem_of_mem_parts hs
  · obtain ⟨segment, hsegment, rfl⟩ := List.mem_map.mp hs
    intro hslash
    obtain ⟨p, hp, hslash⟩ := List.mem_flatMap.mp hslash
    exact (keeps_fillPiece text).item p
      (fun he => not_mem_of_mem_parts hsegment (he ▸ hp)) hslash

theorem toList_path (hpath : r.path = (Binder.of k.serviceName k.baseRoute).join
    (String.ofList ((pieces o.path.toList).flatMap (fillPiece text)))) :
    r.path.toList = '/' :: ['/'].intercalate (parts '/' r.path.toList) ∧
      parts '/' r.path.toList = parts '/' k.baseRoute.toList ++
        parts '/' ((pieces o.path.toList).flatMap (fillPiece text)) := by
  have hjoin := Binder.toList_join k.serviceName k.baseRoute
    (String.ofList ((pieces o.path.toList).flatMap (fillPiece text)))
  rw [← hpath, String.toList_ofList] at hjoin
  have hparts : parts '/' r.path.toList = _ :=
    (congrArg (parts '/') hjoin).trans ((parts_cons_self ..).trans
      ((areParts_parts '/' _).append (areParts_parts '/' _)).parts_intercalate)
  exact ⟨by rw [hparts, hjoin], hparts⟩

theorem parts_path_iff (hsegmented : IsSegmented o.path)
    (hpath : r.path = (Binder.of k.serviceName k.baseRoute).join
      (String.ofList ((pieces o.path.toList).flatMap (fillPiece text)))) :
    parts '/' r.path.toList = k.pathSegments o text ↔ FillsEnds o.path text := by
  rw [(toList_path hpath).2, pathSegments, List.append_cancel_left_eq]
  exact ⟨fun h => hsegmented.fillsEnds (h ▸ areParts_parts ..), parts_fill⟩

/-- Texts are told apart by what is made of the segments, if no two segments that are filled become
one. -/
theorem text_eq_of_map_pathSegments {f : List Char → List Char} (hsegmented : IsSegmented o.path)
    (hf : ∀ s, f (Percent.segment s).toList = (Percent.segment s).toList)
    (h : (k.pathSegments o text).map f = (k.pathSegments o text').map f) {t : String}
    (ht : t ∈ tokens o.path) : text t = text' t := by
  rw [pathSegments, pathSegments, List.map_append, List.map_append, List.append_cancel_left_eq,
    List.map_map, List.map_map, List.map_inj_left] at h
  refine hsegmented.text_eq (fun name hs => ?_) ht
  have hname := h _ hs
  rwa [Function.comp_apply, Function.comp_apply, fill_token, fill_token, hf, hf, ← fill_token,
    ← fill_token] at hname

theorem HasPlainPath.isPathText (h : k.HasPlainPath o) (hsegmented : IsSegmented o.path) :
    ∀ s ∈ k.pathSegments o text, Url.IsPathText s := by
  refine List.forall_mem_append.mpr ⟨fun s hs => (h.route s hs).toIsPathText,
    List.forall_mem_map.mpr fun s hs => ?_⟩
  rcases hsegmented.cases hs with hl | ⟨name, rfl, -⟩
  · rw [fill_of_isLiteralSegment hl]
    exact (h.literal s hs hl).toIsPathText
  · rw [fill_token]
    exact ⟨fun hq => absurd (Url.isPathSafe_of_mem_segment hq) (by decide),
      fun hq => absurd (Url.isPathSafe_of_mem_segment hq) (by decide)⟩

theorem HasPlainPath.noDots_iff (h : k.HasPlainPath o) (hsegmented : IsSegmented o.path) :
    (∀ s ∈ k.pathSegments o text, Url.isDots s = false) ↔ AvoidsDots o.path text := by
  rw [pathSegments, List.forall_mem_append, List.forall_mem_map]
  constructor
  · rintro ⟨-, hdots⟩ t ht
    obtain ⟨name, hs, rfl⟩ := hsegmented.exists_segment ht
    have hname := hdots _ hs
    rwa [fill_token, Url.isDots_segment] at hname
  · intro hdots
    refine ⟨fun s hs => (h.route s hs).noDots, fun s hs => ?_⟩
    rcases hsegmented.cases hs with hl | ⟨name, rfl, ht⟩
    · rw [fill_of_isLiteralSegment hl]
      exact (h.literal s hs hl).noDots
    · rw [fill_token, Url.isDots_segment]
      exact hdots _ ht

end Contract

/-- Where every placeholder of a template is a whole segment, the path of a call has the segments of
the route and then those of the template, with the escaped texts of the arguments in the places of the
placeholders, as long as none that is put at an end is empty. The path keeps them on its way into the
address, as long as none of the arguments is a step of dots. So calls that differ in a path argument
do not ask for one resource. -/
theorem path_arguments_fill_segments (hk : Contract.ofCandidate c = .ok k)
    (hn : ∀ m ∈ c.methods, (m.parameters.map (·.name)).Nodup) (ho : o ∈ k.operations)
    (hsegmented : IsSegmented o.path) (h : k.Requests o text r) :
    (∀ segment ∈ segments o.path, fill text segment = written segment ∨
      ∃ name, segment = [.token name] ∧
        Utf8.decode? (Percent.decode (fill text segment)) = some (text (String.ofList name))) ∧
    r.path.toList = '/' :: ['/'].intercalate (parts '/' r.path.toList) ∧
    (parts '/' r.path.toList = k.pathSegments o text ↔ FillsEnds o.path text) ∧
    (∀ text' r', k.Requests o text' r' → FillsEnds o.path text → FillsEnds o.path text' →
      (∃ t ∈ tokens o.path, text t ≠ text' t) → r.path ≠ r'.path) ∧
    ∀ (sender : HttpSender) (base : Url) (id : String) (out : SentRequest),
      Url.parse? (sender.settings.baseAddress k.serviceName) = some base → base.IsBase →
      k.HasPlainPath o → FillsEnds o.path text → sender.outgoing r id = .ok out →
      (out.url.path.toList = base.path.toList ++
          '/' :: ['/'].intercalate ((k.pathSegments o text).map Url.encodePath) ↔
        AvoidsDots o.path text) ∧
      (∀ name, Url.encodePath (fill text [.token name]) = fill text [.token name]) ∧
      ∀ text' r' id' out', k.Requests o text' r' → FillsEnds o.path text' →
        AvoidsDots o.path text → AvoidsDots o.path text' → sender.outgoing r' id' = .ok out' →
        (∃ t ∈ tokens o.path, text t ≠ text' t) → out.url.path ≠ out'.url.path := by
  obtain ⟨hservice, hpath⟩ := h.request hk hn ho
  have hparts := Contract.parts_path_iff hsegmented hpath
  refine ⟨fun segment hs => ?_, (Contract.toList_path hpath).1, hparts, ?_, ?_⟩
  · rcases hsegmented.cases hs with hl | ⟨name, rfl, -⟩
    · exact .inl (fill_of_isLiteralSegment hl)
    · exact .inr ⟨name, rfl, by rw [fill_token, Percent.decode?_decode_segment]⟩
  · rintro text' r' h' hends hends' ⟨t, ht, hne⟩ heq
    obtain ⟨-, hpath'⟩ := h'.request hk hn ho
    -- paths that are equal are cut into equal segments, and these tell the texts apart
    have hparts' := (Contract.parts_path_iff hsegmented hpath').mpr hends'
    rw [← heq, hparts.mpr hends] at hparts'
    exact hne (Contract.text_eq_of_map_pathSegments (f := id) hsegmented (fun _ => rfl)
      (congrArg (List.map id) hparts') ht)
  · intro sender base id out hread hbase hplain hends hout
    have hout_path : ∀ {text r id out}, k.Requests o text r → FillsEnds o.path text →
        sender.outgoing r id = .ok out → (out.url.path.toList = base.path.toList ++
          '/' :: ['/'].intercalate ((k.pathSegments o text).map Url.encodePath) ↔
        AvoidsDots o.path text) := by
      intro text r id out h hends hout
      obtain ⟨hservice, hpath⟩ := h.request hk hn ho
      rw [← hplain.noDots_iff hsegmented]
      refine HttpSender.outgoing_path hout (hservice ▸ hread) hbase ?_
        (fun s => Contract.slash_not_mem_pathSegments) (hplain.isPathText hsegmented)
      rw [← (Contract.parts_path_iff hsegmented hpath).mpr hends]
      exact (Contract.toList_path hpath).1
    refine ⟨hout_path h hends hout, fun name => ?_, ?_⟩
    · rw [fill_token, Url.encodePath_segment]
    · rintro text' r' id' out' h' hends' hdots hdots' hout' ⟨t, ht, hne⟩ heq
      have hsame := ((hout_path h hends hout).mpr hdots).symm.trans
        ((congrArg String.toList heq).trans ((hout_path h' hends' hout').mpr hdots'))
      have hslash : ∀ text, ∀ s ∈ (k.pathSegments o text).map Url.encodePath, '/' ∉ s :=
        fun text => List.forall_mem_map.mpr fun s hs =>
          Url.slash_not_mem_encodePath (Contract.slash_not_mem_pathSegments hs)
      have hlength : ((k.pathSegments o text).map Url.encodePath).length =
          ((k.pathSegments o text').map Url.encodePath).length := by
        simp only [Contract.pathSegments, List.length_map, List.length_append]
      exact hne (Contract.text_eq_of_map_pathSegments hsegmented Url.encodePath_segment
        (eq_of_intercalate_eq (hslash text) (hslash text') hlength
          (List.cons_inj_right _ |>.mp (List.append_cancel_left hsame))) ht)

def storeOperation : Operation := storeDocument.operation ⟨"PUT", "/docs/{id}"⟩

/-- The arguments of a document with an id. -/
def identified (id : String) : String → Value := fun name =>
  if name = "id" then .text id else documentArgument name

/-- The request that stores a document with some id. -/
def documentRequest (id : String) : Request :=
  storeOperation.requestOf (.of documentContract.serviceName documentContract.baseRoute)
    (identified id)

theorem requests_documentRequest (id : String) :
    documentContract.Requests storeOperation (fun _ => id) (documentRequest id) := by
  have hframe := storeDocument.value_frame ⟨"PUT", "/docs/{id}"⟩ (identified id)
  have hencodable : storeOperation.Encodable (identified id) := {
    path := List.forall_mem_singleton.mpr ⟨id, rfl⟩
    query := fun _ h => nomatch h
    headers := List.forall_mem_singleton.mpr ⟨"t1", rfl⟩
    body := List.forall_mem_singleton.mpr ⟨_, rfl⟩
    contentHeaders := fun _ => List.forall_mem_singleton.mpr ⟨"en", rfl⟩ }
  obtain ⟨plan, hplan, hiff⟩ := Contract.mem_requests ofCandidate_documents
    (List.forall_mem_singleton.mpr (by decide)) (List.mem_singleton_self _) hframe []
  exact ⟨plan, [], _, identified id, hplan, hframe, List.forall_mem_singleton.mpr rfl,
    (hiff _).mpr ⟨hencodable, rfl⟩⟩

/-- A sender that finds documents. -/
def documentSender : HttpSender where
  settings := { services := [("docs", "http://docs.test/api")] }

def sentDocument (path : String) : SentRequest where
  method := "PUT"
  url := { scheme := "http", host := "docs.test", path }
  headers := [("user-agent", "declient-sdk-python/0.1.0"), ("x-trace", "t1"),
    ("x-request-id", "7"), ("content-type", "text/plain; charset=utf-8"),
    ("content-language", "en")]
  body := Utf8.encode "hi"

theorem outgoing_documentRequest {id path : String} {out : SentRequest}
    (hpath : (documentRequest id).path = path)
    (hout : documentSender.outgoing { documentRequest "" with path } "7" = .ok out) :
    documentSender.outgoing (documentRequest id) "7" = .ok out := by
  rw [← hout, ← hpath]
  rfl

theorem segments_storeOperation : segments storeOperation.path =
    [[.char 'd', .char 'o', .char 'c', .char 's'], [.token ['i', 'd']]] := by
  decide +kernel

theorem isSegmented_storeOperation : IsSegmented storeOperation.path := by
  rw [IsSegmented, segments_storeOperation, List.forall_mem_cons, List.forall_mem_singleton]
  constructor
  · intro name h
    simp at h
  · intro name h
    rw [List.mem_singleton] at h
    rw [h]

theorem hasPlainPath_storeOperation : documentContract.HasPlainPath storeOperation := by
  have hroute : parts '/' documentContract.baseRoute.toList = ["v1".toList] := by decide +kernel
  constructor
  · rw [hroute]
    exact List.forall_mem_singleton.mpr ⟨⟨by decide, by decide⟩, by decide⟩
  · rw [segments_storeOperation, List.forall_mem_cons, List.forall_mem_singleton]
    exact ⟨fun _ => ⟨⟨by decide, by decide⟩, by decide⟩,
      fun h => absurd (List.mem_singleton_self _) (h _)⟩

/-- A slash in an id is escaped in the path and stays so in the address. -/
theorem path_arguments_fill_segments_document :
    IsSegmented storeOperation.path ∧ documentContract.HasPlainPath storeOperation ∧
      documentContract.Requests storeOperation (fun _ => "a/b") (documentRequest "a/b") ∧
      parts '/' (documentRequest "a/b").path.toList =
        ["v1".toList, "docs".toList, "a%2Fb".toList] ∧
      (documentRequest "a/b").path ≠ (documentRequest "a").path ∧
      ∃ out, documentSender.outgoing (documentRequest "a/b") "7" = .ok out ∧
        out.url.path.toList = "/api/v1/docs/a%2Fb".toList := by
  have hfills : ∀ id, id ≠ "" → FillsEnds storeOperation.path (fun _ => id) :=
    fun id h _ _ => h
  have hpath : (documentRequest "a/b").path = "/v1/docs/a%2Fb" := by decide +kernel
  have hout : documentSender.outgoing (documentRequest "a/b") "7" =
      .ok (sentDocument "/api/v1/docs/a%2Fb") :=
    outgoing_documentRequest hpath (by with_unfolding_all rfl)
  have hdots : AvoidsDots storeOperation.path (fun _ => "a/b") := by
    intro _ _
    show "a/b" ≠ "." ∧ "a/b" ≠ ".."
    decide
  have hread : Url.parse? (documentSender.settings.baseAddress documentContract.serviceName) =
      some (Url.mk "http" "" "docs.test" none "/api" none none) := by decide +kernel
  obtain ⟨-, -, hparts, hdiffer, haddress⟩ := path_arguments_fill_segments
    (o := storeOperation) ofCandidate_documents (List.forall_mem_singleton.mpr (by decide))
    (List.mem_singleton_self _) isSegmented_storeOperation (requests_documentRequest "a/b")
  have hexpected : documentContract.pathSegments storeOperation (fun _ => "a/b") =
      ["v1".toList, "docs".toList, "a%2Fb".toList] := by decide +kernel
  obtain ⟨hsent, -, -⟩ := haddress documentSender _ "7" _ hread ⟨rfl, rfl, rfl⟩
    hasPlainPath_storeOperation (hfills _ (by decide)) hout
  refine ⟨isSegmented_storeOperation, hasPlainPath_storeOperation, requests_documentRequest "a/b",
    (hparts.mpr (hfills _ (by decide))).trans hexpected,
    hdiffer (fun _ => "a") _ (requests_documentRequest "a") (hfills _ (by decide))
      (hfills _ (by decide)) ⟨"id", by decide +kernel, by decide⟩, _, hout, ?_⟩
  rw [hsent.mpr hdots, hexpected]
  decide +kernel

/-- An id of nothing puts a document in the place of all documents. -/
example : (documentRequest "").path = "/v1/docs" := by decide +kernel

/-- One of two dots puts it in the place of the route. -/
example : documentSender.outgoing (documentRequest "..") "7" = .ok (sentDocument "/api/v1") := by
  with_unfolding_all rfl

end HttpContract
