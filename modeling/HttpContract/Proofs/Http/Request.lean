import HttpContract.Http.Request
import HttpContract.Proofs.Decision
import HttpContract.Proofs.Entries
import HttpContract.Proofs.PathTemplate.Cut

/-!
# Requests from values

What a binder makes of values, and when it can: every value that is sent must have a text
(`Binder.decides_request`). The path is the template with the escaped text of a value in the place of
each token; what the values of other keys are does not matter.
-/

namespace HttpContract

namespace Value

/-- That a value has a text as a part of a request. -/
def HasText (v : Value) : Prop := ∃ t, valueText v = .ok t

/-- The text of a value that has one. -/
def sentText (v : Value) : String := (valueText v).toOption.getD ""

/-- That a value can be sent in a query. -/
def HasQuery (v : Value) : Prop := ∃ q, formatQuery v = .ok q

/-- The query argument of a value that has one. -/
def sentQuery (v : Value) : QueryValue := (formatQuery v).toOption.getD (.many [])

theorem decides_valueText (v : Value) :
    Decides (fun _ => True) (valueText v) v.HasText v.sentText := .self _ _

theorem decides_formatQuery (v : Value) :
    Decides (fun _ => True) (formatQuery v) v.HasQuery v.sentQuery := .self _ _

theorem sentText_eq {v : Value} {t : String} (h : valueText v = .ok t) : v.sentText = t := by
  rw [sentText, h]
  rfl

end Value

/-- The entries that are not none: the others are not sent. -/
def present (entries : List (String × Value)) : List (String × Value) :=
  entries.filter (!·.2.isNull)

/-- The texts that entries are sent as. -/
def sentTexts (entries : List (String × Value)) : List (String × String) :=
  (present entries).map fun a => (a.1, a.2.sentText)

theorem present_cons (a : String × Value) (entries : List (String × Value)) :
    present (a :: entries) = if a.2.isNull then present entries else a :: present entries := by
  rw [present, List.filter_cons]
  cases a.2.isNull <;> rfl

theorem keys_sentTexts_sublist (entries : List (String × Value)) :
    ((sentTexts entries).map (·.1)).Sublist (entries.map (·.1)) := by
  rw [sentTexts, List.map_map]
  exact List.filter_sublist.map Prod.fst

/-- The query arguments that entries are sent as. -/
def sentParams (entries : List (String × Value)) : List (String × QueryValue) :=
  (present entries).map fun a => (a.1, a.2.sentQuery)

namespace Binder
variable {path : String} {filled params : List (String × Value)}

/-- The values that the tokens of a template have. -/
def tokenValues (path : String) (filled : List (String × Value)) : List (String × Value) :=
  (PathTemplate.tokens path).filterMap fun t => (Entries.get? filled t).map (t, ·)

/-- The template with texts in the place of its tokens. -/
def filledPath (path : String) (filled : List (String × Value)) : String :=
  PathTemplate.expand path fun t =>
    (Entries.get? filled t).map fun v => Percent.segment v.sentText

theorem decides_segments (path : String) (filled : List (String × Value)) :
    Decides (fun _ => True) (segments path filled) (∀ a ∈ tokenValues path filled, a.2.HasText)
      ((tokenValues path filled).map fun a => (a.1, Percent.segment a.2.sentText)) := by
  have hv : (PathTemplate.tokens path).filterMap (fun t =>
      (filled.find? (·.1 == t)).map fun v => (t, v.2)) = tokenValues path filled := by
    simp only [tokenValues, Entries.get?, Option.map_map]
    rfl
  unfold segments
  simp only [hv]
  exact .mapM fun a _ => .bind_pure _ a.2.decides_valueText

theorem decides_query (params : List (String × Value)) :
    Decides (fun _ => True) (query params) (∀ a ∈ present params, a.2.HasQuery)
      (sentParams params) :=
  .mapM fun p _ => .bind_pure _ p.2.decides_formatQuery

theorem expand_segments (path : String) (filled : List (String × Value)) :
    PathTemplate.expand path (fun t => (((tokenValues path filled).map fun a =>
      (a.1, Percent.segment a.2.sentText)).find? (·.1 == t)).map (·.2)) = filledPath path filled := by
  refine PathTemplate.expand_congr fun t ht => ?_
  show Entries.get? _ t = _
  rw [Entries.get?_map_value fun v : Value => Percent.segment v.sentText, tokenValues,
    Entries.get?_filterMap_key, if_pos (by simpa using ht)]

theorem decides_request (b : Binder) (method path : String) (filled params : List (String × Value)) :
    Decides (fun _ => True) (b.request method path filled params)
      ((∀ a ∈ tokenValues path filled, a.2.HasText) ∧
        ∀ a ∈ present params, a.2.HasQuery)
      { method, service := b.service, path := b.join (filledPath path filled)
        params := sentParams params } := by
  rw [← expand_segments]
  exact .bind (decides_segments path filled) fun _ => .bind_pure _ (decides_query params)

theorem hasText_tokenValues (hn : (filled.map (·.1)).Nodup)
    (ht : ∀ t, t ∈ filled.map (·.1) ↔ t ∈ PathTemplate.tokens path) :
    (∀ a ∈ tokenValues path filled, a.2.HasText) ↔ ∀ a ∈ filled, a.2.HasText := by
  constructor
  · intro h a ha
    refine h a (List.mem_filterMap.mpr ⟨a.1, (ht a.1).mp (List.mem_map_of_mem ha), ?_⟩)
    rw [Entries.get?_of_mem hn ha]
    rfl
  · intro h a ha
    obtain ⟨t, -, hm⟩ := List.mem_filterMap.mp ha
    obtain ⟨v, hv, rfl⟩ := Option.map_eq_some_iff.mp hm
    exact h _ (Entries.mem_of_get? hv)

/-! ### Requests from texts -/

variable {text : String → String}

theorem request_of_texts (b : Binder) (method : String) (params : List (String × Value))
    (h : ∀ t ∈ PathTemplate.tokens path, ∃ v, Entries.get? filled t = some v ∧
      valueText v = .ok (text t)) :
    b.request method path filled params = (query params).map fun q =>
      { method, service := b.service, path := b.join (filledPath path filled), params := q } := by
  have ht : ∀ a ∈ tokenValues path filled, a.2.HasText := by
    intro a ha
    obtain ⟨t, ht, hm⟩ := List.mem_filterMap.mp ha
    obtain ⟨v, hv, htext⟩ := h t ht
    rw [hv] at hm
    cases hm
    exact ⟨_, htext⟩
  rw [request, (decides_segments path filled).eq_ok_iff.mpr ⟨ht, rfl⟩, ← expand_segments]
  cases query params <;> rfl

/-- The literals of the template stay, and each token becomes its text, escaped. -/
theorem filledPath_of_texts (h : ∀ t ∈ PathTemplate.tokens path, ∃ v,
      Entries.get? filled t = some v ∧ valueText v = .ok (text t)) :
    filledPath path filled =
      String.ofList ((PathTemplate.cutOf (PathTemplate.pieces path.toList)).write fun name =>
        (Percent.segment (text (String.ofList name))).toList) := by
  rw [filledPath, ← PathTemplate.toList_expand path _ (fun t => Percent.segment (text t)),
    String.ofList_toList]
  intro t ht
  obtain ⟨v, hv, htext⟩ := h t ht
  rw [hv, Option.map_some, Value.sentText_eq htext]

end Binder

/-! ### Bodies -/

namespace Content

/-- The content type that an encoder gave. -/
def type (c : Content) : String := (Entries.get? c.headers contentTypeHeader).getD ""

/-- The content under the type of a mark, or else the one that the encoder gave. -/
def withType (c : Content) (contentType : Option String) : Content :=
  ⟨c.body, [(contentTypeHeader, (Location.given contentType).getD c.type)]⟩

theorem json_eq_withType (v : Value) (contentType : Option String) :
    json v contentType = (json v none).map (withType · contentType) := by
  unfold json
  cases v.jsonBytes <;> rfl

theorem raw_eq_withType (v : Value) (contentType : Option String) :
    raw v contentType = (raw v none).map (withType · contentType) := by
  unfold raw
  split <;> rfl

theorem withType_given (c : Content) (contentType : Option String) :
    c.withType (Location.given contentType) = c.withType contentType := by
  rw [withType, withType, Location.given, Location.given, Option.filter_filter]
  simp only [Bool.and_self]

end Content

/-- What the encoder of a format makes of a value. -/
def BodyEncoding.encode (format : Option BodyEncoding) (v : Value) : Except Breakdown Content :=
  if format = some .raw then Content.raw v none else Content.json v none

end HttpContract
