import HttpContract.Proofs.Client.Echo
import HttpContract.Proofs.Text.Quoted

/-!
# Bodies of text

The bytes of a text that is sent as it is are those of UTF-8, whatever charset its content type names
(`text_bodies_are_utf8`). The content type is that of a header argument of the name, of the mark or of the
encoder (`Operation.sentType`). So a receiver that goes by it reads the text that was passed exactly if the
charset writes that text as UTF-8 does, and of Latin-1 and ASCII that holds for ASCII texts only. What the
other names of charsets stand for is left open: `Codec.declared?` goes by any table of codecs.
-/

namespace HttpContract

/-! ### Charsets -/

theorem isAscii_iff {s : String} : isAscii s = true ↔ ∀ c ∈ s.toList, c.toNat < 128 := by
  simp only [isAscii, List.all_eq_true, decide_eq_true_eq]

/-- The charset that a text is read in under a content type: the one it names, if that is known, or UTF-8
if it names none. -/
def Charset.declared? (contentType : String) : Option Charset :=
  Option.elim (charsetName? contentType) (some .utf8) ofName?

/-- The bytes of a text are read as the text in UTF-8; in the other charsets, exactly if it is ASCII. -/
theorem Charset.decode_encode_iff (charset : Charset) (s : String) :
    charset.decode (Utf8.encode s) = s ↔ charset = .utf8 ∨ isAscii s = true := by
  have hbytewise : ∀ f : UInt8 → Char, (∀ b : UInt8, b < 128 → f b = Char.ofNat b.toNat) →
      (String.ofList ((Utf8.encode s).map f) = s ↔ isAscii s = true) := by
    intro f hf
    rw [isAscii_iff, ← Utf8.map_encode_eq_iff hf, ← String.toList_inj, String.toList_ofList]
  cases charset with
  | utf8 => exact iff_of_true (Utf8.decodeLossy_encode s) (.inl rfl)
  | latin1 => exact (hbytewise _ fun _ _ => rfl).trans (or_iff_right (by decide)).symm
  | ascii =>
    refine (hbytewise _ fun b hb => ?_).trans (or_iff_right (by decide)).symm
    rw [if_pos hb]

/-- A charset as it is written and read. -/
structure Codec where
  encode? : String → Option Bytes
  decode? : Bytes → Option String
  decode?_of_encode? {s : String} {bs : Bytes} : encode? s = some bs → decode? bs = some s

namespace Codec

/-- A charset in which each text that can be read is written in one way. -/
def IsCanonical (c : Codec) : Prop := ∀ bs s, c.decode? bs = some s → c.encode? s = some bs

/-- The codec that sending uses. -/
def utf8 : Codec where
  encode? s := some (Utf8.encode s)
  decode? := Utf8.decode?
  decode?_of_encode? h := Option.some.inj h ▸ Utf8.decode?_encode _

/-- One byte for each of the first 256 characters. -/
def latin1 : Codec where
  encode? s :=
    if Charset.latin1.has s then some (s.toList.map fun c => UInt8.ofNat c.toNat) else none
  decode? bs := some bs.latin1
  decode?_of_encode? := by
    intro s bs h
    split_ifs at h with hall
    obtain rfl := Option.some.inj h
    have hback : ∀ c ∈ s.toList, Char.ofNat (UInt8.ofNat c.toNat).toNat = c := by
      intro c hc
      rw [Utf8.toNat_ofNat_of_lt (of_decide_eq_true (List.all_eq_true.mp hall c hc)), Char.ofNat_toNat]
    rw [Bytes.latin1, List.map_map, Option.some.injEq, ← String.toList_inj, String.toList_ofList]
    exact (List.map_congr_left hback).trans (List.map_id _)

theorem isCanonical_latin1 : latin1.IsCanonical := by
  intro bs s h
  obtain rfl := Option.some.inj h
  have hbytes : ∀ b : UInt8, UInt8.ofNat (Char.ofNat b.toNat).toNat = b := fun b =>
    (congrArg UInt8.ofNat (Quoted.toNat_byteChar b)).trans UInt8.ofNat_toNat
  simp only [latin1, Charset.has, Bytes.latin1, String.toList_ofList]
  rw [if_pos, List.map_map]
  · exact congrArg some ((List.map_congr_left fun b _ => hbytes b).trans (List.map_id bs))
  · refine List.all_eq_true.mpr (List.forall_mem_map.mpr fun b _ => decide_eq_true ?_)
    exact (Quoted.toNat_byteChar b).trans_lt b.toNat_lt

/-- The codec that a receiver goes by under a content type, where charsets are known by some names: that
of the name, or UTF-8 if the type has none. -/
def declared? (named : String → Option Codec) (contentType : String) : Option Codec :=
  Option.elim (charsetName? contentType) (some utf8) named

end Codec

/-! ### The content type -/

/-- The content types that are sent. -/
def SentRequest.types (s : SentRequest) : List String :=
  (s.headers.filter (·.1 == sentTypeHeader)).map (·.2)

/-- The text that a value is sent as in a body as it is, and the content type that goes with it unless
another one is given. -/
def Value.asText? : Value → Option (String × String)
  | .text s | .member _ .text _ (.text s) => some (s, Content.textType)
  | .textStream s => some (s, Content.binaryType)
  | _ => none

theorem Content.raw_of_asText? {v : Value} {s type : String} (h : v.asText? = some (s, type)) :
    raw v none = .ok ⟨Utf8.encode s, [(contentTypeHeader, type)]⟩ := by
  unfold Value.asText? at h
  split at h <;> cases h <;> rfl

namespace Operation
variable {o : Operation} {argument : String → Value} {binder : Binder} {b : Binding}

/-- What a request says under a spelling of the name of the content type: the text of a header of the
content, or else that of the body, or else that of a header of the request. -/
def typeUnder? (o : Operation) (argument : String → Value) (own n : String) : Option String :=
  (Entries.get? (sentTexts (o.arguments .contentHeader argument)) n).or
    (if n = contentTypeHeader then some own
      else Entries.get? (sentTexts (o.arguments .requestHeader argument)) n)

/-- The content type of a body: what a content header of the name is given, or else that of the body. -/
def sentType (o : Operation) (argument : String → Value) (own : String) : String :=
  (Entries.get? (sentTexts (o.arguments .contentHeader argument)) contentTypeHeader).getD own

/-- The content type of a body that no header argument names: that of the mark, or else of the encoder. -/
def bodyType (argument : String → Value) (b : Binding) : String :=
  (Location.given b.contentType).getD (encoded argument b).type

section
variable {c : HttpSender} {id : String} {out : SentRequest}
  (hb : o.withRole .body = [b]) (hn : (o.sentNames .contentHeader argument).Nodup)
include hb hn

theorem get?_headersOf (id : String) {n : String} (hname : Text.lower n = sentTypeHeader) :
    Entries.get? (HttpSender.headersOf (o.requestOf binder argument) id) n =
      o.typeUnder? argument (bodyType argument b) n := by
  have hid : n ≠ HttpSender.requestIdHeader := by
    rintro rfl
    exact absurd hname (by decide)
  have hcontent : (o.requestOf binder argument).content = some (o.contentOf argument b) := by
    rw [requestOf, hb]
    rfl
  rw [HttpSender.headersOf, hcontent, Entries.get?_foldl_insert, Entries.get?_insert_of_ne hid]
  show (Entries.get? (o.contentOf argument b).headers.reverse n).or _ = _
  rw [contentOf, Entries.get?_reverse (Entries.nodup_keys_merge _), Entries.get?_merge,
    List.reverse_cons, Entries.get?, List.find?_append, Option.map_or]
  show ((Entries.get? (sentTexts _).reverse n).or (Entries.get? [_] n)).or _ = _
  rw [Entries.get?_reverse hn, Option.or_assoc, typeUnder?]
  by_cases h : n = contentTypeHeader
  · rw [h, Entries.get?_cons_self, if_pos rfl]
    rfl
  · rw [Entries.get?_cons_of_ne (Ne.symm h), if_neg h]
    rfl

variable (hr : (o.sentNames .requestHeader argument).Nodup)
  (hout : c.outgoing (o.requestOf binder argument) id = .ok out)
include hr hout

theorem mem_types_iff {t : String} : t ∈ out.types ↔ ∃ n, Text.lower n = sentTypeHeader ∧
    o.typeUnder? argument (bodyType argument b) n = some t := by
  have hnodup := nodup_keys_headersOf (r := o.requestOf binder argument) hr id
  rw [SentRequest.types, HttpSender.values_outgoing hout (by decide), List.mem_map]
  constructor
  · rintro ⟨⟨n, _⟩, hmem, rfl⟩
    obtain ⟨hmem, hname⟩ := List.mem_filter.mp hmem
    have hname := beq_iff_eq.mp hname
    exact ⟨n, hname, (get?_headersOf hb hn id hname).symm.trans (Entries.get?_of_mem hnodup hmem)⟩
  · rintro ⟨n, hname, hfound⟩
    rw [← get?_headersOf hb hn id hname] at hfound
    exact ⟨(n, t), List.mem_filter.mpr ⟨Entries.mem_of_get? hfound, beq_iff_eq.mpr hname⟩, rfl⟩

theorem types_of_spellsType (hspells : o.SpellsType argument) :
    out.types = [o.sentType argument (bodyType argument b)] := by
  have hnodup := nodup_keys_headersOf (r := o.requestOf binder argument) hr id
  have hmem : (contentTypeHeader, o.sentType argument (bodyType argument b)) ∈
      HttpSender.headersOf (o.requestOf binder argument) id := by
    refine Entries.mem_of_get? ((get?_headersOf hb hn id lower_contentTypeHeader).trans ?_)
    rw [typeUnder?, if_pos rfl, sentType]
    cases Entries.get? (sentTexts (o.arguments .contentHeader argument)) contentTypeHeader <;> rfl
  have hspelled : ∀ h ∈ HttpSender.headersOf (o.requestOf binder argument) id,
      (Text.lower h.1 == sentTypeHeader) = (h.1 == contentTypeHeader) := by
    intro h hh
    refine Bool.eq_iff_iff.mpr ?_
    rw [beq_iff_eq, beq_iff_eq]
    exact ⟨hspells.eq_of_mem_headersOf hb (List.mem_map_of_mem hh),
      fun hname => by rw [hname, lower_contentTypeHeader]⟩
  rw [SentRequest.types, HttpSender.values_outgoing hout (by decide), List.filter_congr hspelled,
    filter_name hnodup hmem]
  rfl

end

end Operation

/-- A method that takes a text as its body, as it is, sends the bytes of the text in UTF-8, under the
content types that its header arguments, its mark and the encoder give for the spellings of the name: one,
unless a header argument spells the name in another way. The charset of the type does not come into it. So
a receiver that goes by the type reads the text if the charset of the type writes it as UTF-8 does, and
only then, if the charset writes each text in one way; under Latin-1 and ASCII, exactly if the text is
ASCII. -/
theorem text_bodies_are_utf8 {candidate : Candidate} {k : Contract}
    (hk : Contract.ofCandidate candidate = .ok k)
    (hn : ∀ m ∈ candidate.methods, (m.parameters.map (·.name)).Nodup) {o : Operation}
    (ho : o ∈ k.operations) {b : Binding} (hb : b ∈ o.withRole .body)
    (hraw : b.bodyEncoding = some .raw) {frame : Frame} {argument : String → Value}
    (hf : ∀ b ∈ o.parameters, frame.value b.name = .ok (argument b.name)) {s type : String}
    (hs : (argument b.name).asText? = some (s, type)) (scope : Scope) :
    ∃ plan, o.plan = .ok plan ∧
      (o.Encodable argument → plan.requests (k.context scope) frame ≠ []) ∧
      ∀ r ∈ plan.requests (k.context scope) frame, ∀ (c : HttpSender) id out,
        c.outgoing r id = .ok out →
          let own := (Location.given b.contentType).getD type
          out.body = Utf8.encode s ∧
          (∀ t, t ∈ out.types ↔
            ∃ n, Text.lower n = sentTypeHeader ∧ o.typeUnder? argument own n = some t) ∧
          (o.SpellsType argument → out.types = [o.sentType argument own]) ∧
          (∀ t ∈ out.types, ∀ charset, Charset.declared? t = some charset →
            (charset.decode out.body = s ↔ charset = .utf8 ∨ isAscii s = true)) ∧
          ∀ (named : String → Option Codec), ∀ t ∈ out.types, ∀ codec,
            Codec.declared? named t = some codec →
            (codec.encode? s = some (Utf8.encode s) → codec.decode? out.body = some s) ∧
            (codec.IsCanonical → codec.decode? out.body = some s →
              codec.encode? s = some (Utf8.encode s)) := by
  obtain ⟨plan, hplan, hiff⟩ := Contract.mem_requests hk hn ho hf scope
  obtain ⟨m, -, ho'⟩ := Contract.exists_of_mem_operations hk ho
  obtain ⟨e, -, ha, rfl⟩ := Signature.ofSignature_eq_ok ho'
  refine ⟨plan, hplan, fun h => List.ne_nil_of_mem ((hiff _).mpr ⟨h, rfl⟩),
    fun r hr c id out hout => ?_⟩
  obtain ⟨-, rfl⟩ := (hiff r).mp hr
  -- a method has one body, so it is this one
  have hone : (m.operation e).withRole .body = [b] := by
    rcases Signature.withRole_body ha.oneBody with hnone | ⟨p, hone⟩
    · rw [Signature.withRole_operation, hnone] at hb
      cases hb
    · rw [Signature.withRole_operation, hone, List.map_singleton, List.mem_singleton] at hb
      rw [Signature.withRole_operation, hone, List.map_singleton, hb]
  have hencoded : Operation.encoded argument b = ⟨Utf8.encode s, [(contentTypeHeader, type)]⟩ := by
    rw [Operation.encoded, hraw, BodyEncoding.encode, if_pos rfl, Content.raw_of_asText? hs]
    rfl
  have htype : (Location.given b.contentType).getD type = Operation.bodyType argument b := by
    rw [Operation.bodyType, hencoded]
    rfl
  have hcontent : ((m.operation e).sentNames .contentHeader argument).Nodup :=
    List.Nodup.of_map Text.lower (Signature.nodup_lower_sentNames ha.contentHeaders)
  have hrequest : ((m.operation e).sentNames .requestHeader argument).Nodup :=
    List.Nodup.of_map Text.lower (Signature.nodup_lower_sentNames ha.requestHeaders)
  have hbody : out.body = Utf8.encode s := by
    rw [HttpSender.body_outgoing hout, Operation.requestOf, hone]
    exact congrArg Content.body hencoded
  rw [htype]
  refine ⟨hbody, fun t => Operation.mem_types_iff hone hcontent hrequest hout,
    Operation.types_of_spellsType hone hcontent hrequest hout, fun _ _ charset _ => ?_,
    fun _ _ _ codec _ => ?_⟩
  · rw [hbody]
    exact charset.decode_encode_iff s
  · rw [hbody]
    exact ⟨codec.decode?_of_encode?, fun hcanonical => hcanonical _ _⟩

/-- A method that sends a text under a content type that names another charset. -/
def noteParameter : Parameter where
  name := "text"
  type := .builtin "str"
  marks := [.body .raw (some "text/plain; charset=latin-1")]

/-- The method that sends such a text. -/
def noteSignature : Signature where
  name := "note"
  returns := .builtin "None"
  parameters := [noteParameter]
  endpoint := some ⟨"PUT", "/note"⟩

def notes : Candidate := { documents with methods := [noteSignature] }

def noteOperation : Operation := noteSignature.operation ⟨"PUT", "/note"⟩

def noteArgument : String → Value := fun _ => .text "ü"

theorem ofCandidate_notes : Contract.ofCandidate notes =
    .ok { documentContract with operations := [noteOperation] } :=
  Contract.ofCandidate_of_methods (c := notes) rfl
    (mapM_singleton_of_eq_ok (f := fun m => Operation.ofSignature m notes.fullName)
      (ofSignature_of_isSome rfl (by decide +kernel)))

/-- Charsets of which Latin-1 is the only one. -/
def latinOnly (name : String) : Option Codec :=
  if Charset.ofName? name = some .latin1 then some .latin1 else none

/-- The charset that is named has the text, in one byte, but the two bytes of UTF-8 are sent, and they are
not read as the text. -/
theorem text_bodies_are_utf8_note : ∃ plan r, noteOperation.plan = .ok plan ∧
    r ∈ plan.requests (documentContract.context []) (noteSignature.frame noteArgument) ∧
    Codec.latin1.encode? "ü" = some [0xfc] ∧
    ∀ c id out, HttpSender.outgoing c r id = .ok out →
      out.types = ["text/plain; charset=latin-1"] ∧ out.body = [0xc3, 0xbc] ∧
      ∀ t ∈ out.types, Charset.declared? t = some .latin1 ∧ Charset.latin1.decode out.body ≠ "ü" ∧
        Codec.declared? latinOnly t = some .latin1 ∧ Codec.latin1.decode? out.body ≠ some "ü" := by
  have hencodable : noteOperation.Encodable noteArgument := {
    path := fun _ h => nomatch h
    query := fun _ h => nomatch h
    headers := fun _ h => nomatch h
    body := List.forall_mem_singleton.mpr ⟨_, rfl⟩
    contentHeaders := fun _ _ h => nomatch h }
  obtain ⟨plan, hplan, hsome, hsent⟩ := text_bodies_are_utf8 ofCandidate_notes
    (List.forall_mem_singleton.mpr (by decide)) (List.mem_singleton_self _)
    (List.mem_singleton_self noteParameter.binding) rfl
    (noteSignature.value_frame ⟨"PUT", "/note"⟩ noteArgument) rfl []
  obtain ⟨r, hr⟩ := List.exists_mem_of_ne_nil _ (hsome hencodable)
  refine ⟨plan, r, hplan, hr, by decide +kernel, fun c id out hout => ?_⟩
  obtain ⟨hbody, -, htypes, hdeclared, hcodec⟩ := hsent r hr c id out hout
  have hspells : noteOperation.SpellsType noteArgument := by
    intro r hr _ hn
    rcases List.mem_pair.mp hr with rfl | rfl <;> cases hn
  have htype : out.types = ["text/plain; charset=latin-1"] := htypes hspells
  have hname : charsetName? "text/plain; charset=latin-1" = some "latin-1" := by decide +kernel
  have hknown : Charset.ofName? "latin-1" = some .latin1 := by decide +kernel
  refine ⟨htype, hbody, fun t ht => ?_⟩
  obtain rfl : t = "text/plain; charset=latin-1" := by simpa [htype] using ht
  have hcharset : Charset.declared? "text/plain; charset=latin-1" = some .latin1 := by
    rw [Charset.declared?, hname, Option.elim_some, hknown]
  have hlatin : Codec.declared? latinOnly "text/plain; charset=latin-1" = some .latin1 := by
    rw [Codec.declared?, hname, Option.elim_some, latinOnly, if_pos hknown]
  refine ⟨hcharset, ?_, hlatin, fun hread => ?_⟩
  · rw [Ne, hdeclared _ ht _ hcharset]
    decide +kernel
  · have hwritten := (hcodec latinOnly _ ht _ hlatin).2 Codec.isCanonical_latin1 hread
    revert hwritten
    decide +kernel

end HttpContract
