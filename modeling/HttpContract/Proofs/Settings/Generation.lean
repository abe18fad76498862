import Mathlib
import HttpContract.Proofs.Decision
import HttpContract.Proofs.Settings.Transport
import HttpContract.Proofs.Text.Utf8
import HttpContract.Proofs.Toml.Tables
import HttpContract.Settings.Generation

/-!
# Sources of settings

Each setting has one source: an argument, else the file, else the environment, else the default
(`source?`). The settings that are loaded are what the sources' values stand for (`Settles`), and
nothing else counts (`options_have_one_source`).
-/

namespace HttpContract

namespace Layer
variable {file given : Layer} {name : String}

/-- The value under a name as it is spelled; the last one counts. -/
def own? (l : Layer) (name : String) : Option Value := Entries.get? l.reverse name

/-- The value under the last name that agrees with the given one but for case. -/
def alike? (l : Layer) (name : String) : Option Value :=
  (l.reverse.find? fun e => Text.lower e.1 == name).map (·.2)

/-- The values of a file with those given over them. -/
def overlay (file given : Layer) : Layer :=
  given.foldl (fun done e => Entries.insert done e.1 e.2) file

theorem find?_eq_or (l : Layer) (name : String) : l.find? name = (l.own? name).or (l.alike? name) :=
  Option.orElse_eq_or ..

theorem own?_cons (e : String × Value) (l : Layer) (name : String) :
    own? (e :: l) name = (l.own? name).or (if e.1 = name then some e.2 else none) := by
  unfold own? Entries.get?
  rw [List.reverse_cons, List.find?_append, Option.map_or, List.find?_singleton]
  by_cases h : e.1 = name <;> simp [h]

theorem own?_eq_get? (h : Toml.Table.Distinct file) : file.own? name = Entries.get? file name := by
  have hrev : (file.reverse.map (·.1)).Nodup := by
    rw [List.map_reverse]
    exact List.nodup_reverse.mpr h
  ext v
  unfold own?
  rw [← Entries.mem_iff_get? hrev, ← Entries.mem_iff_get? h, List.mem_reverse]

theorem own?_overlay (h : Toml.Table.Distinct file) :
    (file.overlay given).own? name = (given.own? name).or (file.own? name) := by
  induction given generalizing file with
  | nil => rfl
  | cons e given ih =>
    have hd : Toml.Table.Distinct (Entries.insert file e.1 e.2) := Entries.nodup_keys_insert h ..
    calc (overlay file (e :: given)).own? name
        = (overlay (Entries.insert file e.1 e.2) given).own? name := rfl
      _ = (own? given name).or ((if e.1 = name then some e.2 else none).or (file.own? name)) := by
        rw [ih hd, own?_eq_get? hd, own?_eq_get? h]
        by_cases hk : e.1 = name
        · subst hk
          rw [Entries.get?_insert_self, if_pos rfl, Option.some_or]
        · rw [Entries.get?_insert_of_ne (Ne.symm hk), if_neg hk, Option.none_or]
      _ = (own? (e :: given) name).or (file.own? name) := by
        rw [own?_cons, Option.or_assoc]

theorem own?_of_alike {l : Layer} {v : Value} (hname : ∀ e ∈ l, Text.lower e.1 = name → e.1 = name)
    (h : l.alike? name = some v) : ∃ v, l.own? name = some v := by
  obtain ⟨e, he, -⟩ := Option.map_eq_some_iff.mp h
  have hmem := List.mem_of_find?_eq_some he
  have hkey := hname e (List.mem_reverse.mp hmem)
    (beq_iff_eq.mp (List.find?_some (p := fun e : String × Value => Text.lower e.1 == name) he))
  exact Entries.exists_get?_of_mem (hkey ▸ List.mem_map_of_mem hmem)

theorem mem_overlay {e : String × Value} (h : e ∈ file.overlay given) : e ∈ file ++ given := by
  induction given generalizing file with
  | nil => rwa [List.append_nil]
  | cons e' given ih =>
    rcases List.mem_append.mp (ih h) with h | h
    · rcases Entries.mem_of_mem_insert h with rfl | h
      · exact List.mem_append_right _ List.mem_cons_self
      · exact List.mem_append_left _ h
    · exact List.mem_append_right _ (List.mem_cons_of_mem _ h)

theorem isPlain_overlay (h : (file ++ given).isPlain) : (file.overlay given).isPlain :=
  List.all_eq_true.mpr fun e he => List.all_eq_true.mp h e (mem_overlay he)

/-! ### Entries that count -/

section
variable {p : String → Bool}

theorem filter_insert (l : Layer) (k : String) (v : Value) :
    (Entries.insert l k v).filter (p ·.1) =
      if p k then Entries.insert (l.filter (p ·.1)) k v else l.filter (p ·.1) := by
  induction l with
  | nil => cases hp : p k <;> simp [Entries.insert, hp]
  | cons e l ih =>
    obtain ⟨k', v'⟩ := e
    by_cases hk : k' = k
    · subst hk
      cases hp : p k' <;> simp [Entries.insert, hp]
    · cases hp : p k <;> cases hp' : p k' <;> simp_all [Entries.insert]

theorem filter_overlay (file given : Layer) :
    (file.overlay given).filter (p ·.1) = overlay (file.filter (p ·.1)) (given.filter (p ·.1)) := by
  induction given generalizing file with
  | nil => rfl
  | cons e given ih =>
    calc (overlay file (e :: given)).filter (p ·.1)
        = overlay ((Entries.insert file e.1 e.2).filter (p ·.1)) (given.filter (p ·.1)) := ih _
      _ = overlay (file.filter (p ·.1)) ((e :: given).filter (p ·.1)) := by
        rw [filter_insert, List.filter_cons]
        split_ifs <;> rfl

theorem own?_filter (h : p name) (l : Layer) : own? (l.filter (p ·.1)) name = l.own? name := by
  unfold own? Entries.get?
  rw [← List.filter_reverse, find?_filter_of_imp fun e he => ?_]
  rw [beq_iff_eq.mp he]
  exact h

theorem alike?_filter (h : ∀ k, Text.lower k = name → p k) (l : Layer) :
    alike? (l.filter (p ·.1)) name = l.alike? name := by
  unfold alike?
  rw [← List.filter_reverse, find?_filter_of_imp fun e he => h e.1 (beq_iff_eq.mp he)]

end

end Layer

namespace Setting
variable {α β : Type}

theorem both_eq_ok_iff {a : Result α} {b : Result β} {p : α × β} :
    both a b = .ok p ↔ a = .ok p.1 ∧ b = .ok p.2 :=
  ⟨both_eq_ok, fun ⟨ha, hb⟩ => by rw [ha, hb]; rfl⟩

theorem issueAt_eq_ok_iff {name : String} {r : Except IssueKind α} {a : α} :
    issueAt name r = .ok a ↔ r = .ok a := by
  cases r with
  | error k => exact ⟨nofun, nofun⟩
  | ok b => exact ⟨fun h => congrArg Except.ok (Except.ok.inj h), fun h => by rw [h]; rfl⟩

theorem textOf_eq_ok_iff {v : Value} {a : String} : textOf v = .ok a ↔ v.text? = some a ∨
    ∃ bs, (v = .bytes bs ∨ v = .byteArray bs) ∧ Utf8.decode? bs = some a := by
  cases v
  case bytes bs => cases h : Utf8.decode? bs <;> simp [textOf, Value.text?, h]
  case byteArray bs => cases h : Utf8.decode? bs <;> simp [textOf, Value.text?, h]
  all_goals
    simp only [textOf]
    split <;> simp_all

end Setting

theorem Text.allBlank_append (s t : String) : allBlank (s ++ t) = (allBlank s && allBlank t) := by
  rw [allBlank, String.toList_append, List.all_append]
  rfl

theorem Value.allBlank_display_of_text {v : Value} {t : String} (h : v.text? = some t)
    (ht : Text.allBlank t = false) : Text.allBlank v.display = false := by
  cases v with
  | text s =>
    cases h
    exact ht
  | member cls kind name value =>
    -- a member is shown with its class, and there is a point between the two
    have hpoint : Text.allBlank "." = false := by decide +kernel
    have hdisplay : (Value.member cls kind name value).display = cls.simple ++ "." ++ name := rfl
    rw [hdisplay, Text.allBlank_append, Text.allBlank_append, hpoint, Bool.and_false, Bool.false_and]
  | _ => cases h

namespace GenerationSettings

/-! ### Sources -/

/-- The names of the settings. -/
def names : List String :=
  ["root_namespace", "source_file_path", "generate_sealed_classes", "output_source_files"]

/-- The arguments that are given: all that are something. -/
def given (arguments : Layer) : Layer := arguments.filter fun e => !e.2.isNull

/-- What a variable of the environment gives. -/
def fromEnvironment (environment : List (String × String)) (name : String) : Option Value :=
  ((Variables.ofEnvironment environment).find? variableStart name).map Value.text

theorem startOf_of_isPlain {l : Layer} (h : l.isPlain) : startOf l = variableStart := by
  have hnone : Entries.get? l.reverse startName = none := by
    rw [Entries.get?, Option.map_eq_none_iff, List.find?_eq_none]
    intro e he hname
    have hplain := List.all_eq_true.mp h e (List.mem_reverse.mp he)
    rw [beq_iff_eq.mp hname] at hplain
    exact absurd hplain (by decide +kernel)
  rw [startOf, hnone]
  rfl

/-- The value that a setting has from its source. A name that agrees with that of the setting but for
case stands behind the name itself, and before the environment. -/
def source? (environment : List (String × String)) (file given : Layer) (name : String) :
    Option Value :=
  (given.own? name).or <| (file.own? name).or <|
    ((file.overlay given).alike? name).or <| fromEnvironment environment name

/-- The entries that are settings in some spelling. -/
def known (l : Layer) : Layer := l.filter fun e => names.contains (Text.lower e.1)

theorem source?_of_spelled {environment : List (String × String)} {file given : Layer} {name : String}
    (h : ∀ e ∈ file ++ given, Text.lower e.1 = name → e.1 = name) (hd : Toml.Table.Distinct file) :
    source? environment file given name =
      (given.own? name).or ((file.own? name).or (fromEnvironment environment name)) := by
  cases ha : (file.overlay given).alike? name with
  | none => rw [source?, ha, Option.none_or]
  | some v =>
    obtain ⟨v', hown⟩ := Layer.own?_of_alike (fun e he => h e (Layer.mem_overlay he)) ha
    rw [Layer.own?_overlay hd] at hown
    simp only [source?, ← Option.or_assoc, hown, Option.some_or]

theorem source?_known {name : String} (h : name ∈ names) (environment : List (String × String))
    (file given : Layer) :
    source? environment (known file) (known given) name = source? environment file given name := by
  have hlower : ∀ n ∈ names, Text.lower n = n := by decide +kernel
  have hknown : ∀ k, Text.lower k = name → names.contains (Text.lower k) := by
    rintro k rfl
    exact List.contains_iff_mem.mpr h
  have hoverlay : (known file).overlay (known given) = known (file.overlay given) :=
    (Layer.filter_overlay (p := fun k => names.contains (Text.lower k)) file given).symm
  have hown (l : Layer) : (known l).own? name = l.own? name :=
    Layer.own?_filter (p := fun k => names.contains (Text.lower k)) (hknown name (hlower name h)) l
  have halike (l : Layer) : (known l).alike? name = l.alike? name :=
    Layer.alike?_filter (p := fun k => names.contains (Text.lower k)) hknown l
  rw [source?, source?, hoverlay, hown, hown, halike]

/-! ### The file -/

/-- The top table of the settings file; without a file it is empty. -/
inductive Contents (tree : FileTree) (asked : Option PathName) : Toml.Table → Prop
  | absent (hasked : asked = none) (hlocate : locate tree ⟨"", []⟩ none = .ok none) :
    Contents tree asked []
  | toml {p : PathName} {content : Bytes} {text : String} {top : Toml.Table}
    (hlocate : locate tree ⟨"", []⟩ asked = .ok (some p)) (hread : tree.read p = .ok content)
    (hsuffix : p.suffix = ".toml") (htext : Utf8.decode? content = some text)
    (htop : Toml.read? text = some top) : Contents tree asked top
  | json {p : PathName} {content : Bytes} {text : String} {entries : List (String × Json)}
    (hlocate : locate tree ⟨"", []⟩ asked = .ok (some p)) (hread : tree.read p = .ok content)
    (hsuffix : p.suffix ≠ ".toml") (htext : Utf8.decode? content = some text)
    (htop : Json.read? .configured text = some (.object entries)) :
    Contents tree asked (Entries.merge (entries.map fun e => (e.1, .ofJson e.2)))

/-- The table of a file that counts: its entry `declient` if that is a table, and then nothing outside
it, else the whole. -/
inductive Chosen (top : Toml.Table) : Layer → Prop
  | own {t : Toml.Table} (h : Entries.get? top "declient" = some t.toValue) : Chosen top t
  | whole (h : ∀ entries, Entries.get? top "declient" ≠ some (.dict entries)) : Chosen top top

section
variable {tree : FileTree} {asked : Option PathName} {top : Toml.Table} {file : Layer}

theorem Contents.isKeyed (h : Contents tree asked top) : top.IsKeyed := by
  cases h with
  | absent => exact ⟨Toml.Table.distinct_nil, nofun⟩
  | toml _ _ _ _ htop => exact Toml.isKeyed_read? htop
  | json =>
    refine ⟨Entries.nodup_keys_merge _, fun e he => ?_⟩
    obtain ⟨e', -, hvalue⟩ := List.mem_map.mp
      (List.mem_reverse.mp (Entries.mem_of_get? (Entries.mem_merge_iff.mp he)))
    rw [← (Prod.ext_iff.mp hvalue).2]
    exact Value.isTable_ofJson e'.2

theorem Contents.fileLayer_eq (h : Contents tree asked top) :
    fileLayer tree asked = .ok (tableOf top) := by
  cases h with
  | absent hasked hlocate =>
    subst hasked
    rw [fileLayer, hlocate]
    rfl
  | toml hlocate hread hsuffix htext htop =>
    rw [fileLayer, hlocate]
    simp only [Except.mapError, bind, Except.bind, hread, ofFile, if_pos hsuffix, htext,
      Option.bind_some, htop]
  | json hlocate hread hsuffix htext htop =>
    rw [fileLayer, hlocate]
    simp only [Except.mapError, bind, Except.bind, hread, ofFile, if_neg hsuffix, htext,
      Option.bind_some, htop]

theorem Chosen.tableOf_eq (h : Chosen top file) : tableOf top = file := by
  cases h with
  | own h =>
    rw [tableOf, h]
    simp only [Toml.Table.toValue, List.filterMap_map]
    exact List.filterMap_some
  | whole h =>
    unfold tableOf
    split
    · next entries hentries => exact absurd hentries (h entries)
    · rfl

theorem exists_chosen (h : top.IsKeyed) : ∃ file, Chosen top file ∧ Toml.Table.Distinct file := by
  by_cases htable : ∃ entries, Entries.get? top "declient" = some (.dict entries)
  · obtain ⟨entries, hentries⟩ := htable
    obtain ⟨t, ht, hvalue⟩ := h.inner _ (Entries.mem_of_get? hentries) entries rfl
    exact ⟨t, .own (hentries.trans (congrArg some hvalue)), ht⟩
  · exact ⟨top, .whole fun entries hentries => htable ⟨entries, hentries⟩, h.keys⟩

end

/-! ### What values stand for -/

/-- What the value of a setting stands for: the default if there is none or if it is blank, else what
it is read as. -/
inductive Settled {α ε : Type} (default : α) (isBlank : Value → Bool) (reading : Value → Except ε α) :
    Option Value → α → Prop
  | unset : Settled default isBlank reading none default
  | blank {v : Value} (h : isBlank v) : Settled default isBlank reading (some v) default
  | given {v : Value} {a : α} (h : isBlank v = false) (hreading : reading v = .ok a) :
    Settled default isBlank reading (some v) a

/-- A flag, which has no blank values. -/
def SettledFlag : Option Value → Bool → Prop :=
  Settled false (fun _ => false) fun v => (Scalar.bool (Setting.scalarOf v)).map (·.1)

/-- The settings that values stand for, each by itself. -/
structure Settles (value : String → Option Value) (s : GenerationSettings) : Prop where
  rootNamespace :
    Settled "declient.generated" isBlankValue Setting.textOf (value "root_namespace") s.rootNamespace
  directory : Settled "./declient-generated" isBlankValue
    (fun v => (.ok v.display : Except IssueKind String)) (value "source_file_path") s.directory
  sealedClasses : SettledFlag (value "generate_sealed_classes") s.sealedClasses
  writeSources : SettledFlag (value "output_source_files") s.writeSources

theorem settled_iff {α ε ε' : Type} {default a : α} {isBlank : Value → Bool}
    {reading : Value → Except ε α} {f : Value → Except ε' α} {v : Option Value}
    (hf : ∀ v a, f v = .ok a ↔ if isBlank v then a = default else reading v = .ok a) :
    (v.map f).getD (.ok default) = .ok a ↔ Settled default isBlank reading v a := by
  cases v with
  | none => exact ⟨fun h => by cases h; exact .unset, fun h => by cases h; rfl⟩
  | some v =>
    rw [Option.map_some, Option.getD_some, hf]
    constructor
    · intro h
      split_ifs at h with hb
      · subst h
        exact .blank hb
      · exact .given (by simpa using hb) h
    · rintro (_ | hb | ⟨hb, hreading⟩)
      · rw [if_pos hb]
      · rwa [if_neg (by simp [hb])]

theorem textOr_eq_ok_iff {default name a : String} {v : Value} :
    textOr default name v = .ok a ↔ if isBlankValue v then a = default else Setting.textOf v = .ok a := by
  unfold textOr
  split_ifs
  · exact ⟨fun h => (Except.ok.inj h).symm, fun h => congrArg _ h.symm⟩
  · exact Setting.issueAt_eq_ok_iff

theorem directoryOr_eq_iff {default a : String} {v : Value} :
    (.ok (directoryOr default v) : Setting.Result String) = .ok a ↔
      if isBlankValue v then a = default else (.ok v.display : Except IssueKind String) = .ok a := by
  unfold directoryOr
  split_ifs
  · exact ⟨fun h => (Except.ok.inj h).symm, fun h => congrArg _ h.symm⟩
  · exact ⟨fun h => congrArg _ (Except.ok.inj h), fun h => congrArg _ (Except.ok.inj h)⟩

theorem flag_eq_ok_iff {name : String} {v : Value} {a : Bool} :
    Setting.flag name v = .ok a ↔ if (false : Bool) then a = false
      else (Scalar.bool (Setting.scalarOf v)).map (·.1) = .ok a :=
  Setting.issueAt_eq_ok_iff

theorem read_eq_ok_iff {value : String → Option Value} {s : GenerationSettings} :
    read value = .ok s ↔ Settles value s := by
  have hparts : read value = .ok s ↔
      Setting.both
        (Setting.both
          (((value "root_namespace").map (textOr "declient.generated" "root_namespace")).getD
            (.ok "declient.generated"))
          (((value "source_file_path").map fun v =>
            .ok (directoryOr "./declient-generated" v)).getD (.ok "./declient-generated")))
        (Setting.both
          (((value "generate_sealed_classes").map (Setting.flag "generate_sealed_classes")).getD
            (.ok false))
          (((value "output_source_files").map (Setting.flag "output_source_files")).getD
            (.ok false))) =
      .ok ((s.rootNamespace, s.directory), (s.sealedClasses, s.writeSources)) := by
    unfold read
    simp only [bind, Except.bind, pure, Except.pure]
    split
    · next h => simp [h]
    · next p h =>
      obtain ⟨⟨ns, dir⟩, c, w⟩ := p
      cases s
      simp [h, and_assoc]
  rw [hparts, Setting.both_eq_ok_iff, Setting.both_eq_ok_iff, Setting.both_eq_ok_iff,
    settled_iff fun _ _ => textOr_eq_ok_iff, settled_iff fun _ _ => directoryOr_eq_iff,
    settled_iff fun _ _ => flag_eq_ok_iff, settled_iff fun _ _ => flag_eq_ok_iff]
  exact ⟨fun ⟨⟨hns, hdir⟩, hsealed, hwrites⟩ => ⟨hns, hdir, hsealed, hwrites⟩,
    fun h => ⟨⟨h.rootNamespace, h.directory⟩, h.sealedClasses, h.writeSources⟩⟩

theorem read_congr {value value' : String → Option Value} (h : ∀ name ∈ names, value name = value' name) :
    read value = read value' := by
  simp only [names, List.forall_mem_cons] at h
  obtain ⟨hns, hdir, hsealed, hwrites, -⟩ := h
  unfold read
  simp only [hns, hdir, hsealed, hwrites]

/-! ### Blank values -/

theorem isBlankValue_eq_false_iff {v : Value} :
    isBlankValue v = false ↔ v.isNull = false ∧ ∀ t, v.text? = some t → Text.allBlank t = false := by
  cases h : v.text? <;> simp [isBlankValue, h]

/-- Text that reads as blank is no text itself. -/
theorem allBlank_textOf_iff {v : Value} {a : String} (hv : isBlankValue v = false)
    (h : Setting.textOf v = .ok a) : Text.allBlank a ↔ ∃ bs text,
      (v = .bytes bs ∨ v = .byteArray bs) ∧ Utf8.decode? bs = some text ∧ Text.allBlank text := by
  rcases Setting.textOf_eq_ok_iff.mp h with htext | ⟨bs, hbs, hdecode⟩
  · have ha := (isBlankValue_eq_false_iff.mp hv).2 a htext
    refine ⟨fun hb => by simp [ha] at hb, ?_⟩
    rintro ⟨bs, _, rfl | rfl, -⟩ <;> cases htext
  · constructor
    · exact fun hb => ⟨bs, a, hbs, hdecode, hb⟩
    · rintro ⟨bs', text, hbs', hdecode', hb⟩
      have hsame : bs = bs' := by rcases hbs with rfl | rfl <;> simpa using hbs'
      rw [← hsame, hdecode] at hdecode'
      rwa [Option.some.inj hdecode']

theorem allBlank_display_iff {v : Value} (hv : isBlankValue v = false) :
    Text.allBlank v.display ↔ v.isNull = false ∧ v.text? = none ∧ Text.allBlank v.display := by
  obtain ⟨hnull, htext⟩ := isBlankValue_eq_false_iff.mp hv
  refine ⟨fun hb => ⟨hnull, ?_, hb⟩, fun h => h.2.2⟩
  cases ht : v.text? with
  | none => rfl
  | some t => simp [Value.allBlank_display_of_text ht (htext t ht)] at hb

section
variable {value : String → Option Value} {s : GenerationSettings}

/-- The name space is blank only where bytes were given for it, which are no text until they are
read. -/
theorem Settles.blank_rootNamespace_iff (h : Settles value s) : Text.allBlank s.rootNamespace ↔
    ∃ bs text, (value "root_namespace" = some (.bytes bs) ∨
        value "root_namespace" = some (.byteArray bs)) ∧
      Utf8.decode? bs = some text ∧ Text.allBlank text := by
  have hdefault : Text.allBlank "declient.generated" = false := by decide +kernel
  have hns := h.rootNamespace
  generalize value "root_namespace" = chosen, s.rootNamespace = ns at hns ⊢
  cases hns with
  | unset => simp [hdefault]
  | blank hb =>
    refine ⟨fun h => by simp [hdefault] at h, ?_⟩
    rintro ⟨bs, text, hbs | hbs, -⟩ <;> · cases hbs; cases hb
  | given hb hreading => simpa using allBlank_textOf_iff hb hreading

/-- The directory is blank only where a value was given that is no text, but is shown as a blank
one. -/
theorem Settles.blank_directory_iff (h : Settles value s) : Text.allBlank s.directory ↔
    ∃ v, value "source_file_path" = some v ∧ v.isNull = false ∧ v.text? = none ∧
      Text.allBlank v.display := by
  have hdefault : Text.allBlank "./declient-generated" = false := by decide +kernel
  have hdir := h.directory
  generalize value "source_file_path" = chosen, s.directory = dir at hdir ⊢
  cases hdir with
  | unset => simp [hdefault]
  | blank hb =>
    refine ⟨fun h => by simp [hdefault] at h, ?_⟩
    rintro ⟨v, hv, hnull, htext, -⟩
    cases hv
    simp [isBlankValue, hnull, htext] at hb
  | given hb hreading =>
    rw [← Except.ok.inj hreading]
    simpa using allBlank_display_iff hb

end

/-! ### Loading -/

section
variable {tree : FileTree} {asked : Option PathName} {top : Toml.Table} {file : Layer}

theorem load_eq (environment : List (String × String)) (arguments : Layer)
    (hcontents : Contents tree asked top) (hchosen : Chosen top file)
    (hd : Toml.Table.Distinct file) (hplain : Layer.isPlain (file ++ given arguments)) :
    load tree environment asked arguments =
      (read (source? environment file (given arguments))).mapError .invalid := by
  have hsource : (fun name => ((file.overlay (given arguments)).find? name).orElse fun _ =>
      fromEnvironment environment name) = source? environment file (given arguments) := by
    funext name
    rw [Option.orElse_eq_or, Layer.find?_eq_or, Layer.own?_overlay hd, source?]
    simp only [Option.or_assoc]
  have hlayer : layerOf tree asked arguments = .ok (file.overlay (given arguments)) := by
    rw [layerOf, hcontents.fileLayer_eq, hchosen.tableOf_eq]
    rfl
  rw [load, hlayer, ok_bind, ofValues, startOf_of_isPlain (Layer.isPlain_overlay hplain), ← hsource]
  rfl

/-- Whatever the environment, the arguments and the tables of a file that can be read, as long as no name
in the table that counts or among the arguments begins with an underscore: the settings are loaded exactly
if the value of each, from the one source that it has, stands for something, and then they are what these
values stand for. Values of other sources do not count, and neither do entries that are no settings. A
name space or a directory that is blank comes from a value whose text is seen only when it is
converted. -/
theorem options_have_one_source (environment : List (String × String)) (arguments : Layer)
    (hcontents : Contents tree asked top)
    (hplain : ∀ file, Chosen top file → Layer.isPlain (file ++ given arguments)) :
    ∃ file, Chosen top file ∧
      let source := source? environment file (given arguments)
      (∀ s, load tree environment asked arguments = .ok s ↔ Settles source s) ∧
      (∀ value, (∀ name ∈ names, value name = source name) →
        load tree environment asked arguments = (read value).mapError .invalid) ∧
      (∀ name ∈ names,
        source? environment (known file) (known (given arguments)) name = source name) ∧
      (∀ name, (∀ e ∈ file ++ given arguments, Text.lower e.1 = name → e.1 = name) →
        source name = (Layer.own? (given arguments) name).or
          ((file.own? name).or (fromEnvironment environment name))) ∧
      (∀ s, load tree environment asked arguments = .ok s →
        (Text.allBlank s.rootNamespace ↔ ∃ bs text, (source "root_namespace" = some (.bytes bs) ∨
            source "root_namespace" = some (.byteArray bs)) ∧
          Utf8.decode? bs = some text ∧ Text.allBlank text) ∧
        (Text.allBlank s.directory ↔ ∃ v, source "source_file_path" = some v ∧
          v.isNull = false ∧ v.text? = none ∧ Text.allBlank v.display)) := by
  obtain ⟨file, hchosen, hd⟩ := exists_chosen hcontents.isKeyed
  have hload := load_eq environment arguments hcontents hchosen hd (hplain file hchosen)
  have hsettles (s : GenerationSettings) : load tree environment asked arguments = .ok s ↔
      Settles (source? environment file (given arguments)) s := by
    rw [hload, ← read_eq_ok_iff]
    cases read (source? environment file (given arguments)) with
    | error is => exact ⟨nofun, nofun⟩
    | ok s' => exact ⟨fun h => congrArg _ (Except.ok.inj h), fun h => congrArg _ (Except.ok.inj h)⟩
  refine ⟨file, hchosen, hsettles, fun value h => ?_, fun name h => source?_known h .., fun name h =>
    source?_of_spelled h hd, fun s h => ?_⟩
  · rw [hload, read_congr h]
  · have hs := (hsettles s).mp h
    exact ⟨hs.blank_rootNamespace_iff, hs.blank_directory_iff⟩

end

/-- A blank name space in the file's own table is the default, not what the environment has; the
directory comes from the environment, and the flags from the arguments and the default. -/
theorem options_have_one_source_blank :
    let text := "root_namespace = 'outside'\n[declient]\nroot_namespace = ' '\n"
    let top : Toml.Table := [("root_namespace", .text "outside"),
      ("declient", Toml.Table.toValue [("root_namespace", .text " ")])]
    let tree : FileTree := ⟨[(["declient.toml"], Utf8.encode text)], []⟩
    let environment := [("DECLIENT_ROOT_NAMESPACE", "env.ns"), ("declient_source_file_path", "out")]
    let arguments : Layer := [("generate_sealed_classes", .null), ("output_source_files", .text "on")]
    Contents tree none top ∧
      load tree environment none arguments = .ok ⟨"declient.generated", "out", false, true⟩ := by
  have htop : Toml.read? "root_namespace = 'outside'\n[declient]\nroot_namespace = ' '\n" =
      some [("root_namespace", .text "outside"),
        ("declient", Toml.Table.toValue [("root_namespace", .text " ")])] := by cbv
  intro text top tree environment arguments
  have hread : tree.read ⟨"", ["declient.toml"]⟩ = .ok (Utf8.encode text) := by decide +kernel
  have hcontents : Contents tree none top :=
    .toml (by decide +kernel) hread (by decide +kernel) (Utf8.decode?_encode text) htop
  refine ⟨hcontents, ?_⟩
  obtain ⟨file, hchosen, hload, -⟩ :=
    options_have_one_source environment arguments hcontents fun file hchosen => by
      obtain rfl := hchosen.tableOf_eq
      decide +kernel
  obtain rfl := hchosen.tableOf_eq
  refine (hload _).mpr ⟨?_, ?_, ?_, ?_⟩
  · exact .blank (v := .text " ") (by decide +kernel)
  · exact .given (v := .text "out") (by decide +kernel) rfl
  · exact .unset
  · exact .given (v := .text "on") rfl rfl

/-- Bytes are not seen to be blank. -/
example : (load ⟨[], []⟩ [] none [("root_namespace", .bytes [0x20])]).toOption =
    some ⟨" ", "./declient-generated", false, false⟩ := by decide +kernel

/-- An entry that is no setting counts if the library knows it. -/
example : (load ⟨[], []⟩ [("DECLIENT_ROOT_NAMESPACE", "env.ns")] none
    [("_env_prefix", .text "X_")]).toOption = some {} := by decide +kernel

end GenerationSettings

end HttpContract
