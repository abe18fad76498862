import HttpContract.Http.Sender
import HttpContract.Proofs.Http.Resource

/-!
# Normal form of request paths

The path of a request is one slash and then text that neither begins nor ends with one
(`isNormalPath_join`). Slashes around the route go when it is bound, those around the template only once
its tokens are replaced; a slash is part of no token at an end, so it makes no difference when
(`expand_slashed`). The address of a request has one slash between the address of its service and the
route.
-/

namespace HttpContract

open Text

/-- A text with slashes added around it. -/
def Text.slashed (before : Nat) (s : String) (behind : Nat) : String :=
  String.ofList (List.replicate before '/' ++ s.toList ++ List.replicate behind '/')

/-! ### Slashes around a text -/

section
variable {α : Type} [BEq α] [LawfulBEq α]

theorem trimBoth_replicate (a : α) (m n : Nat) (xs : List α) :
    trimBoth (· == a) (List.replicate m a ++ xs ++ List.replicate n a) = trimBoth (· == a) xs := by
  have hback : ((xs ++ List.replicate n a).dropWhile (· == a)).reverse.dropWhile (· == a) =
      (xs.dropWhile (· == a)).reverse.dropWhile (· == a) := by
    rw [List.dropWhile_append]
    split_ifs with hempty
    · have hslashes := dropWhile_replicate_append a n []
      rw [List.append_nil, List.dropWhile_nil] at hslashes
      rw [hslashes, List.isEmpty_iff.mp hempty]
    · rw [List.reverse_append, List.reverse_replicate, dropWhile_replicate_append]
  rw [trimBoth, trimBoth, List.append_assoc, dropWhile_replicate_append, hback]

end

theorem Text.trimSlashes_slashed (m n : Nat) (s : String) :
    trimSlashes (slashed m s n) = trimSlashes s := by
  rw [trimSlashes, trimSlashes, slashed, String.toList_ofList, trimBoth_replicate]

namespace PathTemplate

theorem pieces_replicate_append (n : Nat) (cs : List Char) :
    pieces (List.replicate n '/' ++ cs) = List.replicate n (.char '/') ++ pieces cs := by
  induction n with
  | zero => rfl
  | succ n ih =>
    rw [List.replicate_succ, List.cons_append, pieces_char (fun h => absurd h (by decide)), ih,
      List.replicate_succ, List.cons_append]

theorem token?_append_slash (cs : List Char) :
    token? (cs ++ ['/']) = (token? cs).map fun t => (t.1, t.2 ++ ['/']) := by
  cases h : token? cs with
  | some t =>
    obtain ⟨hname, rfl⟩ := token?_eq_some h
    rw [List.append_assoc, List.cons_append, token?_append hname]
    rfl
  | none =>
    cases h' : token? (cs ++ ['/']) with
    | none => rfl
    | some t =>
      obtain ⟨hname, hcs⟩ := token?_eq_some h'
      rcases List.eq_nil_or_concat' t.2 with hrest | ⟨rest, c, hrest⟩
      · -- the closing brace would be the slash
        rw [hrest] at hcs
        exact absurd (List.append_inj_right' hcs rfl) (by decide)
      · rw [hrest, ← List.cons_append, ← List.append_assoc] at hcs
        rw [List.append_inj_left' hcs rfl, token?_append hname] at h
        cases h

theorem pieces_append_slash (cs : List Char) : pieces (cs ++ ['/']) = pieces cs ++ [.char '/'] := by
  induction cs using pieces.induct with
  | case1 => rw [List.nil_append, pieces_char fun h => absurd h (by decide), pieces, List.nil_append]
  | case2 cs name rest h _ ih =>
    obtain ⟨hname, rfl⟩ := token?_eq_some h
    have hcut : ('\x7b' :: (name ++ '\x7d' :: rest)) = placeholder name ++ rest := by
      simp [placeholder]
    rw [hcut, List.append_assoc, pieces_token hname, ih, pieces_token hname, List.cons_append]
  | case3 cs h ih =>
    have h' : token? (cs ++ ['/']) = none := by rw [token?_append_slash, h]; rfl
    rw [List.cons_append, pieces_char fun _ => h', ih, pieces_char fun _ => h, List.cons_append]
  | case4 c cs hc ih =>
    rw [List.cons_append, pieces_char fun h => absurd h hc, ih, pieces_char fun h => absurd h hc,
      List.cons_append]

theorem pieces_append_replicate (n : Nat) (cs : List Char) :
    pieces (cs ++ List.replicate n '/') = pieces cs ++ List.replicate n (.char '/') := by
  induction n with
  | zero => rw [List.replicate_zero, List.replicate_zero, List.append_nil, List.append_nil]
  | succ n ih =>
    rw [List.replicate_succ', ← List.append_assoc, pieces_append_slash, ih, List.append_assoc,
      ← List.replicate_succ']

theorem pieces_slashed (m n : Nat) (path : String) : pieces (slashed m path n).toList =
    List.replicate m (.char '/') ++ pieces path.toList ++ List.replicate n (.char '/') := by
  rw [slashed, String.toList_ofList, pieces_append_replicate, pieces_replicate_append]

theorem tokens_slashed (m n : Nat) (path : String) : tokens (slashed m path n) = tokens path := by
  have hnone : ∀ k, (List.replicate k (Piece.char '/')).filterMap Piece.token? = [] := fun k =>
    List.filterMap_eq_nil_iff.mpr fun p hp => by rw [List.eq_of_mem_replicate hp]; rfl
  rw [tokens, pieces_slashed, List.filterMap_append, List.filterMap_append, hnone, hnone,
    List.nil_append, List.append_nil, tokens]

theorem expand_slashed (m n : Nat) (path : String) (value? : String → Option String) :
    expand (slashed m path n) value? = slashed m (expand path value?) n := by
  have hslashes : ∀ k, (List.replicate k (Piece.char '/')).flatMap (Piece.expand value?) =
      List.replicate k '/' := by
    intro k
    induction k with
    | zero => rfl
    | succ k ih => rw [List.replicate_succ, List.flatMap_cons, ih]; rfl
  rw [expand, pieces_slashed, List.flatMap_append, List.flatMap_append, hslashes, hslashes, slashed,
    expand, String.toList_ofList]

end PathTemplate

/-! ### Paths -/

/-- A path in normal form: a slash, and then text that neither begins nor ends with one. -/
def IsNormalPath (path : String) : Prop :=
  ∃ route, path.toList = '/' :: route ∧ route.head? ≠ some '/' ∧ route.getLast? ≠ some '/'

namespace Binder
variable {service route path method : String} {filled params : List (String × Value)} {r : Request}

theorem isNormalPath_join (service route expanded : String) :
    IsNormalPath ((of service route).join expanded) := by
  have hparts := ((areParts_parts '/' route.toList).append
    (areParts_parts '/' expanded.toList)).parts_intercalate
  have htrim := intercalate_parts '/' (['/'].intercalate
    (parts '/' route.toList ++ parts '/' expanded.toList))
  rw [hparts] at htrim
  refine ⟨_, toList_join service route expanded, ?_, ?_⟩
  · rw [htrim]
    exact head?_trimBoth_ne '/' _
  · rw [htrim]
    exact getLast?_trimBoth_ne '/' _

theorem join_slashed (b : Binder) (m n : Nat) (expanded : String) :
    b.join (slashed m expanded n) = b.join expanded := by
  rw [join, join, trimSlashes_slashed]

theorem request_slashed (m n m' n' : Nat) :
    (of service (slashed m route n)).request method (slashed m' path n') filled params =
      (of service route).request method path filled params := by
  have hsegments : segments (slashed m' path n') filled = segments path filled := by
    rw [segments, segments, PathTemplate.tokens_slashed]
  rw [of, of, trimSlashes_slashed, request, request, hsegments]
  simp only [PathTemplate.expand_slashed, join_slashed]

end Binder

/-! ### Addresses -/

theorem TransportSettings.toList_baseAddress {s : TransportSettings} {service base : String}
    (h : Entries.get? s.services service = some base) (hne : base ≠ "") :
    (s.baseAddress service).toList = trimEnd (· == '/') base.toList := by
  rw [baseAddress, h]
  simp only [if_neg hne, String.toList_ofList]

/-- A text is what is left of it without the slashes at its end, and these. -/
theorem Text.exists_trimEnd (cs : List Char) :
    (trimEnd (· == '/') cs).getLast? ≠ some '/' ∧
      ∃ n, cs = trimEnd (· == '/') cs ++ List.replicate n '/' := by
  have hslashes : cs.reverse.takeWhile (· == '/') =
      List.replicate (cs.reverse.takeWhile (· == '/')).length '/' :=
    List.eq_replicate_of_mem fun c hc =>
      beq_iff_eq.mp (List.all_eq_true.mp List.all_takeWhile c hc)
  constructor
  · intro h
    have hnot := List.head?_dropWhile_not (· == '/') cs.reverse
    rw [trimEnd, List.getLast?_reverse] at h
    rw [h] at hnot
    exact absurd hnot (by decide)
  · refine ⟨(cs.reverse.takeWhile (· == '/')).length, ?_⟩
    rw [trimEnd, ← List.reverse_replicate, ← hslashes, ← List.reverse_append,
      List.takeWhile_append_dropWhile, List.reverse_reverse]

/-- A request is made of a route, a template and values exactly if the values that it sends have a text.
Its path is in normal form, whatever slashes are around the route and the template, and its address
has one slash between the address that is set for its service, less the slashes at its end, and what
follows. -/
theorem request_paths_are_normal (service route path method : String)
    (filled params : List (String × Value)) :
    ((∃ r, (Binder.of service route).request method path filled params = .ok r) ↔
      (∀ a ∈ Binder.tokenValues path filled, a.2.HasText) ∧ ∀ a ∈ present params, a.2.HasQuery) ∧
    (∀ m n m' n' : Nat,
      (Binder.of service (slashed m route n)).request method (slashed m' path n') filled params =
        (Binder.of service route).request method path filled params) ∧
    ∀ r, (Binder.of service route).request method path filled params = .ok r →
      r.service = service ∧ IsNormalPath r.path ∧
      ∀ (sender : HttpSender) (base : String),
        Entries.get? sender.settings.services service = some base → base ≠ "" →
        ∃ front rest, (∃ n, base.toList = front ++ List.replicate n '/') ∧
          front.getLast? ≠ some '/' ∧ (sender.addressOf r).toList = front ++ '/' :: rest ∧
          rest.head? ≠ some '/' := by
  have hdecides := (Binder.of service route).decides_request method path filled params
  refine ⟨hdecides.exists_ok_iff, fun m n m' n' => Binder.request_slashed m n m' n', fun r hr => ?_⟩
  obtain ⟨-, hr⟩ := hdecides.eq_ok_iff.mp hr
  have hpath : IsNormalPath r.path := by
    rw [hr]
    exact Binder.isNormalPath_join service route (Binder.filledPath path filled)
  have hservice : r.service = service := by rw [hr]; rfl
  refine ⟨hservice, hpath, fun sender base hbase hne => ?_⟩
  obtain ⟨rest, hrest, hhead, -⟩ := hpath
  obtain ⟨hlast, hslashes⟩ := exists_trimEnd base.toList
  refine ⟨trimEnd (· == '/') base.toList, rest, hslashes, hlast, ?_, hhead⟩
  rw [HttpSender.addressOf, hservice, String.toList_append,
    TransportSettings.toList_baseAddress hbase hne, hrest]

/-- A sender whose address of a service ends in slashes. -/
def slashedSender : HttpSender where
  settings := { services := [("docs", "http://docs.test/api//")] }

/-- A document without a name is asked for at the place of all documents, by one slash each. -/
theorem request_paths_are_normal_nameless :
    ∃ r, (Binder.of "docs" "/v1/").request "GET" "/docs/{id}/" [("id", .text "")] [] = .ok r ∧
      IsNormalPath r.path ∧ r.path = "/v1/docs" ∧
      Entries.get? slashedSender.settings.services "docs" = some "http://docs.test/api//" ∧
      ∃ front rest, front.getLast? ≠ some '/' ∧
        (slashedSender.addressOf r).toList = front ++ '/' :: rest ∧ rest.head? ≠ some '/' := by
  obtain ⟨hmade, -, hnormal⟩ := request_paths_are_normal "docs" "/v1/" "/docs/{id}/" "GET"
    [("id", .text "")] []
  have htexts : ∀ a ∈ Binder.tokenValues "/docs/{id}/" [("id", .text "")], a.2.HasText := by
    intro a ha
    obtain ⟨t, -, ht⟩ := List.mem_filterMap.mp ha
    obtain ⟨v, hv, rfl⟩ := Option.map_eq_some_iff.mp ht
    cases List.mem_singleton.mp (Entries.mem_of_get? hv)
    exact ⟨"", rfl⟩
  obtain ⟨r, hr⟩ := hmade.mpr ⟨htexts, fun _ h => nomatch h⟩
  obtain ⟨-, hpath, haddress⟩ := hnormal r hr
  obtain ⟨front, rest, -, hfront, haddress, hrest⟩ :=
    haddress slashedSender "http://docs.test/api//" rfl (by decide)
  have hexpected : (Binder.of "docs" "/v1/").join
      (Binder.filledPath "/docs/{id}/" [("id", .text "")]) = "/v1/docs" := by decide +kernel
  obtain ⟨-, hr'⟩ := ((Binder.of "docs" "/v1/").decides_request "GET" "/docs/{id}/"
    [("id", .text "")] []).eq_ok_iff.mp hr
  exact ⟨r, hr, hpath, (congrArg Request.path hr').trans hexpected, rfl, front, rest, hfront,
    haddress, hrest⟩

end HttpContract
