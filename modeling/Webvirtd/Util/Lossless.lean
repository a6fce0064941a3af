import Webvirtd.Util.XmlToJson

/-!
# Util.Lossless — reading elements back from their JSON

`Plain` elements convert exactly (`Exactly`), and `Xml.ofJson` recovers them up to what `Alike` ignores.  The name of
the root is not in its object: the decoder takes it as an argument.
-/

namespace Webvirtd

/-! ## The decoder -/

namespace Xml

/-- The attributes kept in an object. -/
def attributesOf (ms : Members) : List (String × String) :=
  match Json.lookup "attrib" ms with
  | some (.obj bs) => bs.filterMap fun b =>
    match b.2 with
    | .str t => some (b.1, t)
    | _ => none
  | _ => []

/-- The text kept in an object. -/
def textNodes (ms : Members) : List Xml :=
  match Json.lookup "text" ms with
  | some (.str t) => [.text false t]
  | _ => []

mutual

/-- The element `name` with the attributes, the text and the children that its object tells. -/
def ofJson (name : String) : Json → Xml
  | .obj ms => .elem name (attributesOf ms) (textNodes ms ++ ofMembers ms)
  | _ => .elem name [] []

def ofMembers : Members → List Xml
  | [] => []
  | m :: ms => ofMember m ++ ofMembers ms

/-- The children of one name. -/
def ofMember : String × Json → List Xml
  | (k, .arr js) => if k = "attrib" ∨ k = "text" then [] else ofItems k js
  | (k, j) => if k = "attrib" ∨ k = "text" then [] else [ofJson k j]

def ofItems (k : String) : List Json → List Xml
  | [] => []
  | j :: js => ofJson k j :: ofItems k js

end

end Xml

namespace Json

open Xml

/-! ## Exact conversion -/

/-- No name clashes: attributes with different names, character data in the first text node only, and no child with
the name of a member that holds something else. -/
structure Plain (as : List (String × String)) (cs : List Xml) : Prop where
  distinct : (as.map Prod.fst).Nodup
  text : ∀ t ∈ (chunks cs).tail, t = ""
  attrib : named "attrib" cs = []
  texts : named "text" cs = []

/-- The object has the attributes, the text and the children of an element, each under its name, and nothing else. -/
structure Exactly (as : List (String × String)) (cs : List Xml) (ms : Members) : Prop where
  attrib_iff : (lookup "attrib" ms).isSome ↔ as ≠ []
  attrib : ∀ v, lookup "attrib" ms = some v → ∃ bs, v = .obj bs ∧ Holds bs as
  text : lookup "text" ms = if content cs = "" then none else some (.str (content cs))
  child : ∀ k, k ≠ "attrib" → k ≠ "text" → k ≠ "" → lookup k ms = stored ((named k cs).map xmlToJson)
  nameless : lookup "" ms = none

def ConvertsExactly (as : List (String × String)) (cs : List Xml) : Prop :=
  ∀ n, ∃ ms, xmlToJson (.elem n as cs) = .obj ms ∧ Exactly as cs ms

theorem Plain.sound {as : List (String × String)} {cs : List Xml} (h : Plain as cs) : Sound as cs :=
  ⟨functional_of_nodup h.distinct, h.texts, .inl h.attrib⟩

theorem Plain.values_attrib {as : List (String × String)} {cs : List Xml} (h : Plain as cs) :
    values as cs "attrib" = if as = [] then [] else [.obj (ofAttributes as)] := by
  rw [Json.values_attrib, h.attrib, List.map_nil, List.append_nil]

theorem Plain.values_text {as : List (String × String)} {cs : List Xml} (h : Plain as cs) :
    values as cs "text" = if content cs = "" then [] else [.str (content cs)] := by
  rw [Json.values_text, h.texts, List.map_nil, List.append_nil, content_eq_textOf h.text]

theorem Plain.lookup_text {as : List (String × String)} {cs : List Xml} (h : Plain as cs) :
    lookup "text" (members as cs) = if content cs = "" then none else some (.str (content cs)) := by
  rw [lookup_members (by decide), h.values_text]
  split_ifs <;> rfl

theorem Plain.lookup_attrib {as : List (String × String)} {cs : List Xml} (h : Plain as cs) :
    lookup "attrib" (members as cs) = if as = [] then none else some (.obj (ofAttributes as)) := by
  rw [lookup_members (by decide), h.values_attrib]
  split_ifs <;> rfl

theorem Plain.convertsExactly {as : List (String × String)} {cs : List Xml} (h : Plain as cs) :
    ConvertsExactly as cs := by
  refine fun n => ⟨members as cs, xmlToJson_elem n as cs, ?_, fun v hv => ?_, h.lookup_text,
    fun k ha ht hk => ?_, lookup_members_empty as cs⟩
  · rw [h.lookup_attrib]
    split_ifs with has
    · simp [has]
    · simp [has]
  · rw [h.lookup_attrib] at hv
    split_ifs at hv with has
    cases hv
    exact ⟨_, rfl, (holds_ofAttributes_iff as).mpr (functional_of_nodup h.distinct)⟩
  · rw [lookup_members hk, values_of_ne ha ht]

/-! ## Decoding -/

theorem exists_ofJson (k : String) (j : Json) : ∃ as cs, ofJson k j = .elem k as cs := by
  cases j <;> exact ⟨_, _, rfl⟩

theorem ofItems_eq_map (k : String) (js : List Json) : ofItems k js = js.map (ofJson k) := by
  induction js with
  | nil => rw [ofItems, List.map_nil]
  | cons j js ih => rw [ofItems, List.map_cons, ih]

theorem ofMember_reserved {k : String} (hk : k = "attrib" ∨ k = "text") (j : Json) : ofMember (k, j) = [] := by
  cases j <;> exact if_pos hk

theorem ofMember_arr {k : String} (hk : ¬ (k = "attrib" ∨ k = "text")) (js : List Json) :
    ofMember (k, .arr js) = js.map (ofJson k) := by
  rw [ofMember, if_neg hk, ofItems_eq_map]

theorem ofMember_single {k : String} (hk : ¬ (k = "attrib" ∨ k = "text")) {j : Json} (hj : j.isArray = false) :
    ofMember (k, j) = [ofJson k j] := by
  cases j with
  | arr js => cases hj
  | _ => exact if_neg hk

theorem ofMember_eq {k : String} (hk : ¬ (k = "attrib" ∨ k = "text")) {js : List Json}
    (hjs : ∀ j ∈ js, j.isArray = false) :
    ((stored js).map fun v => ofMember (k, v)).getD [] = js.map (ofJson k) := by
  match js with
  | [] => rfl
  | [j] => exact ofMember_single hk (hjs j List.mem_cons_self)
  | j :: j' :: js => exact ofMember_arr hk _

theorem exists_of_mem_ofMember {m : String × Json} {c : Xml} (h : c ∈ ofMember m) :
    ∃ as cs, c = .elem m.1 as cs := by
  obtain ⟨k, v⟩ := m
  by_cases hk : k = "attrib" ∨ k = "text"
  · rw [ofMember_reserved hk] at h
    cases h
  · have hmap : ∃ js : List Json, ofMember (k, v) = js.map (ofJson k) := by
      cases v with
      | arr js => exact ⟨js, ofMember_arr hk js⟩
      | _ => exact ⟨[_], ofMember_single hk rfl⟩
    obtain ⟨js, hjs⟩ := hmap
    rw [hjs] at h
    obtain ⟨j, -, rfl⟩ := List.mem_map.mp h
    exact exists_ofJson k j

theorem named_ofMember (k : String) (m : String × Json) :
    named k (ofMember m) = if m.1 = k then ofMember m else [] := by
  unfold named
  split_ifs with hm
  · refine List.filter_eq_self.mpr fun c hc => ?_
    obtain ⟨as, cs, rfl⟩ := exists_of_mem_ofMember hc
    exact decide_eq_true hm
  · refine List.filter_eq_nil_iff.mpr fun c hc => ?_
    obtain ⟨as, cs, rfl⟩ := exists_of_mem_ofMember hc
    exact fun h => hm (of_decide_eq_true h)

/-- The decoded children of one name come from the member of that name. -/
theorem named_ofMembers {ms : Members} (h : Sorted ms) (k : String) :
    named k (ofMembers ms) = ((lookup k ms).map fun v => ofMember (k, v)).getD [] := by
  induction ms with
  | nil => rfl
  | cons m ms ih =>
    obtain ⟨l, v⟩ := m
    have htail := ih (List.pairwise_cons.mp h).2
    rw [ofMembers, named_append, named_ofMember, htail, lookup]
    by_cases hl : l = k
    · subst hl
      rw [if_pos rfl, if_pos rfl, h.lookup_eq_none le_rfl]
      exact List.append_nil _
    · rw [if_neg hl, if_neg hl, List.nil_append]

theorem chunks_ofMembers (ms : Members) : chunks (ofMembers ms) = [] := by
  refine chunks_eq_nil fun c hc => ?_
  induction ms with
  | nil => cases hc
  | cons m ms ih =>
    rw [ofMembers] at hc
    rcases List.mem_append.mp hc with hc | hc
    · obtain ⟨as, cs, rfl⟩ := exists_of_mem_ofMember hc
      exact ⟨_, _, _, rfl⟩
    · exact ih hc

theorem named_textNodes {k : String} (hk : k ≠ "") (ms : Members) : named k (textNodes ms) = [] := by
  unfold textNodes
  split
  · rw [named_cons, if_neg (show ¬ (Xml.text _ _).name = k from hk.symm)]
    rfl
  · rfl

section

variable {as : List (String × String)} {cs : List Xml}

theorem Plain.mem_attributesOf (h : Plain as cs) (a : String × String) :
    a ∈ attributesOf (members as cs) ↔ a ∈ as := by
  unfold attributesOf
  rw [h.lookup_attrib]
  split_ifs with has
  · rw [has]
  · obtain ⟨k, t⟩ := a
    have hholds := (holds_ofAttributes_iff as).mpr (functional_of_nodup h.distinct)
    have hmem : (k, t) ∈ as ↔ (k, Json.str t) ∈ ofAttributes as := by
      rw [← (sorted_ofAttributes as).lookup_eq_some_iff, hholds]
      simp
    rw [hmem, List.mem_filterMap]
    constructor
    · rintro ⟨⟨k', v⟩, hb, heq⟩
      cases v with
      | str t' =>
        cases heq
        exact hb
      | _ => cases heq
    · exact fun hb => ⟨_, hb, rfl⟩

theorem Plain.content_decoded (h : Plain as cs) :
    content (textNodes (members as cs) ++ ofMembers (members as cs)) = content cs := by
  unfold content textNodes
  rw [chunks_append, chunks_ofMembers, List.append_nil, h.lookup_text]
  split_ifs with ht
  · rw [show String.join (chunks cs) = "" from ht]
    exact String.join_nil
  · show String.join [content cs] = content cs
    rw [String.join_cons, String.join_nil, String.append_empty]

theorem Plain.named_decoded (h : Plain as cs) {k : String} (hk : k ≠ "") :
    named k (textNodes (members as cs) ++ ofMembers (members as cs)) =
      ((named k cs).map xmlToJson).map (ofJson k) := by
  rw [named_append, named_textNodes hk, List.nil_append, named_ofMembers (sorted_members as cs),
    lookup_members hk]
  by_cases hr : k = "attrib" ∨ k = "text"
  · have hnone : named k cs = [] := by
      rcases hr with rfl | rfl
      · exact h.attrib
      · exact h.texts
    rw [hnone]
    cases stored (values as cs k) with
    | none => rfl
    | some v => exact ofMember_reserved hr v
  · rw [ofMember_eq hr isArray_values, values_of_ne (fun h => hr (.inl h)) (fun h => hr (.inr h))]

end

/-- The decoder recovers an element up to what `Alike` ignores. -/
theorem alike_ofJson {x : Xml} (hx : Everywhere Plain x) (n : String) : Alike content (ofJson n (xmlToJson x)) x := by
  induction hx generalizing n with
  | @elem m as cs here below ih =>
    rw [xmlToJson_elem, ofJson]
    refine .elem here.mem_attributesOf here.content_decoded (fun k hk => ?_) fun k hk i c d hc hd => ?_
    · rw [here.named_decoded hk, List.length_map, List.length_map]
    · rw [here.named_decoded hk, List.getElem?_map, List.getElem?_map, hd] at hc
      cases hc
      obtain ⟨hmem, hname⟩ := mem_named.mp (List.mem_of_getElem? hd)
      exact ih d hmem (hname ▸ hk) k

theorem xmlToJson_eq_of_alike {x y : Xml} (hx : Everywhere Plain x) (hy : Everywhere Plain y)
    (h : Alike content x y) : xmlToJson x = xmlToJson y := by
  induction h with
  | @elem n m as bs cs ds attributes sameText count children ih =>
    obtain ⟨hc, hbelow⟩ := hx.inv
    obtain ⟨hd, hbelow'⟩ := hy.inv
    have hnil : as = [] ↔ bs = [] := by
      rw [List.eq_nil_iff_forall_not_mem, List.eq_nil_iff_forall_not_mem]
      exact forall_congr' fun a => not_congr (attributes a)
    have hattr : ofAttributes as = ofAttributes bs :=
      (ofAttributes_eq_iff hc.sound.functional hd.sound.functional).mpr attributes
    have hchildren : ∀ k ≠ "", (named k cs).map xmlToJson = (named k ds).map xmlToJson := by
      refine fun k hk => List.ext_getElem (by simp [count k hk]) fun i hi hi' => ?_
      rw [List.length_map] at hi hi'
      rw [List.getElem_map, List.getElem_map]
      exact ih k hk i _ _ (List.getElem?_eq_getElem hi) (List.getElem?_eq_getElem hi')
        (hbelow k hk _ (List.getElem_mem hi)) (hbelow' k hk _ (List.getElem_mem hi'))
    rw [xmlToJson_elem, xmlToJson_elem, Json.obj.injEq, members_eq_iff]
    intro k hk
    by_cases ha : k = "attrib"
    · rw [ha, hc.values_attrib, hd.values_attrib, hattr]
      simp only [hnil]
    · by_cases ht : k = "text"
      · rw [ht, hc.values_text, hd.values_text, sameText]
      · rw [values_of_ne ha ht, values_of_ne ha ht, hchildren k hk]

/-- `json::xml_to_json` loses nothing of plain elements but the root's name and the interleaving of differently
named children and text. -/
theorem xmlToJson_lossless {x : Xml} (hx : Everywhere Plain x) :
    Everywhere ConvertsExactly x ∧ (∀ n, Alike content (ofJson n (xmlToJson x)) x) ∧
      ∀ y, Everywhere Plain y → (xmlToJson x = xmlToJson y ↔ Alike content x y) := by
  refine ⟨hx.mono fun _ _ h => h.convertsExactly, alike_ofJson hx, fun y hy => ⟨?_, xmlToJson_eq_of_alike hx hy⟩⟩
  exact alike_of_xmlToJson_eq (fun _ _ h => h.sound) (fun _ _ h => content_eq_textOf h.text) hx hy

theorem xmlToJson_lossless_network :
    let x := Xml.elem "network" [("connections", "1")] [.text false "n", .elem "ip" [] [], .elem "ip" [] []]
    Everywhere ConvertsExactly x ∧ Alike content (ofJson "network" (xmlToJson x)) x ∧
      (xmlToJson x = xmlToJson x ↔ Alike content x x) := by
  have hip : Everywhere Plain (.elem "ip" [] []) := by
    refine .elem ⟨List.nodup_nil, fun t ht => ?_, rfl, rfl⟩ fun c hc => ?_
    · cases ht
    · cases hc
  have hx : Everywhere Plain (.elem "network" [("connections", "1")]
      [.text false "n", .elem "ip" [] [], .elem "ip" [] []]) := by
    refine .elem ⟨List.nodup_singleton _, fun t ht => ?_, rfl, rfl⟩ fun c hc hname => ?_
    · cases ht
    · simp only [List.mem_cons, List.not_mem_nil, or_false, or_self] at hc
      rcases hc with rfl | rfl
      · exact absurd rfl hname
      · exact hip
  obtain ⟨hexact, hdecode, heq⟩ := xmlToJson_lossless hx
  exact ⟨hexact, hdecode "network", heq _ hx⟩

/-- One chunk with characters after one without: `node.text()` reads the first.  And no name of a root is kept. -/
theorem second_chunk_lost :
    let x := Xml.elem "a" [] [.text true "", .text false "x"]
    ((chunks x.children).filter fun t => t ≠ "") = ["x"] ∧ xmlToJson x = .obj [] ∧
      ¬ Everywhere ConvertsExactly x ∧
      xmlToJson x = xmlToJson (.elem "a" [] []) ∧ ¬ Alike content x (.elem "a" [] []) ∧
      xmlToJson (.elem "a" [] []) = xmlToJson (.elem "b" [] []) := by
  refine ⟨rfl, rfl, fun h => ?_, rfl, fun h => ?_, rfl⟩
  · cases h with
    | elem here below =>
      obtain ⟨ms, hms, hexact⟩ := here "a"
      cases hms
      have htext := hexact.text
      rw [show content [.text true "", .text false "x"] = "x" from rfl] at htext
      cases htext
  · cases h with
    | elem attributes sameText =>
      rw [show content [.text true "", .text false "x"] = "x" from rfl, show content [] = "" from rfl] at sameText
      exact absurd sameText (by decide)

end Json

end Webvirtd
