import Mathlib.Data.List.Nodup
import Webvirtd.Util.Elements
import Webvirtd.Util.Members

/-!
# Util.XmlToJson — what `json::xml_to_json` keeps of an element

`members as cs` is the object an element becomes.  Attributes, text and children share its name space:
`lookup_members` says what a key holds, for any names.  From it:

* `shaped_iff_sound`: exactly which elements convert to members of the kinds that the consumers index;
* `alike_of_xmlToJson_eq`: of those elements, equal objects come from alike ones only.
-/

namespace Webvirtd.Json

open Xml

/-- The object that an element becomes. -/
def members (as : List (String × String)) (cs : List Xml) : Members := addChildren cs (header as cs)

theorem xmlToJson_elem (n : String) (as : List (String × String)) (cs : List Xml) :
    xmlToJson (.elem n as cs) = .obj (members as cs) := by
  rw [xmlToJson, members]

/-! ## Attributes -/

theorem lookup_foldl_attributes (as : List (String × String)) (a : String) (ms : Members) :
    lookup a (as.foldl (fun ms a => insert a.1 (.str a.2) ms) ms) =
      ((as.reverse.find? fun b => b.1 = a).map fun b => .str b.2).or (lookup a ms) := by
  induction as generalizing ms with
  | nil => rfl
  | cons b as ih =>
    rw [List.foldl_cons, ih, List.reverse_cons, List.find?_append, lookup_insert]
    cases as.reverse.find? fun b => b.1 = a with
    | some c => rfl
    | none =>
      by_cases hb : b.1 = a
      · simp [hb]
      · simp [hb]

/-- Of several attributes with one name the last value stays. -/
theorem lookup_ofAttributes (as : List (String × String)) (a : String) :
    lookup a (ofAttributes as) = (as.reverse.find? fun b => b.1 = a).map fun b => .str b.2 := by
  rw [ofAttributes, lookup_foldl_attributes, lookup, Option.or_none]

theorem mem_of_lookup_ofAttributes {as : List (String × String)} {a : String} {v : Json}
    (h : lookup a (ofAttributes as) = some v) : ∃ t, v = .str t ∧ (a, t) ∈ as := by
  rw [lookup_ofAttributes] at h
  obtain ⟨⟨b, t⟩, hb, rfl⟩ := Option.map_eq_some_iff.mp h
  have hname : b = a := by simpa using List.find?_some hb
  subst hname
  exact ⟨t, rfl, List.mem_reverse.mp (List.mem_of_find?_eq_some hb)⟩

theorem exists_lookup_ofAttributes {as : List (String × String)} {a t : String} (h : (a, t) ∈ as) :
    ∃ t', lookup a (ofAttributes as) = some (.str t') := by
  rw [lookup_ofAttributes]
  cases hf : as.reverse.find? fun b => b.1 = a with
  | some b => exact ⟨b.2, rfl⟩
  | none =>
    have := List.find?_eq_none.mp hf _ (List.mem_reverse.mpr h)
    simp at this

/-- No two attributes with one name and different values. -/
def Functional (as : List (String × String)) : Prop := ∀ a t t', (a, t) ∈ as → (a, t') ∈ as → t = t'

/-- `bs` is the attribute map of `as`: texts only, and exactly the attributes. -/
def Holds (bs : Members) (as : List (String × String)) : Prop :=
  ∀ a v, lookup a bs = some v ↔ ∃ t, v = .str t ∧ (a, t) ∈ as

theorem holds_ofAttributes_iff (as : List (String × String)) : Holds (ofAttributes as) as ↔ Functional as := by
  constructor
  · intro h a t t' ht ht'
    have h1 := (h a (.str t)).mpr ⟨t, rfl, ht⟩
    have h2 := (h a (.str t')).mpr ⟨t', rfl, ht'⟩
    rw [h1] at h2
    exact Json.str.inj (Option.some.inj h2)
  · intro h a v
    refine ⟨mem_of_lookup_ofAttributes, ?_⟩
    rintro ⟨t, rfl, ht⟩
    obtain ⟨t', hl⟩ := exists_lookup_ofAttributes ht
    obtain ⟨t'', heq, ht'⟩ := mem_of_lookup_ofAttributes hl
    cases heq
    rw [hl, h a t t' ht ht']

theorem functional_of_nodup {as : List (String × String)} (h : (as.map Prod.fst).Nodup) : Functional as := by
  intro a t t' ht ht'
  exact congrArg Prod.snd (List.inj_on_of_nodup_map h ht ht' rfl)

theorem ofAttributes_eq_nil_iff {as : List (String × String)} : ofAttributes as = [] ↔ as = [] := by
  constructor
  · intro h
    cases as with
    | nil => rfl
    | cons a as =>
      obtain ⟨t, ht⟩ := exists_lookup_ofAttributes (a := a.1) (t := a.2) (List.mem_cons_self (l := as))
      rw [h] at ht
      cases ht
  · rintro rfl
    rfl

/-! ## The members -/

/-- What storing one more converted child makes of a member. -/
def gather : Option Json → Json → Json
  | none, j => j
  | some (.arr xs), j => .arr (xs ++ [j])
  | some current, j => .arr [current, j]

/-- How the values of one key are stored: one as it is, several as an array. -/
def stored : List Json → Option Json
  | [] => none
  | [j] => some j
  | js => some (.arr js)

theorem addChild_eq (name : String) (j : Json) (ms : Members) :
    addChild name j ms = if name = "" then ms else insert name (gather (lookup name ms) j) ms := by
  unfold addChild
  split_ifs
  · rfl
  · cases lookup name ms with
    | none => rfl
    | some v => cases v <;> rfl

theorem gather_stored {js : List Json} (h : ∀ j ∈ js, j.isArray = false) (j : Json) :
    some (gather (stored js) j) = stored (js ++ [j]) := by
  match js with
  | [] => rfl
  | [j'] =>
    have hj := h j' List.mem_cons_self
    cases j' with
    | arr xs => cases hj
    | _ => rfl
  | j' :: j'' :: js => rfl

/-- The loop stores the converted children of a name after what the key held. -/
theorem lookup_addChildren {k : String} (hk : k ≠ "") (cs : List Xml) (ms : Members) {js : List Json}
    (hjs : ∀ j ∈ js, j.isArray = false) (hl : lookup k ms = stored js) :
    lookup k (addChildren cs ms) = stored (js ++ (named k cs).map xmlToJson) := by
  induction cs generalizing ms js with
  | nil =>
    rw [addChildren, hl]
    simp [named]
  | cons c cs ih =>
    rw [addChildren, addChild_eq, named_cons]
    by_cases hc : c.name = k
    · subst hc
      rw [if_neg hk, if_pos rfl, List.map_cons, List.append_cons]
      refine ih _ (fun j hj => ?_) ?_
      · rcases List.mem_append.mp hj with hj | hj
        · exact hjs j hj
        · rw [List.mem_singleton.mp hj]
          cases c with
          | text c v => exact absurd rfl hk
          | elem n as ds => rfl
      · rw [lookup_insert_self, hl, gather_stored hjs]
    · rw [if_neg hc]
      refine ih _ hjs ?_
      split_ifs
      · exact hl
      · rw [lookup_insert_of_ne hc, hl]

theorem lookup_addChildren_empty (cs : List Xml) (ms : Members) :
    lookup "" (addChildren cs ms) = lookup "" ms := by
  induction cs generalizing ms with
  | nil => rw [addChildren]
  | cons c cs ih =>
    rw [addChildren, ih, addChild_eq]
    split_ifs with hc
    · rfl
    · rw [lookup_insert_of_ne hc]

/-- What the key `k` holds before the children. -/
def headerValues (as : List (String × String)) (cs : List Xml) (k : String) : List Json :=
  if k = "attrib" then (if as = [] then [] else [.obj (ofAttributes as)])
  else if k = "text" then (if textOf cs = "" then [] else [.str (textOf cs)])
  else []

/-- All that is stored under the key `k`. -/
def values (as : List (String × String)) (cs : List Xml) (k : String) : List Json :=
  headerValues as cs k ++ (named k cs).map xmlToJson

theorem lookup_header (as : List (String × String)) (cs : List Xml) (k : String) :
    lookup k (header as cs) = stored (headerValues as cs k) := by
  have htext : (textOf cs).length = 0 ↔ textOf cs = "" := String.length_eq_zero_iff
  have has : (ofAttributes as).length = 0 ↔ as = [] := List.length_eq_zero_iff.trans ofAttributes_eq_nil_iff
  unfold header headerValues
  simp only [htext, has]
  by_cases ha : k = "attrib"
  · rw [if_pos ha]
    subst ha
    split_ifs <;> simp [lookup_insert, lookup, stored]
  · rw [if_neg ha]
    by_cases ht : k = "text"
    · rw [if_pos ht]
      subst ht
      split_ifs <;> simp [lookup_insert, lookup, stored]
    · rw [if_neg ht]
      split_ifs <;> simp [lookup_insert, lookup, stored, Ne.symm ha, Ne.symm ht]

theorem isArray_headerValues {as : List (String × String)} {cs : List Xml} {k : String} :
    ∀ j ∈ headerValues as cs k, j.isArray = false := by
  intro j hj
  unfold headerValues at hj
  split_ifs at hj
  all_goals first
    | exact absurd hj List.not_mem_nil
    | rw [List.mem_singleton.mp hj]; rfl

theorem isObject_xmlToJson (x : Xml) : (xmlToJson x).isObject = true := by
  cases x with
  | text c v => rfl
  | elem n as cs => rw [xmlToJson_elem]; rfl

theorem isArray_values {as : List (String × String)} {cs : List Xml} {k : String} :
    ∀ j ∈ values as cs k, j.isArray = false := by
  intro j hj
  rcases List.mem_append.mp hj with hj | hj
  · exact isArray_headerValues j hj
  · obtain ⟨x, -, rfl⟩ := List.mem_map.mp hj
    have hx := isObject_xmlToJson x
    cases hj : xmlToJson x with
    | arr xs => rw [hj] at hx; cases hx
    | _ => rfl

/-- What an element's object holds under a key, whatever the names of its children. -/
theorem lookup_members {k : String} (hk : k ≠ "") (as : List (String × String)) (cs : List Xml) :
    lookup k (members as cs) = stored (values as cs k) :=
  lookup_addChildren hk cs _ isArray_headerValues (lookup_header as cs k)

theorem lookup_members_empty (as : List (String × String)) (cs : List Xml) :
    lookup "" (members as cs) = none := by
  rw [members, lookup_addChildren_empty, lookup_header]
  rfl

theorem values_of_ne {k : String} (ha : k ≠ "attrib") (ht : k ≠ "text") (as : List (String × String))
    (cs : List Xml) : values as cs k = (named k cs).map xmlToJson := by
  rw [values, headerValues, if_neg ha, if_neg ht, List.nil_append]

theorem values_attrib (as : List (String × String)) (cs : List Xml) :
    values as cs "attrib" =
      (if as = [] then [] else [.obj (ofAttributes as)]) ++ (named "attrib" cs).map xmlToJson := by
  rw [values, headerValues, if_pos rfl]

theorem values_text (as : List (String × String)) (cs : List Xml) :
    values as cs "text" =
      (if textOf cs = "" then [] else [.str (textOf cs)]) ++ (named "text" cs).map xmlToJson := by
  rw [values, headerValues, if_neg (by decide), if_pos rfl]

/-! ## Equal objects -/

theorem stored_injective {js js' : List Json} (h : ∀ j ∈ js, j.isArray = false)
    (h' : ∀ j ∈ js', j.isArray = false) (heq : stored js = stored js') : js = js' := by
  match js, js' with
  | [], [] => rfl
  | [], [j'] => cases heq
  | [], j' :: k' :: js' => cases heq
  | [j], [] => cases heq
  | [j], [j'] => rw [Option.some.inj heq]
  | [j], j' :: k' :: js' =>
    have hj := h j List.mem_cons_self
    rw [Option.some.inj heq] at hj
    cases hj
  | j :: k :: js, [] => cases heq
  | j :: k :: js, [j'] =>
    have hj' := h' j' List.mem_cons_self
    rw [← Option.some.inj heq] at hj'
    cases hj'
  | j :: k :: js, j' :: k' :: js' => exact Json.arr.inj (Option.some.inj heq)

theorem sorted_foldl_attributes (as : List (String × String)) {ms : Members} (h : Sorted ms) :
    Sorted (as.foldl (fun ms a => insert a.1 (.str a.2) ms) ms) := by
  induction as generalizing ms with
  | nil => exact h
  | cons a as ih => exact ih (h.insert _ _)

theorem sorted_ofAttributes (as : List (String × String)) : Sorted (ofAttributes as) :=
  sorted_foldl_attributes as sorted_nil

theorem sorted_header (as : List (String × String)) (cs : List Xml) : Sorted (header as cs) := by
  unfold header
  simp only
  split_ifs
  · exact sorted_nil
  · exact sorted_nil.insert _ _
  · exact sorted_nil.insert _ _
  · exact (sorted_nil.insert _ _).insert _ _

theorem sorted_addChildren (cs : List Xml) {ms : Members} (h : Sorted ms) : Sorted (addChildren cs ms) := by
  induction cs generalizing ms with
  | nil => rwa [addChildren]
  | cons c cs ih =>
    rw [addChildren, addChild_eq]
    split_ifs
    · exact ih h
    · exact ih (h.insert _ _)

theorem sorted_members (as : List (String × String)) (cs : List Xml) : Sorted (members as cs) :=
  sorted_addChildren cs (sorted_header as cs)

/-- Two elements become one object exactly when they store the same values under every key. -/
theorem members_eq_iff {as bs : List (String × String)} {cs ds : List Xml} :
    members as cs = members bs ds ↔ ∀ k ≠ "", values as cs k = values bs ds k := by
  constructor
  · intro h k hk
    have hl := congrArg (lookup k) h
    rw [lookup_members hk, lookup_members hk] at hl
    exact stored_injective isArray_values isArray_values hl
  · intro h
    refine eq_of_lookup (sorted_members as cs) (sorted_members bs ds) fun k => ?_
    by_cases hk : k = ""
    · rw [hk, lookup_members_empty, lookup_members_empty]
    · rw [lookup_members hk, lookup_members hk, h k hk]

theorem ofAttributes_eq_iff {as bs : List (String × String)} (ha : Functional as) (hb : Functional bs) :
    ofAttributes as = ofAttributes bs ↔ ∀ a, a ∈ as ↔ a ∈ bs := by
  rw [← holds_ofAttributes_iff] at ha hb
  constructor
  · rintro h ⟨a, t⟩
    have hab : (∃ t', Json.str t = .str t' ∧ (a, t') ∈ as) ↔ ∃ t', Json.str t = .str t' ∧ (a, t') ∈ bs := by
      rw [← ha, ← hb, h]
    simpa using hab
  · intro h
    refine eq_of_lookup (sorted_ofAttributes as) (sorted_ofAttributes bs) fun a => Option.ext fun v => ?_
    rw [ha, hb]
    exact exists_congr fun t => and_congr_right fun _ => h (a, t)

/-! ## The shape of the objects -/

/-- No element inside, no attribute and no text. -/
def Blank (x : Xml) : Prop := ∃ n ds, x = .elem n [] ds ∧ textOf ds = "" ∧ ∀ d ∈ ds, d.name = ""

/-- The kinds of the members of the object of an element with the attributes `as`. -/
structure WellShaped (as : List (String × String)) (ms : Members) : Prop where
  attrib : ∀ v, lookup "attrib" ms = some v → ∃ bs, v = .obj bs ∧ Holds bs as
  text : ∀ v, lookup "text" ms = some v → ∃ t, v = .str t
  other : ∀ k v, k ≠ "attrib" → k ≠ "text" → lookup k ms = some v →
    v.isObject = true ∨ ∃ js, v = .arr js ∧ 2 ≤ js.length ∧ ∀ j ∈ js, j.isObject = true

/-- `json::xml_to_json` gives an element an object of the shape that its consumers index. -/
def Shaped (as : List (String × String)) (cs : List Xml) : Prop :=
  ∀ n, ∃ ms, xmlToJson (.elem n as cs) = .obj ms ∧ WellShaped as ms

/-- No child of an element takes the place of its attributes or of its text. -/
structure Sound (as : List (String × String)) (cs : List Xml) : Prop where
  functional : Functional as
  text : named "text" cs = []
  attrib : named "attrib" cs = [] ∨ as = [] ∧ ∃ c, named "attrib" cs = [c] ∧ Blank c

theorem values_eq_nil_iff {as : List (String × String)} {cs : List Xml} {k : String} :
    values as cs k = [] ↔
      (k = "attrib" → as = []) ∧ (k = "text" → textOf cs = "") ∧ named k cs = [] := by
  rw [values, List.append_eq_nil_iff, List.map_eq_nil_iff, ← and_assoc]
  refine and_congr_left fun _ => ?_
  unfold headerValues
  by_cases ha : k = "attrib"
  · subst ha
    simp
  · by_cases ht : k = "text"
    · subst ht
      simp
    · simp [ha, ht]

theorem members_eq_nil_iff {as : List (String × String)} {cs : List Xml} :
    members as cs = [] ↔ as = [] ∧ textOf cs = "" ∧ ∀ c ∈ cs, c.name = "" := by
  rw [show ([] : Members) = members [] [] from rfl, members_eq_iff]
  constructor
  · intro h
    have hnil : ∀ k ≠ "", values as cs k = [] := fun k hk =>
      (h k hk).trans (values_eq_nil_iff.mpr ⟨fun _ => rfl, fun _ => rfl, rfl⟩)
    refine ⟨(values_eq_nil_iff.mp (hnil "attrib" (by decide))).1 rfl,
      (values_eq_nil_iff.mp (hnil "text" (by decide))).2.1 rfl, fun c hc => ?_⟩
    by_contra hname
    have hnone := (values_eq_nil_iff.mp (hnil c.name hname)).2.2
    have hmem := mem_named.mpr ⟨hc, rfl⟩
    rw [hnone] at hmem
    exact List.not_mem_nil hmem
  · rintro ⟨has, htext, hcs⟩ k hk
    have hnone : named k cs = [] := by
      refine List.eq_nil_iff_forall_not_mem.mpr fun c hc => ?_
      obtain ⟨hmem, hname⟩ := mem_named.mp hc
      exact hk (hname.symm.trans (hcs c hmem))
    rw [values_eq_nil_iff.mpr ⟨fun _ => has, fun _ => htext, hnone⟩]
    exact (values_eq_nil_iff.mpr ⟨fun _ => rfl, fun _ => rfl, rfl⟩).symm

theorem xmlToJson_eq_empty_iff {k : String} (hk : k ≠ "") {x : Xml} (hx : x.name = k) :
    xmlToJson x = .obj [] ↔ Blank x := by
  cases x with
  | text c v => exact absurd hx.symm hk
  | elem n as cs =>
    rw [xmlToJson_elem, Json.obj.injEq, members_eq_nil_iff]
    constructor
    · rintro ⟨rfl, htext, hcs⟩
      exact ⟨n, cs, rfl, htext, hcs⟩
    · rintro ⟨m, ds, heq, htext, hds⟩
      cases heq
      exact ⟨rfl, htext, hds⟩

theorem holds_nil_iff {bs : Members} : Holds bs [] ↔ bs = [] := by
  constructor
  · intro h
    cases bs with
    | nil => rfl
    | cons b bs =>
      have hb := (h b.1 b.2).mp (by rw [show b = (b.1, b.2) from rfl, lookup, if_pos rfl])
      obtain ⟨t, -, ht⟩ := hb
      cases ht
  · rintro rfl a v
    simp [lookup]

/-- The values that make a good `attrib` member of an element with the attributes `as`. -/
theorem attrib_iff (as : List (String × String)) (cs : List Xml) :
    (∀ v, stored (values as cs "attrib") = some v → ∃ bs, v = .obj bs ∧ Holds bs as) ↔
      (as ≠ [] → Functional as) ∧
        (named "attrib" cs = [] ∨ as = [] ∧ ∃ c, named "attrib" cs = [c] ∧ Blank c) := by
  rw [values_attrib]
  by_cases has : as = []
  · subst has
    rw [if_pos rfl, List.nil_append]
    match hc : named "attrib" cs with
    | [] => simp [stored]
    | [c] =>
      have hname : c.name = "attrib" := (mem_named.mp (hc ▸ List.mem_singleton_self c)).2
      have hobj := isObject_xmlToJson c
      simp [stored, holds_nil_iff, ← xmlToJson_eq_empty_iff (by decide) hname]
    | c :: c' :: cs' => simp [stored]
  · rw [if_neg has]
    match named "attrib" cs with
    | [] => simp [stored, has, holds_ofAttributes_iff]
    | c :: cs' => simp [stored, has]

theorem ne_str_of_isObject {j : Json} (h : j.isObject = true) (t : String) : j ≠ .str t := by
  rintro rfl
  cases h

theorem text_iff (as : List (String × String)) (cs : List Xml) :
    (∀ v, stored (values as cs "text") = some v → ∃ t, v = .str t) ↔ named "text" cs = [] := by
  rw [values_text]
  match named "text" cs with
  | [] => split_ifs <;> simp [stored]
  | [c] =>
    have hc := ne_str_of_isObject (isObject_xmlToJson c)
    split_ifs <;> simp [stored, hc]
  | c :: c' :: cs' => split_ifs <;> simp [stored]

theorem other_of_stored {js : List Json} {v : Json} (hjs : ∀ j ∈ js, j.isObject = true)
    (h : stored js = some v) :
    v.isObject = true ∨ ∃ js', v = .arr js' ∧ 2 ≤ js'.length ∧ ∀ j ∈ js', j.isObject = true := by
  match js with
  | [] => cases h
  | [j] =>
    cases h
    exact .inl (hjs v List.mem_cons_self)
  | j :: j' :: js =>
    cases h
    exact .inr ⟨_, rfl, by simp, hjs⟩

theorem isObject_map_xmlToJson (cs : List Xml) : ∀ j ∈ cs.map xmlToJson, j.isObject = true := by
  intro j hj
  obtain ⟨c, -, rfl⟩ := List.mem_map.mp hj
  exact isObject_xmlToJson c

/-- Members other than `attrib` and `text` have their shape whatever the element is; of those two it depends on
the children with their names. -/
theorem shaped_iff_sound (as : List (String × String)) (cs : List Xml) : Shaped as cs ↔ Sound as cs := by
  have hattrib := attrib_iff as cs
  have htext := text_iff as cs
  rw [← lookup_members (by decide)] at hattrib htext
  constructor
  · intro h
    obtain ⟨ms, hms, hshape⟩ := h ""
    rw [xmlToJson_elem] at hms
    cases hms
    obtain ⟨hfun, hchild⟩ := hattrib.mp hshape.attrib
    refine ⟨?_, htext.mp hshape.text, hchild⟩
    by_cases has : as = []
    · subst has
      exact fun a t t' ht => absurd ht List.not_mem_nil
    · exact hfun has
  · intro h n
    refine ⟨members as cs, xmlToJson_elem n as cs,
      hattrib.mpr ⟨fun _ => h.functional, h.attrib⟩, htext.mpr h.text, fun k v ha ht hl => ?_⟩
    have hk : k ≠ "" := by
      rintro rfl
      rw [lookup_members_empty] at hl
      cases hl
    rw [lookup_members hk, values_of_ne ha ht] at hl
    exact other_of_stored (isObject_map_xmlToJson _) hl

/-! ## Elements that become the same object -/

/-- Under `attrib` a sound element stores its attributes, or blank children. -/
theorem Sound.values_attrib {as : List (String × String)} {cs : List Xml} (h : Sound as cs) :
    as ≠ [] ∧ named "attrib" cs = [] ∧ values as cs "attrib" = [.obj (ofAttributes as)] ∨
      as = [] ∧ values as cs "attrib" = (named "attrib" cs).map xmlToJson ∧
        ∀ j ∈ values as cs "attrib", j = .obj [] := by
  rw [Json.values_attrib]
  rcases h.attrib with hnone | ⟨has, c, hc, hblank⟩
  · rw [hnone]
    by_cases has : as = []
    · exact .inr ⟨has, by simp [has]⟩
    · exact .inl ⟨has, rfl, by simp [has]⟩
  · refine .inr ⟨has, by simp [has], fun j hj => ?_⟩
    have hname : c.name = "attrib" := (mem_named.mp (hc ▸ List.mem_singleton_self c)).2
    rw [if_pos has, hc, List.nil_append, List.map_singleton, List.mem_singleton] at hj
    rw [hj, xmlToJson_eq_empty_iff (by decide) hname]
    exact hblank

theorem not_attributes_of_blank {as : List (String × String)} {js : List Json} (has : as ≠ [])
    (h : js = [.obj (ofAttributes as)]) (hjs : ∀ j ∈ js, j = .obj []) : False := by
  have hj := hjs (.obj (ofAttributes as)) (by rw [h]; exact List.mem_singleton_self _)
  exact has (ofAttributes_eq_nil_iff.mp (Json.obj.inj hj))

/-- What a sound element stores determines its attributes, its text and the objects of its children. -/
theorem eq_of_values {as bs : List (String × String)} {cs ds : List Xml} (hc : Sound as cs) (hd : Sound bs ds)
    (h : ∀ k ≠ "", values as cs k = values bs ds k) :
    (∀ a, a ∈ as ↔ a ∈ bs) ∧ textOf cs = textOf ds ∧
      ∀ k ≠ "", (named k cs).map xmlToJson = (named k ds).map xmlToJson := by
  have hattrib : (∀ a, a ∈ as ↔ a ∈ bs) ∧
      (named "attrib" cs).map xmlToJson = (named "attrib" ds).map xmlToJson := by
    have heq := h "attrib" (by decide)
    rcases hc.values_attrib with ⟨has, hcs, hvs⟩ | ⟨has, hvs, hblank⟩
    · rcases hd.values_attrib with ⟨-, hds, hws⟩ | ⟨-, -, hblank'⟩
      · rw [hvs, hws] at heq
        have hsame := Json.obj.inj (List.singleton_inj.mp heq)
        exact ⟨(ofAttributes_eq_iff hc.functional hd.functional).mp hsame, by rw [hcs, hds]⟩
      · exact (not_attributes_of_blank has (heq.symm.trans hvs) hblank').elim
    · rcases hd.values_attrib with ⟨hbs, -, hws⟩ | ⟨hbs, hws, -⟩
      · exact (not_attributes_of_blank hbs (heq.trans hws) hblank).elim
      · exact ⟨fun a => by rw [has, hbs], by rw [← hvs, ← hws, heq]⟩
  have htext : textOf cs = textOf ds := by
    have heq := h "text" (by decide)
    rw [values_text, values_text, hc.text, hd.text] at heq
    split_ifs at heq with h1 h2 h2
    · rw [h1, h2]
    · cases heq
    · cases heq
    · simpa using heq
  refine ⟨hattrib.1, htext, fun k hk => ?_⟩
  by_cases ha : k = "attrib"
  · rw [ha]
    exact hattrib.2
  · by_cases ht : k = "text"
    · rw [ht, hc.text, hd.text]
    · rw [← values_of_ne ha ht as cs, h k hk, values_of_ne ha ht bs ds]

/-- Where the conversion of an element is sound, equal objects come from elements that are alike. -/
theorem alike_of_xmlToJson_eq {P : List (String × String) → List Xml → Prop} {text : List Xml → String}
    (hP : ∀ as cs, P as cs → Sound as cs) (ht : ∀ as cs, P as cs → text cs = textOf cs) {x y : Xml}
    (hx : Everywhere P x) (hy : Everywhere P y) (h : xmlToJson x = xmlToJson y) : Alike text x y := by
  induction hx generalizing y with
  | @elem n as cs here below ih =>
    cases hy with
    | @elem m bs ds here' below' =>
      rw [xmlToJson_elem, xmlToJson_elem, Json.obj.injEq, members_eq_iff] at h
      obtain ⟨hattr, htext, hchildren⟩ := eq_of_values (hP _ _ here) (hP _ _ here') h
      refine .elem hattr ?_ (fun k hk => ?_) fun k hk i c d hc hd => ?_
      · rw [ht as cs here, ht bs ds here', htext]
      · simpa using congrArg List.length (hchildren k hk)
      · have hcd := congrArg (fun js => js[i]?) (hchildren k hk)
        rw [List.getElem?_map, List.getElem?_map, hc, hd] at hcd
        obtain ⟨hmc, hnc⟩ := mem_named.mp (List.mem_of_getElem? hc)
        obtain ⟨hmd, hnd⟩ := mem_named.mp (List.mem_of_getElem? hd)
        exact ih c hmc (hnc ▸ hk) (below' d hmd (hnd ▸ hk)) (Option.some.inj hcd)

/-- Two elements have objects of the expected shape, and not the same one unless their attributes and, name by name,
their child elements are the same. -/
structure ShapeContract (x y : Xml) : Prop where
  left : Everywhere Shaped x
  right : Everywhere Shaped y
  distinct : xmlToJson x = xmlToJson y → Alike textOf x y

/-- The shapes and the distinction of different elements are kept exactly when no child collides with `attrib` or
`text`. -/
theorem shapeContract_iff (x y : Xml) : ShapeContract x y ↔ Everywhere Sound x ∧ Everywhere Sound y := by
  constructor
  · intro h
    exact ⟨(everywhere_congr shaped_iff_sound x).mp h.left, (everywhere_congr shaped_iff_sound y).mp h.right⟩
  · rintro ⟨hx, hy⟩
    exact ⟨(everywhere_congr shaped_iff_sound x).mpr hx, (everywhere_congr shaped_iff_sound y).mpr hy,
      alike_of_xmlToJson_eq (fun _ _ h => h) (fun _ _ _ => rfl) hx hy⟩

/-- A child named `attrib` is stored with the attributes of its parent, or in their place: the attribute of `a`
below and the text of a child `attrib` become the same object. -/
theorem attrib_collision :
    xmlToJson (.elem "disk" [("device", "disk")] [.elem "attrib" [] []]) =
        .obj [("attrib", .arr [.obj [("device", .str "disk")], .obj []])] ∧
      ¬ Everywhere Shaped (.elem "disk" [("device", "disk")] [.elem "attrib" [] []]) ∧
      xmlToJson (.elem "a" [("text", "v")] []) =
        xmlToJson (.elem "a" [] [.elem "attrib" [] [.text false "v"]]) ∧
      ¬ ShapeContract (.elem "a" [("text", "v")] []) (.elem "a" [] [.elem "attrib" [] [.text false "v"]]) := by
  have hsame : xmlToJson (.elem "a" [("text", "v")] []) =
      xmlToJson (.elem "a" [] [.elem "attrib" [] [.text false "v"]]) := rfl
  refine ⟨rfl, fun h => ?_, hsame, fun h => ?_⟩
  · cases (everywhere_congr shaped_iff_sound _).mp h with
    | elem here below =>
      rcases here.attrib with hnone | ⟨has, -⟩
      · cases hnone
      · cases has
  · cases h.distinct hsame with
    | elem attributes => exact absurd ((attributes ("text", "v")).mp (List.mem_singleton_self _)) List.not_mem_nil

end Webvirtd.Json
