import Webvirtd.Data.Devices

/-!
# Data.Overlay — what `data::domain` makes of its document does not depend on what it is put over

`integrate` puts the converted document over `simple_domain` and the autostart.  The passes after it read and change
`devices` only, which these do not have, so the document can as well be worked on first and be put over them
afterwards (`document_over`).
-/

namespace Webvirtd.Data

open Lib Virt Json

/-- The members `ms`, stored into `base`. -/
def overlay (base ms : Members) : Members := ms.foldl (fun out m => insert m.1 m.2 out) base

theorem integrate_obj (base ms : Members) : integrate (.obj base) (.obj ms) = .obj (overlay base ms) := integrate_eq

section

variable {base ms : Members}

theorem sorted_overlay (hb : Sorted base) (ms : Members) : Sorted (overlay base ms) := by
  unfold overlay
  induction ms generalizing base with
  | nil => exact hb
  | cons m ms ih => exact ih (hb.insert m.1 m.2)

theorem lookup_overlay (hm : Sorted ms) (base : Members) (k : String) :
    lookup k (overlay base ms) = (lookup k ms).or (lookup k base) := lookup_foldl_insert hm base k

theorem overlay_insert (hb : Sorted base) (hm : Sorted ms) (k : String) (v : Json) :
    overlay base (insert k v ms) = insert k v (overlay base ms) := by
  refine eq_of_lookup (sorted_overlay hb _) ((sorted_overlay hb ms).insert k v) fun l => ?_
  rw [lookup_overlay (hm.insert k v), lookup_insert, lookup_insert, lookup_overlay hm]
  split_ifs
  · rfl
  · rfl

/-- The lower value of a key that is in both. -/
theorem overlay_insert_base (hb : Sorted base) (hm : Sorted ms) (k : String) (v : Json) :
    overlay (insert k v base) ms =
      if (lookup k ms).isSome then overlay base ms else insert k v (overlay base ms) := by
  split_ifs with hk
  · refine eq_of_lookup (sorted_overlay (hb.insert k v) ms) (sorted_overlay hb ms) fun l => ?_
    rw [lookup_overlay hm, lookup_overlay hm, lookup_insert]
    split_ifs with hl
    · subst hl
      obtain ⟨x, hx⟩ := Option.isSome_iff_exists.mp hk
      rw [hx]
      rfl
    · rfl
  · refine eq_of_lookup (sorted_overlay (hb.insert k v) ms) ((sorted_overlay hb ms).insert k v) fun l => ?_
    rw [lookup_overlay hm, lookup_insert, lookup_insert, lookup_overlay hm]
    split_ifs with hl
    · subst hl
      rw [Option.not_isSome_iff_eq_none.mp hk]
      rfl
    · rfl

end

/-- An object whose members are sorted. -/
def SortedObject (j : Json) : Prop := ∃ ms, j = .obj ms ∧ Sorted ms

theorem sortedObject_ofNode (x : Option Xml) : SortedObject (Json.ofNode x) := by
  rcases x with _ | (⟨n, as, cs⟩ | ⟨cdata, value⟩)
  · exact ⟨[], rfl, sorted_nil⟩
  · exact ⟨members as cs, xmlToJson_elem n as cs, sorted_members as cs⟩
  · exact ⟨[], rfl, sorted_nil⟩

/-- `j'` is `j` with other devices. -/
structure OnlyDevices (j j' : Json) : Prop where
  sorted : SortedObject j'
  frame : ∀ l ≠ "devices", at? j' [l] = at? j [l]

theorem OnlyDevices.trans {j j' j'' : Json} (h : OnlyDevices j j') (h' : OnlyDevices j' j'') : OnlyDevices j j'' :=
  ⟨h'.sorted, fun l hl => (h'.frame l hl).trans (h.frame l hl)⟩

theorem onlyDevices_set {j : Json} (hj : SortedObject j) (v : Json) : OnlyDevices j (j.set "devices" v) := by
  refine ⟨?_, fun l hl => at?_set_of_ne hl v []⟩
  obtain ⟨ms, rfl, hm⟩ := hj
  exact ⟨insert "devices" v ms, rfl, hm.insert "devices" v⟩

theorem onlyDevices_index {j j' v : Json} (hj : SortedObject j) (h : j.index "devices" = .ok (j', v)) :
    OnlyDevices j j' := by
  obtain ⟨ms, rfl, hm⟩ := hj
  cases hl : lookup "devices" ms with
  | none =>
    rw [index_of_not_lookup hl] at h
    cases h
    exact onlyDevices_set ⟨ms, rfl, hm⟩ .null
  | some x =>
    rw [index_of_lookup hl] at h
    cases h
    exact ⟨⟨ms, rfl, hm⟩, fun _ _ => rfl⟩

/-! ## The passes -/

section

variable {base : Members} (hb : Sorted base) (hdevices : lookup "devices" base = none) {j : Json}

include hb in
theorem set_overlay (hj : SortedObject j) (k : String) (v : Json) :
    (integrate (.obj base) j).set k v = integrate (.obj base) (j.set k v) := by
  obtain ⟨ms, rfl, hm⟩ := hj
  rw [integrate_obj]
  show Json.obj (insert k v (overlay base ms)) = integrate (.obj base) (.obj (insert k v ms))
  rw [integrate_obj, overlay_insert hb hm]

include hb hdevices in
theorem index_overlay (hj : SortedObject j) :
    (integrate (.obj base) j).index "devices" =
      (j.index "devices").map fun p => (integrate (.obj base) p.1, p.2) := by
  obtain ⟨ms, rfl, hm⟩ := hj
  have hlookup : lookup "devices" (overlay base ms) = lookup "devices" ms := by
    rw [lookup_overlay hm, hdevices, Option.or_none]
  rw [integrate_obj]
  cases hl : lookup "devices" ms with
  | none =>
    rw [index_of_not_lookup (hlookup.trans hl), index_of_not_lookup hl, ← overlay_insert hb hm]
    show _ = Except.ok (integrate (.obj base) (.obj _), _)
    rw [integrate_obj]
  | some v =>
    rw [index_of_lookup (hlookup.trans hl), index_of_lookup hl]
    show _ = Except.ok (integrate (.obj base) (.obj _), _)
    rw [integrate_obj]

include hb hdevices in
theorem wrapArray_overlay (hj : SortedObject j) (k : String) :
    wrapArray (integrate (.obj base) j) k = (wrapArray j k).map (integrate (.obj base)) := by
  unfold wrapArray
  rw [index_overlay hb hdevices hj]
  rcases hindex : j.index "devices" with e | ⟨j', devices⟩
  · rfl
  · have hj' : SortedObject j' := (onlyDevices_index hj hindex).sorted
    simp only [bind, Except.bind, Except.map]
    rcases devices.isMember k with e | _ | _
    · rfl
    · rfl
    · simp only [if_true]
      rcases devices.index k with e | ⟨devices', value⟩
      · rfl
      · dsimp only
        split_ifs
        · rw [set_overlay hb hj']
          rfl
        · rfl

theorem onlyDevices_wrapArray {j' : Json} {k : String} (hj : SortedObject j) (h : wrapArray j k = .ok j') :
    OnlyDevices j j' := by
  obtain ⟨⟨j1, devices⟩, hindex, hrest⟩ := bind_eq_ok h
  have hj1 : OnlyDevices j j1 := onlyDevices_index hj hindex
  obtain ⟨found, -, hbranch⟩ := bind_eq_ok hrest
  cases found with
  | false =>
    cases hbranch
    exact hj1
  | true =>
    obtain ⟨⟨devices', value⟩, -, hlast⟩ := bind_eq_ok hbranch
    change (if _ then _ else _) = _ at hlast
    split_ifs at hlast
    · cases hlast
      exact hj1.trans (onlyDevices_set hj1.sorted _)
    · cases hlast
      exact hj1

include hb hdevices in
theorem foldlM_wrapArray_overlay (hj : SortedObject j) (keys : List String) :
    keys.foldlM wrapArray (integrate (.obj base) j) = (keys.foldlM wrapArray j).map (integrate (.obj base)) := by
  induction keys generalizing j with
  | nil => rfl
  | cons k keys ih =>
    rw [List.foldlM_cons, List.foldlM_cons, wrapArray_overlay hb hdevices hj]
    cases hwrap : wrapArray j k with
    | error e => rfl
    | ok j' => exact ih (onlyDevices_wrapArray hj hwrap).sorted

theorem onlyDevices_foldlM {j' : Json} {keys : List String} (hj : SortedObject j)
    (h : keys.foldlM wrapArray j = .ok j') : OnlyDevices j j' := by
  induction keys generalizing j with
  | nil =>
    cases h
    exact ⟨hj, fun _ _ => rfl⟩
  | cons k keys ih =>
    rw [List.foldlM_cons] at h
    obtain ⟨j1, hwrap, hrest⟩ := bind_eq_ok h
    have hj1 : OnlyDevices j j1 := onlyDevices_wrapArray hj hwrap
    exact hj1.trans (ih hj1.sorted hrest)

include hb hdevices in
theorem addSizes_overlay (hj : SortedObject j) (d : DomainPtr) :
    addSizes d (integrate (.obj base) j) = integrate (.obj base) <$> addSizes d j := by
  unfold addSizes
  rw [index_overlay hb hdevices hj]
  rcases hindex : j.index "devices" with e | ⟨j', devices⟩
  · rfl
  · have hj' : SortedObject j' := (onlyDevices_index hj hindex).sorted
    simp only [Except.map, ofExcept_ok, pure_bind, map_bind]
    refine bind_congr fun found => ?_
    cases found with
    | false => rfl
    | true =>
      simp only [if_true, map_bind]
      refine bind_congr fun p => ?_
      obtain ⟨devices', disks⟩ := p
      cases disks with
      | arr xs => simp only [map_bind, map_pure, set_overlay hb hj']
      | _ => simp only [map_pure]

theorem triple_addSizes {σ : Type} {answer : σ → (o : Op) → Op.Res o × σ} (hj : SortedObject j) (d : DomainPtr) :
    Eff.Triple answer (fun _ => True) (addSizes d j) (fun j' _ => OnlyDevices j j') (fun _ _ => True) := by
  unfold addSizes
  rcases hindex : j.index "devices" with e | ⟨j', devices⟩
  · exact .throw fun _ _ => trivial
  · have hj' : OnlyDevices j j' := onlyDevices_index hj hindex
    have hset : ∀ v, OnlyDevices j (j'.set "devices" v) := fun v => hj'.trans (onlyDevices_set hj'.sorted v)
    have hall : ∀ {α : Type} {m : ViewM α}, Ends m →
        Eff.Triple answer (fun _ => True) m (fun _ _ => True) (fun _ _ => True) :=
      fun hm => (ends_triple hm).conseq (fun _ h => h) (fun _ _ h => h) fun _ _ _ => trivial
    simp only [ofExcept_ok, pure_bind]
    refine .bind (hall (ends_ofExcept _)) fun found => ?_
    cases found with
    | false => exact .pure fun _ _ => hj'
    | true =>
      refine .bind (hall (ends_ofExcept _)) fun p => ?_
      obtain ⟨devices', disks⟩ := p
      cases disks with
      | arr xs => exact .bind (hall (reads_addBlockInfos d xs).ends) fun _ => .pure fun _ _ => hset _
      | _ => exact .pure fun _ _ => hj'

end

/-! ## The document -/

/-- The converted document after the passes, with nothing below it. -/
def converted (d : DomainPtr) (doc : List Xml) : ViewM Json :=
  ofExcept (arrayKeys.foldlM wrapArray (Json.ofNode (Xml.child "domain" doc))) >>= addSizes d

theorem document_over {base : Members} (hb : Sorted base) (hdevices : lookup "devices" base = none) (b : Bool)
    (doc : List Xml) (d : DomainPtr) :
    ofExcept (merged (.obj base) b doc) >>= addSizes d =
      integrate (.obj (insert "autostart" (.bool b) base)) <$> converted d doc := by
  have hb' : Sorted (insert "autostart" (.bool b) base) := hb.insert _ _
  have hdevices' : lookup "devices" (insert "autostart" (.bool b) base) = none := by
    rw [lookup_insert_of_ne (by decide), hdevices]
  unfold merged converted
  show ofExcept (arrayKeys.foldlM wrapArray (integrate (.obj (insert "autostart" (.bool b) base)) _)) >>= _ = _
  rw [foldlM_wrapArray_overlay hb' hdevices' (sortedObject_ofNode _)]
  cases hfold : arrayKeys.foldlM wrapArray (Json.ofNode (Xml.child "domain" doc)) with
  | error e => rfl
  | ok j =>
    rw [ofExcept_ok, pure_bind]
    exact addSizes_overlay hb' hdevices' (onlyDevices_foldlM (sortedObject_ofNode _) hfold).sorted d

theorem onlyDevices_converted {σ : Type} {answer : σ → (o : Op) → Op.Res o × σ} {d : DomainPtr} {doc : List Xml}
    {j : Json} {r r' : Http.Response} {w w' : σ} (h : (converted d doc).exec answer r w = (.ok j, r', w')) :
    OnlyDevices (Json.ofNode (Xml.child "domain" doc)) j := by
  unfold converted at h
  cases hfold : arrayKeys.foldlM wrapArray (Json.ofNode (Xml.child "domain" doc)) with
  | error e =>
    rw [hfold] at h
    cases h
  | ok j' =>
    have hj' := onlyDevices_foldlM (sortedObject_ofNode _) hfold
    rw [hfold, ofExcept_ok, pure_bind] at h
    exact hj'.trans ((triple_addSizes hj'.sorted d r w trivial).1 j (by rw [h]))

/-- The document has an autostart of its own, or shows the one that it is put over. -/
theorem integrate_autostart {base : Members} (hb : Sorted base) {j : Json} (hj : SortedObject j) (b : Bool) :
    integrate (.obj (insert "autostart" (.bool b) base)) j =
      if (at? j ["autostart"]).isSome then integrate (.obj base) j
      else (integrate (.obj base) j).set "autostart" (.bool b) := by
  obtain ⟨ms, rfl, hm⟩ := hj
  rw [integrate_obj, integrate_obj, overlay_insert_base hb hm, at?_member]
  split_ifs
  · rfl
  · rfl

end Webvirtd.Data
