import Webvirtd.Data.BlockInfo
import Webvirtd.Util.XmlToJson

/-!
# Data.Devices — the device lists of `data::domain`

`data::domain` works on the converted document in three passes: `integrate` puts it over `simple_domain`, `wrapArray`
makes lists of single devices, and `addBlockInfos` goes over the disks.  Each has its lemma here, and
`devices_uniform` puts them together for the documents that libvirt emits.
-/

namespace Webvirtd.Data

open Lib Virt Json Xml

/-! ## The passes on the output -/

theorem integrate_eq {base ms : Members} :
    integrate (.obj base) (.obj ms) = .obj (ms.foldl (fun out m => insert m.1 m.2 out) base) := by
  unfold integrate
  induction ms generalizing base with
  | nil => rfl
  | cons m ms ih => exact ih

/-- A single device is made a list. -/
def wrap : Json → Json
  | .obj ms => .arr [.obj ms]
  | j => j

/-- What `wrapArray` does to the devices. -/
def wrapMember (dm : Members) (k : String) : Members :=
  match lookup k dm with
  | some v => insert k (wrap v) dm
  | none => dm

theorem lookup_wrapMember (dm : Members) (k l : String) :
    lookup l (wrapMember dm k) = if k = l then (lookup l dm).map wrap else lookup l dm := by
  unfold wrapMember
  by_cases hk : k = l
  · subst hk
    cases hl : lookup k dm with
    | some v => simp
    | none => simp [hl]
  · cases lookup k dm with
    | some v => simp [lookup_insert, hk]
    | none => simp [hk]

theorem wrap_wrap (j : Json) : wrap (wrap j) = wrap j := by
  cases j <;> rfl

theorem lookup_foldl_wrapMember (keys : List String) (dm : Members) (l : String) :
    lookup l (keys.foldl wrapMember dm) = if l ∈ keys then (lookup l dm).map wrap else lookup l dm := by
  induction keys generalizing dm with
  | nil => rfl
  | cons k keys ih =>
    rw [List.foldl_cons, ih, lookup_wrapMember]
    by_cases hk : k = l
    · subst hk
      rw [if_pos rfl, if_pos List.mem_cons_self, Option.map_map]
      split_ifs
      · rw [show wrap ∘ wrap = wrap from funext wrap_wrap]
      · rfl
    · rw [if_neg hk]
      simp [List.mem_cons, Ne.symm hk]

theorem isMember_obj (ms : Members) (k : String) : (Json.obj ms).isMember k = .ok (lookup k ms).isSome := rfl

theorem wrapArray_obj {out dm : Members} (h : lookup "devices" out = some (.obj dm)) (k : String) :
    wrapArray (.obj out) k = .ok (match lookup k dm with
      | some (.obj ms) => .obj (insert "devices" (.obj (insert k (.arr [.obj ms]) dm)) out)
      | _ => .obj out) := by
  unfold wrapArray
  rw [index_of_lookup h]
  simp only [bind, Except.bind, isMember_obj]
  cases hl : lookup k dm with
  | none => rfl
  | some v =>
    simp only [Option.isSome_some, if_true, index_of_lookup hl]
    cases v <;> rfl

theorem wrapMember_of_not_obj {dm : Members} (hs : Sorted dm) {k : String}
    (h : ∀ ms, lookup k dm ≠ some (.obj ms)) : wrapMember dm k = dm := by
  unfold wrapMember
  cases hl : lookup k dm with
  | none => rfl
  | some v =>
    cases v with
    | obj ms => exact absurd hl (h ms)
    | _ => exact hs.insert_eq_self hl

/-- One key of `ARRAY_KEYS`: the devices are changed, and no other member. -/
theorem wrapArray_eq {out dm : Members} (hs : Sorted dm) (h : lookup "devices" out = some (.obj dm)) (k : String) :
    ∃ out', wrapArray (.obj out) k = .ok (.obj out') ∧ lookup "devices" out' = some (.obj (wrapMember dm k)) ∧
      ∀ l ≠ "devices", lookup l out' = lookup l out := by
  rw [wrapArray_obj h]
  by_cases hobj : ∃ ms, lookup k dm = some (.obj ms)
  · obtain ⟨ms, hl⟩ := hobj
    rw [hl]
    refine ⟨_, rfl, ?_, fun l hne => lookup_insert_of_ne hne.symm _ _⟩
    rw [lookup_insert_self, wrapMember, hl]
    rfl
  · have hnot := not_exists.mp hobj
    refine ⟨out, ?_, by rw [wrapMember_of_not_obj hs hnot, h], fun l _ => rfl⟩
    cases hl : lookup k dm with
    | none => rfl
    | some v =>
      cases v with
      | obj ms => exact absurd hl (hnot ms)
      | _ => rfl

theorem sorted_wrapMember {dm : Members} (h : Sorted dm) (k : String) : Sorted (wrapMember dm k) := by
  unfold wrapMember
  cases lookup k dm with
  | none => exact h
  | some v => exact h.insert _ _

theorem foldlM_wrapArray {out dm : Members} (hs : Sorted dm) (h : lookup "devices" out = some (.obj dm))
    (keys : List String) :
    ∃ out', keys.foldlM wrapArray (.obj out) = .ok (.obj out') ∧
      lookup "devices" out' = some (.obj (keys.foldl wrapMember dm)) ∧
      ∀ l ≠ "devices", lookup l out' = lookup l out := by
  induction keys generalizing out dm with
  | nil => exact ⟨out, rfl, h, fun l _ => rfl⟩
  | cons k keys ih =>
    obtain ⟨out1, hrun, hdevices, hframe⟩ := wrapArray_eq hs h k
    obtain ⟨out2, hrun2, hdevices2, hframe2⟩ := ih (sorted_wrapMember hs k) hdevices
    refine ⟨out2, ?_, hdevices2, fun l hne => (hframe2 l hne).trans (hframe l hne)⟩
    rw [List.foldlM_cons, hrun]
    exact hrun2

/-- Without devices the member is created, and is null. -/
theorem foldlM_wrapArray_null {out : Members} (h : lookup "devices" out = some .null) (keys : List String) :
    keys.foldlM wrapArray (.obj out) = .ok (.obj out) := by
  induction keys with
  | nil => rfl
  | cons k keys ih =>
    have hrun : wrapArray (.obj out) k = .ok (.obj out) := by
      unfold wrapArray
      rw [index_of_lookup h]
      rfl
    rw [List.foldlM_cons, hrun]
    exact ih

theorem merged_none {out : Members} (h : lookup "devices" out = none) :
    arrayKeys.foldlM wrapArray (.obj out) = .ok (.obj (insert "devices" .null out)) := by
  have hrun : wrapArray (.obj out) "disk" = .ok (.obj (insert "devices" .null out)) := by
    unfold wrapArray
    rw [index_of_not_lookup h]
    rfl
  unfold arrayKeys
  rw [List.foldlM_cons, hrun]
  exact foldlM_wrapArray_null (lookup_insert_self ..) _

/-! ## The disks -/

/-- No element is named like the members that hold attributes and text. -/
def NoReserved (_ : List (String × String)) (cs : List Xml) : Prop := named "attrib" cs = [] ∧ named "text" cs = []

/-- A disk as libvirt emits it: it has a device, and a storage disk has one target, with a `dev`. -/
def EmittedDisk (disk : Xml) : Prop :=
  ∃ device, disk.attr "device" = some device ∧
    (device = "disk" → ∃ target dev, named "target" disk.children = [target] ∧ target.attr "dev" = some dev)

/-- An entry of the list of the devices named `k`: the converted element, and one more member if it is a storage
disk. -/
def Entry (k : String) (device : Xml) (entry : Json) : Prop :=
  if k = "disk" ∧ device.attr "device" = some "disk" then
    ∃ info, entry = (xmlToJson device).set "block_info" (sizes info)
  else entry = xmlToJson device

theorem entry_unchanged {k : String} {device : Xml} (h : ¬ (k = "disk" ∧ device.attr "device" = some "disk")) :
    Entry k device (xmlToJson device) := by
  unfold Entry
  rw [if_neg h]

theorem path_attribute {n a t : String} {as : List (String × String)} {cs : List Xml}
    (hcs : named "attrib" cs = []) (h : (Xml.elem n as cs).attr a = some t) :
    path (xmlToJson (.elem n as cs)) ["attrib", a] = .ok (xmlToJson (.elem n as cs), .str t) := by
  have has : as ≠ [] := by
    rintro rfl
    cases h
  have hattrib : lookup "attrib" (members as cs) = some (.obj (ofAttributes as)) := by
    rw [lookup_members (by decide), values_attrib, hcs, if_neg has]
    rfl
  have ha : lookup a (ofAttributes as) = some (.str t) := by
    rw [lookup_ofAttributes]
    obtain ⟨b, hb, ht⟩ := Option.map_eq_some_iff.mp h
    exact Option.map_eq_some_iff.mpr ⟨b, hb, by rw [ht]⟩
  rw [xmlToJson_elem]
  exact (sorted_members as cs).path_eq hattrib ((sorted_ofAttributes as).path_eq ha rfl)

variable {σ : Type} {answer : σ → (o : Op) → Op.Res o × σ} {r r' : Http.Response} {w w' : σ} {d : DomainPtr}

theorem addBlockInfo_other {n device : String} {as : List (String × String)} {cs : List Xml}
    (hcs : named "attrib" cs = []) (h : (Xml.elem n as cs).attr "device" = some device)
    (hne : device ≠ "disk") : addBlockInfo d (xmlToJson (.elem n as cs)) = pure (xmlToJson (.elem n as cs)) := by
  unfold addBlockInfo
  simp only [path_attribute hcs h, ofExcept_ok, pure_bind, Json.asString]
  rw [if_pos (by simpa using hne)]

theorem addBlockInfo_storage {n dev : String} {as : List (String × String)} {cs : List Xml} {target : Xml}
    (hx : Everywhere NoReserved (.elem n as cs)) (h : (Xml.elem n as cs).attr "device" = some "disk")
    (htarget : named "target" cs = [target]) (hdev : target.attr "dev" = some dev) :
    addBlockInfo d (xmlToJson (.elem n as cs)) =
      (fun info => (xmlToJson (.elem n as cs)).set "block_info" (sizes info)) <$> Domain.blockInfo d dev := by
  obtain ⟨⟨hcs, -⟩, hbelow⟩ := hx.inv
  have hmem : target ∈ named "target" cs := htarget ▸ List.mem_singleton_self target
  obtain ⟨tas, tcs, rfl⟩ := exists_elem_of_named (by decide) hmem
  obtain ⟨⟨htcs, -⟩, -⟩ := (hbelow "target" (by decide) _ hmem).inv
  have hlookup : lookup "target" (members as cs) = some (xmlToJson (.elem "target" tas tcs)) := by
    rw [lookup_members (by decide), values_of_ne (by decide) (by decide), htarget]
    rfl
  have hpath : path (xmlToJson (.elem n as cs)) ["target", "attrib", "dev"] =
      .ok (xmlToJson (.elem n as cs), .str dev) := by
    rw [xmlToJson_elem]
    exact (sorted_members as cs).path_eq hlookup (path_attribute htcs hdev)
  unfold addBlockInfo
  simp only [path_attribute hcs h, ofExcept_ok, pure_bind, Json.asString]
  rw [if_neg (by decide)]
  simp only [hpath, ofExcept_ok, pure_bind]
  rw [xmlToJson_elem]
  simp only [(sorted_members as cs).assign_eq, ofExcept_ok]
  rfl

/-- Some call for block information does not return. -/
def Interrupted (answer : σ → (o : Op) → Op.Res o × σ) (d : DomainPtr) : Prop :=
  ∃ w device e, (answer w (.libvirt (.virDomainGetBlockInfo d device))).1 = .error e

theorem triple_blockInfo (device : String) :
    Eff.Triple answer (fun _ => True) (Domain.blockInfo d device) (fun _ _ => True)
      (fun _ _ => Interrupted answer d) := by
  refine .bind (Q := fun x _ => ∀ e, x = .error e → Interrupted answer d)
    (.call fun w _ e he => ⟨w, _, e, he⟩) fun x => ?_
  cases x with
  | ok info => exact .pure fun _ _ => trivial
  | error e => exact .throw fun _ h => h e rfl

theorem triple_addBlockInfo {disk : Xml} (hname : disk.name = "disk") (hx : Everywhere NoReserved disk)
    (hdisk : EmittedDisk disk) :
    Eff.Triple answer (fun _ => True) (addBlockInfo d (xmlToJson disk)) (fun entry _ => Entry "disk" disk entry)
      (fun _ _ => Interrupted answer d) := by
  obtain ⟨as, cs, rfl⟩ := exists_elem_of_named (k := "disk") (by decide)
    (mem_named.mpr ⟨List.mem_singleton_self disk, hname⟩)
  obtain ⟨device, hdevice, htarget⟩ := hdisk
  by_cases hd : device = "disk"
  · subst hd
    obtain ⟨target, dev, htarget, hdev⟩ := htarget rfl
    rw [addBlockInfo_storage hx hdevice htarget hdev]
    refine .bind (triple_blockInfo dev) fun info => .pure fun _ _ => ?_
    unfold Entry
    rw [if_pos ⟨rfl, hdevice⟩]
    exact ⟨info, rfl⟩
  · rw [addBlockInfo_other hx.inv.1.1 hdevice hd]
    refine .pure fun _ _ => entry_unchanged ?_
    rintro ⟨-, h⟩
    rw [hdevice] at h
    exact hd (Option.some.inj h)

theorem triple_addBlockInfos {disks : List Xml}
    (h : ∀ disk ∈ disks, disk.name = "disk" ∧ Everywhere NoReserved disk ∧ EmittedDisk disk) :
    Eff.Triple answer (fun _ => True) (addBlockInfos d (disks.map xmlToJson))
      (fun entries _ => List.Forall₂ (Entry "disk") disks entries) (fun _ _ => Interrupted answer d) := by
  induction disks with
  | nil => exact .pure fun _ _ => .nil
  | cons disk disks ih =>
    obtain ⟨hname, hx, hdisk⟩ := h disk List.mem_cons_self
    refine .bind (Q := fun entry _ => Entry "disk" disk entry) (triple_addBlockInfo hname hx hdisk)
      fun entry r w hentry => ?_
    have htail : Eff.Triple answer (fun _ => True)
        (addBlockInfos d (disks.map xmlToJson) >>= fun entries => pure (entry :: entries))
        (fun entries _ => List.Forall₂ (Entry "disk") (disk :: disks) entries) (fun _ _ => Interrupted answer d) :=
      .bind (ih fun disk hmem => h disk (List.mem_cons_of_mem _ hmem))
        fun entries => .pure fun _ hentries => .cons hentry hentries
    exact htail r w trivial

/-! ## The whole document -/

/-- A domain document as libvirt emits it: the attributes and the children of its root. -/
structure DomainDocument (doc : List Xml) (as : List (String × String)) (cs : List Xml) : Prop where
  root : Xml.child "domain" doc = some (.elem "domain" as cs)
  plain : Everywhere NoReserved (.elem "domain" as cs)
  single : (named "devices" cs).length ≤ 1
  disks : ∀ devices ∈ named "devices" cs, ∀ disk ∈ named "disk" devices.children, EmittedDisk disk

/-- `output` for a document whose root has the attributes `as` and the children `cs`; `base` is what `simple_domain`
and the autostart give. -/
structure UniformDevices (base : Json) (as : List (String × String)) (cs : List Xml) (output : Json) : Prop where
  other : ∀ k ≠ "devices", at? output [k] = (at? (xmlToJson (.elem "domain" as cs)) [k]).or (at? base [k])
  missing : named "devices" cs = [] → at? output ["devices"] = some .null
  absent : ∀ devices ∈ named "devices" cs, ∀ k ∈ arrayKeys, named k devices.children = [] →
    at? output ["devices", k] = none
  listed : ∀ devices ∈ named "devices" cs, ∀ k ∈ arrayKeys, named k devices.children ≠ [] →
    ∃ entries, at? output ["devices", k] = some (.arr entries) ∧
      List.Forall₂ (Entry k) (named k devices.children) entries
  unlisted : ∀ devices ∈ named "devices" cs, ∀ k ∉ arrayKeys,
    at? output ["devices", k] = at? (xmlToJson devices) [k]

theorem wrap_stored {js : List Json} (hjs : ∀ j ∈ js, j.isObject = true) (hne : js ≠ []) :
    (stored js).map wrap = some (.arr js) := by
  match js with
  | [] => exact absurd rfl hne
  | [j] =>
    have hj := hjs j List.mem_cons_self
    cases j with
    | obj ms => rfl
    | _ => cases hj
  | j :: j' :: js => rfl

/-- The converted devices, after `ARRAY_KEYS` have been gone through. -/
theorem lookup_wrapped {as : List (String × String)} {cs : List Xml} {k : String} (hk : k ∈ arrayKeys) :
    lookup k (arrayKeys.foldl wrapMember (members as cs)) =
      if named k cs = [] then none else some (.arr ((named k cs).map xmlToJson)) := by
  have hnames : ∀ l ∈ arrayKeys, l ≠ "" ∧ l ≠ "attrib" ∧ l ≠ "text" := by decide
  obtain ⟨hempty, hattrib, htext⟩ := hnames k hk
  rw [lookup_foldl_wrapMember, if_pos hk, lookup_members hempty, values_of_ne hattrib htext]
  split_ifs with h
  · rw [h]
    rfl
  · exact wrap_stored (isObject_map_xmlToJson _) (by simpa using h)

theorem at?_member (ms : Members) (k : String) : at? (.obj ms) [k] = lookup k ms := by
  rw [at?_obj]
  cases lookup k ms with
  | none => rfl
  | some v => rfl

/-- Devices that are not storage disks are listed as they were converted. -/
theorem entries_of_ne {k : String} (hk : k ≠ "disk") (devices : List Xml) :
    List.Forall₂ (Entry k) devices (devices.map xmlToJson) := by
  induction devices with
  | nil => exact .nil
  | cons device devices ih => exact .cons (entry_unchanged fun h => hk h.1) ih

section

variable {as das : List (String × String)} {cs dcs : List Xml} {base out dm : Members} {n : String}

theorem uniform_of_null (hdev : named "devices" cs = [])
    (hother : ∀ k ≠ "devices", lookup k out = (lookup k (members as cs)).or (lookup k base))
    (hnull : lookup "devices" out = some .null) : UniformDevices (.obj base) as cs (.obj out) where
  other k hk := by rw [xmlToJson_elem, at?_member, at?_member, at?_member, hother k hk]
  missing _ := by rw [at?_member, hnull]
  absent devices h := by rw [hdev] at h; cases h
  listed devices h := by rw [hdev] at h; cases h
  unlisted devices h := by rw [hdev] at h; cases h

/-- The member `devices`, from what is stored in it under each kind of device. -/
theorem uniform_of_devices (hdev : named "devices" cs = [.elem n das dcs])
    (hother : ∀ k ≠ "devices", lookup k out = (lookup k (members as cs)).or (lookup k base))
    (hdevices : lookup "devices" out = some (.obj dm))
    (hdm : ∀ k ≠ "disk", lookup k dm = lookup k (arrayKeys.foldl wrapMember (members das dcs)))
    (hdisk : named "disk" dcs = [] ∧ lookup "disk" dm = none ∨ named "disk" dcs ≠ [] ∧
      ∃ entries, lookup "disk" dm = some (.arr entries) ∧ List.Forall₂ (Entry "disk") (named "disk" dcs) entries) :
    UniformDevices (.obj base) as cs (.obj out) := by
  have hat : ∀ k, at? (.obj out) ["devices", k] = lookup k dm := by
    intro k
    rw [at?_obj, hdevices, Option.bind_some, at?_member]
  have honly : ∀ devices ∈ named "devices" cs, devices = .elem n das dcs := by
    intro devices h
    rw [hdev] at h
    exact List.mem_singleton.mp h
  constructor
  · intro k hk
    rw [xmlToJson_elem, at?_member, at?_member, at?_member, hother k hk]
  · intro h
    rw [hdev] at h
    cases h
  · intro devices h k hk hnone
    rw [honly devices h] at hnone
    rw [hat]
    by_cases hd : k = "disk"
    · subst hd
      rcases hdisk with ⟨-, hl⟩ | ⟨hne, -⟩
      · exact hl
      · exact absurd hnone hne
    · rw [hdm k hd, lookup_wrapped hk]
      exact if_pos hnone
  · intro devices h k hk hsome
    rw [honly devices h] at hsome ⊢
    rw [hat]
    by_cases hd : k = "disk"
    · subst hd
      rcases hdisk with ⟨hnone, -⟩ | ⟨-, hentries⟩
      · exact absurd hnone hsome
      · exact hentries
    · rw [hdm k hd, lookup_wrapped hk]
      exact ⟨_, if_neg hsome, entries_of_ne hd _⟩
  · intro devices h k hk
    have hd : k ≠ "disk" := by
      rintro rfl
      exact hk (by decide)
    rw [honly devices h, hat, hdm k hd, lookup_foldl_wrapMember, if_neg hk, xmlToJson_elem, at?_member]

end

/-- The documents of simple domains are objects without devices. -/
theorem simpleDomain_obj {j : Json} (h : (simpleDomain d).exec answer r w = (.ok j, r', w')) :
    ∃ ms, j = .obj ms ∧ lookup "devices" ms = none := by
  have hmakes : Eff.Makes answer (simpleDomain d) r w _ _ _ _ := Eff.makes_events _ r w
  rw [h] at hmakes
  obtain ⟨id, _, _, _, _, -, -, h1⟩ := hmakes.bind_inv
  obtain ⟨name, _, _, _, _, -, -, h2⟩ := h1.bind_inv
  obtain ⟨title, _, _, _, _, -, -, h3⟩ := h2.bind_inv
  obtain ⟨description, _, _, _, _, -, -, h4⟩ := h3.bind_inv
  obtain ⟨state, _, _, _, _, -, -, h5⟩ := h4.bind_inv
  obtain ⟨text, _, _, _, _, -, -, h6⟩ := h5.bind_inv
  obtain ⟨-, heq, -, -⟩ := h6.pure_inv
  cases heq
  exact ⟨_, rfl, rfl⟩

/-- From the converted document over the rest to the final output. -/
theorem triple_merged {as : List (String × String)} {cs : List Xml} {base out : Members}
    (hplain : Everywhere NoReserved (.elem "domain" as cs)) (hsingle : (named "devices" cs).length ≤ 1)
    (hdisks : ∀ devices ∈ named "devices" cs, ∀ disk ∈ named "disk" devices.children, EmittedDisk disk)
    (hbase : lookup "devices" base = none)
    (hout : ∀ k, lookup k out = (lookup k (members as cs)).or (lookup k base)) :
    Eff.Triple answer (fun _ => True) (ofExcept (arrayKeys.foldlM wrapArray (.obj out)) >>= addSizes d)
      (fun output _ => UniformDevices (.obj base) as cs output) (fun _ _ => Interrupted answer d) := by
  have hvalues := lookup_members (k := "devices") (by decide) as cs
  rw [values_of_ne (by decide) (by decide)] at hvalues
  match hdev : named "devices" cs with
  | [] =>
    rw [hdev] at hvalues
    have hnone : lookup "devices" out = none := by
      rw [hout, hvalues, hbase]
      rfl
    rw [merged_none hnone, ofExcept_ok, pure_bind]
    have hnull : lookup "devices" (insert "devices" .null out) = some .null := lookup_insert_self ..
    unfold addSizes
    simp only [index_of_lookup hnull, ofExcept_ok, pure_bind]
    refine .pure fun _ _ => uniform_of_null hdev (fun k hk => ?_) hnull
    rw [lookup_insert_of_ne hk.symm, hout]
  | [devices] =>
    have hmem : devices ∈ named "devices" cs := hdev ▸ List.mem_singleton_self devices
    obtain ⟨das, dcs, rfl⟩ := exists_elem_of_named (by decide) hmem
    rw [hdev, List.map_singleton, xmlToJson_elem] at hvalues
    have hdevices : lookup "devices" out = some (.obj (members das dcs)) := by
      rw [hout, hvalues]
      rfl
    obtain ⟨out1, hrun, hdevices1, hframe⟩ := foldlM_wrapArray (sorted_members das dcs) hdevices arrayKeys
    have hother : ∀ k ≠ "devices", lookup k out1 = (lookup k (members as cs)).or (lookup k base) :=
      fun k hk => (hframe k hk).trans (hout k)
    have hwrapped : lookup "disk" (arrayKeys.foldl wrapMember (members das dcs)) = _ := lookup_wrapped (by decide)
    rw [hrun, ofExcept_ok, pure_bind]
    unfold addSizes
    simp only [index_of_lookup hdevices1, ofExcept_ok, pure_bind, isMember_obj]
    by_cases hnone : named "disk" dcs = []
    · rw [if_pos hnone] at hwrapped
      rw [hwrapped]
      refine .pure fun _ _ => uniform_of_devices hdev hother hdevices1 (fun _ _ => rfl) (.inl ⟨hnone, hwrapped⟩)
    · rw [if_neg hnone] at hwrapped
      rw [hwrapped]
      simp only [Option.isSome_some, if_true, index_of_lookup hwrapped, ofExcept_ok, pure_bind]
      refine .bind (triple_addBlockInfos fun disk hdisk => ?_) fun entries => .pure fun _ hentries => ?_
      · exact ⟨(mem_named.mp hdisk).2, (hplain.inv.2 "devices" (by decide) _ hmem).inv.2 "disk" (by decide) disk hdisk,
          hdisks _ hmem disk hdisk⟩
      · refine uniform_of_devices hdev (fun k hk => ?_) (lookup_insert_self ..) (fun k hk => ?_)
          (.inr ⟨hnone, entries, lookup_insert_self .., hentries⟩)
        · rw [lookup_insert_of_ne hk.symm, hother k hk]
        · rw [lookup_insert_of_ne hk.symm]
  | _ :: _ :: _ =>
    rw [hdev] at hsingle
    simp at hsingle

/-- `data::domain` on a document as libvirt emits it: the output has its devices in lists, one entry for each, and it is
returned unless a call for block information is interrupted. -/
theorem devices_uniform {L : Linked} {simple : Json} {autostart : Bool} {doc : List Xml}
    {as : List (String × String)} {cs : List Xml} {r1 r2 r3 : Http.Response} {w1 w2 w3 : σ}
    (hsimple : (simpleDomain d).exec answer r w = (.ok simple, r1, w1))
    (hautostart : (Domain.autostart d).exec answer r1 w1 = (.ok autostart, r2, w2))
    (hdocument : (Domain.xmlDocument d L).exec answer r2 w2 = (.ok doc, r3, w3)) (hdoc : DomainDocument doc as cs) :
    (∀ output, ((domain L d).exec answer r w).1 = .ok output →
        UniformDevices (simple.set "autostart" (.bool autostart)) as cs output) ∧
      ((∀ w device, ∃ info, (answer w (.libvirt (.virDomainGetBlockInfo d device))).1 = .ok info) →
        (domain L d).Returns answer r w) := by
  obtain ⟨ms, rfl, hms⟩ := simpleDomain_obj hsimple
  have hparts : (parts L d).exec answer r w = (.ok (.obj ms, autostart, doc), r3, w3) := by
    unfold parts
    rw [Eff.exec_bind_ok answer hsimple, Eff.exec_bind_ok answer hautostart, Eff.exec_bind_ok answer hdocument]
    rfl
  have hbase : lookup "devices" (insert "autostart" (.bool autostart) ms) = none := by
    rw [lookup_insert_of_ne (by decide), hms]
  have htriple : Eff.Triple answer _ (_ >>= addSizes d) _ _ := triple_merged hdoc.plain hdoc.single hdoc.disks hbase
    (lookup_foldl_insert (sorted_members as cs) _)
  have hrun := htriple r3 w3 trivial
  rw [← integrate_eq, ← xmlToJson_elem "domain"] at hrun
  have hexec : (domain L d).exec answer r w =
      (ofExcept (merged (.obj ms) autostart doc) >>= addSizes d).exec answer r3 w3 := by
    rw [domain_eq, Eff.exec_bind_ok answer hparts]
  unfold merged at hexec
  rw [hdoc.root] at hexec
  refine ⟨fun output houtput => hrun.1 output ?_, fun hinfo => ?_⟩
  · rw [← houtput, hexec]
    rfl
  · unfold Eff.Returns
    cases houtput : ((domain L d).exec answer r w).1 with
    | ok output => exact ⟨output, rfl⟩
    | error e =>
      rw [hexec] at houtput
      obtain ⟨w', device, e', he⟩ := hrun.2 e houtput
      obtain ⟨info, hi⟩ := hinfo w' device
      rw [hi] at he
      cases he

/-! The domain with the disk `vda`. -/

def vdaSimple : Json :=
  .obj [("description", .obj [("text", .str "")]), ("id", .int (-1)), ("name", .obj [("text", .str "vm")]),
    ("state", .obj [("attrib", .obj [("id", .int 1), ("string", .str "Running")])]),
    ("title", .obj [("text", .str "")])]

def vdaDevices : List Xml :=
  [.elem "devices" [] [.elem "disk" [("device", "disk")] [.elem "target" [("dev", "vda")] []]]]

theorem vda_document : DomainDocument (vdaLinked.loadXml "") [] vdaDevices := by
  have htarget : Everywhere NoReserved (.elem "target" [("dev", "vda")] []) := .elem ⟨rfl, rfl⟩ nofun
  have hdisk : Everywhere NoReserved (.elem "disk" [("device", "disk")] [.elem "target" [("dev", "vda")] []]) := by
    refine .elem ⟨rfl, rfl⟩ fun c hc _ => ?_
    rw [List.mem_singleton.mp hc]
    exact htarget
  refine ⟨rfl, .elem ⟨rfl, rfl⟩ fun c hc _ => ?_, le_rfl, fun devices hdevices disk hmem => ?_⟩
  · rw [List.mem_singleton.mp hc]
    refine .elem ⟨rfl, rfl⟩ fun c hc _ => ?_
    rw [List.mem_singleton.mp hc]
    exact hdisk
  · rw [List.mem_singleton.mp hdevices] at hmem
    rw [List.mem_singleton.mp hmem]
    exact ⟨"disk", rfl, fun _ => ⟨_, "vda", rfl, rfl⟩⟩

theorem devices_uniform_vda :
    UniformDevices (vdaSimple.set "autostart" (.bool false)) [] vdaDevices (vdaOutput 0) ∧
      (domain vdaLinked 0).Returns (vdaAnswer 0) {} () := by
  have hsimple : (simpleDomain 0).exec (vdaAnswer 0) {} () = (.ok vdaSimple, {}, ()) := rfl
  have hautostart : (Domain.autostart 0).exec (vdaAnswer 0) {} () = (.ok false, {}, ()) := rfl
  have hdocument : (Domain.xmlDocument 0 vdaLinked).exec (vdaAnswer 0) {} () = (.ok (vdaLinked.loadXml ""), {}, ()) :=
    rfl
  obtain ⟨huniform, hreturns⟩ := devices_uniform (L := vdaLinked) hsimple hautostart hdocument vda_document
  refine ⟨huniform _ ?_, hreturns fun w device => ⟨⟨0, 0, 0⟩, rfl⟩⟩
  rw [exec_vda]

end Webvirtd.Data
