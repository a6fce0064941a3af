import Webvirtd.Data
import Webvirtd.Util.Members
import Webvirtd.Virt.History

/-!
# Data.BlockInfo — the sizes of the storage disks in `data::domain`

Each storage disk of the output is paired with the answer to its own `virDomainGetBlockInfo` (`asked_addBlockInfos`).
The numbers it reports are the answered bytes divided by 1000, under the unit `KiB`.
-/

namespace Webvirtd.Data

open Lib Virt Json

/-! ## What the output says of its disks -/

/-- `disk["attrib"]["device"]`, as a text. -/
def deviceOf (disk : Json) : Option String := (at? disk ["attrib", "device"]).bind fun v => v.asString.toOption

/-- `disk["target"]["attrib"]["dev"]`, as a text. -/
def targetDev (disk : Json) : Option String :=
  (at? disk ["target", "attrib", "dev"]).bind fun v => v.asString.toOption

/-- The disks with device `disk` among the devices of a domain, in order. -/
def storageDisks (output : Json) : List Json :=
  match at? output ["devices", "disk"] with
  | some (.arr disks) => disks.filter fun disk => deviceOf disk = some "disk"
  | _ => []

/-- The block information that was asked for, with its device, in order. -/
def blockInfos (es : List OpEvent) : List (String × BlockInfo) :=
  es.filterMap fun
    | ⟨.libvirt (.virDomainGetBlockInfo _ device), .ok info⟩ => some (device, info)
    | _ => none

/-- `v` KiB are `b` bytes, rounded down. -/
def Kib (v b : ℕ) : Prop := 1024 * v ≤ b ∧ b < 1024 * (v + 1)

/-- The numbers of a disk's `block_info` are the sizes of `info` in KiB. -/
structure Reports (disk : Json) (info : BlockInfo) : Prop where
  unit : at? disk ["block_info", "unit"] = some (.str "KiB")
  capacity : ∃ v : ℕ, at? disk ["block_info", "capacity"] = some (.int v) ∧ Kib v info.capacity
  allocation : ∃ v : ℕ, at? disk ["block_info", "allocation"] = some (.int v) ∧ Kib v info.allocation
  physical : ∃ v : ℕ, at? disk ["block_info", "physical"] = some (.int v) ∧ Kib v info.physical

/-- Every storage disk reports the answer for its own target. -/
def BlockSizes (es : List OpEvent) (output : Json) : Prop :=
  List.Forall₂ (fun disk asked => ∃ dev, targetDev disk = some dev ∧ asked.1 = cStr dev ∧ Reports disk asked.2)
    (storageDisks output) (blockInfos es)

/-! ## One disk -/

/-- The `block_info` that is stored. -/
def sizes (info : BlockInfo) : Json :=
  let blockInfo := Json.empty.set "unit" (.str "KiB")
  let blockInfo := blockInfo.set "capacity" (.int (info.capacity / 1000 : ℕ))
  let blockInfo := blockInfo.set "allocation" (.int (info.allocation / 1000 : ℕ))
  blockInfo.set "physical" (.int (info.physical / 1000 : ℕ))

/-- A disk of the output and the block information asked for it. -/
inductive Asked (disk : Json) : List (String × BlockInfo) → Prop
  | other (h : deviceOf disk ≠ some "disk") : Asked disk []
  | storage (dev : String) (info : BlockInfo) (h : deviceOf disk = some "disk") (htarget : targetDev disk = some dev)
      (hinfo : at? disk ["block_info"] = some (sizes info)) : Asked disk [(cStr dev, info)]

theorem blockInfos_append (es es' : List OpEvent) : blockInfos (es ++ es') = blockInfos es ++ blockInfos es' :=
  List.filterMap_append

variable {σ : Type} {answer : σ → (o : Op) → Op.Res o × σ} {r r' : Http.Response} {w w' : σ} {d : DomainPtr}
  {es : List OpEvent}

theorem asText_at?_path {j j' v : Json} {ks : List String} {t : String} (h : j.path ks = .ok (j', v))
    (ht : v.asString = .ok t) : ((at? j' ks).bind fun v => v.asString.toOption) = some t := by
  rw [at?_path h, Option.bind_some, ht]
  rfl

theorem asked_addBlockInfo {disk disk' : Json}
    (h : Eff.Makes answer (addBlockInfo d disk) r w es (.ok disk') r' w') : Asked disk' (blockInfos es) := by
  obtain ⟨⟨disk1, device⟩, _, _, es1, es2, hes, h1, hrest⟩ := h.bind_inv
  obtain ⟨hpath, rfl, rfl, rfl⟩ := makes_ofExcept_inv h1
  obtain ⟨text, _, _, es3, es4, hes2, h2, hbranch⟩ := hrest.bind_inv
  obtain ⟨htext, rfl, rfl, rfl⟩ := makes_ofExcept_inv h2
  have hdevice : deviceOf disk1 = some text := asText_at?_path hpath htext
  subst hes hes2
  change Eff.Makes answer (if _ then _ else _) _ _ _ _ _ _ at hbranch
  split_ifs at hbranch with hdisk
  · obtain ⟨hnil, heq, -, -⟩ := hbranch.pure_inv
    cases heq
    rw [hnil]
    refine .other ?_
    rw [hdevice]
    simpa using hdisk
  · obtain ⟨⟨disk2, dev⟩, _, _, es3, es5, hes, h3, hrest2⟩ := hbranch.bind_inv
    obtain ⟨hpath', rfl, rfl, rfl⟩ := makes_ofExcept_inv h3
    obtain ⟨dev', _, _, es6, es7, hes2, h4, hrest3⟩ := hrest2.bind_inv
    obtain ⟨hdev, rfl, rfl, rfl⟩ := makes_ofExcept_inv h4
    obtain ⟨info, _, _, es8, es9, hes3, h5, hlast⟩ := hrest3.bind_inv
    obtain ⟨-, rfl, rfl, rfl⟩ := makes_perform_inv h5
    obtain ⟨hassign, rfl, rfl, rfl⟩ := makes_ofExcept_inv hlast
    subst hes hes2 hes3
    -- the later paths leave the device and the target as they were read
    refine .storage dev' info ?_ ?_ (at?_assign hassign)
    · unfold deviceOf at hdevice ⊢
      rw [at?_assign_of_ne hassign (by decide), at?_path_of_ne hpath' (by decide), hdevice]
      simpa using hdisk
    · unfold targetDev
      rw [at?_assign_of_ne hassign (by decide)]
      exact asText_at?_path hpath' hdev

theorem asked_addBlockInfos {disks disks' : List Json}
    (h : Eff.Makes answer (addBlockInfos d disks) r w es (.ok disks') r' w') :
    ∃ asked : List (List (String × BlockInfo)), blockInfos es = asked.flatten ∧ List.Forall₂ Asked disks' asked := by
  induction disks generalizing disks' r w es with
  | nil =>
    obtain ⟨rfl, heq, -, -⟩ := h.pure_inv
    cases heq
    exact ⟨[], rfl, .nil⟩
  | cons disk disks ih =>
    obtain ⟨disk', _, _, es1, es2, hes, h1, hrest⟩ := h.bind_inv
    obtain ⟨rest, _, _, es3, es4, hes2, h2, hlast⟩ := hrest.bind_inv
    obtain ⟨hnil, heq, hr, hw⟩ := hlast.pure_inv
    cases heq
    rw [← hr, ← hw] at h2
    obtain ⟨asked, hflat, hall⟩ := ih h2
    refine ⟨blockInfos es1 :: asked, ?_, .cons (asked_addBlockInfo h1) hall⟩
    rw [hes, hes2, hnil, List.append_nil, blockInfos_append, hflat, List.flatten_cons]

/-! ## The whole output -/

/-- The storage disk of the output to which the block information `asked` was added. -/
def Stored (disk : Json) (asked : String × BlockInfo) : Prop :=
  ∃ dev, targetDev disk = some dev ∧ asked.1 = cStr dev ∧ at? disk ["block_info"] = some (sizes asked.2)

theorem stored_of_asked {disks : List Json} {asked : List (List (String × BlockInfo))}
    (h : List.Forall₂ Asked disks asked) :
    List.Forall₂ Stored (disks.filter fun disk => deviceOf disk = some "disk") asked.flatten := by
  induction h with
  | nil => exact .nil
  | cons hhead _ ih =>
    cases hhead with
    | other h => rwa [List.filter_cons_of_neg (by simpa using h), List.flatten_cons, List.nil_append]
    | storage dev info h htarget hinfo =>
      rw [List.filter_cons_of_pos (by simpa using h), List.flatten_cons]
      exact .cons ⟨dev, htarget, rfl, hinfo⟩ ih

theorem blockInfos_eq_nil {A : Call → Prop} {F : Failure → Prop} {α : Type} {m : ViewM α} {x : Except Failure α}
    (hA : ∀ c, A c → ∀ d device, c ≠ .virDomainGetBlockInfo d device) (hF : ∀ e, F (.exn e))
    (hm : ViewM.MadeOf A F m) (h : Eff.Makes answer m r w es x r' w') : blockInfos es = [] := by
  have huses : Eff.Uses (fun o => ∀ d device, o ≠ .libvirt (.virDomainGetBlockInfo d device)) F m :=
    ViewM.MadeOf.uses hm (fun c hc d device heq => hA c hc d device (Op.libvirt.inj heq))
      (fun o ho d device => ho _) hF
  refine List.filterMap_eq_nil_iff.mpr fun e he => ?_
  have hne := h.of_uses huses e he
  split
  · exact absurd rfl (hne _ _)
  · rfl

/-- What is read before the output is worked on. -/
def parts (L : Linked) (d : DomainPtr) : ViewM (Json × Bool × List Xml) := do
  let simple ← simpleDomain d
  let autostart ← Domain.autostart d
  let doc ← Domain.xmlDocument d L
  return (simple, autostart, doc)

/-- The output before block information is added. -/
def merged (simple : Json) (autostart : Bool) (doc : List Xml) : Except Exn Json :=
  arrayKeys.foldlM wrapArray
    (integrate (simple.set "autostart" (.bool autostart)) (Json.ofNode (Xml.child "domain" doc)))

/-- The last of the three passes. -/
def addSizes (d : DomainPtr) (output : Json) : ViewM Json := do
  let (output, devices) ← ofExcept (output.index "devices")
  if ← ofExcept (devices.isMember "disk") then
    let (devices, disks) ← ofExcept (devices.index "disk")
    match disks with
    | .arr xs =>
      let xs ← addBlockInfos d xs
      return output.set "devices" (devices.set "disk" (.arr xs))
    | _ => return output
  return output

theorem domain_eq (L : Linked) (d : DomainPtr) :
    domain L d = parts L d >>= fun p => ofExcept (merged p.1 p.2.1 p.2.2) >>= addSizes d := by
  unfold parts
  simp only [bind_assoc, pure_bind]
  rfl

theorem made_parts {A : Call → Prop} (L : Linked) (d : DomainPtr) (hid : A (.virDomainGetID d))
    (hname : A (.virDomainGetName d)) (hmetadata : ∀ t, A (.virDomainGetMetadata d t))
    (hstate : A (.virDomainGetState d)) (hautostart : A (.virDomainGetAutostart d))
    (hdesc : A (.virDomainGetXMLDesc d)) : ViewM.MadeOf A Failure.IsExn (parts L d) := by
  have hstring : ∀ s, ViewM.MadeOf A Failure.IsExn (fromCString s) := by
    intro s
    cases s with
    | some s => exact .pure s
    | none => exact ends_throwExn _ _
  have hunset : ViewM.MadeOf A Failure.IsExn uninitialised := .leaf (.ask .uninitialised nofun)
  have hsimple : ViewM.MadeOf A Failure.IsExn (simpleDomain d) := by
    refine .bind (made_perform hid) fun id => ?_
    refine .bind (.bind (made_perform hname) hstring) fun name => ?_
    refine .bind (made_perform (hmetadata .title)) fun title => ?_
    refine .bind (made_perform (hmetadata .description)) fun description => ?_
    refine .bind (.bind hunset fun old => .bind (made_perform hstate) fun _ => .pure _) fun state => ?_
    exact .bind (ends_ofExcept _) fun _ => .pure _
  refine .bind hsimple fun simple => ?_
  refine .bind (.bind hunset fun old => .bind (made_perform hautostart) fun _ => .pure _) fun autostart => ?_
  exact .bind (.bind (.bind (made_perform hdesc) hstring) fun _ => .pure _) fun doc => .pure _

/-- The storage disks of the output are those that block information was asked for. -/
theorem stored_addSizes {output j : Json} (h : Eff.Makes answer (addSizes d output) r w es (.ok j) r' w') :
    List.Forall₂ Stored (storageDisks j) (blockInfos es) := by
  obtain ⟨⟨output1, devices⟩, _, _, es1, es2, rfl, h1, hrest⟩ := h.bind_inv
  obtain ⟨hindex, rfl, rfl, rfl⟩ := makes_ofExcept_inv h1
  obtain ⟨found, _, _, es3, es4, rfl, h2, hbranch⟩ := hrest.bind_inv
  obtain ⟨hmember, rfl, rfl, rfl⟩ := makes_ofExcept_inv h2
  obtain ⟨ms, rfl, hdevices, -⟩ := index_eq_ok hindex
  have hat : ∀ ks, at? (.obj ms) ("devices" :: ks) = at? devices ks := by
    intro ks
    rw [at?_obj, hdevices, Option.bind_some]
  cases found with
  | false =>
    obtain ⟨rfl, heq, -, -⟩ := hbranch.pure_inv
    cases heq
    unfold storageDisks
    rw [hat, at?_of_not_isMember hmember]
    exact .nil
  | true =>
    obtain ⟨⟨devices1, disks⟩, _, _, es1, es5, rfl, h3, hlast⟩ := hbranch.bind_inv
    obtain ⟨hindex', rfl, rfl, rfl⟩ := makes_ofExcept_inv h3
    obtain ⟨rfl, hdisks⟩ := at?_of_isMember hmember hindex'
    obtain ⟨dm, rfl, -, -⟩ := index_eq_ok hindex'
    cases disks with
    | arr xs =>
      obtain ⟨xs', _, _, es1, es3, rfl, h4, hpure⟩ := hlast.bind_inv
      obtain ⟨rfl, heq, -, -⟩ := hpure.pure_inv
      cases heq
      obtain ⟨asked, hflat, hall⟩ := asked_addBlockInfos h4
      have hxs : at? (Json.set (.obj ms) "devices" (Json.set (.obj dm) "disk" (.arr xs'))) ["devices", "disk"] =
          some (.arr xs') := by
        rw [at?_set, at?_set, at?]
      unfold storageDisks
      rw [hxs, List.nil_append, List.nil_append, List.nil_append, List.append_nil, hflat]
      exact stored_of_asked hall
    | _ =>
      obtain ⟨rfl, heq, -, -⟩ := hlast.pure_inv
      cases heq
      unfold storageDisks
      rw [hat, hdisks]
      exact .nil

theorem stored_domain {L : Linked} {j : Json} (h : Eff.Makes answer (domain L d) r w es (.ok j) r' w') :
    List.Forall₂ Stored (storageDisks j) (blockInfos es) := by
  rw [domain_eq] at h
  obtain ⟨p, _, _, es1, es2, rfl, h1, hrest⟩ := h.bind_inv
  obtain ⟨output, _, _, es3, es4, rfl, h2, hlast⟩ := hrest.bind_inv
  obtain ⟨-, rfl, rfl, rfl⟩ := makes_ofExcept_inv h2
  have hparts := made_parts (A := fun c => ∀ d device, c ≠ .virDomainGetBlockInfo d device) L d nofun nofun nofun
    nofun nofun nofun
  rw [blockInfos_append, blockInfos_eq_nil (fun _ h => h) (fun _ => trivial) hparts h1, List.nil_append]
  exact stored_addSizes hlast

/-! ## The unit -/

/-- Dividing by 1000 gives the number of KiB. -/
def Fits (b : ℕ) : Prop := 24 * (b / 1000) ≤ b % 1000

theorem kib_iff_fits (b : ℕ) : Kib (b / 1000) b ↔ Fits b := by
  unfold Kib Fits
  omega

/-- From 42000 bytes on it never does. -/
theorem Fits.lt {b : ℕ} (h : Fits b) : b < 42000 := by
  unfold Fits at h
  omega

theorem reports_iff {disk : Json} {info : BlockInfo} (h : at? disk ["block_info"] = some (sizes info)) :
    Reports disk info ↔ Fits info.capacity ∧ Fits info.allocation ∧ Fits info.physical := by
  have hread : ∀ k, at? disk ["block_info", k] = at? (sizes info) [k] := fun k => at?_cons h [k]
  have hnumber : ∀ (k : String) (b : ℕ), at? (sizes info) [k] = some (.int (b / 1000 : ℕ)) →
      ((∃ v : ℕ, at? disk ["block_info", k] = some (.int v) ∧ Kib v b) ↔ Fits b) := by
    intro k b hk
    rw [hread, hk]
    constructor
    · rintro ⟨v, hv, hkib⟩
      have hvb : b / 1000 = v := by exact_mod_cast Json.int.inj (Option.some.inj hv)
      rw [← hvb] at hkib
      exact (kib_iff_fits b).mp hkib
    · exact fun hfits => ⟨b / 1000, rfl, (kib_iff_fits b).mpr hfits⟩
  constructor
  · intro hr
    exact ⟨(hnumber "capacity" _ rfl).mp hr.capacity, (hnumber "allocation" _ rfl).mp hr.allocation,
      (hnumber "physical" _ rfl).mp hr.physical⟩
  · rintro ⟨hcapacity, hallocation, hphysical⟩
    exact ⟨(hread "unit").trans rfl, (hnumber "capacity" _ rfl).mpr hcapacity,
      (hnumber "allocation" _ rfl).mpr hallocation, (hnumber "physical" _ rfl).mpr hphysical⟩

/-- A relation that, where `R` holds, depends on the second component only. -/
theorem forall₂_iff_of_forall₂ {α β : Type} {R S : α → β → Prop} {P : β → Prop} (hS : ∀ a b, R a b → (S a b ↔ P b))
    {as : List α} {bs : List β} (h : List.Forall₂ R as bs) : List.Forall₂ S as bs ↔ ∀ b ∈ bs, P b := by
  induction h with
  | nil => exact iff_of_true .nil nofun
  | cons hab _ ih => rw [List.forall₂_cons, List.forall_mem_cons, hS _ _ hab, ih]

/-- `data::domain` reports the sizes of the storage disks exactly when every size asked for fits. -/
theorem blockSizes_iff {L : Linked} {j : Json} (hrun : (domain L d).exec answer r w = (.ok j, r', w')) :
    BlockSizes ((domain L d).events answer r w) j ↔
      ∀ asked ∈ blockInfos ((domain L d).events answer r w),
        Fits asked.2.capacity ∧ Fits asked.2.allocation ∧ Fits asked.2.physical := by
  have hmakes : Eff.Makes answer (domain L d) r w _ _ _ _ := Eff.makes_events _ r w
  rw [hrun] at hmakes
  refine forall₂_iff_of_forall₂ ?_ (stored_domain hmakes)
  rintro disk asked ⟨dev, htarget, hdev, hinfo⟩
  rw [← reports_iff hinfo]
  exact ⟨fun ⟨_, _, _, hreports⟩ => hreports, fun hreports => ⟨dev, htarget, hdev, hreports⟩⟩

/-! A running domain with one disk `vda` of `b` bytes. -/

def vdaLinked : Linked where
  isUpgrade _ := false
  beastVersion := ""
  stringify _ := ""
  parseJson _ := none
  loadXml _ := [.elem "domain" []
    [.elem "devices" [] [.elem "disk" [("device", "disk")] [.elem "target" [("dev", "vda")] []]]]]
  saveXml _ := ""
  strerror _ := ""

def vdaAnswer (b : ℕ) (_ : Unit) : (o : Op) → Op.Res o × Unit
  | .libvirt (.virDomainGetName _) => (.ok (some "vm"), ())
  | .libvirt (.virDomainGetState _) => (.ok (some 1), ())
  | .libvirt (.virDomainGetXMLDesc _) => (.ok (some "<domain/>"), ())
  | .libvirt (.virDomainGetBlockInfo _ _) => (.ok ⟨b, b, b⟩, ())
  | .libvirt c => (.ok c.failed, ())
  | .user _ => ("", ())
  | .uninitialised => ((0 : ℤ), ())
  | .now => ((0 : ℚ), ())
  | .sleepFor _ => ((), ())

def vdaDisk (b : ℕ) : Json :=
  .obj [("attrib", .obj [("device", .str "disk")]), ("block_info", sizes ⟨b, b, b⟩),
    ("target", .obj [("attrib", .obj [("dev", .str "vda")])])]

def vdaOutput (b : ℕ) : Json :=
  .obj [("autostart", .bool false), ("description", .obj [("text", .str "")]),
    ("devices", .obj [("disk", .arr [vdaDisk b])]),
    ("id", .int (-1)), ("name", .obj [("text", .str "vm")]),
    ("state", .obj [("attrib", .obj [("id", .int 1), ("string", .str "Running")])]),
    ("title", .obj [("text", .str "")])]

theorem exec_vda (b : ℕ) : (domain vdaLinked 0).exec (vdaAnswer b) {} () = (.ok (vdaOutput b), {}, ()) := rfl

theorem blockInfos_vda (b : ℕ) :
    blockInfos ((domain vdaLinked 0).events (vdaAnswer b) {} ()) = [("vda", ⟨b, b, b⟩)] := rfl

theorem blockSizes_empty_disk :
    BlockSizes ((domain vdaLinked 0).events (vdaAnswer 0) {} ()) (vdaOutput 0) ↔
      ∀ asked ∈ blockInfos ((domain vdaLinked 0).events (vdaAnswer 0) {} ()),
        Fits asked.2.capacity ∧ Fits asked.2.allocation ∧ Fits asked.2.physical :=
  blockSizes_iff (exec_vda 0)

/-- A disk of 8 GiB: `8589934592` bytes are `8388608` KiB, and `8589934` are reported. -/
theorem vda_size_off :
    (domain vdaLinked 0).exec (vdaAnswer 8589934592) {} () = (.ok (vdaOutput 8589934592), {}, ()) ∧
      at? (vdaDisk 8589934592) ["block_info", "unit"] = some (.str "KiB") ∧
      at? (vdaDisk 8589934592) ["block_info", "capacity"] = some (.int 8589934) ∧
      ¬ BlockSizes ((domain vdaLinked 0).events (vdaAnswer 8589934592) {} ()) (vdaOutput 8589934592) := by
  have hcapacity : at? (vdaDisk 8589934592) ["block_info", "capacity"] = some (.int 8589934) := rfl
  refine ⟨exec_vda _, rfl, hcapacity, fun h => ?_⟩
  unfold BlockSizes at h
  rw [blockInfos_vda, show storageDisks (vdaOutput 8589934592) = [vdaDisk 8589934592] from rfl] at h
  obtain ⟨⟨dev, -, -, hreports⟩, -⟩ := List.forall₂_cons.mp h
  obtain ⟨v, hv, hkib⟩ := hreports.capacity
  rw [hcapacity] at hv
  have hv' : (8589934 : ℤ) = v := Json.int.inj (Option.some.inj hv)
  unfold Kib at hkib
  dsimp only at hkib
  omega

end Webvirtd.Data
