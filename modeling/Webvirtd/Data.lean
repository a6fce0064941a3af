import Webvirtd.Virt.Libvirt

/-!
# Data — the JSON documents about domains, hosts and networks
-/

namespace Webvirtd.Data

open Lib Virt

/-- `data::simple_domain`. -/
def simpleDomain (d : DomainPtr) : ViewM Json := do
  let id ← Domain.id d
  let output := Json.empty.set "id" (.int id)
  let output := output.set "name" (Json.empty.set "text" (.str (← Domain.name d)))
  let output := output.set "title" (Json.empty.set "text" (.str (← Domain.title d)))
  let output := output.set "description" (Json.empty.set "text" (.str (← Domain.description d)))
  let stateId ← Domain.state d
  let attrib := Json.empty.set "id" (.int stateId)
  let attrib := attrib.set "string" (.str (← ofExcept (stateString stateId)))
  return output.set "state" (Json.empty.set "attrib" attrib)

/-- `ARRAY_KEYS`. -/
def arrayKeys : List String :=
  ["disk", "controller", "interface", "serial", "console", "channel", "input", "graphics", "sound",
    "audio", "video", "redirdev", "memballoon", "rng"]

/-- `output[key] = xml_output[key]` for all members of the converted document. -/
def integrate (output : Json) : Json → Json
  | .obj ms => ms.foldl (fun out m => out.set m.1 m.2) output
  | _ => output

/-- A single device of kind `key` is made an array of one. -/
def wrapArray (output : Json) (key : String) : Except Exn Json := do
  let (output, devices) ← output.index "devices"
  if ← devices.isMember key then
    let (devices, value) ← devices.index key
    if value.isObject then
      return output.set "devices" (devices.set key (.arr [value]))
    return output
  return output

/-- The block information of one disk, if it is a storage disk. -/
def addBlockInfo (d : DomainPtr) (disk : Json) : ViewM Json := do
  let (disk, device) ← ofExcept (disk.path ["attrib", "device"])
  if (← ofExcept device.asString) != "disk" then return disk
  let (disk, dev) ← ofExcept (disk.path ["target", "attrib", "dev"])
  let info ← Domain.blockInfo d (← ofExcept dev.asString)
  let blockInfo := Json.empty.set "unit" (.str "KiB")
  let blockInfo := blockInfo.set "capacity" (.int (info.capacity / 1000 : ℕ))
  let blockInfo := blockInfo.set "allocation" (.int (info.allocation / 1000 : ℕ))
  let blockInfo := blockInfo.set "physical" (.int (info.physical / 1000 : ℕ))
  ofExcept (disk.assign ["block_info"] blockInfo)

def addBlockInfos (d : DomainPtr) : List Json → ViewM (List Json)
  | [] => pure []
  | disk :: disks => do
    let disk ← addBlockInfo d disk
    return disk :: (← addBlockInfos d disks)

/-- `data::domain`. -/
def domain (L : Linked) (d : DomainPtr) : ViewM Json := do
  let output ← simpleDomain d
  let output := output.set "autostart" (.bool (← Domain.autostart d))
  let doc ← Domain.xmlDocument d L
  let output := integrate output (Json.ofNode (Xml.child "domain" doc))
  let output ← ofExcept (arrayKeys.foldlM wrapArray output)
  let (output, devices) ← ofExcept (output.index "devices")
  if ← ofExcept (devices.isMember "disk") then
    let (devices, disks) ← ofExcept (devices.index "disk")
    match disks with
    | .arr xs =>
      let xs ← addBlockInfos d xs
      return output.set "devices" (devices.set "disk" (.arr xs))
    | _ => return output
  return output

/-- The `sysinfo` member, which only root may read. -/
def addSysinfo (L : Linked) (conn user : User) (output : Json) : ViewM Json :=
  if user = "root" then do
    let doc := L.loadXml (cStr (← Conn.sysinfo conn))
    return output.set "sysinfo" (Json.ofNode (Xml.child "sysinfo" doc))
  else pure output

/-- `data::host`. -/
def host (L : Linked) (conn : User) : ViewM Json := do
  let output := Json.empty.set "hostname" (.str (← Conn.hostname conn))
  let output := output.set "libVersion" (.int (← Conn.libraryVersion conn))
  let output := output.set "uri" (.str (← Conn.uri conn))
  let output ← addSysinfo L conn (← Virt.user conn) output
  let output := output.set "version" (.int (← Conn.version conn))
  let output := output.set "encrypted" (.bool (← Conn.encrypted conn))
  let output := output.set "secure" (.bool (← Conn.secure conn))
  match ← Conn.type conn with
  | none => throwExn .jsonLogicError "Null Value Passed to Value Constructor"
  | some type =>
    let output := output.set "type" (.str type)
    let output := output.set "max_vcpus" (.int (← Conn.maxVcpus conn type))
    let doc := L.loadXml (cStr (← Conn.capabilities conn))
    let node := (Xml.child "capabilities" doc).bind fun c => Xml.child "host" c.children
    return output.set "caps" (Json.ofNode node)

def networkDocs (L : Linked) : List NetworkPtr → ViewM (List Json)
  | [] => pure []
  | n :: ns => do
    let doc ← networkXml L n
    return Json.ofNode (Xml.child "network" doc) :: (← networkDocs L ns)

/-- `data::networks`. -/
def networks (L : Linked) (conn : User) : ViewM Json := do
  let networks ← Conn.networks conn
  return .arr (← networkDocs L networks)

def simpleDomains : List DomainPtr → ViewM (List Json)
  | [] => pure []
  | d :: ds => do
    let j ← simpleDomain d
    return j :: (← simpleDomains ds)

/-! ## The documents are made of reads -/

theorem reads_simpleDomain (d : DomainPtr) : Reads (simpleDomain d) := by
  refine .bind (reads_perform rfl) fun id => ?_
  refine .bind (reads_getter rfl fun s => reads_fromCString s) fun name => ?_
  refine .bind (reads_perform rfl) fun title => ?_
  refine .bind (reads_perform rfl) fun description => ?_
  refine .bind (reads_state d) fun state => ?_
  exact .bind (ends_ofExcept _) fun _ => .pure _

theorem reads_addBlockInfo (d : DomainPtr) (disk : Json) : Reads (addBlockInfo d disk) := by
  refine .bind (ends_ofExcept _) fun _ => .bind (ends_ofExcept _) fun _ => ?_
  show Reads (if _ then _ else _)
  split_ifs
  · exact .pure _
  · refine .bind (ends_ofExcept _) fun _ => .bind (ends_ofExcept _) fun _ => ?_
    exact .bind (reads_perform rfl) fun _ => ends_ofExcept _

theorem reads_addBlockInfos (d : DomainPtr) (disks : List Json) : Reads (addBlockInfos d disks) := by
  induction disks with
  | nil => exact .pure _
  | cons disk disks ih => exact .bind (reads_addBlockInfo d disk) fun _ => .bind ih fun _ => .pure _

theorem reads_domain (L : Linked) (d : DomainPtr) : Reads (domain L d) := by
  refine .bind (reads_simpleDomain d) fun output => ?_
  refine .bind (reads_autostart d) fun autostart => .bind (reads_xmlDocument d L) fun doc => ?_
  refine .bind (ends_ofExcept _) fun _ => .bind (ends_ofExcept _) fun _ => ?_
  refine .bind (ends_ofExcept _) fun hasDisk => ?_
  show Reads (if _ then _ else _)
  split_ifs
  · refine .bind (ends_ofExcept _) fun disks => ?_
    obtain ⟨devices, disks⟩ := disks
    cases disks with
    | arr xs => exact .bind (reads_addBlockInfos d xs) fun _ => .pure _
    | _ => exact .pure _
  · exact .pure _

theorem reads_networkDocs (L : Linked) (ns : List NetworkPtr) : Reads (networkDocs L ns) := by
  induction ns with
  | nil => exact .pure _
  | cons n ns ih => exact .bind (reads_networkXml L n) fun _ => .bind ih fun _ => .pure _

theorem reads_networks (L : Linked) (conn : User) : Reads (networks L conn) :=
  .bind (reads_perform rfl) fun ns => .bind (reads_networkDocs L ns) fun _ => .pure _

theorem reads_simpleDomains (ds : List DomainPtr) : Reads (simpleDomains ds) := by
  induction ds with
  | nil => exact .pure _
  | cons d ds ih => exact .bind (reads_simpleDomain d) fun _ => .bind ih fun _ => .pure _

theorem reads_host (L : Linked) (conn : User) : Reads (host L conn) := by
  refine .bind (reads_getter rfl fun s => reads_fromCString s) fun hostname => ?_
  refine .bind (reads_getter rfl fun _ => .pure _) fun libVersion => ?_
  refine .bind (reads_getter rfl fun s => reads_fromCString s) fun uri => ?_
  refine .bind (reads_user conn) fun user => ?_
  refine .bind ?_ fun output => ?_
  · unfold addSysinfo
    split_ifs
    · exact .bind (reads_getter rfl fun s => reads_fromCString s) fun _ => .pure _
    · exact .pure _
  refine .bind (reads_getter rfl fun _ => .pure _) fun version => ?_
  refine .bind (reads_getter rfl fun _ => .pure _) fun encrypted => ?_
  refine .bind (reads_getter rfl fun _ => .pure _) fun secure => ?_
  refine .bind (reads_perform rfl) fun type => ?_
  cases type with
  | none => exact ends_throwExn _ _
  | some type =>
    refine .bind (reads_perform rfl) fun maxVcpus => ?_
    exact .bind (reads_getter rfl fun s => reads_fromCString s) fun _ => .pure _

/-! ## When `simple_domain` returns -/

section

variable {σ : Type} (answer : σ → (o : Op) → Op.Res o × σ) (w : σ) (d : DomainPtr)

/-- No call is interrupted, the name is not null, and the state is one of `virDomainState`. -/
def Described : Prop :=
  let id := answer w (.libvirt (.virDomainGetID d))
  let name := answer id.2 (.libvirt (.virDomainGetName d))
  let title := answer name.2 (.libvirt (.virDomainGetMetadata d .title))
  let description := answer title.2 (.libvirt (.virDomainGetMetadata d .description))
  let old := answer description.2 .uninitialised
  let state := answer old.2 (.libvirt (.virDomainGetState d))
  (∃ i, id.1 = .ok i) ∧ (∃ s, name.1 = .ok (some s)) ∧ (∃ s, title.1 = .ok s) ∧
    (∃ s, description.1 = .ok s) ∧
    ∃ s : Option ℤ, state.1 = .ok s ∧ 0 ≤ s.getD old.1 ∧ s.getD old.1 ≤ 7

theorem exists_and_congr {α : Type} {P Q : α → Prop} {R : Prop} (h : ∀ a, Q a ↔ R) :
    (∃ a, P a ∧ Q a) ↔ (∃ a, P a) ∧ R := by
  constructor
  · rintro ⟨a, hp, hq⟩
    exact ⟨⟨a, hp⟩, (h a).mp hq⟩
  · rintro ⟨⟨a, hp⟩, hr⟩
    exact ⟨a, hp, (h a).mpr hr⟩

variable {answer w d}

theorem returns_state {β : Type} {f : ℤ → ViewM β} {r : Http.Response} :
    (Domain.state d >>= f).Returns answer r w ↔
      ∃ s : Option ℤ, (answer (answer w .uninitialised).2 (.libvirt (.virDomainGetState d))).1 = .ok s ∧
        (f (s.getD (answer w .uninitialised).1)).Returns answer r
          (answer (answer w .uninitialised).2 (.libvirt (.virDomainGetState d))).2 := by
  unfold Domain.state Domain.getState uninitialised
  rw [Eff.returns_bind_assoc,
    Eff.returns_bind_of_ok answer (Eff.exec_call answer Op.uninitialised r w),
    Eff.returns_bind_assoc, returns_perform]
  rfl

theorem returns_name {β : Type} {f : String → ViewM β} {r : Http.Response} :
    (Domain.name d >>= f).Returns answer r w ↔
      ∃ s, (answer w (.libvirt (.virDomainGetName d))).1 = .ok (some s) ∧
        (f s).Returns answer r (answer w (.libvirt (.virDomainGetName d))).2 := by
  unfold Domain.name
  rw [Eff.returns_bind_assoc, returns_perform]
  constructor
  · rintro ⟨x, hx, h⟩
    obtain ⟨s, rfl, hs⟩ := returns_fromCString.mp h
    exact ⟨s, hx, hs⟩
  · rintro ⟨s, hs, h⟩
    exact ⟨some s, hs, returns_fromCString.mpr ⟨s, rfl, h⟩⟩

theorem returns_simpleDomain_iff (r : Http.Response) :
    (simpleDomain d).Returns answer r w ↔ Described answer w d := by
  unfold simpleDomain Domain.id Domain.title Domain.description Domain.metadata Described
  rw [returns_perform]
  refine exists_and_congr fun id => ?_
  rw [returns_name]
  refine exists_and_congr fun name => ?_
  rw [returns_perform]
  refine exists_and_congr fun title => ?_
  rw [returns_perform]
  refine exists_and_congr fun description => ?_
  rw [returns_state]
  refine exists_congr fun state => and_congr_right fun _ => ?_
  rw [returns_ofExcept, ← stateString_ok_iff]
  exact exists_congr fun text => and_iff_left ⟨_, rfl⟩

end

end Webvirtd.Data
