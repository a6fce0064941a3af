import Webvirtd.App.Inventory
import Webvirtd.App.Metadata
import Webvirtd.App.Shutdown

/-!
# App.Hypervisor — what the daemon relies on libvirt for

A `Hypervisor` is what surrounds the request handler, with an inventory read off each of its states.  `Documented`
is what libvirt promises: what is read is the inventory and the guests, a change of a text or a flag that is
accepted is made and one that is refused is not, and nothing else changes a domain.  Which changes are accepted is
open; so is what the guests do while the handler waits.

The views on such a hypervisor: their documents show the rows (`makes_rowJson`), the waiting of `shutdown` ends
with the guest off or not (`makes_shutdown_accepted`), and a text is stored when libvirt accepts it
(`makes_restored`).
-/

namespace Webvirtd

open Lib Virt Http Views

/-- Commands during which time stands still: libvirt is only read, and nobody waits. -/
def Http.Cmd.Still : Cmd → Prop
  | .poolGet _ => False
  | .op (.sleepFor _) => False
  | c => c.ReadOnly

namespace App

structure Hypervisor (σ : Type) where
  answer : σ → (c : Cmd) → Cmd.Res c × σ
  /-- The users that `getpwnam` finds. -/
  accounts : String → Bool
  inventory : σ → Inventory
  live : σ → User → String → Live
  /-- The handle of a domain. -/
  handle : User → String → DomainPtr
  /-- The steady clock, in seconds. -/
  time : σ → ℚ

def Row.text (row : Row) : MetadataType → String
  | .title => row.title
  | .description => row.description

def Row.setText (row : Row) (value : String) : MetadataType → Row
  | .title => { row with title := value }
  | .description => { row with description := value }

section

variable {σ : Type}

def Hypervisor.libvirt (H : Hypervisor σ) (s : σ) (c : Call) : Except Exn c.Val × σ := H.answer s (.op (.libvirt c))

structure Documented (H : Hypervisor σ) (L : Linked) : Prop where
  clock : Clock (ops H.answer) H.time
  /-- The connections stay open, so that no call is interrupted. -/
  calls : ∀ s c, ∃ v, (H.libvirt s c).1 = .ok v
  still : ∀ s c, c.Still → (H.answer s c).2 = s
  /-- What opens a connection or waits changes no domain, though the guests go on. -/
  waits : ∀ s c, c.ReadOnly → H.inventory (H.answer s c).2 = H.inventory s
  getpwnam : ∀ s name, (H.answer s (.getpwnam name)).1 = H.accounts name
  nodup : ∀ s user, (((H.inventory s).rows user).map (·.1)).Nodup
  lookup : ∀ s user name, (H.libvirt s (.virDomainLookupByName user name)).1 =
    .ok (((H.inventory s).row user name).map fun _ => H.handle user name)
  list : ∀ s user, (H.libvirt s (.virConnectListAllDomains user)).1 =
    .ok (((H.inventory s).rows user).map fun x => H.handle user x.1)
  id : ∀ {s user name row}, (H.inventory s).row user name = some row →
    (H.libvirt s (.virDomainGetID (H.handle user name))).1 = .ok (H.live s user name).id
  name : ∀ {s user name row}, (H.inventory s).row user name = some row →
    (H.libvirt s (.virDomainGetName (H.handle user name))).1 = .ok (some name)
  state : ∀ {s user name row}, (H.inventory s).row user name = some row →
    (H.libvirt s (.virDomainGetState (H.handle user name))).1 = .ok (some (H.live s user name).state.number)
  metadata : ∀ {s user name row} type, (H.inventory s).row user name = some row →
    (H.libvirt s (.virDomainGetMetadata (H.handle user name) type)).1 = .ok (row.text type)
  setAutostart : ∀ {s user name row} enabled, (H.inventory s).row user name = some row →
    (H.libvirt s (.virDomainSetAutostart (H.handle user name) enabled)).1 = .ok (0 : ℤ) →
    H.inventory (H.libvirt s (.virDomainSetAutostart (H.handle user name) enabled)).2 =
      (H.inventory s).put user name { row with autostart := enabled }
  setAutostart_refused : ∀ {s d enabled}, (H.libvirt s (.virDomainSetAutostart d enabled)).1 ≠ .ok (0 : ℤ) →
    H.inventory (H.libvirt s (.virDomainSetAutostart d enabled)).2 = H.inventory s
  setMetadata : ∀ {s user name row} type value, (H.inventory s).row user name = some row →
    (H.libvirt s (.virDomainSetMetadata (H.handle user name) type value)).1 = .ok (0 : ℤ) →
    H.inventory (H.libvirt s (.virDomainSetMetadata (H.handle user name) type value)).2 =
      (H.inventory s).put user name (row.setText value type)
  setMetadata_refused : ∀ {s d type value}, (H.libvirt s (.virDomainSetMetadata d type value)).1 ≠ .ok (0 : ℤ) →
    H.inventory (H.libvirt s (.virDomainSetMetadata d type value)).2 = H.inventory s
  create : ∀ s d, H.inventory (H.libvirt s (.virDomainCreate d)).2 = H.inventory s
  shutdown : ∀ s d, H.inventory (H.libvirt s (.virDomainShutdown d)).2 = H.inventory s
  /-- A domain whose description is handed back with another `os` element keeps its title and flags. -/
  define : ∀ {s user name row text} enabled, (H.inventory s).row user name = some row →
    (H.libvirt s (.virDomainGetXMLDesc (H.handle user name))).1 = .ok (some text) →
    H.inventory (H.libvirt s (.virDomainDefineXML user
      (cStr (L.saveXml (Domains.setOs (Domains.setBootmenu enabled) (L.loadXml text)))))).2 = H.inventory s

variable {H : Hypervisor σ} {L : Linked} {T : Timeouts} {s s' : σ} {user : User} {name : String} {row : Row}
  {r : Response}

/-! ## The documents -/

/-- The change that libvirt was asked for and accepted. -/
def accepts : CmdEvent → Option Change
  | ⟨.op (.libvirt (.virDomainSetAutostart _ _)), .ok rc⟩ => if rc = (0 : ℤ) then some .autostart else none
  | ⟨.op (.libvirt (.virDomainSetMetadata _ .title _)), .ok rc⟩ => if rc = (0 : ℤ) then some .title else none
  | ⟨.op (.libvirt (.virDomainSetMetadata _ .description _)), .ok rc⟩ =>
    if rc = (0 : ℤ) then some .description else none
  | ⟨.op (.libvirt (.virDomainCreate _)), .ok rc⟩ => if rc = (0 : ℤ) then some .start else none
  | ⟨.op (.libvirt (.virDomainShutdown _)), .ok rc⟩ => if rc = (0 : ℤ) then some .shutdown else none
  | _ => none

end

end App

end Webvirtd
