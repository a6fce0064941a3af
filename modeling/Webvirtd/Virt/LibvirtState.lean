import Webvirtd.Lib.Fault
import Webvirtd.Views

/-!
# Virt.LibvirtState — libvirt as a state, on which each call acts at once

The state holds the domains of all connections; a domain is active when it has an id.  `Libvirt.call` is
what the calls of the views answer and do.  What is not about a domain's state is a parameter: the
documents that can be read (`look`) and what `virDomainDefineXML` makes of one (`define`).  Nothing waits
here, so the clock stands still.

This libvirt refuses nothing that it need not refuse, which is enough for the interruptions of one request.  For
sessions, what it accepts is left open, and how long a guest takes to shut down (`App.Hypervisor`).

`interrupted` is the exception that the close callback throws out of a call.
-/

namespace Webvirtd.Virt

open Lib

structure DomainState where
  conn : User
  name : String
  /-- The id of the guest, when it is active. -/
  id : Option ℕ := none
  title : String := ""
  description : String := ""
  autostart : Bool := false
  definition : String := ""
  deriving DecidableEq, Repr

namespace DomainState

def metadata (dom : DomainState) : MetadataType → String
  | .title => dom.title
  | .description => dom.description

def setMetadata (dom : DomainState) (value : String) : MetadataType → DomainState
  | .title => { dom with title := value }
  | .description => { dom with description := value }

end DomainState

/-- A domain is named by its position. -/
structure LibvirtState where
  domains : List DomainState := []
  nextId : ℕ := 1
  deriving DecidableEq, Repr

namespace LibvirtState

variable (w : LibvirtState)

def dom (d : DomainPtr) : Option DomainState := w.domains[d]?

def setDom (d : DomainPtr) (dom : DomainState) : LibvirtState :=
  { w with domains := w.domains.set d dom }

def lookup (conn : User) (name : String) : Option DomainPtr :=
  w.domains.findIdx? fun dom => dom.conn = conn && dom.name = name

def list (conn : User) : List DomainPtr :=
  (List.range w.domains.length).filter fun d => (w.dom d).any fun dom => dom.conn = conn

/-- The guest has been started. -/
def activate (d : DomainPtr) (dom : DomainState) : LibvirtState :=
  { w.setDom d { dom with id := some w.nextId } with nextId := w.nextId + 1 }

/-- The guest is off. -/
def deactivate (d : DomainPtr) (dom : DomainState) : LibvirtState := w.setDom d { dom with id := none }

end LibvirtState

/-- What is around the state of the domains. -/
structure Libvirt where
  getpwnam : String → Bool
  poolGet : User → Except Exn Unit
  look : LibvirtState → (c : Call) → c.Val
  define : LibvirtState → User → String → Option DomainPtr × LibvirtState
  uninitialised : ℤ
  now : ℚ

namespace Libvirt

variable (H : Libvirt)

/-- What a call answers, and the state after it.  `virDomainCreate` fails on an active domain,
`virDomainShutdown` on an inactive one, and a title has one line. -/
def call (w : LibvirtState) : (c : Call) → c.Val × LibvirtState
  | .virDomainLookupByName conn name => (w.lookup conn name, w)
  | .virConnectListAllDomains conn => (w.list conn, w)
  | .virDomainCreate d =>
    match w.dom d with
    | some dom => if dom.id.isSome then (-1, w) else (0, w.activate d dom)
    | none => (-1, w)
  | .virDomainShutdown d =>
    match w.dom d with
    | some dom => if dom.id.isSome then (0, w.deactivate d dom) else (-1, w)
    | none => (-1, w)
  | .virDomainGetState d =>
    ((w.dom d).map fun dom => if dom.id.isSome then (1 : ℤ) else stateShutoff, w)
  | .virDomainGetID d => (match (w.dom d).bind (·.id) with
    | some id => (id : ℤ)
    | none => -1, w)
  | .virDomainGetName d => ((w.dom d).map (·.name), w)
  | .virDomainGetAutostart d => ((w.dom d).map fun dom => if dom.autostart then (1 : ℤ) else 0, w)
  | .virDomainSetAutostart d enabled =>
    match w.dom d with
    | some dom => (0, w.setDom d { dom with autostart := enabled })
    | none => (-1, w)
  | .virDomainGetMetadata d type => (((w.dom d).map fun dom => dom.metadata type).getD "", w)
  | .virDomainSetMetadata d type value =>
    match w.dom d with
    | some dom =>
      if type = .title ∧ '\n' ∈ value.toList then (-1, w)
      else (0, w.setDom d (dom.setMetadata value type))
    | none => (-1, w)
  | .virDomainDefineXML conn xml => H.define w conn xml
  | c => (H.look w c, w)

/-- The environment of the views. -/
def answer (w : LibvirtState) : (o : Op) → Op.Res o × LibvirtState
  | .libvirt c => (.ok (H.call w c).1, (H.call w c).2)
  | .user conn => (conn, w)
  | .uninitialised => (H.uninitialised, w)
  | .now => (H.now, w)
  | .sleepFor _ => ((), w)

end Libvirt

/-- What the close callback throws. -/
def interrupted : Exn := ⟨.retryError, "libvirt connection closed"⟩

/-- A libvirt call may be interrupted. -/
def opFault : (o : Op) → Option (Op.Res o)
  | .libvirt _ => some (.error interrupted)
  | _ => none

section

variable {H : Libvirt} {A : Call → Prop} {F : Failure → Prop} {α : Type} {m : ViewM α}

theorem call_of_reads {c : Call} (h : c.writes = false) (w : LibvirtState) : (H.call w c).2 = w := by
  cases c with
  | virDomainCreate d => cases h
  | virDomainSetAutostart d enabled => cases h
  | virDomainSetMetadata d type value => cases h
  | virDomainDefineXML conn xml => cases h
  | virDomainShutdown d => cases h
  | _ => rfl

theorem answer_of_readOnly {o : Op} (h : o.ReadOnly) (w : LibvirtState) : (H.answer w o).2 = w := by
  cases o with
  | libvirt c => exact call_of_reads h w
  | _ => rfl

theorem stops_perform (c : Call) : Eff.Stops opFault (.exn interrupted) (perform c) := by
  intro s
  refine ⟨fun r => ?_, fun r hr => ?_⟩
  · cases r with
    | ok v => trivial
    | error e => trivial
  · obtain rfl : .error interrupted = r := Option.some.inj hr
    exact ⟨_, rfl, rfl⟩

/-- An interruption ends the views: none of their handlers catches `retry_error`. -/
theorem ViewM.MadeOf.stops (hm : ViewM.MadeOf A F m) : m.Stops opFault (.exn interrupted) := by
  refine Eff.MadeOf.stops (fun γ m h => ?_) ?_ hm
  · cases h with
    | perform c hc => exact stops_perform c
    | ask o ho =>
      refine .call ?_
      cases o with
      | libvirt c => exact absurd rfl (ho c)
      | _ => rfl
  · rfl

end

/-! ## The wrappers on a state -/

section

variable {H : Libvirt} {r : Http.Response} {w : LibvirtState} {d : DomainPtr} {dom : DomainState}

/-- `m` makes its libvirt calls in the states `ws`. -/
abbrev ViewM.Plays (H : Libvirt) {α : Type} (m : ViewM α) (r : Http.Response) (w : LibvirtState)
    (ws : List LibvirtState) (res : Except Failure α) (r' : Http.Response) (w' : LibvirtState) :
    Prop :=
  Eff.Plays H.answer opFault m r w ws res r' w'

theorem plays_perform (c : Call) :
    ViewM.Plays H (perform c) r w [w] (.ok (H.call w c).1) r (H.call w c).2 :=
  Eff.Plays.bind (f := ofExcept)
    (Eff.Plays.interruptible (c := Op.libvirt c) (r := .error interrupted) rfl r w)
    (Eff.Plays.pure (H.call w c).1 r _)

@[simp] theorem dom_setDom (hd : w.dom d = some dom) (dom' : DomainState) :
    (w.setDom d dom').dom d = some dom' := by
  obtain ⟨hlt, -⟩ := List.getElem?_eq_some_iff.mp hd
  exact List.getElem?_set_self hlt

theorem setDom_setDom (a b : DomainState) : (w.setDom d a).setDom d b = w.setDom d b := by
  unfold LibvirtState.setDom
  rw [List.set_set]

theorem setDom_self (hd : w.dom d = some dom) : w.setDom d dom = w := by
  obtain ⟨hlt, hget⟩ := List.getElem?_eq_some_iff.mp hd
  unfold LibvirtState.setDom
  rw [← hget, List.set_getElem_self]

theorem exists_dom_of_lookup {conn : User} {name : String} (h : w.lookup conn name = some d) :
    ∃ dom, w.dom d = some dom := by
  obtain ⟨hlt, -⟩ := List.findIdx?_eq_some_iff_getElem.mp h
  exact ⟨_, List.getElem?_eq_getElem hlt⟩

/-- A domain is found by its connection and its name. -/
theorem lookup_setDom (hd : w.dom d = some dom) (dom' : DomainState) (hconn : dom'.conn = dom.conn)
    (hname : dom'.name = dom.name) (conn : User) (name : String) :
    (w.setDom d dom').lookup conn name = w.lookup conn name := by
  have hset : w.domains.set d dom = w.domains := congrArg LibvirtState.domains (setDom_self hd)
  have hkeys : (w.domains.set d dom').map (fun dom => (dom.conn, dom.name)) =
      w.domains.map fun dom => (dom.conn, dom.name) := by
    conv_rhs => rw [← hset]
    rw [List.map_set, List.map_set, hconn, hname]
  have hfind : ∀ ds : List DomainState, (ds.findIdx? fun dom => dom.conn = conn && dom.name = name) =
      (ds.map fun dom => (dom.conn, dom.name)).findIdx? fun key => key.1 = conn && key.2 = name := by
    intro ds
    rw [List.findIdx?_map]
    rfl
  show List.findIdx? _ (w.domains.set d dom') = List.findIdx? _ w.domains
  rw [hfind, hfind, hkeys]

theorem lookup_activate (hd : w.dom d = some dom) (conn : User) (name : String) :
    (w.activate d dom).lookup conn name = w.lookup conn name :=
  lookup_setDom hd { dom with id := some w.nextId } rfl rfl conn name

theorem lookup_deactivate (hd : w.dom d = some dom) (conn : User) (name : String) :
    (w.deactivate d dom).lookup conn name = w.lookup conn name :=
  lookup_setDom hd { dom with id := none } rfl rfl conn name

/-- A call, and a value that depends on what it answers. -/
theorem plays_call {α : Type} {c : Call} {w' : LibvirtState} {f : c.Val → ViewM α} {v : α}
    (hc : (H.call w c).2 = w') (hf : f (H.call w c).1 = pure v) :
    ViewM.Plays H (perform c >>= f) r w [w] (.ok v) r w' := by
  have h := plays_perform (H := H) (r := r) (w := w) c
  rw [hc] at h
  have hv : ViewM.Plays H (f (H.call w c).1) r w' [] (.ok v) r w' := by
    rw [hf]
    exact Eff.Plays.pure v r w'
  exact Eff.Plays.bind h hv

end

end Webvirtd.Virt
