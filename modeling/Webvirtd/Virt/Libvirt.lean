import Mathlib.Data.Rat.Floor
import Webvirtd.Http.Types
import Webvirtd.Lib.Prog

/-!
# Virt.Libvirt — the libvirt calls of the views, `virt::domain` and the wrappers around them

`Op` lists what a view asks of its environment: libvirt calls (`Call`), the steady clock, the user of
a pool entry, and the contents of uninitialised locals.  A libvirt call may raise an exception of its own:
the close callback runs inside it and throws.  A connection is named by the pool entry that the view holds
a reference to.
-/

namespace Webvirtd.Virt

open Lib

abbrev DomainPtr := ℕ
abbrev NetworkPtr := ℕ

inductive MetadataType
  | title | description
  deriving DecidableEq, Repr

/-- `virDomainBlockInfo`, in bytes. -/
structure BlockInfo where
  capacity : ℕ
  allocation : ℕ
  physical : ℕ
  deriving DecidableEq, Repr

/-- The libvirt functions that the views call. -/
inductive Call
  | virConnectGetCapabilities (conn : User)
  | virConnectGetHostname (conn : User)
  | virConnectGetLibVersion (conn : User)
  | virConnectGetMaxVcpus (conn : User) (type : String)
  | virConnectGetSysinfo (conn : User)
  | virConnectGetType (conn : User)
  | virConnectGetURI (conn : User)
  | virConnectGetVersion (conn : User)
  | virConnectIsEncrypted (conn : User)
  | virConnectIsSecure (conn : User)
  | virConnectListAllDomains (conn : User)
  | virConnectListAllNetworks (conn : User)
  | virDomainLookupByName (conn : User) (name : String)
  | virDomainCreate (d : DomainPtr)
  | virDomainGetState (d : DomainPtr)
  | virDomainGetID (d : DomainPtr)
  | virDomainGetName (d : DomainPtr)
  | virDomainGetAutostart (d : DomainPtr)
  | virDomainSetAutostart (d : DomainPtr) (enabled : Bool)
  | virDomainGetMetadata (d : DomainPtr) (type : MetadataType)
  | virDomainSetMetadata (d : DomainPtr) (type : MetadataType) (metadata : String)
  | virDomainGetXMLDesc (d : DomainPtr)
  | virDomainDefineXML (conn : User) (xml : String)
  | virDomainGetBlockInfo (d : DomainPtr) (device : String)
  | virDomainShutdown (d : DomainPtr)
  | virNetworkGetXMLDesc (n : NetworkPtr)
  deriving DecidableEq

/-- Results.  A C string that may be null is an `Option`, and so is an output parameter that a failing
call leaves untouched. -/
@[reducible] def Call.Val : Call → Type
  | .virConnectGetCapabilities _ => Option String
  | .virConnectGetHostname _ => Option String
  | .virConnectGetLibVersion _ => Option ℕ
  | .virConnectGetMaxVcpus _ _ => ℤ
  | .virConnectGetSysinfo _ => Option String
  | .virConnectGetType _ => Option String
  | .virConnectGetURI _ => Option String
  | .virConnectGetVersion _ => Option ℕ
  | .virConnectIsEncrypted _ => ℤ
  | .virConnectIsSecure _ => ℤ
  | .virConnectListAllDomains _ => List DomainPtr
  | .virConnectListAllNetworks _ => List NetworkPtr
  | .virDomainLookupByName _ _ => Option DomainPtr
  | .virDomainCreate _ => ℤ
  | .virDomainGetState _ => Option ℤ
  | .virDomainGetID _ => ℤ
  | .virDomainGetName _ => Option String
  | .virDomainGetAutostart _ => Option ℤ
  | .virDomainSetAutostart _ _ => ℤ
  | .virDomainGetMetadata _ _ => String
  | .virDomainSetMetadata _ _ _ => ℤ
  | .virDomainGetXMLDesc _ => Option String
  | .virDomainDefineXML _ _ => Option DomainPtr
  | .virDomainGetBlockInfo _ _ => BlockInfo
  | .virDomainShutdown _ => ℤ
  | .virNetworkGetXMLDesc _ => Option String

/-- What a call gives when it fails. -/
def Call.failed : (c : Call) → c.Val
  | .virConnectGetCapabilities _ => none
  | .virConnectGetHostname _ => none
  | .virConnectGetLibVersion _ => none
  | .virConnectGetMaxVcpus _ _ => (-1 : ℤ)
  | .virConnectGetSysinfo _ => none
  | .virConnectGetType _ => none
  | .virConnectGetURI _ => none
  | .virConnectGetVersion _ => none
  | .virConnectIsEncrypted _ => (-1 : ℤ)
  | .virConnectIsSecure _ => (-1 : ℤ)
  | .virConnectListAllDomains _ => []
  | .virConnectListAllNetworks _ => []
  | .virDomainLookupByName _ _ => none
  | .virDomainCreate _ => (-1 : ℤ)
  | .virDomainGetState _ => none
  | .virDomainGetID _ => (-1 : ℤ)
  | .virDomainGetName _ => none
  | .virDomainGetAutostart _ => none
  | .virDomainSetAutostart _ _ => (-1 : ℤ)
  | .virDomainGetMetadata _ _ => ""
  | .virDomainSetMetadata _ _ _ => (-1 : ℤ)
  | .virDomainGetXMLDesc _ => none
  | .virDomainDefineXML _ _ => none
  | .virDomainGetBlockInfo _ _ => ⟨0, 0, 0⟩
  | .virDomainShutdown _ => (-1 : ℤ)
  | .virNetworkGetXMLDesc _ => none

/-- The calls that change a domain. -/
def Call.writes : Call → Bool
  | .virDomainCreate _ => true
  | .virDomainSetAutostart _ _ => true
  | .virDomainSetMetadata _ _ _ => true
  | .virDomainDefineXML _ _ => true
  | .virDomainShutdown _ => true
  | _ => false

inductive Op
  /-- A libvirt call, which may raise an exception. -/
  | libvirt (c : Call)
  /-- `conn.user()`, read from the entry. -/
  | user (conn : User)
  /-- The content of a local `int` that was not initialised. -/
  | uninitialised
  /-- `steady_clock::now()` in seconds. -/
  | now
  | sleepFor (milliseconds : ℕ)
  deriving DecidableEq

@[reducible] def Op.Res : Op → Type
  | .libvirt c => Except Exn c.Val
  | .user _ => User
  | .uninitialised => ℤ
  | .now => ℚ
  | .sleepFor _ => Unit

/-- Nothing but reading libvirt calls. -/
def Op.ReadOnly : Op → Prop
  | .libvirt c => c.writes = false
  | _ => True

/-- Computations of the views: libvirt calls, the response they fill in, exceptions. -/
abbrev ViewM (α : Type) : Type := Eff Op Op.Res Http.Response Failure α

def throwExn {α : Type} (cls : ExnClass) (what : String) : ViewM α :=
  Eff.throw (.exn ⟨cls, what⟩)

def ofExcept {α : Type} : Except Exn α → ViewM α
  | .ok a => pure a
  | .error e => Eff.throw (.exn e)

theorem ofExcept_ok {α : Type} (a : α) : ofExcept (.ok a) = (pure a : ViewM α) := rfl

def perform (c : Call) : ViewM c.Val := Eff.call (Op.libvirt c) >>= ofExcept

def user (conn : User) : ViewM User := Eff.call (Op.user conn)

def uninitialised : ViewM ℤ := Eff.call Op.uninitialised

def now : ViewM ℚ := Eff.call Op.now

def sleepFor (milliseconds : ℕ) : ViewM Unit := Eff.call (Op.sleepFor milliseconds)

/-- What `c_str()` passes on: the text up to the first NUL. -/
def cStr (s : String) : String := String.ofList (s.toList.takeWhile (· != Char.ofNat 0))

/-- `from_c_string` and `std::string(const char *)`. -/
def fromCString : Option String → ViewM String
  | some s => pure s
  | none => throwExn .logicError "basic_string: construction from null is not valid"

/-! ## `virt::connection` -/

namespace Conn

variable (conn : User)

def capabilities : ViewM String := perform (.virConnectGetCapabilities conn) >>= fromCString

def hostname : ViewM String := perform (.virConnectGetHostname conn) >>= fromCString

def libraryVersion : ViewM ℕ := do return (← perform (.virConnectGetLibVersion conn)).getD 0

def maxVcpus (type : String) : ViewM ℤ := perform (.virConnectGetMaxVcpus conn type)

def sysinfo : ViewM String := perform (.virConnectGetSysinfo conn) >>= fromCString

def type : ViewM (Option String) := perform (.virConnectGetType conn)

def uri : ViewM String := perform (.virConnectGetURI conn) >>= fromCString

def version : ViewM ℕ := do return (← perform (.virConnectGetVersion conn)).getD 0

def encrypted : ViewM Bool := do return (← perform (.virConnectIsEncrypted conn)) != (0 : ℤ)

def secure : ViewM Bool := do return (← perform (.virConnectIsSecure conn)) != (0 : ℤ)

def domains : ViewM (List DomainPtr) := perform (.virConnectListAllDomains conn)

def networks : ViewM (List NetworkPtr) := perform (.virConnectListAllNetworks conn)

/-- `conn.domain(name)`. -/
def domain (name : String) : ViewM DomainPtr := do
  match ← perform (.virDomainLookupByName conn (cStr name)) with
  | some d => pure d
  | none => throwExn .domainError "virDomainLookupByName error"

end Conn

/-! ## `virt::domain` -/

/-- `virDomainState`. -/
def stateStrings : List (ℤ × String) :=
  [(0, "None"), (1, "Running"), (2, "Blocked"), (3, "Paused"), (4, "Shutdown"), (5, "Shutoff"),
    (6, "Crashed"), (7, "Suspended")]

/-- `VIR_DOMAIN_SHUTDOWN` and `VIR_DOMAIN_SHUTOFF`. -/
def stateShutdown : ℤ := 4
def stateShutoff : ℤ := 5

/-- `virt::state_string`. -/
def stateString (state : ℤ) : Except Exn String :=
  match stateStrings.lookup state with
  | some s => .ok s
  | none => .error ⟨.outOfRange, "map::at"⟩

/-- The settings that `shutdown` reads, in seconds. -/
structure Timeouts where
  shutdown : ℚ
  shutoff : ℚ

/-- More sleeps of 20 milliseconds than fit in `timeout` seconds. -/
def pollBound (timeout : ℚ) : ℕ := ⌊timeout * 50⌋₊ + 1

namespace Domain

variable (d : DomainPtr)

def id : ViewM ℤ := perform (.virDomainGetID d)

def name : ViewM String := perform (.virDomainGetName d) >>= fromCString

/-- `virDomainGetState` into a variable that holds `old`. -/
def getState (old : ℤ) : ViewM ℤ := do return (← perform (.virDomainGetState d)).getD old

def state : ViewM ℤ := do
  let old ← uninitialised
  getState d old

def autostart : ViewM Bool := do
  let old ← uninitialised
  let autostart := (← perform (.virDomainGetAutostart d)).getD old
  return autostart != (0 : ℤ)

def setAutostart (enabled : Bool) : ViewM Unit := do
  let _ ← perform (.virDomainSetAutostart d enabled)
  return ()

def metadata (type : MetadataType) : ViewM String := perform (.virDomainGetMetadata d type)

def setMetadata (type : MetadataType) (metadata : String) : ViewM Bool := do
  return (← perform (.virDomainSetMetadata d type (cStr metadata))) == (0 : ℤ)

def title : ViewM String := metadata d .title

def description : ViewM String := metadata d .description

def xmlDesc : ViewM String := perform (.virDomainGetXMLDesc d) >>= fromCString

def xmlDocument (L : Linked) : ViewM (List Xml) := do return L.loadXml (← xmlDesc d)

def blockInfo (device : String) : ViewM BlockInfo := perform (.virDomainGetBlockInfo d (cStr device))

def start : ViewM Bool := do return (← perform (.virDomainCreate d)) == (0 : ℤ)

/-- `(1 << state) & mask`, where `mask` is the sum of `1 << t` over `targets`. -/
def inTargets (targets : List ℤ) (state : ℤ) : Bool := targets.contains state

/-- One of the two loops of `shutdown`: poll the state every 20 milliseconds until it is one of
`targets`, at most until `timeout` seconds have passed since `start`. -/
def poll (targets : List ℤ) (timeout start : ℚ) (what : String) : ℕ → ℤ → ViewM ℤ
  | fuel, old => do
    let state ← getState d old
    if inTargets targets state then pure state
    else
      let now ← Virt.now
      if now - start > timeout then throwExn .outOfRange what
      else
        sleepFor 20
        match fuel with
        | 0 => Eff.throw .outOfFuel
        | fuel + 1 => poll targets timeout start what fuel state

/-- One round of the loop. -/
theorem poll_eq (targets : List ℤ) (timeout start : ℚ) (what : String) (fuel : ℕ) (old : ℤ) :
    poll d targets timeout start what fuel old = (do
      let state ← getState d old
      if inTargets targets state then pure state
      else
        let now ← Virt.now
        if now - start > timeout then throwExn .outOfRange what
        else
          sleepFor 20
          match fuel with
          | 0 => Eff.throw .outOfFuel
          | fuel + 1 => poll d targets timeout start what fuel state) := by
  cases fuel with
  | zero => rfl
  | succ fuel => rfl

def shutdown (T : Timeouts) : ViewM Bool := do
  let rc ← perform (.virDomainShutdown d)
  if rc != (0 : ℤ) then return false
  let start ← Virt.now
  let state ← poll d [stateShutdown, stateShutoff] T.shutdown start
    (toString T.shutdown ++ " second timeout exceeded") (pollBound T.shutdown) 0
  let start ← Virt.now
  let _ ← poll d [stateShutoff] T.shutoff start "15 second shutdown timeout exceeded"
    (pollBound T.shutoff) state
  return true

end Domain

/-- `virt::network::xml_document`. -/
def networkXml (L : Linked) (n : NetworkPtr) : ViewM (List Xml) := do
  let desc ← perform (.virNetworkGetXMLDesc n) >>= fromCString
  return L.loadXml desc

/-! ## What the wrappers call and throw -/

/-- The parts that the views are put together from: libvirt calls that `A` allows, with what the close
callback throws out of them, and the questions that are no libvirt calls. -/
inductive ViewPart (A : Call → Prop) : ∀ γ : Type, ViewM γ → Prop
  | perform (c : Call) (h : A c) : ViewPart A c.Val (perform c)
  | ask (o : Op) (h : ∀ c, o ≠ .libvirt c) : ViewPart A o.Res (Eff.call o)

/-- Computations of the views whose handlers pass `retry_error` on. -/
abbrev ViewM.MadeOf (A : Call → Prop) (F : Failure → Prop) {α : Type} (m : ViewM α) : Prop :=
  Eff.MadeOf (ViewPart A) F (fun e => e.caughtBy .retryError = true) m

/-- `m` only reads, and ends by returning or with a C++ exception. -/
def Reads {α : Type} (m : ViewM α) : Prop := ViewM.MadeOf (fun c => c.writes = false) Failure.IsExn m

/-- `m` ends by returning or with a C++ exception. -/
def Ends {α : Type} (m : ViewM α) : Prop := ViewM.MadeOf (fun _ => True) Failure.IsExn m

theorem ViewPart.mono {A B : Call → Prop} (h : ∀ c, A c → B c) (γ : Type) (m : ViewM γ)
    (hm : ViewPart A γ m) : ViewPart B γ m := by
  cases hm with
  | perform c hc => exact .perform c (h c hc)
  | ask o ho => exact .ask o ho

theorem Reads.ends {α : Type} {m : ViewM α} (h : Reads m) : Ends m :=
  Eff.MadeOf.mono (ViewPart.mono fun _ _ => trivial) (fun _ h => h) h

section

variable {A : Call → Prop} {F : Failure → Prop}

theorem made_throwExn {α : Type} (hF : ∀ e, F (.exn e)) (cls : ExnClass) (what : String) :
    ViewM.MadeOf A F (throwExn cls what : ViewM α) := .throw (hF _)

theorem made_ofExcept {α : Type} (hF : ∀ e, F (.exn e)) (r : Except Exn α) :
    ViewM.MadeOf A F (ofExcept r) := by
  cases r with
  | ok a => exact .pure a
  | error e => exact .throw (hF e)

theorem made_perform {c : Call} (h : A c) : ViewM.MadeOf A F (perform c) := .leaf (.perform c h)

end

theorem ends_throwExn {A : Call → Prop} {α : Type} (cls : ExnClass) (what : String) :
    ViewM.MadeOf A Failure.IsExn (throwExn cls what : ViewM α) := made_throwExn (fun _ => trivial) _ _

theorem ends_ofExcept {A : Call → Prop} {α : Type} (r : Except Exn α) :
    ViewM.MadeOf A Failure.IsExn (ofExcept r) := made_ofExcept (fun _ => trivial) r

theorem reads_perform {c : Call} (h : c.writes = false) : Reads (perform c) := made_perform h

theorem ends_perform (c : Call) : Ends (perform c) := made_perform trivial

/-- The calls a computation is made of, and how it ends. -/
theorem ViewM.MadeOf.uses {A : Call → Prop} {F : Failure → Prop} {B : Op → Prop} {α : Type}
    {m : ViewM α} (hm : ViewM.MadeOf A F m) (hA : ∀ c, A c → B (.libvirt c))
    (hB : ∀ o, (∀ c, o ≠ .libvirt c) → B o) (hF : ∀ e, F (.exn e)) : Eff.Uses B F m := by
  refine Eff.MadeOf.uses (fun γ m h => ?_) hm
  cases h with
  | perform c hc =>
    refine .bind (.call (hA c hc)) fun r => ?_
    cases r with
    | ok v => exact .pure v
    | error e => exact .throw (hF e)
  | ask o ho => exact .call (hB o ho)

theorem ViewM.MadeOf.readOnly {F : Failure → Prop} {α : Type} {m : ViewM α}
    (hm : ViewM.MadeOf (fun c => c.writes = false) F m) (hF : ∀ e, F (.exn e)) : Eff.Uses Op.ReadOnly F m :=
  ViewM.MadeOf.uses hm (fun _ h => h)
    (fun o ho => by
      cases o with
      | libvirt c => exact absurd rfl (ho c)
      | _ => trivial)
    hF

theorem Reads.uses {α : Type} {m : ViewM α} (hm : Reads m) : Eff.Uses Op.ReadOnly Failure.IsExn m :=
  ViewM.MadeOf.readOnly hm fun _ => trivial

theorem Ends.uses {α : Type} {m : ViewM α} (hm : Ends m) :
    Eff.Uses (fun _ => True) Failure.IsExn m :=
  ViewM.MadeOf.uses hm (fun _ _ => trivial) (fun _ _ => trivial) fun _ => trivial

theorem reads_fromCString (s : Option String) : Reads (fromCString s) := by
  cases s with
  | some s => exact .pure s
  | none => exact ends_throwExn _ _

theorem reads_user (conn : User) : Reads (Virt.user conn) :=
  .leaf (.ask (.user conn) nofun)

theorem reads_uninitialised : Reads uninitialised := .leaf (.ask .uninitialised nofun)

/-- The getters: one call, and something done with its result. -/
theorem reads_getter {α : Type} {c : Call} (h : c.writes = false) {f : c.Val → ViewM α}
    (hf : ∀ v, Reads (f v)) : Reads (perform c >>= f) := (reads_perform h).bind hf

theorem reads_getState (d : DomainPtr) (old : ℤ) : Reads (Domain.getState d old) :=
  reads_getter rfl fun _ => .pure _

theorem reads_state (d : DomainPtr) : Reads (Domain.state d) :=
  reads_uninitialised.bind fun old => reads_getState d old

theorem reads_autostart (d : DomainPtr) : Reads (Domain.autostart d) :=
  reads_uninitialised.bind fun _ => reads_getter rfl fun _ => .pure _

theorem reads_xmlDocument (d : DomainPtr) (L : Linked) : Reads (Domain.xmlDocument d L) :=
  Eff.MadeOf.bind (reads_getter rfl fun s => reads_fromCString s) fun _ => .pure _

theorem reads_networkXml (L : Linked) (n : NetworkPtr) : Reads (networkXml L n) :=
  Eff.MadeOf.bind (reads_getter rfl fun s => reads_fromCString s) fun _ => .pure _

theorem reads_domain (conn : User) (name : String) : Reads (Conn.domain conn name) := by
  refine reads_getter rfl fun d => ?_
  cases d with
  | some d => exact .pure d
  | none => exact ends_throwExn _ _

/-! ## Calls that return -/

section

variable {σ : Type} {answer : σ → (o : Op) → Op.Res o × σ} {β : Type} {r : Http.Response} {w : σ}

theorem returns_ofExcept {α : Type} {x : Except Exn α} {f : α → ViewM β} :
    (ofExcept x >>= f).Returns answer r w ↔ ∃ a, x = .ok a ∧ (f a).Returns answer r w := by
  cases x with
  | ok a =>
    rw [Eff.returns_bind_of_ok answer (m := ofExcept (.ok a)) (a := a) rfl]
    constructor
    · exact fun h => ⟨a, rfl, h⟩
    · rintro ⟨b, hb, h⟩
      cases hb
      exact h
  | error e =>
    rw [Eff.returns_bind]
    exact iff_of_false (fun ⟨_, h, _⟩ => (by cases h)) fun ⟨_, h, _⟩ => (by cases h)

/-- A call that is not interrupted is followed by the rest. -/
theorem returns_perform {c : Call} {f : c.Val → ViewM β} :
    (perform c >>= f).Returns answer r w ↔ ∃ a, (answer w (.libvirt c)).1 = .ok a ∧
      (f a).Returns answer r (answer w (.libvirt c)).2 := by
  unfold perform
  rw [Eff.returns_bind_assoc,
    Eff.returns_bind_of_ok answer (Eff.exec_call answer (Op.libvirt c) r w)]
  exact returns_ofExcept

/-- A null text throws. -/
theorem returns_fromCString {x : Option String} {f : String → ViewM β} :
    (fromCString x >>= f).Returns answer r w ↔ ∃ s, x = some s ∧ (f s).Returns answer r w := by
  cases x with
  | some s =>
    rw [Eff.returns_bind_of_ok answer (m := fromCString (some s)) (a := s) rfl]
    constructor
    · exact fun h => ⟨s, rfl, h⟩
    · rintro ⟨s', hs, h⟩
      cases hs
      exact h
  | none =>
    rw [Eff.returns_bind]
    exact iff_of_false (fun ⟨_, h, _⟩ => (by cases h)) fun ⟨_, h, _⟩ => (by cases h)

end

theorem stateString_ok_iff {state : ℤ} : (∃ s, stateString state = .ok s) ↔ 0 ≤ state ∧ state ≤ 7 := by
  have hlookup : (stateStrings.lookup state).isSome ↔ 0 ≤ state ∧ state ≤ 7 := by
    rw [List.lookup_isSome_iff]
    simp only [stateStrings, List.mem_cons, List.not_mem_nil, or_false, exists_eq_or_imp,
      exists_eq_left, beq_iff_eq]
    omega
  unfold stateString
  cases hl : stateStrings.lookup state with
  | some s => exact iff_of_true ⟨s, rfl⟩ (hlookup.mp (by rw [hl]; rfl))
  | none =>
    refine iff_of_false (fun ⟨s, h⟩ => (by cases h)) fun h => ?_
    have hsome := hlookup.mpr h
    rw [hl] at hsome
    cases hsome

/-! ## Termination of `shutdown`

The loops end because the clock advances: `steady_clock` never goes back and `sleep_for` blocks for at
least the given time. -/

structure Clock {σ : Type} (answer : σ → (o : Op) → Op.Res o × σ) (time : σ → ℚ) : Prop where
  mono : ∀ w o, time w ≤ time (answer w o).2
  now : ∀ w, time w ≤ (answer w .now).1 ∧ (answer w .now).1 ≤ time (answer w .now).2
  sleep : ∀ w (ms : ℕ), time w + ms / 1000 ≤ time (answer w (.sleepFor ms)).2

section

variable {σ : Type} {answer : σ → (o : Op) → Op.Res o × σ} {time : σ → ℚ}

theorem lt_pollBound (timeout : ℚ) : timeout < pollBound timeout / 50 := by
  have h : timeout * 50 < ⌊timeout * 50⌋₊ + 1 := Nat.lt_floor_add_one _
  unfold pollBound
  push_cast
  linarith

/-- A time that has passed stays passed. -/
theorem Clock.keeps (hc : Clock answer time) (t : ℚ) {α : Type} {m : ViewM α} (hm : Ends m) :
    Eff.Keeps answer (fun w => t < time w) Failure.IsExn m :=
  Eff.Uses.keeps (fun w o _ hw => lt_of_lt_of_le hw (hc.mono w o)) hm.uses

/-- With sleeps left to reach the timeout, the loop ends by returning or with a C++ exception. -/
theorem poll_terminates (hc : Clock answer time) (d : DomainPtr) (targets : List ℤ)
    (timeout start : ℚ) (what : String) (fuel : ℕ) (old : ℤ) :
    Eff.Triple answer (fun w => start + timeout < time w + fuel / 50)
      (Domain.poll d targets timeout start what fuel old) (fun _ _ => True)
      (fun e _ => e.IsExn) := by
  induction fuel generalizing old with
  | zero =>
    rw [Domain.poll_eq]
    refine .bind (Q := fun _ w => start + timeout < time w) ?_ fun state => .ite ?_ ?_
    · refine (hc.keeps (start + timeout) (reads_getState d old).ends).conseq ?_ ?_ ?_
      · intro w hw
        simpa using hw
      · exact fun _ _ hw => hw
      · exact fun _ _ hw => hw.1
    · exact fun _ => .pure fun _ _ => trivial
    · refine fun _ => .bind (Q := fun t _ => start + timeout < t) (.call fun w hw => ?_) fun t => ?_
      · exact lt_of_lt_of_le hw (hc.now w).1
      · -- the timeout has passed, so the loop throws
        refine .ite (fun _ => .throw fun _ _ => trivial) fun hle s w hw => ?_
        exact absurd (lt_sub_iff_add_lt'.mpr hw) hle
  | succ fuel ih =>
    rw [Domain.poll_eq]
    refine .bind (Q := fun _ w => start + timeout < time w + (fuel + 1 : ℕ) / 50) ?_
      fun state => .ite ?_ ?_
    · refine (hc.keeps (start + timeout - (fuel + 1 : ℕ) / 50) (reads_getState d old).ends).conseq
        ?_ ?_ ?_
      · exact fun _ hw => sub_lt_iff_lt_add.mpr hw
      · exact fun _ _ hw => sub_lt_iff_lt_add.mp hw
      · exact fun _ _ hw => hw.1
    · exact fun _ => .pure fun _ _ => trivial
    · refine fun _ => .bind (Q := fun _ w => start + timeout < time w + (fuel + 1 : ℕ) / 50)
        (.call fun w hw => ?_) fun t => ?_
      · exact lt_of_lt_of_le hw (by gcongr; exact hc.mono w _)
      · refine .ite (fun _ => .throw fun _ _ => trivial) fun _ => .bind (.call fun w hw => ?_)
          fun _ => ih state
        -- one sleep is one fiftieth of a second
        have hs := hc.sleep w 20
        push_cast at hw hs
        linarith

/-- `poll` and `shutdown` may also use up the bound on their loops. -/
theorem made_poll {A : Call → Prop} {d : DomainPtr} (hA : A (.virDomainGetState d)) (targets : List ℤ)
    (timeout start : ℚ) (what : String) (fuel : ℕ) (old : ℤ) :
    ViewM.MadeOf A (fun _ => True) (Domain.poll d targets timeout start what fuel old) := by
  have hstate : ∀ old, ViewM.MadeOf A (fun _ => True) (Domain.getState d old) :=
    fun old => .bind (made_perform hA) fun _ => .pure _
  have hnow : ViewM.MadeOf A (fun _ => True) Virt.now := .leaf (.ask .now nofun)
  have hsleep : ViewM.MadeOf A (fun _ => True) (sleepFor 20) := .leaf (.ask (.sleepFor 20) nofun)
  induction fuel generalizing old with
  | zero =>
    rw [Domain.poll_eq]
    refine .bind (hstate old) fun _ => .ite (.pure _) (.bind hnow fun _ => ?_)
    exact .ite (.throw trivial) (.bind hsleep fun _ => .throw trivial)
  | succ fuel ih =>
    rw [Domain.poll_eq]
    refine .bind (hstate old) fun _ => .ite (.pure _) (.bind hnow fun _ => ?_)
    exact .ite (.throw trivial) (.bind hsleep fun _ => ih _)

theorem made_shutdown (d : DomainPtr) (T : Timeouts) :
    ViewM.MadeOf (fun _ => True) (fun _ => True) (Domain.shutdown d T) := by
  have hnow : ViewM.MadeOf (fun _ => True) (fun _ => True) Virt.now :=
    .leaf (.ask .now nofun)
  refine .bind (made_perform trivial) fun rc => .ite (.pure _) (.bind hnow fun start => ?_)
  refine .bind (made_poll trivial _ _ _ _ _ _) fun state => .bind hnow fun start => ?_
  exact .bind (made_poll trivial _ _ _ _ _ _) fun _ => .pure _

theorem ends_triple {α : Type} {m : ViewM α} (hm : Ends m) :
    Eff.Triple answer (fun _ => True) m (fun _ _ => True) (fun e _ => e.IsExn) :=
  Eff.Triple.conseq (Eff.Uses.keeps (I := fun _ => True) (fun _ _ _ _ => trivial) hm.uses)
    (fun _ h => h) (fun _ _ h => h) fun _ _ h => h.1

/-- `domain::shutdown` terminates. -/
theorem shutdown_terminates (hc : Clock answer time) (d : DomainPtr) (T : Timeouts) :
    Eff.Triple answer (fun _ => True) (Domain.shutdown d T) (fun _ _ => True)
      (fun e _ => e.IsExn) := by
  have hstart : ∀ timeout : ℚ, Eff.Triple answer (fun _ => True) Virt.now
      (fun start w => start + timeout < time w + pollBound timeout / 50)
      (fun e _ => e.IsExn) := by
    intro timeout
    refine .call fun w _ => ?_
    have h1 := (hc.now w).2
    have h2 := lt_pollBound timeout
    linarith
  refine .bind (ends_triple (ends_perform _)) fun rc => .ite (fun _ => .pure fun _ _ => trivial) fun _ => ?_
  refine .bind (hstart T.shutdown) fun start => ?_
  refine .bind (poll_terminates hc d _ _ _ _ _ _) fun state => ?_
  refine .bind (hstart T.shutoff) fun start => ?_
  exact .bind (poll_terminates hc d _ _ _ _ _ _) fun _ => .pure fun _ _ => trivial

end

end Webvirtd.Virt
