import Webvirtd.Lib.Ensures
import Webvirtd.Views

/-!
# Views.Answers — what the views call, and what they do to the response

The documents only ask libvirt: they leave the response alone (`frames_*`).  A view answers once, as its
last step: `Answering` says what may hold of a response before and after that, and `ensures_*` that every
view keeps to it.  A view that throws has not answered.

Libvirt calls are made through the connection that the view was given, or on a domain or network.
-/

namespace Webvirtd

open Lib Virt Http

/-- The connection that a call is made through. -/
def Virt.Call.conn : Call → Option User
  | .virConnectGetCapabilities conn => some conn
  | .virConnectGetHostname conn => some conn
  | .virConnectGetLibVersion conn => some conn
  | .virConnectGetMaxVcpus conn _ => some conn
  | .virConnectGetSysinfo conn => some conn
  | .virConnectGetType conn => some conn
  | .virConnectGetURI conn => some conn
  | .virConnectGetVersion conn => some conn
  | .virConnectIsEncrypted conn => some conn
  | .virConnectIsSecure conn => some conn
  | .virConnectListAllDomains conn => some conn
  | .virConnectListAllNetworks conn => some conn
  | .virDomainLookupByName conn _ => some conn
  | .virDomainDefineXML conn _ => some conn
  | _ => none

/-- The connection that is used. -/
def Virt.Op.conn : Op → Option User
  | .libvirt c => c.conn
  | .user conn => some conn
  | _ => none

/-- No connection but `conn` is used. -/
def Virt.Op.Via (conn : User) (o : Op) : Prop := ∀ v, o.conn = some v → v = conn

/-- No connection is used. -/
def Virt.Op.Unbound (o : Op) : Prop := o.conn = none

theorem Virt.Op.Unbound.via {o : Op} (h : o.Unbound) (conn : User) : o.Via conn := by
  intro v hv
  rw [h] at hv
  cases hv

namespace Virt

/-- `m` leaves the response alone, uses connections as `A` says, and throws C++ exceptions. -/
abbrev Fetches (A : Op → Prop) {α : Type} (m : ViewM α) : Prop := Eff.Frames A Failure.IsExn m

section

variable {A : Op → Prop}

theorem fetches_throwExn {α : Type} (cls : ExnClass) (what : String) :
    Fetches A (throwExn cls what : ViewM α) := .throw trivial

theorem fetches_ofExcept {α : Type} (r : Except Exn α) : Fetches A (ofExcept r) := by
  cases r with
  | ok a => exact .pure a
  | error e => exact .throw trivial

theorem fetches_perform {c : Call} (h : A (.libvirt c)) : Fetches A (perform c) :=
  .bind (.call h) fun r => fetches_ofExcept r

theorem fetches_fromCString (s : Option String) : Fetches A (fromCString s) := by
  cases s with
  | some s => exact .pure s
  | none => exact fetches_throwExn _ _

/-- The getters: one call, and something done with its result. -/
theorem fetches_getter {α : Type} {c : Call} (h : A (.libvirt c)) {f : c.Val → ViewM α}
    (hf : ∀ v, Fetches A (f v)) : Fetches A (perform c >>= f) := (fetches_perform h).bind hf

end

theorem unbound_of_conn {c : Call} (h : c.conn = none) : (Op.libvirt c).Unbound := h

theorem via_of_conn {conn : User} {c : Call} (h : c.conn = some conn) : (Op.libvirt c).Via conn := by
  intro v hv
  have hv : c.conn = some v := hv
  rw [h] at hv
  exact (Option.some.inj hv).symm

theorem Fetches.via {α : Type} {m : ViewM α} (hm : Fetches Op.Unbound m) (conn : User) :
    Fetches (Op.Via conn) m := hm.mono (fun _ h => h.via conn) fun _ h => h

theorem fetches_user (conn : User) : Fetches (Op.Via conn) (Virt.user conn) :=
  .call fun _ hv => (Option.some.inj hv).symm

theorem fetches_uninitialised : Fetches Op.Unbound uninitialised :=
  .call (c := Op.uninitialised) rfl

theorem fetches_domain (conn : User) (name : String) :
    Fetches (Op.Via conn) (Conn.domain conn name) := by
  refine .bind (fetches_perform (via_of_conn rfl)) fun d => ?_
  cases d with
  | some d => exact .pure d
  | none => exact fetches_throwExn _ _

theorem fetches_getState (d : DomainPtr) (old : ℤ) : Fetches Op.Unbound (Domain.getState d old) :=
  fetches_getter (unbound_of_conn rfl) fun _ => .pure _

theorem fetches_state (d : DomainPtr) : Fetches Op.Unbound (Domain.state d) :=
  .bind fetches_uninitialised fun old => fetches_getState d old

theorem fetches_autostart (d : DomainPtr) : Fetches Op.Unbound (Domain.autostart d) :=
  .bind fetches_uninitialised fun _ => fetches_getter (unbound_of_conn rfl) fun _ => .pure _

theorem fetches_xmlDocument (d : DomainPtr) (L : Linked) :
    Fetches Op.Unbound (Domain.xmlDocument d L) :=
  .bind (fetches_getter (unbound_of_conn rfl) fun s => fetches_fromCString s) fun _ => .pure _

theorem fetches_networkXml (L : Linked) (n : NetworkPtr) : Fetches Op.Unbound (networkXml L n) :=
  .bind (fetches_getter (unbound_of_conn rfl) fun s => fetches_fromCString s) fun _ => .pure _

/-- The loops of `shutdown` may also use up their bound. -/
theorem frames_poll (d : DomainPtr) (targets : List ℤ) (timeout start : ℚ) (what : String) (fuel : ℕ)
    (old : ℤ) :
    Eff.Frames Op.Unbound (fun _ => True) (Domain.poll d targets timeout start what fuel old) := by
  have hstate : ∀ old, Eff.Frames Op.Unbound (fun _ => True) (Domain.getState d old) :=
    fun old => (fetches_getState d old).mono (fun _ h => h) fun _ _ => trivial
  have hnow : Eff.Frames Op.Unbound (fun _ => True) Virt.now := .call (c := Op.now) rfl
  have hsleep : Eff.Frames Op.Unbound (fun _ => True) (sleepFor 20) :=
    .call (c := Op.sleepFor 20) rfl
  induction fuel generalizing old with
  | zero =>
    rw [Domain.poll_eq]
    refine .bind (hstate old) fun _ => .ite (.pure _) (.bind hnow fun _ => ?_)
    exact .ite (.throw trivial) (.bind hsleep fun _ => .throw trivial)
  | succ fuel ih =>
    rw [Domain.poll_eq]
    refine .bind (hstate old) fun _ => .ite (.pure _) (.bind hnow fun _ => ?_)
    exact .ite (.throw trivial) (.bind hsleep fun _ => ih _)

theorem frames_shutdown (d : DomainPtr) (T : Timeouts) :
    Eff.Frames Op.Unbound (fun _ => True) (Domain.shutdown d T) := by
  have hnow : Eff.Frames Op.Unbound (fun _ => True) Virt.now := .call (c := Op.now) rfl
  have hcall : Eff.Frames Op.Unbound (fun _ => True) (perform (.virDomainShutdown d)) :=
    (fetches_perform (unbound_of_conn rfl)).mono (fun _ h => h) fun _ _ => trivial
  refine .bind hcall fun rc => .ite (.pure _) (.bind hnow fun start => ?_)
  refine .bind (frames_poll d _ _ _ _ _ _) fun state => .bind hnow fun start => ?_
  exact .bind (frames_poll d _ _ _ _ _ _) fun _ => .pure _

end Virt

namespace Data

theorem fetches_simpleDomain (d : DomainPtr) : Fetches Op.Unbound (simpleDomain d) := by
  refine .bind (fetches_perform (unbound_of_conn rfl)) fun id => ?_
  refine .bind (fetches_getter (unbound_of_conn rfl) fun s => fetches_fromCString s) fun name => ?_
  refine .bind (fetches_perform (unbound_of_conn rfl)) fun title => ?_
  refine .bind (fetches_perform (unbound_of_conn rfl)) fun description => ?_
  exact .bind (fetches_state d) fun state => .bind (fetches_ofExcept _) fun _ => .pure _

theorem fetches_addBlockInfo (d : DomainPtr) (disk : Json) :
    Fetches Op.Unbound (addBlockInfo d disk) := by
  refine .bind (fetches_ofExcept _) fun _ => .bind (fetches_ofExcept _) fun _ => ?_
  refine .ite (.pure _) (.bind (fetches_ofExcept _) fun dev => .bind (fetches_ofExcept _) fun name => ?_)
  exact .bind (fetches_perform (unbound_of_conn rfl)) fun _ =>
    fetches_ofExcept _

theorem fetches_addBlockInfos (d : DomainPtr) (disks : List Json) :
    Fetches Op.Unbound (addBlockInfos d disks) := by
  induction disks with
  | nil => exact .pure _
  | cons disk disks ih => exact .bind (fetches_addBlockInfo d disk) fun _ => .bind ih fun _ => .pure _

theorem fetches_domain (L : Linked) (d : DomainPtr) : Fetches Op.Unbound (domain L d) := by
  refine .bind (fetches_simpleDomain d) fun output => ?_
  refine .bind (fetches_autostart d) fun autostart => .bind (fetches_xmlDocument d L) fun doc => ?_
  refine .bind (fetches_ofExcept _) fun output => .bind (fetches_ofExcept _) fun devices => ?_
  refine .bind (fetches_ofExcept _) fun hasDisk => .ite ?_ (.pure _)
  refine .bind (fetches_ofExcept _) fun disks => ?_
  obtain ⟨devices, disks⟩ := disks
  cases disks with
  | arr xs => exact .bind (fetches_addBlockInfos d xs) fun _ => .pure _
  | _ => exact .pure _

theorem fetches_networkDocs (L : Linked) (ns : List NetworkPtr) :
    Fetches Op.Unbound (networkDocs L ns) := by
  induction ns with
  | nil => exact .pure _
  | cons n ns ih => exact .bind (fetches_networkXml L n) fun _ => .bind ih fun _ => .pure _

theorem fetches_networks (L : Linked) (conn : User) : Fetches (Op.Via conn) (networks L conn) :=
  .bind (fetches_perform (via_of_conn rfl)) fun ns =>
    .bind ((fetches_networkDocs L ns).via conn) fun _ => .pure _

theorem fetches_simpleDomains (ds : List DomainPtr) : Fetches Op.Unbound (simpleDomains ds) := by
  induction ds with
  | nil => exact .pure _
  | cons d ds ih => exact .bind (fetches_simpleDomain d) fun _ => .bind ih fun _ => .pure _

theorem fetches_host (L : Linked) (conn : User) : Fetches (Op.Via conn) (host L conn) := by
  refine .bind (fetches_getter (via_of_conn rfl) fun s => fetches_fromCString s) fun hostname => ?_
  refine .bind (fetches_getter (via_of_conn rfl) fun _ => .pure _) fun libVersion => ?_
  refine .bind (fetches_getter (via_of_conn rfl) fun s => fetches_fromCString s) fun uri => ?_
  refine .bind (fetches_user conn) fun user => .bind ?_ fun output => ?_
  · refine .ite (.bind (fetches_getter (via_of_conn rfl) fun s => fetches_fromCString s) fun _ => .pure _) (.pure _)
  refine .bind (fetches_getter (via_of_conn rfl) fun _ => .pure _) fun version => ?_
  refine .bind (fetches_getter (via_of_conn rfl) fun _ => .pure _) fun encrypted => ?_
  refine .bind (fetches_getter (via_of_conn rfl) fun _ => .pure _) fun secure => ?_
  refine .bind (fetches_perform (via_of_conn rfl)) fun type => ?_
  cases type with
  | none => exact fetches_throwExn _ _
  | some type =>
    refine .bind (fetches_perform (via_of_conn rfl)) fun maxVcpus => ?_
    exact .bind (fetches_getter (via_of_conn rfl) fun s => fetches_fromCString s) fun _ => .pure _

end Data

namespace Views

/-- `P` may hold of a response until it is answered, and `Q` after that. -/
structure Answering (L : Linked) (P Q : Response → Prop) : Prop where
  fresh : P {}
  lt : ∀ r, P r → r.result.code < 400
  status : ∀ r st, st.code < 400 → P r → P { r with result := st }
  allow : ∀ r v, P r → P (r.set .allow v)
  location : ∀ r v, P r → P (r.set .location v)
  unanswered : ∀ r, P r → Q r
  refuse : ∀ r, P r → Q { r with result := .methodNotAllowed }
  document : ∀ r data st, st.code < 400 → P r → Q (r.setResponse (L.stringify data) st)
  error : ∀ r text st, P r → Q (r.setResponse (L.stringify (Json.error text)) st)

/-- Started on a response that is not answered, `m` returns with one that is; if it throws, it has not
answered. -/
abbrev Answers (A : Op → Prop) (P Q : Response → Prop) (m : ViewM Unit) : Prop :=
  Eff.Ensures A P m (fun _ => Q) fun _ => P

section

variable {L : Linked} {P Q : Response → Prop} {A : Op → Prop} {α : Type}

theorem answers_respond (h : Answering L P Q) (data : Json) {st : Status} (hst : st.code < 400) :
    Answers A P Q (respond L data st) := .modify fun r hr => h.document r data st hst hr

theorem answers_error (h : Answering L P Q) (text : String) (st : Status) :
    Answers A P Q (respond L (Json.error text) st) := .modify fun r hr => h.error r text st hr

/-- Asking libvirt comes before the answer. -/
theorem answers_bind {F : Failure → Prop} {m : ViewM α} {f : α → ViewM Unit}
    (hm : Eff.Frames A F m) (hf : ∀ a, Answers A P Q (f a)) : Answers A P Q (m >>= f) :=
  .bind ((hm.ensures P).conseq (fun _ h => h) (fun _ h => h) (fun _ _ h => h) fun _ _ h => h.2) hf

theorem Answers.via {m : ViewM Unit} (hm : Answers Op.Unbound P Q m) (conn : User) :
    Answers (Op.Via conn) P Q m :=
  hm.conseq (fun _ h => h.via conn) (fun _ h => h) (fun _ _ h => h) fun _ _ h => h

end

variable {L : Linked} {P Q : Response → Prop}

namespace Host

theorem answers_show (h : Answering L P Q) (conn : User) :
    Answers (Op.Via conn) P Q (Host.show L conn) :=
  answers_bind (Data.fetches_host L conn) fun _ => answers_respond h _ (by decide)

theorem answers_networks (h : Answering L P Q) (conn : User) :
    Answers (Op.Via conn) P Q (Host.networks L conn) :=
  answers_bind (Data.fetches_networks L conn) fun _ => answers_respond h _ (by decide)

end Host

namespace Domains

theorem answers_index (h : Answering L P Q) (conn : User) :
    Answers (Op.Via conn) P Q (index L conn) :=
  answers_bind (fetches_perform (via_of_conn rfl)) fun ds =>
    answers_bind ((Data.fetches_simpleDomains ds).via conn) fun _ => answers_respond h _ (by decide)

theorem answers_show (h : Answering L P Q) (d : DomainPtr) :
    Answers Op.Unbound P Q (Domains.show L d) :=
  answers_bind (Data.fetches_domain L d) fun _ => answers_respond h _ (by decide)

theorem answers_autostart (h : Answering L P Q) (d : DomainPtr) (request : Request) :
    Answers Op.Unbound P Q (autostart L d request) :=
  answers_bind (.bind (fetches_perform (unbound_of_conn rfl)) fun _ => .pure ()) fun _ =>
    answers_respond h _ (by decide)

theorem answers_bootmenu (h : Answering L P Q) (conn : User) (d : DomainPtr) (request : Request) :
    Answers (Op.Via conn) P Q (bootmenu L conn d request) := by
  refine answers_bind ((fetches_xmlDocument d L).via conn) fun doc => ?_
  refine answers_bind (fetches_perform (via_of_conn rfl)) fun redefined => ?_
  cases redefined with
  | none => exact answers_error h _ _
  | some _ => exact answers_respond h _ (by decide)

theorem fetches_replaceMetadata (d : DomainPtr) (type : MetadataType) (key current value : String)
    (output : Json) : Fetches Op.Unbound (replaceMetadata d type key current value output) := by
  refine .ite (.bind ?_ fun _ => .pure _) (.pure _)
  exact fetches_getter (unbound_of_conn rfl) fun _ => .pure _

theorem answers_metadata (h : Answering L P Q) (d : DomainPtr) (request : Request) :
    Answers Op.Unbound P Q (metadata L d request) := by
  have hrespond : ∀ output, Answers Op.Unbound P Q (do
      let r ← Eff.get
      respond L output r.result) := by
    intro output
    refine .bind (Q := fun r r' => r = r' ∧ P r) (.get fun r hr => ⟨rfl, hr⟩) fun r => ?_
    refine .modify fun r' hr => ?_
    obtain ⟨rfl, hP⟩ := hr
    exact h.document r output r.result (h.lt r hP) hP
  unfold metadata
  cases parse L request.body with
  | error e => exact answers_error h _ _
  | ok data =>
    refine answers_bind (fetches_perform (unbound_of_conn rfl)) fun currentTitle => ?_
    refine answers_bind (fetches_ofExcept _) fun title => ?_
    refine answers_bind (fetches_replaceMetadata d _ _ _ _ _) fun output => ?_
    refine answers_bind (fetches_perform (unbound_of_conn rfl)) fun currentDesc => ?_
    refine answers_bind (fetches_ofExcept _) fun desc => ?_
    refine answers_bind (fetches_replaceMetadata d _ _ _ _ _) fun output => .ite (fun _ => ?_) fun _ => ?_
    · exact .bind (.modify fun r hr => h.status r .notModified (by decide) hr) fun _ => hrespond output
    · exact hrespond output

theorem answers_start (h : Answering L P Q) (d : DomainPtr) :
    Answers Op.Unbound P Q (start L d) := by
  refine answers_bind (fetches_getter (unbound_of_conn rfl) fun _ => .pure _) fun started => ?_
  refine .ite (fun _ => answers_error h _ _) fun _ => ?_
  exact answers_bind (Data.fetches_simpleDomain d) fun _ => answers_respond h _ (by decide)

theorem answers_shutdown (h : Answering L P Q) (T : Timeouts) (d : DomainPtr) :
    Answers Op.Unbound P Q (shutdown L T d) := by
  refine answers_bind (F := fun _ => True)
    (.tryCatch (.map _ (frames_shutdown d T)) fun e _ => .ite (.pure _) (.throw trivial)) fun ok => ?_
  match ok with
  | none => exact answers_error h _ _
  | some false => exact answers_error h _ _
  | some true =>
    exact answers_bind (Data.fetches_simpleDomain d) fun _ => answers_respond h _ (by decide)

end Domains

end Views

end Webvirtd
