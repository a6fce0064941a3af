import Mathlib.Logic.Function.Basic
import Webvirtd.App.Retry
import Webvirtd.App.Monitoring
import Webvirtd.Lib.Parties

/-!
# App.Users — the users of the app, served at the same time

`virt::uri` gives every user a libvirt daemon of their own, and a domain belongs to the connection that it was looked up
on.  A request asks nothing but the connection of the user in its target (`owned_onRequest`).  So the users do not see
each other: the requests of one of them, taken out of any interleaving of libvirt calls, are answered as they are
there, and leave the daemon of the user as it is left there (`users_apart`).

Requests run on threads that take turns at each call; guests start and stop on their own at any time, and a call may
fail or be interrupted.
-/

namespace Webvirtd

open Lib Virt Http Http.Middleware

/-! ## The daemons of the users -/

namespace Virt

/-- The domains that a call hands out. -/
def Call.domains : (c : Call) → c.Val → List DomainPtr
  | .virConnectListAllDomains _, ds => ds
  | .virDomainLookupByName _ _, d => d.toList
  | .virDomainDefineXML _ _, d => d.toList
  | _, _ => []

def Call.networks : (c : Call) → c.Val → List NetworkPtr
  | .virConnectListAllNetworks _, ns => ns
  | _, _ => []

/-- What belongs to a user: the daemon that answers the libvirt calls of the user's connection, the entry of the pool
and the bucket of the websockets.  `ω` decides what is not in the state, `ε` is what happens to a daemon by itself. -/
structure Daemons (δ ω ε : Type) where
  getpwnam : String → Bool
  poolGet : User → δ → ω → Except Exn Unit × δ
  call : User → δ → (c : Call) → ω → Except Exn c.Val × δ
  websocketsAdd : User → δ → δ
  event : User → δ → ε → Option δ
  uninitialised : ω → ℤ
  now : ω → ℚ
  /-- `virDomainGetConnect`. -/
  domainConn : DomainPtr → User
  /-- `virNetworkGetConnect`. -/
  networkConn : NetworkPtr → User
  domains : ∀ user s c o v, (call user s c o).1 = .ok v → ∀ d ∈ c.domains v, domainConn d = user
  networks : ∀ user s c o v, (call user s c o).1 = .ok v → ∀ n ∈ c.networks v, networkConn n = user

namespace Daemons

variable {δ ω ε : Type} (D : Daemons δ ω ε)

/-- The connection that a call is made on. -/
def connOf : Call → User
  | .virConnectGetCapabilities conn | .virConnectGetHostname conn | .virConnectGetLibVersion conn
  | .virConnectGetMaxVcpus conn _ | .virConnectGetSysinfo conn | .virConnectGetType conn | .virConnectGetURI conn
  | .virConnectGetVersion conn | .virConnectIsEncrypted conn | .virConnectIsSecure conn
  | .virConnectListAllDomains conn | .virConnectListAllNetworks conn | .virDomainLookupByName conn _
  | .virDomainDefineXML conn _ => conn
  | .virDomainCreate d | .virDomainGetState d | .virDomainGetID d | .virDomainGetName d | .virDomainGetAutostart d
  | .virDomainSetAutostart d _ | .virDomainGetMetadata d _ | .virDomainSetMetadata d _ _ | .virDomainGetXMLDesc d
  | .virDomainGetBlockInfo d _ | .virDomainShutdown d => D.domainConn d
  | .virNetworkGetXMLDesc n => D.networkConn n

/-- `x` happens to what belongs to the user. -/
def act {R : Type} (w : User → δ) (user : User) (x : R × δ) : R × (User → δ) := (x.1, Function.update w user x.2)

def serve (w : User → δ) : (c : Cmd) → ω → Cmd.Res c × (User → δ)
  | .getpwnam name, _ => (D.getpwnam name, w)
  | .poolGet user, o => act w user (D.poolGet user (w user) o)
  | .upgrade, _ => ((), w)
  | .websocketsAdd _ user, _ => act w user ((), D.websocketsAdd user (w user))
  | .op (.libvirt c), o => act w (D.connOf c) (D.call (D.connOf c) (w (D.connOf c)) c o)
  | .op (.user conn), _ => (conn, w)
  | .op .uninitialised, o => (D.uninitialised o, w)
  | .op .now, o => (D.now o, w)
  | .op (.sleepFor _), _ => ((), w)

end Daemons

end Virt

namespace App

variable {δ ω ε : Type}

/-- The requests of the clients, on threads. -/
def server (D : Daemons δ ω ε) (L : Linked) (T : Timeouts) :
    Threads.Server Cmd Cmd.Res (Except Failure Unit × Response) (User → δ) Request ω (User × ε) where
  program request := onRequest L T request {}
  serve := D.serve
  event w e := (D.event e.1 (w e.1) e.2).map (Function.update w e.1)

/-- The user in the target of a request, if it has one. -/
def userOf (L : Linked) (T : Timeouts) (request : Request) : Option User :=
  (Router.find request.target (router L T).routes).bind fun found => found.1[1]?

/-- What a request for the user may call. -/
def mayAsk (D : Daemons δ ω ε) (user : Option User) : Cmd → Prop
  | .poolGet conn => user = some conn
  | .websocketsAdd _ conn => user = some conn
  | .op (.libvirt c) => user = some (D.connOf c)
  | _ => True

/-- What is handed out belongs to the user. -/
def ownAnswer (D : Daemons δ ω ε) (user : Option User) : (c : Cmd) → Cmd.Res c → Prop
  | .op (.libvirt c), .ok v =>
    (∀ d ∈ c.domains v, user = some (D.domainConn d)) ∧ ∀ n ∈ c.networks v, user = some (D.networkConn n)
  | .op (.user conn), name => name = conn
  | _, _ => True

/-- A request for the user, as long as it is answered with what belongs to the user. -/
abbrev asks (D : Daemons δ ω ε) (user : Option User) : Monitor Cmd.Res Prop :=
  .assuming (mayAsk D user) (ownAnswer D user)

def users (D : Daemons δ ω ε) (L : Linked) (T : Timeouts) :
    Threads.Parties Cmd Cmd.Res (User → δ) Request (User × ε) (Option User) (Option δ) where
  party := userOf L T
  owner e := some e.1
  view w user := user.map w
  may := mayAsk D
  answers := ownAnswer D

end App

/-! ## The views ask one connection -/

namespace Views

section

variable {δ ω ε : Type} {D : Daemons δ ω ε} {user : User} {d : DomainPtr} {L : Linked}

/-- Every libvirt call of `m` is made on the connection of the user. -/
abbrev Owned (D : Daemons δ ω ε) (user : User) {α : Type} (m : ViewM α) : Prop :=
  ViewM.MadeOf (fun c => D.connOf c = user) (fun _ => True) m

theorem owned_fromCString (s : Option String) : Owned D user (fromCString s) := by
  cases s with
  | some s => exact .pure s
  | none => exact .throw trivial

theorem owned_ofExcept {α : Type} (x : Except Exn α) : Owned D user (ofExcept x) :=
  made_ofExcept (fun _ => trivial) x

theorem owned_ask {o : Op} (h : ∀ c, o ≠ .libvirt c) : Owned D user (Eff.call o) := .leaf (.ask o h)

theorem owned_respond (data : Json) (status : Status) : Owned D user (respond L data status) := .modify _

/-! ### Of a domain -/

theorem owned_state (hd : D.domainConn d = user) : Owned D user (Domain.state d) :=
  .bind (owned_ask nofun) fun _ => .bind (made_perform hd) fun _ => .pure _

theorem owned_xmlDocument (hd : D.domainConn d = user) : Owned D user (Domain.xmlDocument d L) :=
  .bind (.bind (made_perform hd) fun s => owned_fromCString s) fun _ => .pure _

theorem owned_simpleDomain (hd : D.domainConn d = user) : Owned D user (Data.simpleDomain d) := by
  refine .bind (made_perform hd) fun id => ?_
  refine .bind (.bind (made_perform hd) fun s => owned_fromCString s) fun name => ?_
  refine .bind (made_perform hd) fun title => .bind (made_perform hd) fun description => ?_
  exact .bind (owned_state hd) fun state => .bind (owned_ofExcept _) fun _ => .pure _

theorem owned_simpleDomains {ds : List DomainPtr} (hds : ∀ d ∈ ds, D.domainConn d = user) :
    Owned D user (Data.simpleDomains ds) := by
  induction ds with
  | nil => exact .pure _
  | cons d ds ih =>
    have hd := hds d List.mem_cons_self
    have hrest := ih fun d' hd' => hds d' (List.mem_cons_of_mem _ hd')
    exact .bind (owned_simpleDomain hd) fun _ => .bind hrest fun _ => .pure _

theorem owned_addBlockInfos (hd : D.domainConn d = user) (disks : List Json) :
    Owned D user (Data.addBlockInfos d disks) := by
  induction disks with
  | nil => exact .pure _
  | cons disk disks ih =>
    refine .bind ?_ fun _ => .bind ih fun _ => .pure _
    refine .bind (owned_ofExcept _) fun _ => .bind (owned_ofExcept _) fun _ => .ite (.pure _) ?_
    refine .bind (owned_ofExcept _) fun _ => .bind (owned_ofExcept _) fun _ => ?_
    exact .bind (made_perform hd) fun _ => owned_ofExcept _

theorem owned_domain (hd : D.domainConn d = user) : Owned D user (Data.domain L d) := by
  refine .bind (owned_simpleDomain hd) fun output => ?_
  refine .bind (.bind (owned_ask nofun) fun _ => .bind (made_perform hd) fun _ => .pure _) fun autostart => ?_
  refine .bind (owned_xmlDocument hd) fun doc => .bind (owned_ofExcept _) fun _ => .bind (owned_ofExcept _) fun _ => ?_
  refine .bind (owned_ofExcept _) fun hasDisk => .ite (.bind (owned_ofExcept _) fun disks => ?_) (.pure _)
  obtain ⟨devices, disks⟩ := disks
  cases disks with
  | arr xs => exact .bind (owned_addBlockInfos hd _) fun _ => .pure _
  | _ => exact .pure _

theorem owned_show (hd : D.domainConn d = user) : Owned D user (Domains.show L d) :=
  .bind (owned_domain hd) fun _ => owned_respond _ _

variable {request : Request}

theorem owned_autostart (hd : D.domainConn d = user) : Owned D user (Domains.autostart L d request) :=
  .bind (.bind (made_perform hd) fun _ => .pure _) fun _ => owned_respond _ _

theorem owned_bootmenu (hd : D.domainConn d = user) : Owned D user (Domains.bootmenu L user d request) := by
  refine .bind (owned_xmlDocument hd) fun doc => .bind (made_perform rfl) fun redefined => ?_
  cases redefined with
  | none => exact owned_respond _ _
  | some _ => exact owned_respond _ _

theorem owned_replaceMetadata (hd : D.domainConn d = user) (type : MetadataType) (key current value : String)
    (output : Json) : Owned D user (Domains.replaceMetadata d type key current value output) :=
  .ite (.bind (.bind (made_perform hd) fun _ => .pure _) fun _ => .pure _) (.pure _)

theorem owned_metadata (hd : D.domainConn d = user) : Owned D user (Domains.metadata L d request) := by
  unfold Domains.metadata
  cases parse L request.body with
  | error e => exact owned_respond _ _
  | ok data =>
    refine .bind (made_perform hd) fun currentTitle => .bind (owned_ofExcept _) fun title => ?_
    refine .bind (owned_replaceMetadata hd _ _ _ _ _) fun output => ?_
    refine .bind (made_perform hd) fun currentDesc => .bind (owned_ofExcept _) fun desc => ?_
    refine .bind (owned_replaceMetadata hd _ _ _ _ _) fun output => .ite ?_ ?_
    · exact .bind (.modify _) fun _ => .bind .get fun r => owned_respond _ _
    · exact .bind .get fun r => owned_respond _ _

theorem owned_start (hd : D.domainConn d = user) : Owned D user (Domains.start L d) := by
  refine .bind (.bind (made_perform hd) fun _ => .pure _) fun started => .ite (owned_respond _ _) ?_
  exact .bind (owned_simpleDomain hd) fun _ => owned_respond _ _

theorem owned_domainShutdown {T : Timeouts} (hd : D.domainConn d = user) : Owned D user (Domain.shutdown d T) := by
  refine .bind (made_perform hd) fun rc => .ite (.pure _) (.bind (owned_ask nofun) fun start => ?_)
  refine .bind (made_poll hd _ _ _ _ _ _) fun state => .bind (owned_ask nofun) fun start => ?_
  exact .bind (made_poll hd _ _ _ _ _ _) fun _ => .pure _

theorem owned_shutdown {T : Timeouts} (hd : D.domainConn d = user) : Owned D user (Domains.shutdown L T d) := by
  refine .bind (.tryCatch (.map _ (owned_domainShutdown hd)) (fun e => ?_) fun e he => ?_) fun ok => ?_
  · exact .ite (.pure _) (.throw trivial)
  · refine if_neg ?_
    cases e with
    | exn e =>
      obtain ⟨cls, what⟩ := e
      cases cls with
      | outOfRange => cases he
      | _ => exact Bool.false_ne_true
    | _ => cases he
  · match ok with
    | none => exact owned_respond _ _
    | some false => exact owned_respond _ _
    | some true => exact .bind (owned_simpleDomain hd) fun _ => owned_respond _ _

/-! ### Of a connection -/

theorem owned_networkDocs {ns : List NetworkPtr} (hns : ∀ n ∈ ns, D.networkConn n = user) :
    Owned D user (Data.networkDocs L ns) := by
  induction ns with
  | nil => exact .pure _
  | cons n ns ih =>
    have hn := hns n List.mem_cons_self
    have hrest := ih fun n' hn' => hns n' (List.mem_cons_of_mem _ hn')
    refine .bind (.bind (.bind (made_perform hn) fun s => owned_fromCString s) fun _ => .pure _) fun _ => ?_
    exact .bind hrest fun _ => .pure _

theorem owned_host : Owned D user (Host.show L user) := by
  refine .bind (.bind (.bind (made_perform rfl) fun s => owned_fromCString s) fun hostname => ?_) fun _ => owned_respond _ _
  refine .bind (.bind (made_perform rfl) fun _ => .pure _) fun libVersion => ?_
  refine .bind (.bind (made_perform rfl) fun s => owned_fromCString s) fun uri => ?_
  refine .bind (owned_ask nofun) fun name => .bind ?_ fun output => ?_
  · refine .ite (.bind (.bind (made_perform rfl) fun s => owned_fromCString s) fun _ => .pure _) (.pure _)
  · refine .bind (.bind (made_perform rfl) fun _ => .pure _) fun version => ?_
    refine .bind (.bind (made_perform rfl) fun _ => .pure _) fun encrypted => ?_
    refine .bind (.bind (made_perform rfl) fun _ => .pure _) fun secure => ?_
    refine .bind (made_perform rfl) fun type => ?_
    cases type with
    | none => exact .throw trivial
    | some type =>
      refine .bind (made_perform rfl) fun maxVcpus => ?_
      exact .bind (.bind (made_perform rfl) fun s => owned_fromCString s) fun _ => .pure _

end

end Views

namespace App

open Views

/-! ## The routes ask the user in the target -/

section

variable {δ ω ε : Type} {D : Daemons δ ω ε} {user : User} {name : String} {d : DomainPtr} {L : Linked} {T : Timeouts}
  {request : Request} {httpConn : Bool}

/-- With what is handed out one may go on asking. -/
theorem guarded_perform {c : Call} (hc : D.connOf c = user) :
    Eff.Guarded ((asks D (some user)).comap Cmd.op) (fun _ => True) (perform c)
      (fun v t => t → (∀ d ∈ c.domains v, D.domainConn d = user) ∧ ∀ n ∈ c.networks v, D.networkConn n = user)
      fun _ _ => True := by
  have hcall : Eff.Guarded ((asks D (some user)).comap Cmd.op) (fun _ => True) (Eff.call (Op.libvirt c) : ViewM _)
      (fun x t => ∀ v, x = .ok v → t →
        (∀ d ∈ c.domains v, D.domainConn d = user) ∧ ∀ n ∈ c.networks v, D.networkConn n = user) fun _ _ => True := by
    refine .call (fun t _ _ => ?_) fun t x _ v hx ht => ?_
    · show some user = some (D.connOf c)
      rw [hc]
    · subst hx
      obtain ⟨-, hds, hns⟩ := ht
      exact ⟨fun d hd => (Option.some.inj (hds d hd)).symm, fun n hn => (Option.some.inj (hns n hn)).symm⟩
  refine hcall.bind fun x => ?_
  cases x with
  | ok v => exact .pure fun t ht => ht v rfl
  | error e => exact .throw fun _ _ => trivial

theorem guarded_owned {α : Type} {m : ViewM α} (hm : Owned D user m) :
    Eff.Guarded ((asks D (some user)).comap Cmd.op) (fun _ => True) m (fun _ _ => True) fun _ _ => True := by
  have huses : Eff.Uses (fun o => mayAsk D (some user) (.op o)) (fun _ => True) m := by
    refine hm.uses (fun c hc => ?_) (fun o ho => ?_) fun _ => trivial
    · show some user = some (D.connOf c)
      rw [hc]
    · cases o with
      | libvirt c => exact absurd rfl (ho c)
      | _ => trivial
  exact huses.assuming (B := fun o => ownAnswer D (some user) (.op o))

theorem monitored_owned {m : ViewM Unit} (hm : Owned D user m) :
    Monitored (asks D (some user)) (fun _ => True) (.ofView m) fun _ _ => True := (guarded_owned hm).lift

/-- A view that begins with one call. -/
theorem monitored_after {α : Type} {c : Call} (hc : D.connOf c = user) {f : c.Val → ViewM α}
    (hf : ∀ v, (∀ d ∈ c.domains v, D.domainConn d = user) → (∀ n ∈ c.networks v, D.networkConn n = user) →
      Owned D user (f v)) :
    Monitored (asks D (some user)) (fun _ => True) (.ofView (perform c >>= f)) fun _ _ => True := by
  refine Eff.Guarded.lift ((guarded_perform hc).bind fun v => ?_)
  have hassume := Eff.Guarded.assume (A := fun o => mayAsk D (some user) (.op o))
    (B := fun o => ownAnswer D (some user) (.op o)) (Q := fun _ => True)
    fun h : (∀ d ∈ c.domains v, D.domainConn d = user) ∧ ∀ n ∈ c.networks v, D.networkConn n = user =>
      (guarded_owned (hf v h.1 h.2)).conseq (fun _ h => h) (fun _ _ _ _ => trivial) fun _ _ h => h
  exact hassume.conseq (fun _ h => h) (fun _ _ _ => trivial) fun _ _ h => h

theorem monitored_index : Monitored (asks D (some user)) (fun _ => True) (.ofView (Domains.index L user))
    fun _ _ => True :=
  monitored_after (c := Call.virConnectListAllDomains user) rfl fun _ hds _ =>
    .bind (owned_simpleDomains hds) fun _ => owned_respond _ _

theorem monitored_networks : Monitored (asks D (some user)) (fun _ => True) (.ofView (Host.networks L user))
    fun _ _ => True := by
  have hviews : Host.networks L user = perform (.virConnectListAllNetworks user) >>= fun ns =>
      (Data.networkDocs L ns >>= fun docs => pure (Json.arr docs)) >>= fun docs => respond L docs .ok :=
    Eff.bind_bind _ _ _
  rw [hviews]
  refine monitored_after (c := Call.virConnectListAllNetworks user) rfl fun ns _ hns => ?_
  exact .bind (.bind (owned_networkDocs hns) fun _ => .pure _) fun _ => owned_respond _ _

theorem monitored_getpwnam : Monitored (asks D (some user)) (fun _ => True) (getpwnam name)
    fun found _ => found = true → True :=
  .call (c := Cmd.getpwnam (cStr name)) (fun _ _ _ => trivial) fun _ _ _ _ => trivial

theorem monitored_poolGet : Monitored (asks D (some user)) (fun _ => True) (poolGet user)
    fun entry _ => entry = .ok () → True :=
  .call (c := Cmd.poolGet user) (fun _ _ _ => rfl) fun _ _ _ _ => trivial

theorem monitored_user {routeFn : User → RouteFunction} {methods : List Verb}
    (h : Monitored (asks D (some user)) (fun _ => True) (routeFn user httpConn [request.target, user] request)
      fun _ _ => True) :
    Monitored (asks D (some user)) (fun _ => True)
      (withMethods methods (withLibvirt L routeFn) httpConn [request.target, user] request) fun _ _ => True :=
  monitored_withMethods fun _ => monitored_withLibvirt monitored_getpwnam monitored_poolGet h

theorem monitored_view {view : User → DomainPtr → Request → ViewM Unit} {methods : List Verb}
    (h : ∀ d, D.domainConn d = user → Owned D user (view user d request)) :
    Monitored (asks D (some user)) (fun _ => True)
      (withMethods methods (withLibvirtDomain L fun conn d _ _ request => .ofView (view conn d request)) httpConn
        [request.target, user, name] request) fun _ _ => True := by
  have hdomain : Monitored (asks D (some user)) (fun _ => True) (.ofView (Conn.domain user name))
      fun d t => t → D.domainConn d = user := by
    refine monitored_domain (fun _ _ _ => rfl) fun t d _ ht => ?_
    exact (Option.some.inj (ht.2.1 d (by simp [Call.domains]))).symm
  refine monitored_withMethods fun _ => monitored_withLibvirtDomain monitored_getpwnam monitored_poolGet hdomain fun d => ?_
  have hview := Eff.Guarded.assume (Q := fun _ => True) fun hd : D.domainConn d = user =>
    (monitored_owned (h d hd)).conseq (fun _ h => h) (fun _ _ _ _ => trivial) fun _ _ h => h
  exact hview.conseq (fun _ h => h) (fun _ _ _ => trivial) fun _ _ h => h

theorem monitored_websocket : Monitored (asks D (some user)) (fun _ => True)
    (websocket user httpConn [request.target, user] request) fun _ _ => True := by
  have huser : Monitored (asks D (some user)) (fun _ => True) (.ofView (Virt.user user)) fun name t => t → name = user :=
    Eff.Guarded.lift (.call (c := Op.user user) (fun _ _ _ => trivial) fun _ _ _ ht => ht.2)
  refine huser.bind fun name => .bind (Q := fun _ t => t → name = user) ?_ fun _ => ?_
  · refine .ite (fun _ => .call (c := Cmd.upgrade) (fun _ _ _ => trivial) fun t _ h ht => h ht.1) fun _ => ?_
    exact .throw fun _ _ => trivial
  · refine .bind (Q := fun _ _ => True) (.call (c := Cmd.websocketsAdd user name) (fun t h ht => ?_) fun _ _ _ => trivial)
      fun _ => .modify fun _ _ => trivial
    show some user = some name
    rw [h ht]

theorem owned_handler {e : Endpoint} {captures : List String} (hacc : e.Accepts request.target captures)
    (httpConn : Bool) :
    Monitored (asks D captures.head?) (fun _ => True) (e.handler L T httpConn (request.target :: captures) request)
      fun _ _ => True := by
  cases e with
  | redirect => exact .bind (Q := fun _ _ => True) (.modify fun _ h => h) fun _ => .modify fun _ h => h
  | user s =>
    obtain ⟨user, -, rfl, -⟩ := id hacc
    cases s with
    | websocket => exact monitored_user monitored_websocket
    | host => exact monitored_user (monitored_owned owned_host)
    | networks => exact monitored_user monitored_networks
    | domains => exact monitored_user monitored_index
  | domain a =>
    obtain ⟨user, name, -, -, rfl, -⟩ := id hacc
    cases a with
    | «show» => exact monitored_view fun d hd => owned_show hd
    | autostart => exact monitored_view fun d hd => owned_autostart hd
    | metadata => exact monitored_view fun d hd => owned_metadata hd
    | bootmenu => exact monitored_view fun d hd => owned_bootmenu hd
    | start => exact monitored_view fun d hd => owned_start hd
    | shutdown => exact monitored_view fun d hd => owned_shutdown hd

theorem owned_onRequest (D : Daemons δ ω ε) (L : Linked) (T : Timeouts) (request : Request) :
    Monitored (asks D (userOf L T request)) (fun _ => True) (onRequest L T request) fun _ _ => True := by
  refine monitored_onRequest fun e captures hacc hf httpConn => ?_
  have huser : userOf L T request = captures.head? := by
    unfold userOf
    rw [hf, List.head?_eq_getElem?]
    rfl
  rw [huser]
  exact owned_handler hacc httpConn

/-! ## The daemons of the users are apart -/

theorem act_apart {R : Type} {w : User → δ} {conn : User} {x : R × δ} {q : Option User} (hq : q ≠ some conn) :
    q.map (Daemons.act w conn x).2 = q.map w := by
  cases q with
  | none => rfl
  | some user =>
    have hne : user ≠ conn := fun h => hq (by rw [h])
    exact congrArg some (Function.update_of_ne hne _ _)

/-- What happens to one user depends on what belongs to this user. -/
theorem act_same {R : Type} {w v : User → δ} {conn : User} (f : δ → R × δ)
    (hview : (some conn).map w = (some conn).map v) :
    (Daemons.act w conn (f (w conn))).1 = (Daemons.act v conn (f (v conn))).1 ∧
      (some conn).map (Daemons.act w conn (f (w conn))).2 = (some conn).map (Daemons.act v conn (f (v conn))).2 := by
  have hsame : w conn = v conn := Option.some.inj hview
  rw [hsame]
  refine ⟨rfl, congrArg some ?_⟩
  show Function.update w conn (f (v conn)).2 conn = Function.update v conn (f (v conn)).2 conn
  rw [Function.update_self, Function.update_self]

theorem ownAnswer_serve (w : User → δ) {user : Option User} {c : Cmd} (o : ω) (hc : mayAsk D user c) :
    ownAnswer D user c (D.serve w c o).1 := by
  cases c with
  | op a =>
    cases a with
    | libvirt c =>
      obtain rfl : user = some (D.connOf c) := hc
      show ownAnswer D _ (.op (.libvirt c)) (D.call (D.connOf c) (w (D.connOf c)) c o).1
      cases hv : (D.call (D.connOf c) (w (D.connOf c)) c o).1 with
      | error e => trivial
      | ok v =>
        exact ⟨fun d hd => congrArg some (D.domains _ _ _ _ v hv d hd).symm,
          fun n hn => congrArg some (D.networks _ _ _ _ v hv n hn).symm⟩
    | user conn => exact rfl
    | _ => trivial
  | _ => trivial

theorem serve_same {w v : User → δ} {user : Option User} {c : Cmd} (o : ω) (hc : mayAsk D user c)
    (hview : user.map w = user.map v) :
    (D.serve w c o).1 = (D.serve v c o).1 ∧ user.map (D.serve w c o).2 = user.map (D.serve v c o).2 := by
  cases c with
  | getpwnam name => exact ⟨rfl, hview⟩
  | poolGet conn =>
    obtain rfl : user = some conn := hc
    exact act_same (fun s => D.poolGet conn s o) hview
  | upgrade => exact ⟨rfl, hview⟩
  | websocketsAdd _ conn =>
    obtain rfl : user = some conn := hc
    exact act_same (fun s => ((), D.websocketsAdd conn s)) hview
  | op a =>
    cases a with
    | libvirt c =>
      obtain rfl : user = some (D.connOf c) := hc
      exact act_same (fun s => D.call (D.connOf c) s c o) hview
    | _ => exact ⟨rfl, hview⟩

theorem serve_apart {w : User → δ} {user q : Option User} {c : Cmd} (o : ω) (hc : mayAsk D user c) (hq : q ≠ user) :
    q.map (D.serve w c o).2 = q.map w := by
  cases c with
  | poolGet conn =>
    obtain rfl : user = some conn := hc
    exact act_apart hq
  | websocketsAdd _ conn =>
    obtain rfl : user = some conn := hc
    exact act_apart hq
  | op a =>
    cases a with
    | libvirt c =>
      obtain rfl : user = some (D.connOf c) := hc
      exact act_apart hq
    | _ => rfl
  | _ => rfl

theorem separate (D : Daemons δ ω ε) (L : Linked) (T : Timeouts) : (users D L T).Separate (server D L T) where
  confined request := ((owned_onRequest D L T request) {} True trivial).mono fun _ _ _ => trivial
  answered w user c o hc := ownAnswer_serve w o hc
  served w v user c o hc hview := serve_same o hc hview
  apart w user q c o hc hq := serve_apart o hc hq
  happens w v e w' he hview := by
    obtain ⟨s, hs, rfl⟩ := Option.map_eq_some_iff.mp he
    have hsame : w e.1 = v e.1 := Option.some.inj hview
    rw [hsame] at hs
    refine ⟨Function.update v e.1 s, Option.map_eq_some_iff.mpr ⟨s, hs, rfl⟩, congrArg some ?_⟩
    rw [Function.update_self, Function.update_self]
  happens_apart w e w' q he hq := by
    obtain ⟨s, -, rfl⟩ := Option.map_eq_some_iff.mp he
    exact act_apart (x := ((), s)) hq

end

/-- **Users apart.**  Take the turns and events of all others out of a run, and let the daemons of the others be in any
state: the requests of the user get as far, with the same answers, and the daemon of the user is in the same state. -/
theorem users_apart (D : Daemons δ ω ε) (L : Linked) (T : Timeouts) {user : User} {w v : User → δ}
    (hsame : w user = v user) {as : List (Threads.Action Request ω (User × ε))}
    {s : Threads Cmd Cmd.Res (Except Failure Unit × Response) (User → δ)}
    (hs : (Threads.machine (server D L T) w).exec ⟨w, []⟩ as = some s) :
    ∃ t, (Threads.machine (server D L T) v).exec ⟨v, []⟩ ((users D L T).purge (some user) [] as) = some t ∧
      s.shared user = t.shared user ∧
      ∀ (i : ℕ) request, (Threads.spawned as)[i]? = some request → userOf L T request = some user →
        s.threads[i]? = t.threads[i]? := by
  obtain ⟨t, ht, hview, hthreads⟩ := Threads.Parties.purged (p := some user) (separate D L T) (congrArg some hsame) hs
  exact ⟨t, ht, Option.some.inj hview, hthreads⟩

/-- The domains of a user alone. -/
def keepDomains (p : DomainPtr → Bool) : (c : Call) → c.Val → c.Val
  | .virConnectListAllDomains _, ds => ds.filter p
  | .virDomainLookupByName _ _, d => d.filter p
  | .virDomainDefineXML _ _, d => d.filter p
  | _, v => v

/-- Two users with a daemon each; the first domain is ann's, and the others are bob's. -/
def annAndBob : Daemons LibvirtState Unit DomainPtr where
  getpwnam user := decide (user = "ann" ∨ user = "bob")
  poolGet _ s _ := (.ok (), s)
  call user s c _ :=
    (.ok (keepDomains (fun d => decide ((if d = 0 then "ann" else "bob") = user)) c (annLibvirt.call s c).1),
      (annLibvirt.call s c).2)
  websocketsAdd _ s := s
  event _ s d := (s.dom d).bind fun dom => if dom.id.isSome then some (s.deactivate d dom) else none
  uninitialised _ := 0
  now _ := 0
  domainConn d := if d = 0 then "ann" else "bob"
  networkConn _ := "ann"
  domains user s c o v hv d hd := by
    obtain rfl := Except.ok.inj hv
    cases c with
    | virConnectListAllDomains conn => simpa using (List.mem_filter.mp hd).2
    | virDomainLookupByName conn name =>
      have hd := Option.mem_toList.mp hd
      simpa using (Option.mem_filter_iff.mp hd).2
    | _ => cases hd
  networks user s c o v hv n hn := by
    obtain rfl := Except.ok.inj hv
    cases c with
    | virConnectListAllNetworks conn => cases hn
    | _ => cases hn

def bobRequest : Request := { method := .post, target := "/users/bob/domains/vm/start/" }

/-- Both start their domain at the same time. -/
def bothStart : List (Threads.Action Request Unit (User × DomainPtr)) :=
  [.spawn startRequest, .spawn bobRequest, .call 0 (), .call 1 (), .call 1 (), .call 0 (), .call 0 (), .call 1 (),
    .call 1 (), .call 0 (), .event ("bob", 1), .call 0 (), .call 1 (), .call 0 (), .call 0 ()]

def annAndBobDomains (user : User) : LibvirtState :=
  if user = "ann" then annDomains else ⟨[{ conn := "bob", name := "other" }, { conn := "bob", name := "vm" }], 1⟩

/-- Ann's request goes as if there were no bob. -/
theorem users_apart_both : ∃ s t,
    (Threads.machine (server annAndBob writingLinked ⟨60, 15⟩) annAndBobDomains).exec ⟨annAndBobDomains, []⟩
      bothStart = some s ∧
    (Threads.machine (server annAndBob writingLinked ⟨60, 15⟩) fun _ => annDomains).exec ⟨fun _ => annDomains, []⟩
      ((users annAndBob writingLinked ⟨60, 15⟩).purge (some "ann") [] bothStart) = some t ∧
    s.shared "ann" = t.shared "ann" ∧ s.threads[0]? = t.threads[0]? := by
  obtain ⟨s, hs⟩ : ∃ s, (Threads.machine (server annAndBob writingLinked ⟨60, 15⟩) annAndBobDomains).exec
      ⟨annAndBobDomains, []⟩ bothStart = some s := Option.isSome_iff_exists.mp rfl
  obtain ⟨t, ht, hshared, hthreads⟩ :=
    users_apart annAndBob writingLinked ⟨60, 15⟩ (v := fun _ => annDomains) (show annAndBobDomains "ann" = annDomains from rfl) hs
  have huser : userOf writingLinked ⟨60, 15⟩ startRequest = some "ann" := by
    unfold userOf
    rw [find_startRequest]
    rfl
  exact ⟨s, t, hs, ht, hshared, hthreads 0 startRequest rfl huser⟩

end App

end Webvirtd
