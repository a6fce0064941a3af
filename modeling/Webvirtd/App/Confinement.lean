import Webvirtd.App.Grammar
import Webvirtd.App.Inventory
import Webvirtd.App.Requests
import Webvirtd.App.Retry
import Webvirtd.App.Monitoring

/-!
# App.Confinement — which libvirt calls a request may make

Whatever the surroundings answer, a request makes no change but the one that its target and its method ask for: of
the domain that the same attempt has just looked up, or, with a definition, on the connection that it was looked up on
(`writes_confined`).  The pool is asked for no user but one that `getpwnam` has just found (`pool_confined`).

The policy is on the history of the calls (`mayCall`); the wrappers are gone through once, with what they have
established by then, and each view is put together from calls that its route allows (`Ordered`).
-/

namespace Webvirtd

open Lib Virt Http Http.Middleware

/-! ## What the views write -/

namespace Views

open App

/-- The change that a request to a domain asks for. -/
def Orders (a : DomainRoute) (method : Verb) (user : User) (d : DomainPtr) : Call → Prop
  | .virDomainSetAutostart d' enabled => a = .autostart ∧ d' = d ∧ enabled = (method == .post)
  | .virDomainSetMetadata d' _ _ => a = .metadata ∧ d' = d
  | .virDomainDefineXML conn _ => a = .bootmenu ∧ conn = user
  | .virDomainCreate d' => a = .start ∧ d' = d
  | .virDomainShutdown d' => a = .shutdown ∧ d' = d
  | _ => False

/-- A call that changes nothing, or what the request asks to be changed. -/
def Ordered (a : DomainRoute) (method : Verb) (user : User) (d : DomainPtr) (c : Call) : Prop :=
  c.writes = true → Orders a method user d c

section

variable {a : DomainRoute} {user : User} {d : DomainPtr} {request : Request} {L : Linked} {T : Timeouts}

/-- The calls of the view are ordered. -/
abbrev Obeys (a : DomainRoute) (request : Request) (user : User) (d : DomainPtr) {α : Type} (m : ViewM α) : Prop :=
  ViewM.MadeOf (Ordered a request.method user d) (fun _ => True) m

theorem obeys_reads {α : Type} {m : ViewM α} (hm : Reads m) : Obeys a request user d m := by
  refine Eff.MadeOf.mono (ViewPart.mono fun c hc hw => ?_) (fun _ _ => trivial) hm
  rw [hc] at hw
  cases hw

theorem obeys_perform {c : Call} (h : Orders a request.method user d c) : Obeys a request user d (perform c) :=
  made_perform fun _ => h

theorem obeys_autostart : Obeys .autostart request user d (Domains.autostart L d request) :=
  .bind (.bind (obeys_perform ⟨rfl, rfl, rfl⟩) fun _ => .pure _) fun _ => .modify _

theorem obeys_bootmenu : Obeys .bootmenu request user d (Domains.bootmenu L user d request) := by
  refine .bind (obeys_reads (reads_xmlDocument d L)) fun doc => .bind (obeys_perform ⟨rfl, rfl⟩) fun redefined => ?_
  cases redefined with
  | none => exact .modify _
  | some _ => exact .modify _

theorem obeys_replaceMetadata (type : MetadataType) (key current value : String) (output : Json) :
    Obeys .metadata request user d (Domains.replaceMetadata d type key current value output) := by
  unfold Domains.replaceMetadata
  by_cases h : value ≠ current
  · rw [if_pos h]
    exact .bind (.bind (obeys_perform ⟨rfl, rfl⟩) fun _ => .pure _) fun _ => .pure _
  · rw [if_neg h]
    exact .pure _

theorem obeys_metadata : Obeys .metadata request user d (Domains.metadata L d request) := by
  have hget : ∀ type, Obeys .metadata request user d (Domain.metadata d type) :=
    fun type => obeys_reads (reads_perform rfl)
  have hconvert : ∀ x : Except Exn String, Obeys .metadata request user d (ofExcept x) :=
    fun x => made_ofExcept (fun _ => trivial) x
  unfold Domains.metadata
  cases parse L request.body with
  | error e => exact .modify _
  | ok data =>
    refine .bind (hget .title) fun currentTitle => .bind (hconvert _) fun title => ?_
    refine .bind (obeys_replaceMetadata _ _ _ _ _) fun output => ?_
    refine .bind (hget .description) fun currentDesc => .bind (hconvert _) fun desc => ?_
    refine .bind (obeys_replaceMetadata _ _ _ _ _) fun output => .ite ?_ ?_
    · exact .bind (.modify _) fun _ => .bind .get fun r => .modify _
    · exact .bind .get fun r => .modify _

theorem obeys_start : Obeys .start request user d (Domains.start L d) := by
  refine .bind (.bind (obeys_perform ⟨rfl, rfl⟩) fun _ => .pure _) fun started => ?_
  show Obeys .start request user d (if _ then _ else _)
  split_ifs
  · exact .modify _
  · exact .bind (obeys_reads (Data.reads_simpleDomain d)) fun _ => .modify _

theorem obeys_domainShutdown : Obeys .shutdown request user d (Domain.shutdown d T) := by
  have hnow : Obeys .shutdown request user d Virt.now := .leaf (.ask .now nofun)
  have hstate : Ordered .shutdown request.method user d (.virDomainGetState d) := nofun
  refine .bind (obeys_perform ⟨rfl, rfl⟩) fun rc => .ite (.pure _) (.bind hnow fun start => ?_)
  refine .bind (made_poll hstate _ _ _ _ _ _) fun state => .bind hnow fun start => ?_
  exact .bind (made_poll hstate _ _ _ _ _ _) fun _ => .pure _

theorem obeys_shutdown : Obeys .shutdown request user d (Domains.shutdown L T d) := by
  refine .bind (.tryCatch (.map _ obeys_domainShutdown) (fun e => ?_) fun e he => ?_) fun ok => ?_
  · exact .ite (.pure _) (.throw trivial)
  · refine if_neg ?_
    cases e with
    | exn e =>
      obtain ⟨cls, what⟩ := e
      cases cls with
      | outOfRange => cases he
      | _ => exact Bool.false_ne_true
    | _ => cases he
  · match ok with
    | none => exact .modify _
    | some false => exact .modify _
    | some true => exact .bind (obeys_reads (Data.reads_simpleDomain d)) fun _ => .modify _

end

end Views

namespace App

open Views

/-! ## The policy -/

/-- The checks of `with_libvirt_domain` have just been passed, and since then only a view has called. -/
def Cleared (location : List String) (d : DomainPtr) (es : List CmdEvent) : Prop :=
  ∃ earlier since, es = earlier ++ domainCalls location d ++ since ∧ ∀ e ∈ since, ∃ o, e.1 = .op o

/-- The change is the one that the request asks for, of the domain that has been found for it. -/
def MayWrite (request : Request) (es : List CmdEvent) (c : Call) : Prop :=
  ∃ a user name d, (Endpoint.domain a).Accepts request.target [user, name] ∧ request.method ∈ a.methods ∧
    Orders a request.method user d c ∧ Cleared [request.target, user, name] d es

def mayCall (request : Request) (es : List CmdEvent) : Cmd → Prop
  | .op (.libvirt c) => c.writes = true → MayWrite request es c
  | .poolGet user => ∃ earlier, es = earlier ++ [⟨.getpwnam (cStr user), true⟩]
  | _ => True

/-- From a history that satisfies `P` on, `m` keeps to the policy. -/
abbrev Complies (request : Request) (P : List CmdEvent → Prop) {α : Type} (m : RouteM α)
    (Q : α → List CmdEvent → Prop) : Prop :=
  Monitored (Monitor.history (mayCall request)) P m Q

/-- A history that ends with `es`. -/
def EndsWith (es h : List CmdEvent) : Prop := ∃ earlier, h = earlier ++ es

theorem EndsWith.append {es h : List CmdEvent} (hes : EndsWith es h) (e : CmdEvent) :
    EndsWith (es ++ [e]) (h ++ [e]) := by
  obtain ⟨earlier, rfl⟩ := hes
  exact ⟨earlier, List.append_assoc _ _ _⟩

theorem endsWith_nil (h : List CmdEvent) : EndsWith [] h := ⟨h, (List.append_nil h).symm⟩

section

variable {L : Linked} {T : Timeouts} {request : Request} {location : List String} {httpConn : Bool}
  {P : List CmdEvent → Prop}

theorem complies_reads {α : Type} {m : ViewM α} (hm : Reads m) :
    Complies request P (.ofView m) fun _ _ => True := by
  have huses : Eff.Uses (fun c => ∃ o, c = .op o ∧ Op.ReadOnly o) Failure.IsExn (RouteM.ofView m) :=
    hm.uses.lift fun o ho => ⟨o, rfl, ho⟩
  refine (huses.guarded (M := Monitor.history (mayCall request)) (P := fun _ => True) ?_
    fun _ _ _ _ _ => trivial).conseq (fun _ _ => trivial) (fun _ _ h => h) fun _ _ _ => trivial
  rintro es c ⟨o, rfl, ho⟩ -
  cases o with
  | libvirt c =>
    intro hw
    rw [show c.writes = false from ho] at hw
    cases hw
  | _ => trivial

/-- A view of a domain, once the checks have been passed. -/
theorem complies_view {a : DomainRoute} {user : User} {name : String} {d : DomainPtr} {m : ViewM Unit}
    (hacc : (Endpoint.domain a).Accepts request.target [user, name]) (hmethod : request.method ∈ a.methods)
    (hm : Obeys a request user d m) :
    Complies request (EndsWith (domainCalls [request.target, user, name] d)) (.ofView m) fun _ _ => True := by
  have huses : Eff.Uses (fun c => ∃ o, c = .op o ∧ ∀ call, o = .libvirt call → Ordered a request.method user d call)
      (fun _ => True) (RouteM.ofView m) := by
    refine Eff.Uses.lift (A := fun o => ∀ call, o = .libvirt call → Ordered a request.method user d call)
      (fun o ho => ⟨o, rfl, ho⟩) (ViewM.MadeOf.uses hm ?_ ?_ fun _ => trivial)
    · rintro c hc call hcall
      obtain rfl := Op.libvirt.inj hcall
      exact hc
    · exact fun o ho call hcall => absurd hcall (ho call)
  have hguarded := huses.guarded (M := Monitor.history (mayCall request))
    (P := Cleared [request.target, user, name] d) ?_ ?_
  · refine hguarded.conseq ?_ (fun _ _ _ => trivial) fun _ _ _ => trivial
    rintro es ⟨earlier, rfl⟩
    exact ⟨earlier, [], (List.append_nil _).symm, nofun⟩
  · rintro es c ⟨o, rfl, ho⟩ hcleared
    cases o with
    | libvirt c => exact fun hw => ⟨a, user, name, d, hacc, hmethod, ho c rfl hw, hcleared⟩
    | _ => trivial
  · rintro es c r ⟨o, rfl, -⟩ ⟨earlier, since, rfl, hsince⟩
    refine ⟨earlier, since ++ [⟨.op o, r⟩], (List.append_assoc _ _ _), fun e he => ?_⟩
    rcases List.mem_append.mp he with he | he
    · exact hsince e he
    · rw [List.mem_singleton.mp he]
      exact ⟨o, rfl⟩

/-! ## Through the wrappers -/

theorem complies_getpwnam (user : String) :
    Complies request (fun _ => True) (getpwnam user) fun found es =>
      found = true → EndsWith [⟨.getpwnam (cStr user), true⟩] es := by
  refine .call (c := Cmd.getpwnam (cStr user)) (fun _ _ => trivial) fun es found _ hfound => ?_
  subst hfound
  exact (endsWith_nil es).append _

theorem complies_poolGet (user : User) :
    Complies request (EndsWith [⟨.getpwnam (cStr user), true⟩]) (poolGet user) fun entry es =>
      entry = .ok () → EndsWith [⟨.getpwnam (cStr user), true⟩, ⟨.poolGet user, .ok ()⟩] es := by
  refine .call (c := Cmd.poolGet user) (fun _ hes => hes) fun es entry hes hentry => ?_
  subst hentry
  exact hes.append _

theorem complies_withLibvirt {routeFn : User → RouteFunction}
    (h : Complies request (EndsWith [⟨.getpwnam (cStr (capture location 1)), true⟩,
      ⟨.poolGet (capture location 1), .ok ()⟩]) (routeFn (capture location 1) httpConn location request)
      fun _ _ => True) :
    Complies request (fun _ => True) (withLibvirt L routeFn httpConn location request) fun _ _ => True :=
  monitored_withLibvirt (complies_getpwnam _) (complies_poolGet _) h

theorem complies_withLibvirtDomain {routeFn : User → DomainPtr → RouteFunction}
    (h : ∀ d, Complies request (EndsWith (domainCalls location d))
      (routeFn (capture location 1) d httpConn location request) fun _ _ => True) :
    Complies request (fun _ => True) (withLibvirtDomain L routeFn httpConn location request) fun _ _ => True := by
  refine monitored_withLibvirtDomain (complies_getpwnam _) (complies_poolGet _) (monitored_domain ?_ ?_) h
  · exact fun _ _ => nofun
  · exact fun es d hes => hes.append _

end

/-! ## Every route -/

section

variable {L : Linked} {T : Timeouts} {request : Request}

/-- The route functions of the endpoints. -/
theorem complies_handler {e : Endpoint} {captures : List String} (hacc : e.Accepts request.target captures)
    (httpConn : Bool) :
    Complies request (fun _ => True) (e.handler L T httpConn (request.target :: captures) request) fun _ _ => True := by
  cases e with
  | redirect => exact .bind (Q := fun _ _ => True) (.modify fun _ h => h) fun _ => .modify fun _ h => h
  | user s =>
    cases s with
    | websocket =>
      refine monitored_withMethods fun _ => complies_withLibvirt ?_
      refine .bind (complies_reads (reads_user _)) fun user => .bind (Q := fun _ _ => True) ?_ fun _ => ?_
      · exact .ite (fun _ => .call (c := Cmd.upgrade) (fun _ _ => trivial) fun _ _ _ => trivial)
          fun _ => .throw fun _ _ => trivial
      · exact .bind (Q := fun _ _ => True) (.call (c := Cmd.websocketsAdd _ user) (fun _ _ => trivial) fun _ _ _ => trivial)
          fun _ => .modify fun _ _ => trivial
    | host => exact monitored_withMethods fun _ => complies_withLibvirt (complies_reads (Host.reads_show L _))
    | networks => exact monitored_withMethods fun _ => complies_withLibvirt (complies_reads (Host.reads_networks L _))
    | domains => exact monitored_withMethods fun _ => complies_withLibvirt (complies_reads (Domains.reads_index L _))
  | domain a =>
    obtain ⟨user, name, -, -, rfl, -⟩ := id hacc
    cases a with
    | «show» =>
      exact monitored_withMethods fun hm => complies_withLibvirtDomain fun d =>
        complies_reads (Domains.reads_show L d)
    | autostart =>
      exact monitored_withMethods fun hm => complies_withLibvirtDomain fun d =>
        complies_view hacc hm obeys_autostart
    | metadata =>
      exact monitored_withMethods fun hm => complies_withLibvirtDomain fun d =>
        complies_view hacc hm obeys_metadata
    | bootmenu =>
      exact monitored_withMethods fun hm => complies_withLibvirtDomain fun d =>
        complies_view hacc hm obeys_bootmenu
    | start =>
      exact monitored_withMethods fun hm => complies_withLibvirtDomain fun d => complies_view hacc hm obeys_start
    | shutdown =>
      exact monitored_withMethods fun hm => complies_withLibvirtDomain fun d =>
        complies_view hacc hm obeys_shutdown

theorem complies_onRequest :
    Complies request (fun _ => True) (onRequest L T request) fun _ _ => True :=
  monitored_onRequest fun _ _ hacc _ httpConn => complies_handler hacc httpConn

end

/-- **Confinement.**  In whatever surroundings, a libvirt call of a request that changes something is preceded by
the checks of its attempt, and is what the target and the method of the request ask for. -/
theorem writes_confined {σ : Type} (L : Linked) (T : Timeouts) (answer : σ → (c : Cmd) → Cmd.Res c × σ)
    (request : Request) (r : Response) (w : σ) {before after : List CmdEvent} {c : Call} {x : Except Exn c.Val}
    (h : (onRequest L T request).events answer r w = before ++ ⟨.op (.libvirt c), x⟩ :: after)
    (hc : c.writes = true) : MayWrite request before c :=
  Eff.Guarded.policy complies_onRequest trivial h hc

/-- The domain vm of ann is started, after the checks. -/
theorem events_startRequest : ∃ after,
    (onRequest writingLinked ⟨60, 15⟩ startRequest).events annLibvirt.serve {} annDomains =
      domainCalls [startRequest.target, "ann", "vm"] 0 ++
        ⟨.op (.libvirt (.virDomainCreate 0)), (.ok 0 : Except Exn ℤ)⟩ :: after := by
  have hroute : Eff.Makes annLibvirt.serve
      (startRoute writingLinked true [startRequest.target, "ann", "vm"] startRequest) {} annDomains _ _ _ _ :=
    Eff.makes_events _ _ _
  have hmakes := makes_run (L := writingLinked) (find_startRequest (T := ⟨60, 15⟩)) (r := {}) hroute
  exact ⟨_, hmakes.events⟩

theorem writes_confined_start : ∃ after,
    (onRequest writingLinked ⟨60, 15⟩ startRequest).events annLibvirt.serve {} annDomains =
      domainCalls [startRequest.target, "ann", "vm"] 0 ++
        ⟨.op (.libvirt (.virDomainCreate 0)), (.ok 0 : Except Exn ℤ)⟩ :: after ∧
      MayWrite startRequest (domainCalls [startRequest.target, "ann", "vm"] 0) (.virDomainCreate 0) := by
  obtain ⟨after, hevents⟩ := events_startRequest
  exact ⟨after, hevents, writes_confined writingLinked ⟨60, 15⟩ annLibvirt.serve startRequest {} annDomains hevents rfl⟩

/-- The pool is asked for a user that `getpwnam` has just found. -/
theorem pool_confined {σ : Type} (L : Linked) (T : Timeouts) (answer : σ → (c : Cmd) → Cmd.Res c × σ)
    (request : Request) (r : Response) (w : σ) {before after : List CmdEvent} {user : User} {x : Except Exn Unit}
    (h : (onRequest L T request).events answer r w = before ++ ⟨.poolGet user, x⟩ :: after) :
    ∃ earlier, before = earlier ++ [⟨.getpwnam (cStr user), true⟩] :=
  Eff.Guarded.policy complies_onRequest trivial h

theorem pool_confined_start : ∃ after,
    (onRequest writingLinked ⟨60, 15⟩ startRequest).events annLibvirt.serve {} annDomains =
      [⟨.getpwnam (cStr "ann"), true⟩] ++ ⟨.poolGet "ann", (.ok () : Except Exn Unit)⟩ :: after ∧
      ∃ earlier, [⟨.getpwnam (cStr "ann"), true⟩] = earlier ++ [(⟨.getpwnam (cStr "ann"), true⟩ : CmdEvent)] := by
  obtain ⟨after, hevents⟩ := events_startRequest
  exact ⟨_, hevents, pool_confined writingLinked ⟨60, 15⟩ annLibvirt.serve startRequest {} annDomains hevents⟩

end App

end Webvirtd
