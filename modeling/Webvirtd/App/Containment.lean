import Webvirtd.App.Responses
import Webvirtd.App.State

/-!
# App.Containment — exceptions that leave the entry points of the daemon

Requests are handled by `router::run`, which catches what the views throw.  The other entry points catch
nothing: the handler of a websocket handshake (`on_handshake` and `add_events`), the handler of a closed
websocket (`on_close` and `remove_events`), and an iteration of `event_loop` with the callbacks that libvirt
dispatches from it.  Each is a computation here, whose calls to libvirt may be interrupted by the close
callback, which throws.  `virDomainRef` and `virDomainFree` only count references and are left out.

`contained_iff`: an exception stays inside exactly if the entry point is `Quiet`.
-/

namespace Webvirtd.App

open Lib Virt Http

/-- What the handlers outside of requests ask of libvirt and of the state that they share. -/
inductive HandlerCmd
  /-- `events_.find(conn.user()) != events_.end()` -/
  | findEvents (conn : User)
  | virConnectDomainEventRegisterAny (conn : User)
  | virConnectDomainEventDeregisterAny (conn : User)
  /-- `events_[conn.user()].set(ev->id(), ev)`: whether the id was free. -/
  | setEvent (conn : User)
  /-- `events.remove(VIR_DOMAIN_EVENT_ID_LIFECYCLE)`, up to the destruction of what it takes out. -/
  | removeEvent (conn : User)
  /-- `events.size()` -/
  | eventsSize (conn : User)
  /-- `events_.erase(it)` -/
  | eraseEvents (conn : User)
  /-- `websockets_.remove(user, ws_conn)` -/
  | removeWebsocket (user : User)
  /-- `websockets_[user].size()` -/
  | websocketsSize (user : User)
  /-- `websockets_.broadcast(user, data)` -/
  | broadcast (user : User) (data : Json)
  /-- What a document asks. -/
  | op (o : Op)

@[reducible] def HandlerCmd.Res : HandlerCmd → Type
  | .findEvents _ => Bool
  | .virConnectDomainEventRegisterAny _ => Except Exn ℤ
  | .virConnectDomainEventDeregisterAny _ => Except Exn ℤ
  | .setEvent _ => Bool
  | .removeEvent _ => Unit
  | .eventsSize _ => ℕ
  | .eraseEvents _ => Unit
  | .removeWebsocket _ => Unit
  | .websocketsSize _ => ℕ
  | .broadcast _ _ => Unit
  | .op o => o.Res

/-- How a handler ends other than by returning. -/
inductive Escape
  | failure (f : Failure)
  /-- An exception leaves a destructor, and `std::terminate` is called. -/
  | terminate (e : Exn)

/-- An exception has left the entry point. -/
def Escape.IsExn : Escape → Prop
  | .failure f => f.IsExn
  | .terminate _ => True

abbrev HandlerM (α : Type) : Type := Eff HandlerCmd HandlerCmd.Res Unit Escape α

def ask (c : HandlerCmd) : HandlerM c.Res := Eff.call c

def HandlerM.throwExn {α : Type} (e : Exn) : HandlerM α := Eff.throw (.failure (.exn e))

/-- A document, outside of a request. -/
def HandlerM.ofView {α : Type} (m : ViewM α) : HandlerM α := fun _ =>
  ((m {}).lift HandlerCmd.op fun _ r => r).bind fun x => .ret (x.1.mapError .failure, ())

/-! ## The handlers -/

/-- `event::~event` -/
def destroyEvent (conn : User) : HandlerM Unit := do
  match ← ask (.virConnectDomainEventDeregisterAny conn) with
  | .ok _ => pure ()
  | .error e => Eff.throw (.terminate e)

/-- `lifecycle_event::register_event` -/
def registerEvent (conn : User) : HandlerM Unit := do
  match ← ask (.virConnectDomainEventRegisterAny conn) with
  | .ok id => if id = -1 then .throwExn ⟨.runtimeError, "Event registration failed"⟩ else pure ()
  | .error e => .throwExn e

/-- The constructor of `lifecycle_event`: when its body throws, the base is destroyed. -/
def lifecycleEvent (conn : User) : HandlerM Unit :=
  Eff.tryCatch (registerEvent conn) fun e => do
    destroyEvent conn
    Eff.throw e

/-- `app::add_events`: an event that is not taken is destroyed. -/
def addEvents (conn : User) : HandlerM Unit := do
  lifecycleEvent conn
  if ← ask (.setEvent conn) then pure () else destroyEvent conn

/-- The handler that `app::websocket` passes to `on_handshake`. -/
def onHandshake (conn : User) : HandlerM Unit := do
  if ← ask (.findEvents conn) then pure () else addEvents conn

/-- What `app::remove_events` does with the events that it has found. -/
def removeFound (conn : User) : HandlerM Unit := do
  ask (.removeEvent conn)
  destroyEvent conn
  let size ← ask (.eventsSize conn)
  if size = 0 then ask (.eraseEvents conn) else pure ()

/-- `app::remove_events` -/
def removeEvents (conn : User) : HandlerM Unit := do
  if ← ask (.findEvents conn) then removeFound conn else pure ()

/-- The handler that `app::websocket` passes to `on_close`. -/
def onClose (user conn : User) : HandlerM Unit := do
  ask (.removeWebsocket user)
  let size ← ask (.websocketsSize user)
  if size = 0 then removeEvents conn else pure ()

/-- A callback that an iteration of the event loop dispatches. -/
inductive Dispatch
  /-- `event_timeout` -/
  | timeout
  /-- The `close_func` of `connect`. -/
  | close
  /-- `lifecycle_event::on_event_handler`, of an event of `user`. -/
  | lifecycle (user : User) (domain : DomainPtr) (type : EventType)

/-- What a callback does. -/
def Dispatch.run : Dispatch → HandlerM Unit
  | .timeout => pure ()
  | .close => .throwExn ⟨.retryError, "libvirt connection closed"⟩
  | .lifecycle user domain type => do
    if type.isTarget then
      let data ← HandlerM.ofView (Data.simpleDomain domain)
      ask (.broadcast user data)
    else pure ()

/-- `event::run_one`: the callbacks that are due, one after the other. -/
def runOne : List Dispatch → HandlerM Unit
  | [] => pure ()
  | d :: ds => do
    d.run
    runOne ds

/-! ## The entry points -/

/-- The surroundings of all entry points. -/
structure Daemon (σ : Type) extends Surroundings σ where
  handler : σ → (c : HandlerCmd) → HandlerCmd.Res c × σ

inductive Entry
  | request (request : Request)
  | handshake (conn : User)
  | close (user conn : User)
  | iteration (dispatched : List Dispatch)

variable {σ : Type} (L : Linked) (T : Timeouts) (D : Daemon σ)

/-- How the entry point ends. -/
def Entry.outcome (w : σ) : Entry → Except Escape Unit
  | .request req =>
    ((onRequest L T req).exec D.serve (prepared L req) ({}, w)).1.mapError .failure
  | .handshake conn => ((onHandshake conn).exec D.handler () w).1
  | .close user conn => ((onClose user conn).exec D.handler () w).1
  | .iteration dispatched => ((runOne dispatched).exec D.handler () w).1

/-- No exception leaves. -/
def Contained (r : Except Escape Unit) : Prop := ∀ x, r = .error x → ¬ x.IsExn

/-! ## When nothing is thrown -/

/-- How the ops of documents are answered. -/
def Daemon.ops (w : σ) (o : Op) : Op.Res o × σ := D.handler w (.op o)

/-- It is not the close callback, and an event of interest is about a domain that can be described. -/
def Dispatch.Quiet (w : σ) : Dispatch → Prop
  | .timeout => True
  | .close => False
  | .lifecycle _ domain type => type.isTarget = true → Data.Described D.ops w domain

/-- Each callback is quiet when it is dispatched. -/
def QuietAll : σ → List Dispatch → Prop
  | _, [] => True
  | w, d :: ds => d.Quiet D w ∧ QuietAll (d.run.exec D.handler () w).2.2 ds

/-- libvirt is asked for no registration or deregistration, or it does what it is asked for and the close
callback does not fire meanwhile. -/
def Entry.Quiet (w : σ) : Entry → Prop
  | .request _ => True
  | .handshake conn =>
    let found := D.handler w (.findEvents conn)
    let registered := D.handler found.2 (.virConnectDomainEventRegisterAny conn)
    let taken := D.handler registered.2 (.setEvent conn)
    let deregistered := D.handler taken.2 (.virConnectDomainEventDeregisterAny conn)
    found.1 = false → (∃ id, registered.1 = .ok id ∧ id ≠ -1) ∧
      (taken.1 = false → ∃ n, deregistered.1 = .ok n)
  | .close user conn =>
    let removed := D.handler w (.removeWebsocket user)
    let size := D.handler removed.2 (.websocketsSize user)
    let found := D.handler size.2 (.findEvents conn)
    let erased := D.handler found.2 (.removeEvent conn)
    let deregistered := D.handler erased.2 (.virConnectDomainEventDeregisterAny conn)
    size.1 = 0 → found.1 = true → ∃ n, deregistered.1 = .ok n
  | .iteration dispatched => QuietAll D w dispatched

section

variable {D} {w : σ} {conn user : User} {α β : Type}

/-- The handlers throw nothing but exceptions, so containment means that they return. -/
theorem contained_iff_returns {m : HandlerM Unit} (hm : Eff.Uses (fun _ => True) Escape.IsExn m) :
    Contained (m.exec D.handler () w).1 ↔ m.Returns D.handler () w := by
  have hthrows := ((hm ()).run D.handler (I := fun _ => True) (fun _ _ _ _ => trivial) trivial (w := w)).2
  cases hx : (m.exec D.handler () w).1 with
  | ok u => exact iff_of_true (fun x h => by cases h) ⟨u, hx⟩
  | error x =>
    refine iff_of_false (fun hc => hc x rfl (hthrows x hx)) ?_
    rintro ⟨u, hu⟩
    rw [hx] at hu
    cases hu

/-! ### What the handlers throw -/

theorem uses_ofView {m : ViewM α} (hm : Ends m) :
    Eff.Uses (fun _ => True) Escape.IsExn (HandlerM.ofView m) := fun _ =>
  ((hm.uses {}).lift fun _ _ => trivial).bind fun
    | (.ok a, _), _ => Eff.throws_ok a ()
    | (.error e, _), h => Eff.throws_error (e := Escape.failure e) (h e rfl) ()

theorem uses_destroyEvent (conn : User) :
    Eff.Uses (fun _ => True) Escape.IsExn (destroyEvent conn) := by
  refine .bind (.call trivial) fun res => ?_
  cases res with
  | ok n => exact .pure _
  | error e => exact .throw trivial

theorem uses_lifecycleEvent (conn : User) :
    Eff.Uses (fun _ => True) Escape.IsExn (lifecycleEvent conn) := by
  refine .tryCatch (F := Escape.IsExn) (.bind (.call trivial) fun res => ?_) fun e he => ?_
  · cases res with
    | ok id => exact .ite (.throw trivial) (.pure _)
    | error e => exact .throw trivial
  · exact .bind (uses_destroyEvent conn) fun _ => .throw he

theorem uses_onHandshake (conn : User) :
    Eff.Uses (fun _ => True) Escape.IsExn (onHandshake conn) :=
  .bind (.call trivial) fun _ => .ite (.pure _) <| .bind (uses_lifecycleEvent conn) fun _ =>
    .bind (.call trivial) fun _ => .ite (.pure _) (uses_destroyEvent conn)

theorem uses_removeFound (conn : User) :
    Eff.Uses (fun _ => True) Escape.IsExn (removeFound conn) :=
  .bind (.call trivial) fun _ => .bind (uses_destroyEvent conn) fun _ => .bind (.call trivial) fun _ =>
    .ite (.call trivial) (.pure _)

theorem uses_onClose (user conn : User) :
    Eff.Uses (fun _ => True) Escape.IsExn (onClose user conn) :=
  .bind (.call trivial) fun _ => .bind (.call trivial) fun _ => .ite
    (.bind (.call trivial) fun _ => .ite (uses_removeFound conn) (.pure _)) (.pure _)

theorem uses_runOne (ds : List Dispatch) : Eff.Uses (fun _ => True) Escape.IsExn (runOne ds) := by
  induction ds with
  | nil => exact .pure _
  | cons d ds ih =>
    refine .bind ?_ fun _ => ih
    cases d with
    | timeout => exact .pure _
    | close => exact .throw trivial
    | lifecycle user domain type =>
      exact .ite (.bind (uses_ofView (Data.reads_simpleDomain domain).ends) fun _ => .call trivial)
        (.pure _)

/-! ### When the handlers return -/

theorem returns_ask {c : HandlerCmd} {f : c.Res → HandlerM β} :
    (ask c >>= f).Returns D.handler () w ↔
      (f (D.handler w c).1).Returns D.handler () (D.handler w c).2 :=
  Eff.returns_bind_of_ok D.handler (Eff.exec_call D.handler c () w)

theorem returns_destroyEvent : (destroyEvent conn).Returns D.handler () w ↔
    ∃ n, (D.handler w (.virConnectDomainEventDeregisterAny conn)).1 = .ok n := by
  unfold destroyEvent
  rw [returns_ask]
  cases (D.handler w (.virConnectDomainEventDeregisterAny conn)).1 with
  | ok n => exact iff_of_true ⟨(), rfl⟩ ⟨n, rfl⟩
  | error e => exact iff_of_false (fun ⟨_, h⟩ => (by cases h)) fun ⟨_, h⟩ => (by cases h)

theorem exec_registerEvent_ok {id : ℤ}
    (h : (D.handler w (.virConnectDomainEventRegisterAny conn)).1 = .ok id) (hid : id ≠ -1) :
    (registerEvent conn).exec D.handler () w =
      (.ok (), (), (D.handler w (.virConnectDomainEventRegisterAny conn)).2) := by
  unfold registerEvent ask
  rw [Eff.exec_bind_ok D.handler (Eff.exec_call D.handler _ () w), h]
  simp only [if_neg hid]
  rfl

/-- A registration that fails, and one that is interrupted. -/
theorem exec_registerEvent_error
    (h : ¬ ∃ id, (D.handler w (.virConnectDomainEventRegisterAny conn)).1 = .ok id ∧ id ≠ -1) :
    ∃ e, (registerEvent conn).exec D.handler () w =
      (.error e, (), (D.handler w (.virConnectDomainEventRegisterAny conn)).2) := by
  unfold registerEvent ask
  rw [Eff.exec_bind_ok D.handler (Eff.exec_call D.handler _ () w)]
  cases hres : (D.handler w (.virConnectDomainEventRegisterAny conn)).1 with
  | ok id =>
    have hid : id = -1 := by
      by_contra hid
      exact h ⟨id, hres, hid⟩
    simp only [if_pos hid]
    exact ⟨_, rfl⟩
  | error e => exact ⟨_, rfl⟩

/-- The constructor returns if it has registered; otherwise it throws, or its base terminates. -/
theorem returns_lifecycleEvent {f : Unit → HandlerM β} :
    (lifecycleEvent conn >>= f).Returns D.handler () w ↔
      (∃ id, (D.handler w (.virConnectDomainEventRegisterAny conn)).1 = .ok id ∧ id ≠ -1) ∧
        (f ()).Returns D.handler () (D.handler w (.virConnectDomainEventRegisterAny conn)).2 := by
  by_cases hreg : ∃ id, (D.handler w (.virConnectDomainEventRegisterAny conn)).1 = .ok id ∧ id ≠ -1
  · obtain ⟨id, hok, hid⟩ := hreg
    have hexec : (lifecycleEvent conn).exec D.handler () w =
        (.ok (), (), (D.handler w (.virConnectDomainEventRegisterAny conn)).2) := by
      unfold lifecycleEvent
      rw [Eff.exec_tryCatch, exec_registerEvent_ok hok hid]
    rw [Eff.returns_bind_of_ok D.handler hexec]
    exact ⟨fun h => ⟨⟨id, hok, hid⟩, h⟩, fun h => h.2⟩
  · refine iff_of_false (fun h => ?_) fun h => hreg h.1
    obtain ⟨e, he⟩ := exec_registerEvent_error hreg
    obtain ⟨u, hu, -⟩ := (Eff.returns_bind D.handler).mp h
    have hunwind : (lifecycleEvent conn).Returns D.handler () w := ⟨u, hu⟩
    unfold lifecycleEvent Eff.Returns at hunwind
    rw [Eff.exec_tryCatch, he] at hunwind
    obtain ⟨-, -, v, hv⟩ := (Eff.returns_bind D.handler).mp hunwind
    cases hv

theorem returns_onHandshake_iff : (onHandshake conn).Returns D.handler () w ↔
    Entry.Quiet D w (.handshake conn) := by
  unfold onHandshake
  rw [returns_ask]
  simp only [Entry.Quiet]
  cases (D.handler w (.findEvents conn)).1 with
  | true => exact iff_of_true ⟨(), rfl⟩ nofun
  | false =>
    simp only [Bool.false_eq_true, if_false, forall_const]
    unfold addEvents
    rw [returns_lifecycleEvent]
    refine and_congr_right fun _ => ?_
    rw [returns_ask]
    cases (D.handler _ (.setEvent conn)).1 with
    | true => exact iff_of_true ⟨(), rfl⟩ nofun
    | false =>
      simp only [Bool.false_eq_true, if_false, forall_const]
      exact returns_destroyEvent

/-- Only the deregistration may throw. -/
theorem returns_removeFound : (removeFound conn).Returns D.handler () w ↔
    ∃ n, (D.handler (D.handler w (.removeEvent conn)).2 (.virConnectDomainEventDeregisterAny conn)).1 = .ok n := by
  unfold removeFound
  rw [returns_ask, ← returns_destroyEvent, Eff.returns_bind]
  constructor
  · rintro ⟨u, hu, -⟩
    exact ⟨u, hu⟩
  · rintro ⟨u, hu⟩
    refine ⟨u, hu, returns_ask.mpr ?_⟩
    split_ifs
    · exact ⟨(), rfl⟩
    · exact ⟨(), rfl⟩

theorem returns_onClose_iff : (onClose user conn).Returns D.handler () w ↔
    Entry.Quiet D w (.close user conn) := by
  unfold onClose
  rw [returns_ask, returns_ask]
  simp only [Entry.Quiet]
  split_ifs with hsize
  · unfold removeEvents
    rw [returns_ask]
    simp only [hsize, forall_const]
    cases (D.handler _ (.findEvents conn)).1 with
    | true =>
      simp only [if_true, forall_const]
      exact returns_removeFound
    | false => exact iff_of_true ⟨(), rfl⟩ nofun
  · exact iff_of_true ⟨(), rfl⟩ fun h => absurd h hsize

/-- A document outside of a request asks the same. -/
theorem exec_ofView (handler : σ → (c : HandlerCmd) → HandlerCmd.Res c × σ) (m : ViewM α) (w : σ) :
    (HandlerM.ofView m).exec handler () w = ((m.exec (fun w o => handler w (.op o)) {} w).1.mapError .failure, (),
      (m.exec (fun w o => handler w (.op o)) {} w).2.2) := by
  unfold HandlerM.ofView Eff.exec
  rw [Prog.run_bind, Prog.run_lift]
  rfl

theorem returns_ofView {m : ViewM α} {f : α → HandlerM β}
    (hf : ∀ a w, (f a).Returns D.handler () w) :
    (HandlerM.ofView m >>= f).Returns D.handler () w ↔ m.Returns D.ops {} w := by
  rw [Eff.returns_bind, exec_ofView]
  show (∃ a, (m.exec D.ops {} w).1.mapError Escape.failure = .ok a ∧ _) ↔ ∃ a, (m.exec D.ops {} w).1 = .ok a
  cases (m.exec D.ops {} w).1 with
  | ok a => exact iff_of_true ⟨a, rfl, hf a _⟩ ⟨a, rfl⟩
  | error e => exact iff_of_false (fun ⟨_, h, _⟩ => (by cases h)) fun ⟨_, h⟩ => (by cases h)

theorem returns_dispatch_iff {d : Dispatch} : d.run.Returns D.handler () w ↔ d.Quiet D w := by
  cases d with
  | timeout => exact iff_of_true ⟨(), rfl⟩ trivial
  | close => exact iff_of_false (fun ⟨_, h⟩ => (by cases h)) id
  | lifecycle user domain type =>
    show Eff.Returns D.handler (if type.isTarget then HandlerM.ofView (Data.simpleDomain domain) >>=
      fun data => ask (.broadcast user data) else pure ()) () w ↔
        (type.isTarget = true → Data.Described D.ops w domain)
    by_cases ht : type.isTarget = true
    · rw [if_pos ht, returns_ofView fun data w => ⟨(), rfl⟩, Data.returns_simpleDomain_iff]
      exact ⟨fun h _ => h, fun h => h ht⟩
    · rw [if_neg ht]
      exact iff_of_true ⟨(), rfl⟩ fun h => absurd h ht

theorem returns_runOne_iff {ds : List Dispatch} :
    (runOne ds).Returns D.handler () w ↔ QuietAll D w ds := by
  induction ds generalizing w with
  | nil => exact iff_of_true ⟨(), rfl⟩ trivial
  | cons d ds ih =>
    unfold runOne QuietAll
    rw [Eff.returns_bind, ← returns_dispatch_iff, ← ih]
    constructor
    · rintro ⟨u, hu, h⟩
      exact ⟨⟨u, hu⟩, h⟩
    · rintro ⟨⟨u, hu⟩, h⟩
      exact ⟨u, hu, h⟩

end

/-- **Containment.**  No exception leaves an entry point exactly if it is quiet: requests always are, the
others only as long as libvirt does what it is asked for. -/
theorem contained_iff (entry : Entry) (w : σ) : Contained (entry.outcome L T D w) ↔ entry.Quiet D w := by
  cases entry with
  | request request =>
    obtain ⟨r, k, w', hexec, -⟩ := onRequest_upgrade D.toSurroundings L T request w (prepared L request)
    refine iff_of_true ?_ trivial
    show Contained (((onRequest L T request).exec D.serve (prepared L request) ({}, w)).1.mapError
      .failure)
    rw [hexec]
    exact fun x hx => by cases hx
  | handshake conn =>
    exact (contained_iff_returns (uses_onHandshake conn)).trans returns_onHandshake_iff
  | close user conn => exact (contained_iff_returns (uses_onClose user conn)).trans returns_onClose_iff
  | iteration dispatched =>
    exact (contained_iff_returns (uses_runOne dispatched)).trans returns_runOne_iff

theorem not_contained {x : Escape} (h : x.IsExn) : ¬ Contained (.error x) := fun hc => hc x rfl h

/-- libvirt refuses registrations. -/
def refusingDaemon : Daemon ℚ where
  toSurroundings := emptySurroundings
  handler w
    | .findEvents _ => (false, w)
    | .virConnectDomainEventRegisterAny _ => (.ok (-1), w)
    | .virConnectDomainEventDeregisterAny _ => (.ok (-1), w)
    | .setEvent _ => (true, w)
    | .removeEvent _ => ((), w)
    | .eventsSize _ => ((0 : ℕ), w)
    | .eraseEvents _ => ((), w)
    | .removeWebsocket _ => ((), w)
    | .websocketsSize _ => ((0 : ℕ), w)
    | .broadcast _ _ => ((), w)
    | .op o => emptySurroundings.answer w (.op o)

/-- The registration of an accepted websocket fails; the connection closes while the event loop runs. -/
theorem not_contained_handshake_iteration :
    ¬ Contained ((Entry.handshake "ann").outcome plainLinked ⟨60, 15⟩ refusingDaemon 0) ∧
      ¬ Contained ((Entry.iteration [.close]).outcome plainLinked ⟨60, 15⟩ refusingDaemon 0) :=
  ⟨not_contained (x := .failure (.exn ⟨.runtimeError, "Event registration failed"⟩)) trivial,
    not_contained (x := .failure (.exn ⟨.retryError, "libvirt connection closed"⟩)) trivial⟩

end Webvirtd.App
