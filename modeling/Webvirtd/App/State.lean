import Webvirtd.App.Routes
import Webvirtd.Virt.ConnectionPool

/-!
# App.State — the running app: websockets, lifecycle events and the pool, step by step

One step is one mutex-protected operation of a handler (`websocket::pool::add`, `remove`, `size`,
`app::add_events`, `remove_events`), the `events_.find` of the handshake handler, one `get` of the
pool, the completion of an asynchronous operation, a close callback, or the delivery of one libvirt
event.  A websocket request is one step up to its `add`.  Handlers are interleaved freely: how far the
handlers of a websocket have come is its `Phase`.

libvirt's side is part of the state: which callbacks are registered on which handle (`regs`), and the
calls of `RegisterAny` and `DeregisterAny` so far (`calls`, newest first).  `virConnectOpen` returns a
new handle each time.  `up` is lost when an exception leaves a thread of the app.
-/

namespace Webvirtd.App

open Lib Virt Http

abbrev SockId := ℕ
abbrev ObjId := ℕ

/-- How far the handlers of a websocket have come. -/
inductive Phase
  /-- Upgraded by a request that is not run as a websocket. -/
  | unstarted
  /-- `run()` has posted `async_run`. -/
  | posted
  /-- `async_accept` is outstanding. -/
  | accepting
  /-- Accepted: the handshake handler is about to look for the events of the user. -/
  | handshaking
  /-- It found none and is about to add them. -/
  | missing
  /-- `async_read` is outstanding. -/
  | reading
  /-- The accept has failed. -/
  | failed
  /-- A read has failed other than by `closed`. -/
  | broken
  /-- Closed: the close handler is about to remove the websocket from its bucket. -/
  | closing
  /-- About to look at the size of the bucket. -/
  | removed
  /-- The bucket was empty: about to remove the events. -/
  | last
  | closed
  deriving DecidableEq, Repr

/-- A `websocket::connection` and what its handlers captured. -/
structure Sock where
  target : String
  /-- The pool entry that `conn` refers to. -/
  cell : User
  /-- The copy of `user`. -/
  user : User
  phase : Phase
  /-- How many writes are outstanding. -/
  writing : ℕ := 0
  /-- The handle last opened for the entry, when the handshake handler completed. -/
  handshaken : Option Handle := none
  deriving DecidableEq, Repr

/-- A `lifecycle_event` and what its callback captured. -/
structure LifecycleEvent where
  /-- The pool entry that `conn_` refers to. -/
  cell : User
  callbackId : ℤ
  user : User
  /-- The handle that it was registered on. -/
  registered : Handle
  deriving DecidableEq, Repr

/-- A callback that libvirt holds, with its opaque pointer. -/
structure Registration where
  handle : Handle
  id : ℤ
  opaquePtr : ObjId
  deriving DecidableEq, Repr

/-- Calls made to libvirt by event objects; `conn` is the handle that was passed. -/
inductive EventCall
  | register (o : ObjId) (h : Handle) (id : ℤ)
  | registerFailed (o : ObjId) (conn : Option Handle)
  | deregister (o : ObjId) (conn : Option Handle) (id : ℤ)
  deriving DecidableEq, Repr

/-- One `async_write`: what it sends, the connection whose event caused it, and whether the stream was
open and already writing. -/
structure Write where
  sock : SockId
  source : Handle
  data : Json
  ready : Bool
  outstanding : Bool

/-- `virt::events`: event objects by event id. -/
abbrev EventMap := List (ℤ × ObjId)

structure State where
  pool : PoolState := PoolState.init
  nextHandle : Handle := 0
  /-- `websockets_` -/
  buckets : User → List SockId := fun _ => []
  /-- `events_` -/
  events : User → Option EventMap := fun _ => none
  objs : ObjId → Option LifecycleEvent := fun _ => none
  nextObj : ObjId := 0
  socks : SockId → Option Sock := fun _ => none
  nextSock : SockId := 0
  regs : List Registration := []
  calls : List EventCall := []
  writes : List Write := []
  up : Bool := true

/-- `VIR_DOMAIN_EVENT_ID_LIFECYCLE`. -/
def eventIdLifecycle : ℤ := 0

/-- `virDomainEventType`. -/
inductive EventType
  | defined | undefined | started | suspended | resumed | stopped | shutdown | pmsuspended | crashed
  deriving DecidableEq, Repr

def EventType.code : EventType → ℕ
  | .defined => 0
  | .undefined => 1
  | .started => 2
  | .suspended => 3
  | .resumed => 4
  | .stopped => 5
  | .shutdown => 6
  | .pmsuspended => 7
  | .crashed => 8

/-- `TARGET_LIFECYCLE_EVENTS`. -/
def targetLifecycleEvents : ℕ :=
  (1 <<< EventType.started.code) ||| (1 <<< EventType.shutdown.code) |||
    (1 <<< EventType.stopped.code)

/-- `(1 << type) & TARGET_LIFECYCLE_EVENTS`. -/
def EventType.isTarget (type : EventType) : Bool :=
  (1 <<< type.code) &&& targetLifecycleEvents != 0

inductive ReadResult
  | message | closed | error
  deriving DecidableEq, Repr

/-- Where `virConnectOpen` may be called, `errno` says whether and how it would fail. -/
inductive Action
  /-- Another request calls `pool.get(user)`. -/
  | get (user : User) (errno : Option ℤ)
  /-- The close callback of the `n`-th newest handle of `user` fires. -/
  | closeConn (user : User) (n : ℕ)
  /-- A request that reaches the websocket route of a known user; `isUpgrade` is what its headers say. -/
  | request (target : String) (isUpgrade : Bool) (errno : Option ℤ)
  | asyncRun (i : SockId)
  | accept (i : SockId) (ok : Bool)
  | find (i : SockId)
  /-- `id` is what `RegisterAny` returns. -/
  | addEvents (i : SockId) (id : ℤ)
  | read (i : SockId) (r : ReadResult)
  | remove (i : SockId)
  | size (i : SockId)
  | removeEvents (i : SockId)
  /-- libvirt delivers an event of the connection `h` of `user` to the callback `id`; `domain` is the
  result of `simple_domain`, unless it throws. -/
  | event (user : User) (h : Handle) (id : ℤ) (type : EventType) (domain : Option Json)
  /-- A write of the websocket completes. -/
  | wrote (i : SockId)

/-- The stream has completed its handshake and is not closed. -/
def Phase.isOpen : Phase → Bool
  | .handshaking => true
  | .missing => true
  | .reading => true
  | _ => false

/-- The first capture of a target of the websocket route. -/
def websocketUser (target : String) : Option User :=
  (Router.location "^/users/([^/]+)/websocket/" target).map fun m => capture m 1

namespace State

variable (strerror : ℤ → String) (s : State)

/-- The entry that a reference into the pool refers to. -/
def entry (cell : User) : Connection := (s.pool.connections cell).getD {}

/-- The exception leaves the thread. -/
def terminate : State := { s with up := false }

def setSock (i : SockId) (k : Sock) : State := { s with socks := Function.update s.socks i (some k) }

/-- `connection_pool::get`. -/
def poolGet (user : User) (errno : Option ℤ) : Except Exn Connection × State :=
  let r := match errno with
    | some e => OpenResult.null e
    | none => OpenResult.handle s.nextHandle
  let res := s.pool.get strerror user r
  (res.1, { s with pool := res.2, nextHandle := s.nextHandle + 1 })

/-- `websockets_.add(user, ws_conn)` for a new websocket. -/
def addSock (k : Sock) : State :=
  { s.setSock s.nextSock k with
    buckets := Function.update s.buckets k.user (s.buckets k.user ++ [s.nextSock])
    nextSock := s.nextSock + 1 }

/-- The websocket request, up to the branch of `process_request`. -/
def request (target : String) (isUpgrade : Bool) (errno : Option ℤ) : Option State :=
  match websocketUser target with
  | none => none
  | some cell =>
    match s.poolGet strerror cell errno with
    | (.error _, s) => some s
    | (.ok c, s) =>
      some (s.addSock
        { target := target, cell := cell, user := c.user,
          phase := if isUpgrade then .posted else .unstarted })

/-- `event::~event`. -/
def destroy (o : ObjId) (ev : LifecycleEvent) : State :=
  let conn := (s.entry ev.cell).conn
  { s with
    objs := Function.update s.objs o none
    regs := s.regs.filter fun r => !(some r.handle == conn && r.id == ev.callbackId)
    calls := .deregister o conn ev.callbackId :: s.calls }

/-- The constructor of `lifecycle_event` throws: its base is destroyed. -/
def registrationFailed (conn : Option Handle) : State :=
  { s.terminate with
    nextObj := s.nextObj + 1
    calls := .deregister s.nextObj conn (-1) :: .registerFailed s.nextObj conn :: s.calls }

/-- The constructor of `lifecycle_event`, registered as `id` on `h`. -/
def register (cell user : User) (h : Handle) (id : ℤ) : State :=
  { s with
    objs := Function.update s.objs s.nextObj (some ⟨cell, id, user, h⟩)
    nextObj := s.nextObj + 1
    regs := ⟨h, id, s.nextObj⟩ :: s.regs
    calls := .register s.nextObj h id :: s.calls }

/-- `events_[user].set(ev->id(), ev)`: an object under the same id stays, and the new one goes. -/
def emplace (user : User) (o : ObjId) (ev : LifecycleEvent) : State :=
  let m := (s.events user).getD []
  if m.any fun e => e.1 = eventIdLifecycle then
    { s with events := Function.update s.events user (some m) }.destroy o ev
  else { s with events := Function.update s.events user (some (m ++ [(eventIdLifecycle, o)])) }

/-- `app::add_events`.  The callback id is one that is not in use on the handle; a null handle has
none. -/
def addEvents (cell : User) (id : ℤ) : Option State :=
  let c := s.entry cell
  if id = -1 then some (s.registrationFailed c.conn)
  else match c.conn with
    | none => none
    | some h =>
      if 0 ≤ id ∧ ∀ r ∈ s.regs, ¬ (r.handle = h ∧ r.id = id) then
        some ((s.register cell c.user h id).emplace c.user s.nextObj ⟨cell, id, c.user, h⟩)
      else none

/-- `app::remove_events`. -/
def removeEvents (cell : User) : State :=
  let user := (s.entry cell).user
  match s.events user with
  | none => s
  | some m =>
    match m.find? fun e => e.1 = eventIdLifecycle with
    | none => s.terminate
    | some e =>
      let s' := match s.objs e.2 with
        | some ev => s.destroy e.2 ev
        | none => s
      let m' := m.filter fun e => e.1 ≠ eventIdLifecycle
      { s' with events := Function.update s'.events user (if m'.length = 0 then none else some m') }

/-- The handshake handler of `i` has completed. -/
def finishHandshake (i : SockId) (k : Sock) : State :=
  s.setSock i { k with phase := .reading, handshaken := (s.pool.handles k.cell).head? }

/-- `websocket::connection::write`. -/
def write (source : Handle) (data : Json) (i : SockId) : State :=
  match s.socks i with
  | none => s
  | some k =>
    { s.setSock i { k with writing := k.writing + 1 } with
      writes := ⟨i, source, data, k.phase.isOpen, 0 < k.writing⟩ :: s.writes }

/-- `websockets_.broadcast`. -/
def broadcast (source : Handle) (user : User) (data : Json) : State :=
  (s.buckets user).foldl (fun s i => s.write source data i) s

/-- Whether the handle is one of the user's that is open. -/
def handleOpen (user : User) (h : Handle) : Bool :=
  (s.pool.opens user).any fun o => o.result = .handle h && !o.closed

/-- `lifecycle_event::on_event_handler` of the callback `id` on `h`. -/
def event (h : Handle) (id : ℤ) (type : EventType) (domain : Option Json) : Option State :=
  match s.regs.find? fun r => r.handle = h && r.id = id with
  | none => none
  | some r =>
    match s.objs r.opaquePtr with
    | none => some s.terminate
    | some ev =>
      if type.isTarget then
        match domain with
        | none => some s.terminate
        | some data => some (s.broadcast h ev.user data)
      else some s

/-- The websocket `i`, if its handlers are at `phase`. -/
def sockAt (i : SockId) (phase : Phase) : Option Sock :=
  (s.socks i).filter fun k => k.phase = phase

def stepUp : Action → Option State
  | .get user errno => some (s.poolGet strerror user errno).2
  | .closeConn user n => (s.pool.close user n).map fun pool => { s with pool := pool }
  | .request target isUpgrade errno => s.request strerror target isUpgrade errno
  | .asyncRun i => (s.sockAt i .posted).map fun k => s.setSock i { k with phase := .accepting }
  | .accept i ok => (s.sockAt i .accepting).map fun k =>
    s.setSock i { k with phase := if ok then .handshaking else .failed }
  | .find i => (s.sockAt i .handshaking).map fun k =>
    if (s.events (s.entry k.cell).user).isNone then s.setSock i { k with phase := .missing }
    else s.finishHandshake i k
  | .addEvents i id => (s.sockAt i .missing).bind fun k =>
    (s.addEvents k.cell id).map fun s => if s.up then s.finishHandshake i k else s
  | .read i r => (s.sockAt i .reading).map fun k =>
    match r with
    | .message => s
    | .closed => s.setSock i { k with phase := .closing }
    | .error => s.setSock i { k with phase := .broken }
  | .remove i => (s.sockAt i .closing).map fun k =>
    if i ∈ s.buckets k.user then
      { s.setSock i { k with phase := .removed } with
        buckets := Function.update s.buckets k.user ((s.buckets k.user).erase i) }
    else s.terminate
  | .size i => (s.sockAt i .removed).map fun k =>
    s.setSock i { k with phase := if (s.buckets k.user).length = 0 then .last else .closed }
  | .removeEvents i => (s.sockAt i .last).map fun k =>
    let s := s.removeEvents k.cell
    if s.up then s.setSock i { k with phase := .closed } else s
  | .event user h id type domain =>
    if s.handleOpen user h then s.event h id type domain else none
  | .wrote i => (s.socks i).bind fun k =>
    if 0 < k.writing then some (s.setSock i { k with writing := k.writing - 1 }) else none

end State

/-- The app under all interleavings of its handlers. -/
def appMachine (strerror : ℤ → String) : Machine State Action where
  init := {}
  step s a := if s.up then s.stepUp strerror a else none

end Webvirtd.App
