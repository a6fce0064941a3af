import Webvirtd.Lib.Locks

/-!
# App.Mutexes — the lock guards of the handlers, and what is touched without them

What the handlers of requests, of websockets and of libvirt events do with the four kinds of mutexes and with what
these are there for.  Workers and the event thread run them at the same time, each any number of times.

No order of steps leaves a handler waiting for good, and two threads that are both under the mutex of a container do
not race for it.  Four kinds of accesses are made without it: `on_handshake` looks into `events_`, `on_close` asks a
list of `map_` for its size, whoever has a `conn` reads an entry of the pool through it, and `close_func` sets
`closed_`.  These do race, and they are all that does (`handlers_safe`).

What an answer holds decides which branch is taken; here both are.  Every access may throw.
-/

namespace Webvirtd.App.Mutexes

open Lib

inductive Mutex
  /-- `virt::connection_pool::connection_mutex_` -/
  | connections
  /-- `app::events_mutex_` -/
  | events
  /-- `virt::events::events_mutex_` of the events of a user -/
  | userEvents (user : String)
  /-- `websocket::pool::mutex_` -/
  | websockets
  deriving DecidableEq

inductive Container
  /-- `virt::connection_pool::connections_` -/
  | connections
  /-- `conn_`, `errno_` and `user_` of an entry of it -/
  | entry (cell : String)
  /-- `closed_` of the entry -/
  | closed (cell : String)
  /-- `app::events_` -/
  | events
  /-- `virt::events::events_` of the events of a user -/
  | userEvents (user : String)
  /-- `websocket::pool::map_` -/
  | websockets
  /-- The list in `map_` of a user. -/
  | bucket (user : String)
  deriving DecidableEq

/-- The mutex that is there for it. -/
def mutexOf : Container → Mutex
  | .connections => .connections
  | .entry _ => .connections
  | .closed _ => .connections
  | .events => .events
  | .userEvents user => .userEvents user
  | .websockets => .websockets
  | .bucket _ => .websockets

inductive Access
  /-- Reads under the mutex. -/
  | read (x : Container)
  /-- Writes under the mutex. -/
  | write (x : Container)
  /-- `events_.find` of `on_handshake`, under no mutex. -/
  | findEvents
  /-- `websockets_[user].size()` of `on_close`, under no mutex. -/
  | listSize (user : String)
  /-- A read through a reference into the pool, not under the mutex of the pool. -/
  | conn (cell : String)
  /-- `close_func`, which has a pointer to `closed_`. -/
  | setClosed (cell : String)

def Access.container : Access → Container
  | .read x => x
  | .write x => x
  | .findEvents => .events
  | .listSize user => .bucket user
  | .conn cell => .entry cell
  | .setClosed cell => .closed cell

def Access.writes : Access → Bool
  | .write _ => true
  | .setClosed _ => true
  | _ => false

def guard : Access → Option Mutex
  | .read x => some (mutexOf x)
  | .write x => some (mutexOf x)
  | _ => none

/-- `add_events` and `remove_events` go to the events of the user under `app::events_mutex_`. -/
def rank : Mutex → ℕ
  | .events => 0
  | .userEvents _ => 1
  | .connections => 2
  | .websockets => 2

abbrev Code := Locking Mutex Access

/-! ## `virt::connection_pool`, `virt::events`, `websocket::pool` -/

/-- Nothing in the containers. -/
def elsewhere : Code := .act []

/-- An entry is assigned an empty connection, which is then connected. -/
def reopen (cell : String) : Code :=
  .seq (.act [.write (.entry cell), .write (.closed cell)]) (.act [.write (.entry cell), .write (.closed cell)])

/-- `connection_pool::get` -/
def get (cell : String) : Code :=
  .locked .connections <| .seq (.act [.read .connections]) <|
    .choice (.seq (.act [.write .connections]) (.seq (reopen cell) (.act [.read .connections])))
      (.seq (.act [.read (.closed cell)]) (.choice (reopen cell) elsewhere))

/-- `close_func`, wherever libvirt calls it from; it throws when it is done. -/
def closeFunc (cell : String) : Code := .act [.setClosed cell]

/-- `events::set` -/
def set (user : String) : Code := .locked (.userEvents user) (.act [.write (.userEvents user)])

/-- `events::remove`, with `event::~event` -/
def remove (cell user : String) : Code :=
  .locked (.userEvents user) (.seq (.act [.write (.userEvents user)]) (.act [.conn cell]))

/-- `events::size` -/
def size (user : String) : Code := .locked (.userEvents user) (.act [.read (.userEvents user)])

namespace Pool

/-- `pool::add`; the name is read through a reference into the pool of connections. -/
def add (cell user : String) : Code :=
  .locked .websockets (.act [.conn cell, .write .websockets, .write (.bucket user)])

/-- `pool::remove` -/
def remove (user : String) : Code := .locked .websockets (.act [.write .websockets, .write (.bucket user)])

/-- `pool::operator[]` -/
def bucket : Code := .locked .websockets (.act [.write .websockets])

/-- The loop of `broadcast` over a list of `n` websockets. -/
def writes (user : String) : ℕ → Code
  | 0 => .act [.read (.bucket user)]
  | n + 1 => .seq (.act [.read (.bucket user)]) (writes user n)

/-- `pool::broadcast` -/
def broadcast (user : String) (n : ℕ) : Code :=
  .locked .websockets (.seq (.act [.write .websockets]) (writes user n))

end Pool

/-! ## `app`

`cell` is the entry that `conn` refers to, `user` what `conn.user()` gives, which need not be the same. -/

/-- `app::remove_events` -/
def removeEvents (cell user : String) : Code :=
  .locked .events <| .seq (.act [.conn cell, .read .events]) <| .choice elsewhere <|
    .seq (remove cell user) (.seq (size user) (.choice elsewhere (.act [.write .events])))

/-- `app::add_events`, down to `on_virt_event_registration_`, which has no functions in a running server.  An event
that `set` does not take is destroyed at the end. -/
def addEvents (cell user : String) : Code :=
  .locked .events <| .seq (.act [.conn cell]) <| .seq (.act [.conn cell, .write .events]) <|
    .seq (set user) (.choice elsewhere (.act [.conn cell]))

/-- `app::events` -/
def events : Code := .locked .events (.act [.read .events])

/-- `app::websocket`, without the handlers that it sets -/
def websocket (cell user : String) : Code := .seq (.act [.conn cell]) (.seq (.act [.conn cell]) (Pool.add cell user))

/-- `on_handshake` of `app::websocket` -/
def onHandshake (cell user : String) : Code :=
  .seq (.act [.conn cell, .findEvents]) (.choice elsewhere (addEvents cell user))

/-- `on_close` of `app::websocket`, which has copied `copied` -/
def onClose (cell copied user : String) : Code :=
  .seq (Pool.remove copied) <| .seq Pool.bucket <|
    .seq (.act [.listSize copied]) (.choice elsewhere (removeEvents cell user))

/-- `lifecycle_event::on_event_handler` with the function that `add_events` sets -/
def onEvent (user : String) (n : ℕ) : Code := .seq elsewhere (.choice elsewhere (Pool.broadcast user n))

/-! ## `http::router` -/

/-- `retry<>::operator()` with `n` retries left -/
def retry (func : Code) : ℕ → Code
  | 0 => .tryCatch func elsewhere
  | n + 1 => .tryCatch func (.choice (retry func n) elsewhere)

/-- What the other views do with `conn`: `n` calls to libvirt. -/
def calls (cell : String) : ℕ → Code
  | 0 => elsewhere
  | n + 1 => .seq (.act [.conn cell]) (calls cell n)

/-- `with_libvirt`: the route ends in its handler for errors or goes on with a view. -/
def withLibvirt (cell : String) (view : Code) : Code := .seq (.tryCatch (get cell) elsewhere) (.choice elsewhere view)

/-- `with_methods` and `with_user`: the route ends there or goes on. -/
def withUser (route : Code) : Code := .seq elsewhere (.choice elsewhere route)

/-- `router::run`; the websocket route is the one whose view takes a mutex. -/
def run (cell user : String) (n : ℕ) : Code :=
  .seq elsewhere (.seq (.tryCatch
    (retry (withUser (withLibvirt cell (.choice (calls cell n) (websocket cell user)))) 5) elsewhere) elsewhere)

/-- What a thread may be at. -/
inductive Handler
  | run (cell user : String) (n : ℕ)
  | onHandshake (cell user : String)
  | onClose (cell copied user : String)
  | onEvent (user : String) (n : ℕ)
  | closeFunc (cell : String)
  | events

def Handler.code : Handler → Code
  | .run cell user n => Mutexes.run cell user n
  | .onHandshake cell user => Mutexes.onHandshake cell user
  | .onClose cell copied user => Mutexes.onClose cell copied user
  | .onEvent user n => Mutexes.onEvent user n
  | .closeFunc cell => Mutexes.closeFunc cell
  | .events => Mutexes.events

def handlers : Machine (Locks Mutex Access) (LockAct Handler) := Locks.machine Handler.code

/-! ## Ranks and guards -/

open Locks (Above Guarded)

theorem rank_lt (m : Mutex) : rank m < 3 := by
  cases m with
  | events => exact Nat.zero_lt_succ 2
  | userEvents user => exact Nat.lt_of_sub_eq_succ rfl
  | connections => exact Nat.lt_succ_self 2
  | websockets => exact Nat.lt_succ_self 2

theorem above_retry {n : ℕ} {func : Code} (h : Above rank n func) (budget : ℕ) : Above rank n (retry func budget) := by
  induction budget with
  | zero => exact ⟨h, trivial⟩
  | succ budget ih => exact ⟨h, ih, trivial⟩

theorem guarded_elsewhere (ms : List Mutex) : Guarded guard ms elsewhere := fun _ hx => absurd hx List.not_mem_nil

theorem guarded_retry {ms : List Mutex} {func : Code} (h : Guarded guard ms func) (budget : ℕ) :
    Guarded guard ms (retry func budget) := by
  induction budget with
  | zero => exact ⟨h, guarded_elsewhere ms⟩
  | succ budget ih => exact ⟨h, ih, guarded_elsewhere ms⟩

theorem above_writes (n : ℕ) (user : String) (k : ℕ) : Above rank n (Pool.writes user k) := by
  induction k with
  | zero => trivial
  | succ k ih => exact ⟨trivial, ih⟩

theorem guarded_writes (user : String) (k : ℕ) : Guarded guard [.websockets] (Pool.writes user k) := by
  have hbucket : Guarded guard [.websockets] (.act [.read (.bucket user)]) := by
    simp [Guarded, guard, mutexOf]
  induction k with
  | zero => exact hbucket
  | succ k ih => exact ⟨hbucket, ih⟩

theorem above_calls (n : ℕ) (cell : String) (k : ℕ) : Above rank n (calls cell k) := by
  induction k with
  | zero => trivial
  | succ k ih => exact ⟨trivial, ih⟩

theorem guarded_calls (ms : List Mutex) (cell : String) (k : ℕ) : Guarded guard ms (calls cell k) := by
  induction k with
  | zero => exact guarded_elsewhere ms
  | succ k ih => exact ⟨by simp [Guarded, guard], ih⟩

theorem above_code (x : Handler) : Above rank 0 x.code := by
  cases x with
  | run cell user n =>
    have hroute : Above rank 0 (withUser (withLibvirt cell (.choice (calls cell n) (websocket cell user)))) := by
      simp [withUser, withLibvirt, elsewhere, get, reopen, websocket, Pool.add, Above, above_calls]
    exact ⟨trivial, ⟨above_retry hroute 5, trivial⟩, trivial⟩
  | onHandshake cell user => simp [Handler.code, onHandshake, addEvents, set, elsewhere, Above, rank]
  | onClose cell copied user =>
    simp [Handler.code, onClose, Pool.remove, Pool.bucket, removeEvents, remove, size, elsewhere, Above, rank]
  | onEvent user n => simp [Handler.code, onEvent, Pool.broadcast, elsewhere, Above, above_writes]
  | closeFunc cell => trivial
  | events => simp [Handler.code, events, Above]

theorem guarded_code (x : Handler) : Guarded guard [] x.code := by
  cases x with
  | run cell user n =>
    have hroute : Guarded guard [] (withUser (withLibvirt cell (.choice (calls cell n) (websocket cell user)))) := by
      simp [withUser, withLibvirt, elsewhere, get, reopen, websocket, Pool.add, Guarded, guard, mutexOf, guarded_calls]
    exact ⟨guarded_elsewhere [], ⟨guarded_retry hroute 5, guarded_elsewhere []⟩, guarded_elsewhere []⟩
  | onHandshake cell user => simp [Handler.code, onHandshake, addEvents, set, elsewhere, Guarded, guard, mutexOf]
  | onClose cell copied user =>
    simp [Handler.code, onClose, Pool.remove, Pool.bucket, removeEvents, remove, size, elsewhere, Guarded, guard,
      mutexOf]
  | onEvent user n => simp [Handler.code, onEvent, Pool.broadcast, elsewhere, Guarded, guard, mutexOf, guarded_writes]
  | closeFunc cell => simp [Handler.code, closeFunc, Guarded, guard]
  | events => simp [Handler.code, events, Guarded, guard, mutexOf]

/-! ## Every order of steps -/

/-- Two threads are about to touch the container, and one of them to write it. -/
def Race (s : Locks Mutex Access) (x : Container) : Prop :=
  ∃ (t t' : ℕ) (k k' : _) (a a' : Access), t ≠ t' ∧ s.threads[t]? = some k ∧ s.threads[t']? = some k' ∧
    Locks.At a k ∧ Locks.At a' k' ∧ a.container = x ∧ a'.container = x ∧ (a.writes = true ∨ a'.writes = true)

/-- What is touched without its mutex. -/
def Unlocked : Container → Prop
  | .entry _ => True
  | .closed _ => True
  | .events => True
  | .bucket _ => True
  | _ => False

structure Safe (s : Locks Mutex Access) : Prop where
  exclusive : ∀ (t t' : ℕ) k k', s.threads[t]? = some k → s.threads[t']? = some k' →
    ∀ m, m ∈ Locks.held k → m ∈ Locks.held k' → t = t'
  /-- Without new threads there are only so many steps, and they go on until all are finished and no mutex is held. -/
  ends : ∀ as u, (∀ x, .start x ∉ as) → handlers.exec s as = some u →
    as.length ≤ s.work ∧
      ((u.Finished ∧ ∀ m, u.owner m = none) ∨ ∃ t v, handlers.step u (.step t true) = some v)

theorem guard_cases (a : Access) : guard a = some (mutexOf a.container) ∨ guard a = none ∧ Unlocked a.container := by
  cases a with
  | read x => exact .inl rfl
  | write x => exact .inl rfl
  | _ => exact .inr ⟨rfl, trivial⟩

theorem unlocked_of_race {as : List (LockAct Handler)} {s : Locks Mutex Access}
    (h : handlers.exec handlers.init as = some s) {x : Container} (hrace : Race s x) : Unlocked x := by
  have hinvariant := Locks.invariant above_code guarded_code
  have hs := hinvariant.exec hinvariant.init h
  obtain ⟨t, t', k, k', a, a', hne, hk, hk', hat, hat', hx, hx', -⟩ := hrace
  rcases guard_cases a with ha | ⟨-, hu⟩
  · rcases guard_cases a' with ha' | ⟨-, hu⟩
    · rw [hx] at ha
      rw [hx'] at ha'
      exact absurd (hs.race_free ha ha' hk hk' hat hat') hne
    · exact hx' ▸ hu
  · exact hx ▸ hu

theorem safe_of_exec {as : List (LockAct Handler)} {s : Locks Mutex Access}
    (h : handlers.exec handlers.init as = some s) : Safe s := by
  have hinvariant := Locks.invariant above_code guarded_code
  have hs := hinvariant.exec hinvariant.init h
  refine ⟨fun t t' k k' hk hk' m hm hm' => hs.exclusive hk hk' hm hm', fun as u has hu => ?_⟩
  have hle := Locks.work_exec has hu
  have hlast := hinvariant.exec hs hu
  refine ⟨by omega, ?_⟩
  rcases hlast.live rank_lt with hfinished | hgo
  · exact .inl ⟨hfinished, hlast.free hfinished⟩
  · exact .inr hgo

/-! ## The races -/

/-- `on_handshake` looks into `events_` while another one inserts into it. -/
theorem race_events : ∃ as s, handlers.exec handlers.init as = some s ∧ Race s .events := by
  refine ⟨[.start (.onHandshake "ann" "ann"), .start (.onHandshake "bob" "bob"), .step 0 true,
    .step 1 true, .step 1 true, .step 1 false, .step 1 true, .step 1 true, .step 1 true, .step 1 true], _, rfl, ?_⟩
  exact ⟨0, 1, _, _, .findEvents, .write .events, by decide, rfl, rfl, ⟨_, _, rfl, by simp⟩, ⟨_, _, rfl, by simp⟩,
    rfl, rfl, .inr rfl⟩

/-- `on_close` asks for the size of a list while another one removes its websocket from it. -/
theorem race_bucket (user : String) : ∃ as s, handlers.exec handlers.init as = some s ∧ Race s (.bucket user) := by
  refine ⟨[.start (.onClose user user user), .start (.onClose user user user), .step 0 true,
    .step 0 true, .step 0 true, .step 0 true, .step 0 true, .step 0 true, .step 0 true, .step 0 true, .step 0 true,
    .step 1 true, .step 1 true], _, rfl, ?_⟩
  exact ⟨0, 1, _, _, .listSize user, .write (.bucket user), by decide, rfl, rfl, ⟨_, _, rfl, by simp⟩,
    ⟨_, _, rfl, by simp⟩, rfl, rfl, .inr rfl⟩

/-- A request runs on the second thread, up to where `get` has looked for the entry. -/
def toEntry : List (LockAct Handler) :=
  [.step 1 true, .step 1 true, .step 1 true, .step 1 true, .step 1 true, .step 1 true, .step 1 true,
    .step 1 false, .step 1 true, .step 1 true, .step 1 true, .step 1 true, .step 1 true]

theorem exec_toEntry (k : List (Frame Mutex Access)) (cell : String) :
    ∃ rest, handlers.exec ⟨[k, [.run (run cell cell 0)]], fun _ => none⟩ toEntry =
      some ⟨[k, .run (.choice (.seq (.act [.write .connections]) (.seq (reopen cell) (.act [.read .connections])))
        (.seq (.act [.read (.closed cell)]) (.choice (reopen cell) elsewhere))) :: rest],
        Function.update (fun _ => none) .connections (some 1)⟩ := ⟨_, rfl⟩

/-- `on_handshake` reads `conn.user()` while a request opens the entry. -/
theorem race_entry (cell : String) : ∃ as s, handlers.exec handlers.init as = some s ∧ Race s (.entry cell) := by
  obtain ⟨rest, hrest⟩ := exec_toEntry
    [.run (.act [.conn cell, .findEvents]), .run (.choice elsewhere (addEvents cell cell))] cell
  have hstart : handlers.exec handlers.init [.start (.onHandshake cell cell), .start (.run cell cell 0), .step 0 true] =
    some ⟨[[.run (.act [.conn cell, .findEvents]), .run (.choice elsewhere (addEvents cell cell))],
      [.run (run cell cell 0)]], fun _ => none⟩ := rfl
  refine ⟨_, _, Machine.exec_append_of_eq hstart (Machine.exec_append_of_eq hrest
    (show handlers.exec _ [.step 1 true, .step 1 true, .step 1 true, .step 1 true, .step 1 true] = some _ from rfl)), ?_⟩
  exact ⟨0, 1, _, _, .conn cell, .write (.entry cell), by decide, rfl, rfl, ⟨_, _, rfl, by simp⟩,
    ⟨_, _, rfl, by simp⟩, rfl, rfl, .inr rfl⟩

/-- `close_func` sets `closed_` while a request looks at it. -/
theorem race_closed (cell : String) : ∃ as s, handlers.exec handlers.init as = some s ∧ Race s (.closed cell) := by
  obtain ⟨rest, hrest⟩ := exec_toEntry [.run (closeFunc cell)] cell
  have hstart : handlers.exec handlers.init [.start (.closeFunc cell), .start (.run cell cell 0)] =
    some ⟨[[.run (closeFunc cell)], [.run (run cell cell 0)]], fun _ => none⟩ := rfl
  refine ⟨_, _, Machine.exec_append_of_eq hstart (Machine.exec_append_of_eq hrest
    (show handlers.exec _ [.step 1 false, .step 1 true] = some _ from rfl)), ?_⟩
  exact ⟨0, 1, _, _, .setClosed cell, .read (.closed cell), by decide, rfl, rfl, ⟨_, _, rfl, by simp⟩,
    ⟨_, _, rfl, by simp⟩, rfl, rfl, .inl rfl⟩

/-- **The handlers exclude each other at every mutex and never deadlock**, whatever the threads do and in whatever
order; what they race for is what is touched without its mutex, and all of that. -/
theorem handlers_safe : (∀ as s, handlers.exec handlers.init as = some s → Safe s) ∧
    ∀ x, (∃ as s, handlers.exec handlers.init as = some s ∧ Race s x) ↔ Unlocked x := by
  refine ⟨fun as s h => safe_of_exec h, fun x => ⟨fun ⟨as, s, h, hrace⟩ => unlocked_of_race h hrace, fun hx => ?_⟩⟩
  cases x with
  | entry cell => exact race_entry cell
  | closed cell => exact race_closed cell
  | events => exact race_events
  | bucket user => exact race_bucket user
  | _ => cases hx

end Webvirtd.App.Mutexes
