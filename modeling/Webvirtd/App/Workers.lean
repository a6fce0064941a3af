import Webvirtd.App.Responses
import Webvirtd.Lib.Threads
import Webvirtd.Virt.ConnectionPool

/-!
# App.Workers — requests that share the connections of the pool

Each request runs on a thread of its own: `connection_pool::get` and each libvirt call are single steps,
and close callbacks fire between them.  `with_libvirt` hands a reference to an entry of the pool to the
view, and the websocket handlers keep it.  Another request of the same user may assign to that entry
while the reference is used; `Use` records what is found through it.

`stable_iff`: what is found is the connection of the user exactly while the last `virConnectOpen` for
the user has returned a handle.
-/

namespace Webvirtd.App

open Lib Virt Http

/-- The user in whose entry the command uses a connection. -/
def reference : Cmd → Option User
  | .websocketsAdd conn _ => some conn
  | .op o => o.conn
  | _ => none

/-- One use of a reference that was obtained for `user`, with what it refers to at that time. -/
inductive Use
  /-- A libvirt call with the handle of the connection. -/
  | call (user : User) (c : Call) (conn : Virt.Connection)
  /-- `conn.user()` -/
  | read (user : User) (conn : Virt.Connection)

/-- The handle is not null, the name is that of the user. -/
def Use.Stable : Use → Prop
  | .call _ _ conn => ∃ h, conn.conn = some h
  | .read user conn => conn.user = user

structure Shared where
  pool : PoolState := PoolState.init
  /-- The references that the handlers of the websockets have captured. -/
  captured : List User := []
  uses : List Use := []

def Shared.Stable (s : Shared) : Prop := ∀ u ∈ s.uses, u.Stable

/-- What decides the answers to commands beyond the pool. -/
structure Outcome where
  answer : (c : Cmd) → Cmd.Res c
  /-- What `virConnectOpen` returns, if it is called. -/
  opened : OpenResult

inductive PoolEvent
  /-- A close callback fires. -/
  | close (user : User) (n : ℕ)
  /-- A handler that captured the `i`-th reference reads its user. -/
  | handler (i : ℕ)

namespace Shared

def use (s : Shared) (u : Use) : Shared := { s with uses := u :: s.uses }

def read (s : Shared) (user : User) : Shared := s.use (.read user (s.pool.entry user))

variable (strerror : ℤ → String)

/-- `websockets_.add(user, …)` and the closures read the user through the reference to its name. -/
def serve (s : Shared) (o : Outcome) : (c : Cmd) → Cmd.Res c × Shared
  | .poolGet user =>
    ((s.pool.get strerror user o.opened).1.map fun _ => (),
      { s with pool := (s.pool.get strerror user o.opened).2 })
  | .websocketsAdd conn _ => ((), { s.read conn with captured := conn :: s.captured })
  | .op (.user conn) => ((s.pool.entry conn).user, s.read conn)
  | .op (.libvirt c) =>
    (o.answer (.op (.libvirt c)),
      match c.conn with
      | some conn => s.use (.call conn c (s.pool.entry conn))
      | none => s)
  | c => (o.answer c, s)

def event (s : Shared) : PoolEvent → Option Shared
  | .close user n => (s.pool.close user n).map fun pool => { s with pool := pool }
  | .handler i => s.captured[i]?.map s.read

end Shared

variable (L : Linked) (T : Timeouts) (strerror : ℤ → String)

/-- Any number of requests on any number of threads. -/
def workers : Threads.Server Cmd Cmd.Res (Except Failure Unit × Response) Shared Request Outcome
    PoolEvent where
  program request := onRequest L T request (prepared L request)
  serve s c o := s.serve strerror o c
  event := Shared.event

/-! ## The user of a request -/

theorem ne_empty_of_segment {s : String} (h : Segment s) : s ≠ "" := by
  rintro rfl
  exact h.1 rfl

/-- What a route is called with names a user, and the route uses no connection but that user's. -/
theorem exists_user_of_find {L : Linked} {T : Timeouts} {request : Request} {location : List String}
    {fn : RouteFunction} {P Q : Response → Prop} (h : Views.Answering L P Q)
    (hf : Router.find request.target (router L T).routes = some (location, fn)) :
    ∃ user, user ≠ "" ∧ ∀ b, RouteAnswers user P Q (fn b location request) := by
  obtain ⟨entry, hmem, rfl, hl⟩ := Router.exists_of_find hf
  have hroute := fun b => answers_route h entry hmem b location request
  rw [routes_endpoints] at hmem
  obtain ⟨e, -, rfl⟩ := List.mem_map.mp hmem
  cases e with
  | redirect => exact ⟨"root", by decide, fun b => answers_appendTrailingSlash h "root" b location request⟩
  | user s =>
    obtain ⟨caps, rfl, hm⟩ := location_eq_some (parse_userRoute s) hl
    obtain ⟨user, huser, rfl, -⟩ := (matches_userRoute_iff s).mp hm
    exact ⟨_, ne_empty_of_segment (segment_ofList huser), hroute⟩
  | domain a =>
    obtain ⟨caps, rfl, hm⟩ := location_eq_some (parse_domainRoute a) hl
    obtain ⟨user, domain, huser, -, rfl, -⟩ := (matches_domainRoute_iff a).mp hm
    exact ⟨_, ne_empty_of_segment (segment_ofList huser), hroute⟩

/-- A request uses no connection but that of one user. -/
theorem via_onRequest (L : Linked) (T : Timeouts) (request : Request) :
    ∃ user, user ≠ "" ∧ ∀ r, (onRequest L T request r).Uses (Cmd.Via user) fun _ => True := by
  cases hf : Router.find request.target (router L T).routes with
  | none =>
    refine ⟨"root", by decide, fun r => ?_⟩
    have hframe : Eff.Uses (Cmd.Via "root") (fun _ => True) (onRequest L T request) := by
      unfold onRequest Router.run
      rw [hf]
      exact .bind (.modify _) fun _ => .modify _
    exact (hframe r).mono (fun _ h => h) fun _ _ => trivial
  | some found =>
    obtain ⟨location, fn⟩ := found
    obtain ⟨user, hne, hroute⟩ := exists_user_of_find (answering_oneDocument L) hf
    refine ⟨user, hne, fun r => ?_⟩
    unfold onRequest
    exact (Router.answers_run_of_find (answering_oneDocument L) hf hroute r trivial).mono
      (fun _ h => h) fun _ _ => trivial

/-! ## What is found through a reference -/

/-- The command is given a reference to the entry of a user who is connected, if it is given one. -/
def Usable (s : Shared) (c : Cmd) : Prop :=
  ∀ user, reference c = some user → s.pool.Connected user

/-- So is a websocket handler. -/
def UsableEvent (s : Shared) : PoolEvent → Prop
  | .close _ _ => True
  | .handler i => ∀ user, s.captured[i]? = some user → s.pool.Connected user

/-- The references are to entries of named users. -/
structure SharedInv (s : Shared) : Prop where
  pool : PoolInv s.pool
  captured : "" ∉ s.captured

section

variable {strerror : ℤ → String} {s : Shared} {user : User}

theorem stable_use (hs : s.Stable) (u : Use) : (s.use u).Stable ↔ u.Stable := by
  constructor
  · exact fun h => h u List.mem_cons_self
  · intro h u' hu'
    rcases List.mem_cons.mp hu' with rfl | hu'
    · exact h
    · exact hs u' hu'

theorem stable_call_iff (hI : PoolInv s.pool) (c : Call) :
    (Use.call user c (s.pool.entry user)).Stable ↔ s.pool.Connected user := by
  rcases connected_cases hI user with ⟨hc, hconn, -⟩ | ⟨hc, hconn, -⟩
  · exact iff_of_true hconn hc
  · refine iff_of_false ?_ hc
    rintro ⟨h, hh⟩
    rw [hconn] at hh
    cases hh

theorem stable_read_iff (hI : PoolInv s.pool) (hne : user ≠ "") :
    (Use.read user (s.pool.entry user)).Stable ↔ s.pool.Connected user := by
  rcases connected_cases hI user with ⟨hc, -, huser⟩ | ⟨hc, -, huser⟩
  · exact iff_of_true huser hc
  · exact iff_of_false (fun h => hne (h.symm.trans huser)) hc

theorem sharedInv_serve (hI : SharedInv s) {c : Cmd} (hc : ∃ user, user ≠ "" ∧ c.Via user)
    (o : Outcome) : SharedInv (s.serve strerror o c).2 := by
  cases c with
  | getpwnam user => exact hI
  | poolGet user => exact ⟨poolInv_get hI.pool user _, hI.captured⟩
  | upgrade => exact hI
  | websocketsAdd conn user =>
    obtain ⟨user', hne, rfl⟩ := hc
    refine ⟨hI.pool, fun h => ?_⟩
    rcases List.mem_cons.mp h with h | h
    · exact hne h.symm
    · exact hI.captured h
  | op o =>
    cases o with
    | libvirt c =>
      show SharedInv (match c.conn with | some conn => _ | none => s)
      cases c.conn with
      | none => exact hI
      | some conn => exact ⟨hI.pool, hI.captured⟩
    | user conn => exact ⟨hI.pool, hI.captured⟩
    | uninitialised => exact hI
    | now => exact hI
    | sleepFor ms => exact hI

theorem sharedInv_event {t : Shared} {e : PoolEvent} (hI : SharedInv s) (h : s.event e = some t) :
    SharedInv t := by
  cases e with
  | close user n =>
    obtain ⟨pool, hpool, rfl⟩ := Option.map_eq_some_iff.mp h
    exact ⟨poolInv_close hI.pool hpool, hI.captured⟩
  | handler i =>
    obtain ⟨user, -, rfl⟩ := Option.map_eq_some_iff.mp h
    exact ⟨hI.pool, hI.captured⟩

/-- A command finds the connection of its user exactly if the user is connected. -/
theorem stable_serve_iff (hI : SharedInv s) (hs : s.Stable) {c : Cmd}
    (hc : ∃ user, user ≠ "" ∧ c.Via user) (o : Outcome) :
    (s.serve strerror o c).2.Stable ↔ Usable s c := by
  obtain ⟨user, hne, hvia⟩ := hc
  have hnothing : ∀ {c : Cmd}, reference c = none → (s.Stable ↔ Usable s c) := fun hr =>
    iff_of_true hs fun user hu => absurd (hr.symm.trans hu) (by simp)
  have hreference : ∀ {c : Cmd} {conn : User}, reference c = some conn →
      (Usable s c ↔ s.pool.Connected conn) := fun hr =>
    ⟨fun h => h _ hr, fun h user hu => Option.some.inj (hr.symm.trans hu) ▸ h⟩
  cases c with
  | getpwnam user => exact hnothing rfl
  | poolGet user => exact hnothing rfl
  | upgrade => exact hnothing rfl
  | websocketsAdd conn user' =>
    obtain rfl : conn = user := hvia
    rw [hreference rfl, ← stable_read_iff hI.pool hne]
    exact stable_use hs _
  | op o =>
    cases o with
    | libvirt c =>
      show (match c.conn with | some conn => _ | none => s : Shared).Stable ↔ _
      cases hconn : c.conn with
      | none => exact hnothing hconn
      | some conn =>
        have href : reference (.op (.libvirt c)) = some conn := hconn
        rw [hreference href, ← stable_call_iff hI.pool c]
        exact stable_use hs _
    | user conn =>
      obtain rfl : conn = user := hvia conn rfl
      rw [hreference rfl, ← stable_read_iff hI.pool hne]
      exact stable_use hs _
    | uninitialised => exact hnothing rfl
    | now => exact hnothing rfl
    | sleepFor ms => exact hnothing rfl

theorem stable_event_iff {t : Shared} {e : PoolEvent} (hI : SharedInv s) (hs : s.Stable)
    (h : s.event e = some t) : t.Stable ↔ UsableEvent s e := by
  cases e with
  | close user n =>
    obtain ⟨pool, -, rfl⟩ := Option.map_eq_some_iff.mp h
    exact iff_of_true hs trivial
  | handler i =>
    obtain ⟨user, hget, rfl⟩ := Option.map_eq_some_iff.mp h
    have hne : user ≠ "" := fun hu => hI.captured (hu ▸ List.mem_of_getElem? hget)
    refine (stable_use hs _).trans ((stable_read_iff hI.pool hne).trans ?_)
    exact ⟨fun hc u hu => Option.some.inj (hget.symm.trans hu) ▸ hc, fun h => h user hget⟩

end

/-- **References to the pool.**  Along a run, every libvirt call through a reference is made with a
handle and every name read through it is that of the user, if and only if each of them happens while the
last `virConnectOpen` for the user has returned a handle. -/
theorem stable_iff (as : List (Threads.Action Request Outcome PoolEvent)) :
    (Threads.machine (workers L T strerror) {}).Always (fun s => s.shared.Stable)
        (Threads.machine (workers L T strerror) {}).init as ↔
      (Threads.machine (workers L T strerror) {}).Meets (Threads.Condition Usable UsableEvent)
        (Threads.machine (workers L T strerror) {}).init as := by
  have hprogram : ∀ request, ((workers L T strerror).program request).Uses
      (fun c => ∃ user, user ≠ "" ∧ c.Via user) fun _ => True := by
    intro request
    obtain ⟨user, hne, hvia⟩ := via_onRequest L T request
    exact (hvia _).mono (fun c hc => ⟨user, hne, hc⟩) fun _ _ => trivial
  refine Threads.always_iff_meets (I := SharedInv) hprogram ?_ ?_ ?_ ?_
    ⟨poolInv_init, List.not_mem_nil⟩ (fun u hu => absurd hu List.not_mem_nil) as
  · exact fun s c o hc hI => sharedInv_serve hI hc o
  · exact fun s e t hI h => sharedInv_event hI h
  · exact fun s c o hc hI hs => stable_serve_iff hI hs hc o
  · exact fun s e t hI hs h => stable_event_iff hI hs h

/-- Every user exists, and libvirt calls lose the connection. -/
def losing (opened : OpenResult) : Outcome where
  answer
    | .getpwnam _ => true
    | .poolGet _ => .ok ()
    | .upgrade => ()
    | .websocketsAdd _ _ => ()
    | .op (.libvirt _) => .error ⟨.retryError, "libvirt connection closed"⟩
    | .op (.user _) => ""
    | .op .uninitialised => (0 : ℤ)
    | .op .now => (0 : ℚ)
    | .op (.sleepFor _) => ()
  opened := opened

/-- The connection of ann closes while one request uses it, and another one fails to reopen it. -/
def overwritten : List (Threads.Action Request Outcome PoolEvent) :=
  [.spawn { method := .get, target := "/users/ann/domains/" },
    .call 0 (losing (.handle 1)), .call 0 (losing (.handle 1)),
    .event (.close "ann" 0),
    .spawn { method := .get, target := "/users/ann/domains/" },
    .call 1 (losing (.null 111)), .call 1 (losing (.null 111)),
    .call 0 (losing (.null 111))]

/-- The first request then lists the domains of a null handle. -/
theorem stable_overwritten : ¬ (Threads.machine (workers plainLinked ⟨60, 15⟩ fun _ => "") {}).Always
    (fun s => s.shared.Stable) (Threads.machine (workers plainLinked ⟨60, 15⟩ fun _ => "") {}).init
    overwritten := by
  intro h
  have hrun : ∃ t, (Threads.machine (workers plainLinked ⟨60, 15⟩ fun _ => "") {}).exec
      (Threads.machine (workers plainLinked ⟨60, 15⟩ fun _ => "") {}).init overwritten = some t ∧
      t.shared.uses = [.call "ann" (.virConnectListAllDomains "ann") { errno := 111 }] :=
    ⟨_, rfl, rfl⟩
  obtain ⟨t, ht, huses⟩ := hrun
  have hstable := h.last ht
  obtain ⟨hd, hhd⟩ := hstable _ (huses ▸ List.mem_cons_self)
  cases hhd

end Webvirtd.App
