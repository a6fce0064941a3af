import Webvirtd.App.Handlers
import Webvirtd.App.Workers

/-!
# App.Programs — a request as it is written, on the state of the app

`App.State` has the steps of the app; the code itself is in `Http.Connection` and `App.Routes`, as computations that
call their surroundings.  Here the surroundings of a request are the state of the app: `pool.get` and `pool.websockets_`
read and write it, and close callbacks fire while the request calls libvirt.

* `request_refines`: a request that upgrades is the `request` step of the app; any other makes `get`s of one user, and
  no websocket.
-/

namespace Webvirtd.App

open Lib Virt Http

/-- What is around the app. -/
structure Outside (σ : Type) extends Surroundings σ where
  /-- The error of a `virConnectOpen` that fails. -/
  errno : σ → Option ℤ
  /-- The close callbacks that fire while a libvirt call of a request is made. -/
  closes : σ → Op → List (User × ℕ)

/-- A request that is served. -/
structure Serving (σ : Type) where
  app : State
  /-- `http_conn->upgrade()` has returned `ws_conn`. -/
  upgraded : Bool := false
  /-- The name of `ws_conn` in `websockets_`. -/
  websock : Option SockId := none
  outside : σ

/-- The close callback of the `n`-th newest handle of `user`, if there is one that has not fired. -/
def State.closeConn (s : State) (user : User) (n : ℕ) : State :=
  match s.pool.close user n with
  | some pool => { s with pool := pool }
  | none => s

def State.closeConns (s : State) (cs : List (User × ℕ)) : State := cs.foldl (fun s c => s.closeConn c.1 c.2) s

namespace Outside

variable {σ : Type} (O : Outside σ) (strerror : ℤ → String)

def answerOp (w : Serving σ) : (o : Op) → Op.Res o × Serving σ
  | .user conn => ((w.app.entry conn).user, w)
  | o =>
    ((O.answer w.outside (.op o)).1,
      { w with app := w.app.closeConns (O.closes w.outside o), outside := (O.answer w.outside (.op o)).2 })

/-- How the commands of a request for `target` are answered. -/
def answerCmd (target : String) (w : Serving σ) : (c : Cmd) → Cmd.Res c × Serving σ
  | .getpwnam user =>
    ((O.answer w.outside (.getpwnam user)).1, { w with outside := (O.answer w.outside (.getpwnam user)).2 })
  | .poolGet user =>
    ((w.app.poolGet strerror user (O.errno w.outside)).1.map fun _ => (),
      { w with app := (w.app.poolGet strerror user (O.errno w.outside)).2 })
  | .upgrade => ((), { w with upgraded := true })
  | .websocketsAdd conn user =>
    ((), if w.upgraded then
        { w with
          app := w.app.addSock { target := target, cell := conn, user := user, phase := .unstarted }
          websock := some w.app.nextSock }
      else w)
  | .op o => O.answerOp w o

/-- The app as the surroundings of a request. -/
def sharing (target : String) : Surroundings (Serving σ) where
  answer := O.answerCmd strerror target
  time w := O.time w.outside
  clock :=
    { mono := fun w o => by
        cases o with
        | user conn => exact le_refl _
        | _ => exact O.clock.mono w.outside _
      now := fun w => O.clock.now w.outside
      sleep := fun w ms => O.clock.sleep w.outside ms }

end Outside

/-- A `get` of `user`, or a close callback. -/
def Action.OnPool (user : User) : Action → Prop
  | .get u _ => u = user
  | .closeConn _ _ => True
  | _ => False

/-- What `get`s of `user` and close callbacks have made of `s`. -/
def PoolRun (strerror : ℤ → String) (user : User) (s t : State) : Prop :=
  ∃ as, (∀ a ∈ as, a.OnPool user) ∧ (appMachine strerror).exec s as = some t

section

variable {strerror : ℤ → String} {s t u : State} {user : User}

theorem up_of_exec {as : List Action} (hup : s.up = true) (hA : ∀ a ∈ as, a.OnPool user)
    (h : (appMachine strerror).exec s as = some t) : t.up = true := by
  induction as generalizing s with
  | nil =>
    obtain rfl := Option.some.inj h
    exact hup
  | cons a as ih =>
    obtain ⟨u, hu, h⟩ := Machine.exec_cons_eq_some.mp h
    refine ih ?_ (fun b hb => hA b (List.mem_cons_of_mem a hb)) h
    have hout := (State.step_outcome hu).2
    have ha := hA a List.mem_cons_self
    cases a with
    | get v errno =>
      obtain rfl := hout
      exact hup
    | closeConn v n =>
      obtain ⟨pool, -, rfl⟩ := hout
      exact hup
    | _ => exact ha.elim

theorem PoolRun.refl (s : State) : PoolRun strerror user s s := ⟨[], nofun, rfl⟩

theorem PoolRun.trans (h1 : PoolRun strerror user s t) (h2 : PoolRun strerror user t u) :
    PoolRun strerror user s u := by
  obtain ⟨as, hA, has⟩ := h1
  obtain ⟨bs, hB, hbs⟩ := h2
  exact ⟨as ++ bs, List.forall_mem_append.mpr ⟨hA, hB⟩, Machine.exec_append_of_eq has hbs⟩

theorem PoolRun.up (h : PoolRun strerror user s t) (hup : s.up = true) : t.up = true := by
  obtain ⟨as, hA, has⟩ := h
  exact up_of_exec hup hA has

theorem poolRun_get (hup : s.up = true) (errno : Option ℤ) :
    PoolRun strerror user s (s.poolGet strerror user errno).2 :=
  ⟨[.get user errno], List.forall_mem_singleton.mpr rfl, Machine.exec_single (if_pos hup)⟩

theorem poolRun_closeConn (hup : s.up = true) (v : User) (n : ℕ) :
    PoolRun strerror user s (s.closeConn v n) := by
  unfold State.closeConn
  cases hc : s.pool.close v n with
  | none => exact .refl s
  | some pool =>
    refine ⟨[.closeConn v n], List.forall_mem_singleton.mpr trivial, Machine.exec_single ?_⟩
    show (if s.up = true then (s.pool.close v n).map _ else none) = _
    rw [if_pos hup, hc]
    rfl

theorem poolRun_closeConns (hup : s.up = true) (cs : List (User × ℕ)) :
    PoolRun strerror user s (s.closeConns cs) := by
  induction cs generalizing s with
  | nil => exact .refl s
  | cons c cs ih =>
    have hc : PoolRun strerror user s (s.closeConn c.1 c.2) := poolRun_closeConn hup c.1 c.2
    exact hc.trans (ih (hc.up hup))

end

section

variable {σ : Type} {O : Outside σ} {strerror : ℤ → String} {target : String} {s : State} {user : User}

/-- Nothing has been done to the app but on its pool, unless the connection has been upgraded. -/
def Outside.Pooled (strerror : ℤ → String) (user : User) (s : State) (w : Http.Connection × Serving σ) : Prop :=
  w.1.upgrade = w.2.upgraded ∧ (w.2.upgraded = false → w.2.websock = none ∧ PoolRun strerror user s w.2.app)

theorem pooled_serve (hup : s.up = true) {w : Http.Connection × Serving σ} {c : Cmd} (hc : c.Via user)
    (h : Outside.Pooled strerror user s w) :
    Outside.Pooled strerror user s ((O.sharing strerror target).serve w c).2 := by
  obtain ⟨k, w⟩ := w
  obtain ⟨hk, hw⟩ := h
  cases c with
  | getpwnam name => exact ⟨hk, hw⟩
  | poolGet u =>
    obtain rfl : u = user := hc
    refine ⟨hk, fun hno => ⟨(hw hno).1, (hw hno).2.trans ?_⟩⟩
    exact poolRun_get ((hw hno).2.up hup) _
  | upgrade => exact ⟨rfl, nofun⟩
  | websocketsAdd conn name =>
    cases hu : w.upgraded with
    | false =>
      have hsame : ((O.sharing strerror target).serve (k, w) (.websocketsAdd conn name)).2 = (k, w) := by
        show (k, (if w.upgraded = true then _ else w)) = _
        rw [hu]
        rfl
      rw [hsame]
      exact ⟨hk, hw⟩
    | true =>
      have hup' : ((O.sharing strerror target).serve (k, w) (.websocketsAdd conn name)).2.2.upgraded = true := by
        show (if w.upgraded = true then ({ w with app := _, websock := _ } : Serving σ) else w).upgraded = true
        rw [if_pos hu]
        exact hu
      exact ⟨hk.trans (hu.trans hup'.symm), fun hno => absurd (hno.symm.trans hup') nofun⟩
  | op o =>
    cases o with
    | user conn => exact ⟨hk, hw⟩
    | _ => exact ⟨hk, fun hno => ⟨(hw hno).1, (hw hno).2.trans (poolRun_closeConns ((hw hno).2.up hup) _)⟩⟩

/-- The `process_request` of a request, in the state `s` of the app. -/
def Outside.process (O : Outside σ) (L : Linked) (T : Timeouts) (request : Request) (s : State) (w : σ) :
    Processed (Serving σ) :=
  processRequest L (O.sharing L.strerror request.target) (onRequest L T) request { app := s, outside := w }

/-- An upgrade is asked for, and the app performs it. -/
def Outside.Upgrades (O : Outside σ) (L : Linked) (request : Request) (s : State) (w : σ) : Prop :=
  UpgradeRequested (O.sharing L.strerror request.target) request { app := s, outside := w }

variable {L : Linked} {T : Timeouts} {request : Request} {w : σ}

theorem request_of_ok {cell : User} {errno : Option ℤ} {c : Virt.Connection} (hcell : websocketUser target = some cell)
    (hc : (s.poolGet strerror cell errno).1 = .ok c) (isUpgrade : Bool) :
    s.request strerror target isUpgrade errno =
      some ((s.poolGet strerror cell errno).2.addSock
        { target := target, cell := cell, user := c.user, phase := if isUpgrade then .posted else .unstarted }) := by
  unfold State.request
  rw [hcell]
  rcases hg : s.poolGet strerror cell errno with ⟨res, s'⟩
  rw [hg] at hc
  obtain rfl : res = .ok c := hc
  simp only [hg]

/-- What the websocket route does to the app when it upgrades. -/
theorem exec_websocketRoute_upgrades (hget : request.method = .get)
    (hfound : (O.answer w (.getpwnam (cStr user))).1 = true) {c : Virt.Connection}
    (hpool : (s.poolGet strerror user (O.errno (O.answer w (.getpwnam (cStr user))).2)).1 = .ok c) (r : Response) :
    ∃ r' w', (websocketRoute L true [request.target, user] request).exec (O.sharing strerror request.target).serve r
        ({}, { app := s, outside := w }) =
      (.ok (), r', Http.Connection.doUpgrade {},
        { app := (s.poolGet strerror user (O.errno (O.answer w (.getpwnam (cStr user))).2)).2.addSock
            { target := request.target, cell := user, user := c.user, phase := .unstarted }
          upgraded := true
          websock := some s.nextSock
          outside := w' }) := by
  have hentry : ((s.poolGet strerror user (O.errno (O.answer w (.getpwnam (cStr user))).2)).2.entry user).user = c.user :=
    congrArg Virt.Connection.user (get_returns s.pool hpool)
  unfold websocketRoute
  rw [Middleware.exec_withMethods, if_neg (by rw [hget]; nofun), if_pos (by rw [hget]; exact List.mem_singleton.mpr rfl),
    Middleware.exec_withLibvirt]
  have hserve : ((O.sharing strerror request.target).serve ({}, { app := s, outside := w })
      (.getpwnam (cStr (capture [request.target, user] 1)))).1 = true := hfound
  have hserve' : ((O.sharing strerror request.target).serve
      ((O.sharing strerror request.target).serve ({}, { app := s, outside := w })
        (.getpwnam (cStr (capture [request.target, user] 1)))).2
      (.poolGet (capture [request.target, user] 1))).1 = .ok () := congrArg (Except.map fun _ => ()) hpool
  simp only [hserve, if_true, hserve']
  rw [← hentry]
  exact ⟨_, _, rfl⟩

/-- A request that upgrades has called `get` once and has added its websocket. -/
theorem exec_onRequest_upgrades (h : O.Upgrades L request s w) : ∃ user errno c r w',
    websocketUser request.target = some user ∧ (s.poolGet L.strerror user errno).1 = .ok c ∧
    (onRequest L T request).exec (O.sharing L.strerror request.target).serve (prepared L request)
        ({}, { app := s, outside := w }) =
      (.ok (), r, Http.Connection.doUpgrade {},
        { app := (s.poolGet L.strerror user errno).2.addSock
            { target := request.target, cell := user, user := c.user, phase := .unstarted }
          upgraded := true
          websock := some s.nextSock
          outside := w' }) := by
  obtain ⟨user, ht, hget, hfound, hpool⟩ := h
  cases hc : (s.poolGet L.strerror user (O.errno (O.answer w (.getpwnam (cStr user))).2)).1 with
  | error e =>
    have hpool : (s.poolGet L.strerror user (O.errno (O.answer w (.getpwnam (cStr user))).2)).1.map
      (fun _ => ()) = .ok () := hpool
    rw [hc] at hpool
    cases hpool
  | ok c =>
    obtain ⟨r, w', hroute⟩ := exec_websocketRoute_upgrades (L := L) hget hfound hc {}
    have hcell : websocketUser request.target = some user := by
      unfold websocketUser
      rw [location_websocket ht]
      rfl
    exact ⟨user, _, c, r, w', hcell, hc, Router.run_of_ok (find_websocket L T ht) hroute⟩

/-- Any other request leaves the app as `get`s of one user and close callbacks make it. -/
theorem exec_onRequest_pooled (hup : s.up = true) (h : ¬ O.Upgrades L request s w) : ∃ user r w',
    (onRequest L T request).exec (O.sharing L.strerror request.target).serve (prepared L request)
      ({}, { app := s, outside := w }) = (.ok (), r, {}, w') ∧
    w'.websock = none ∧ PoolRun L.strerror user s w'.app := by
  obtain ⟨r, k, w', hexec, hk, hupgrade⟩ := onRequest_upgrade (O.sharing L.strerror request.target) L T request
    { app := s, outside := w } (prepared L request)
  obtain ⟨user, -, hvia⟩ := via_onRequest L T request
  have hkeep := (hvia (prepared L request)).run (O.sharing L.strerror request.target).serve
    (I := Outside.Pooled L.strerror user s) (fun w c hc hw => pooled_serve hup hc hw)
    (w := ({}, { app := s, outside := w })) ⟨rfl, fun _ => ⟨rfl, .refl s⟩⟩
  have hend : ((onRequest L T request (prepared L request)).run (O.sharing L.strerror request.target).serve
    ({}, { app := s, outside := w })).2 = (k, w') := congrArg (fun x => x.2.2) hexec
  rw [hend] at hkeep
  have hno : k.upgrade = false := Bool.eq_false_iff.mpr fun h' => h (hupgrade.mp h')
  obtain ⟨hnone, hrun⟩ := hkeep.1.2 (hkeep.1.1.symm.trans hno)
  obtain rfl : k = {} := by
    obtain ⟨upgrade, websock, socket⟩ := k
    obtain ⟨hwebsock, hsocket⟩ := hk
    obtain rfl : upgrade = false := hno
    obtain rfl : websock = false := hwebsock
    obtain rfl : socket = true := hsocket
    rfl
  exact ⟨user, r, w', hexec, hnone, hrun⟩

/-- `websock_->run()` -/
def State.runWebsock (s : State) (i : SockId) : Option State :=
  (s.sockAt i .unstarted).map fun k => s.setSock i { k with phase := .posted }

/-- Where a request leaves the app.  Nothing follows after a null `websock_` is dereferenced. -/
def Outside.served (O : Outside σ) (L : Linked) (T : Timeouts) (request : Request) (s : State) (w : σ) : Option State :=
  let p := O.process L T request s w
  match p.branch with
  | .ok .runWebsock => p.world.websock.bind p.world.app.runWebsock
  | .ok (.writeResponse _) => some p.world.app
  | .error _ => none

theorem runWebsock_addSock (s : State) (k : Sock) (hk : k.phase = .unstarted) :
    (s.addSock k).runWebsock s.nextSock = some (s.addSock { k with phase := .posted }) := by
  have hat : (s.addSock k).sockAt s.nextSock .unstarted = some k :=
    State.sockAt_eq_some.mpr ⟨Function.update_self .., hk⟩
  unfold State.runWebsock
  rw [hat]
  simp [State.addSock, State.setSock]

/-- An upgrade is the `request` of the app. -/
theorem served_of_upgrades (hup : s.up = true) (h : O.Upgrades L request s w) : ∃ errno,
    O.served L T request s w =
      (appMachine L.strerror).step s (.request request.target (L.isUpgrade request) errno) := by
  obtain ⟨user, errno, c, r, w', hcell, hc, hexec⟩ := exec_onRequest_upgrades (T := T) h
  refine ⟨errno, ?_⟩
  have hstep : (appMachine L.strerror).step s (.request request.target (L.isUpgrade request) errno) =
    s.request L.strerror request.target (L.isUpgrade request) errno := if_pos hup
  rw [hstep, request_of_ok hcell hc]
  unfold Outside.served Outside.process
  rw [processRequest_of_ok hexec]
  cases L.isUpgrade request with
  | false => rfl
  | true => exact runWebsock_addSock (s.poolGet L.strerror user errno).2 _ rfl

/-- Without one there is no websocket to run. -/
theorem served_of_not_upgrades (hup : s.up = true) (h : ¬ O.Upgrades L request s w) : ∃ user t,
    PoolRun L.strerror user s t ∧ O.served L T request s w = if L.isUpgrade request then none else some t := by
  obtain ⟨user, r, w', hexec, hnone, hrun⟩ := exec_onRequest_pooled (T := T) hup h
  refine ⟨user, w'.app, hrun, ?_⟩
  unfold Outside.served Outside.process
  rw [processRequest_of_ok hexec]
  cases L.isUpgrade request with
  | false => rfl
  | true =>
    show w'.websock.bind w'.app.runWebsock = none
    rw [hnone]
    rfl

/-- **A request**, run from its code.  If it upgrades, it is the `request` of the app; if not, it has made `get`s of
one user while close callbacks have fired, and it has added no websocket, so that there is none to run. -/
theorem request_refines (L : Linked) (T : Timeouts) (O : Outside σ) (request : Request) (s : State) (w : σ)
    (hup : s.up = true) :
    (O.Upgrades L request s w → ∃ errno, O.served L T request s w =
      (appMachine L.strerror).step s (.request request.target (L.isUpgrade request) errno)) ∧
    (¬ O.Upgrades L request s w → ∃ user t, PoolRun L.strerror user s t ∧
      O.served L T request s w = if L.isUpgrade request then none else some t) :=
  ⟨served_of_upgrades hup, served_of_not_upgrades hup⟩

end

/-- The system knows ann, and libvirt opens her connection. -/
def annOutside : Outside ℚ where
  answer w
    | .getpwnam user => (user == "ann", w)
    | c => emptySurroundings.answer w c
  time w := w
  clock := emptySurroundings.clock
  errno _ := none
  closes _ _ := []

def annWebsocket (method : Verb) : Request where
  method := method
  target := "/users/ann/websocket/"
  fields := [("Connection", "Upgrade"), ("Upgrade", "websocket")]

/-- She asks for a websocket, and the same with a method that the route does not take. -/
theorem request_refines_ann :
    (∃ errno, annOutside.served plainLinked ⟨60, 15⟩ (annWebsocket .get) {} 0 =
      (appMachine plainLinked.strerror).step {} (.request "/users/ann/websocket/" true errno)) ∧
    ∃ user t, PoolRun plainLinked.strerror user {} t ∧
      annOutside.served plainLinked ⟨60, 15⟩ (annWebsocket .post) {} 0 = some t := by
  have hget := (request_refines plainLinked ⟨60, 15⟩ annOutside (annWebsocket .get) {} 0 rfl).1
    ⟨"ann", ⟨by decide, by decide, rfl⟩, rfl, rfl, rfl⟩
  have hpost := (request_refines plainLinked ⟨60, 15⟩ annOutside (annWebsocket .post) {} 0 rfl).2
    fun ⟨_, _, h, _⟩ => by cases h
  have hplain : plainLinked.isUpgrade (annWebsocket .post) = false := rfl
  rw [hplain] at hpost
  exact ⟨hget, hpost⟩

end Webvirtd.App
