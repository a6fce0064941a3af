import Webvirtd.App.Isolation

/-!
# App.Upgrading — websocket requests step by step

In `App.State` a websocket request is one step.  On its worker it is three: `with_libvirt` gets the connection
(`connect`), the handler for `on_close` copies `conn.user()` (`copy`), and `websockets_.add` reads it again (`add`).
`conn` is a reference into the pool, and neither of the two holds the lock of the pool: what they read is up to the
`get`s of other requests.  The copy for `on_handshake` is left out, as nothing looks at it.

While a `get` reopens an entry, the entry is blank.  Such a `get` is one that fails, followed by one that succeeds.

* `exec_request`: in one go, the three steps are the request of `appMachine`.
* `upgradeInvariant`: what holds of every websocket is that its entry decides both names, each at its own time.
-/

namespace Webvirtd.App

open Lib Virt Http

/-- What the handler for `on_close` has copied, and whether the entry was connected then. -/
structure Copy where
  user : User
  connected : Bool
  deriving DecidableEq, Repr

/-- A websocket request that has its connection, and has not added its websocket yet. -/
structure Upgrading where
  target : String
  isUpgrade : Bool
  /-- The pool entry that `conn` refers to. -/
  cell : User
  copy : Option Copy := none
  deriving DecidableEq, Repr

/-- How a websocket was added: under which name, and whether its entry was connected when `on_close` copied
`conn.user()`, and when `add` read it. -/
structure Added where
  bucket : User
  copied : Bool
  added : Bool
  deriving DecidableEq, Repr

structure UpgradeState where
  app : State := {}
  requests : ℕ → Option Upgrading := fun _ => none
  nextRequest : ℕ := 0
  added : SockId → Option Added := fun _ => none

inductive UpgradeAction
  /-- A step of the app, but for a websocket request. -/
  | app (a : Action)
  /-- A websocket request gets its connection. -/
  | connect (target : String) (isUpgrade : Bool) (errno : Option ℤ)
  | copy (r : ℕ)
  | add (r : ℕ)

def Action.isRequest : Action → Bool
  | .request _ _ _ => true
  | _ => false

/-- The last `virConnectOpen` for the entry has returned a handle. -/
def State.connected (s : State) (cell : User) : Bool :=
  (s.pool.opens cell).head?.any fun o => o.result.handle?.isSome

/-- `websockets_.add(user, ws_conn)` for a new websocket, whatever its handlers have copied. -/
def State.addSockTo (s : State) (user : User) (k : Sock) : State :=
  { s.setSock s.nextSock k with
    buckets := Function.update s.buckets user (s.buckets user ++ [s.nextSock])
    nextSock := s.nextSock + 1 }

theorem State.addSockTo_user (s : State) (k : Sock) : s.addSockTo k.user k = s.addSock k := rfl

namespace UpgradeState

variable (strerror : ℤ → String) (s : UpgradeState)

def stepUp : UpgradeAction → Option UpgradeState
  | .app a => if a.isRequest then none else (s.app.stepUp strerror a).map fun app => { s with app := app }
  | .connect target isUpgrade errno => (websocketUser target).map fun cell =>
    match s.app.poolGet strerror cell errno with
    | (.error _, app) => { s with app := app }
    | (.ok _, app) =>
      { s with
        app := app
        requests := Function.update s.requests s.nextRequest
          (some { target := target, isUpgrade := isUpgrade, cell := cell })
        nextRequest := s.nextRequest + 1 }
  | .copy r => (s.requests r).bind fun q =>
    match q.copy with
    | some _ => none
    | none =>
      let c : Copy := ⟨(s.app.entry q.cell).user, s.app.connected q.cell⟩
      some { s with requests := Function.update s.requests r (some { q with copy := some c }) }
  | .add r => (s.requests r).bind fun q => q.copy.map fun c =>
    let user := (s.app.entry q.cell).user
    { s with
      app := s.app.addSockTo user
        { target := q.target, cell := q.cell, user := c.user,
          phase := if q.isUpgrade then .posted else .unstarted }
      requests := Function.update s.requests r none
      added := Function.update s.added s.app.nextSock
        (some ⟨user, c.connected, s.app.connected q.cell⟩) }

end UpgradeState

/-- The app under all interleavings of its handlers and of its websocket requests. -/
def upgradeMachine (strerror : ℤ → String) : Machine UpgradeState UpgradeAction where
  init := {}
  step s a := if s.app.up then s.stepUp strerror a else none

section

variable {strerror : ℤ → String} {s t : UpgradeState}

/-- What a step leads to. -/
inductive UpgradeOutcome (strerror : ℤ → String) (s t : UpgradeState) : UpgradeAction → Prop
  | app (a : Action) (app : State) (hne : ∀ target isUpgrade errno, a ≠ .request target isUpgrade errno)
      (hst : (appMachine strerror).step s.app a = some app) (ht : t = { s with app := app }) :
      UpgradeOutcome strerror s t (.app a)
  | refused (target : String) (isUpgrade : Bool) (errno : Option ℤ) (cell : User) (e : Exn)
      (hcell : websocketUser target = some cell) (hget : (s.app.poolGet strerror cell errno).1 = .error e)
      (ht : t = { s with app := (s.app.poolGet strerror cell errno).2 }) :
      UpgradeOutcome strerror s t (.connect target isUpgrade errno)
  | connected (target : String) (isUpgrade : Bool) (errno : Option ℤ) (cell : User) (c : Connection)
      (hcell : websocketUser target = some cell) (hget : (s.app.poolGet strerror cell errno).1 = .ok c)
      (ht : t = { s with
        app := (s.app.poolGet strerror cell errno).2
        requests := Function.update s.requests s.nextRequest
          (some { target := target, isUpgrade := isUpgrade, cell := cell })
        nextRequest := s.nextRequest + 1 }) :
      UpgradeOutcome strerror s t (.connect target isUpgrade errno)
  | copied (r : ℕ) (q : Upgrading) (hq : s.requests r = some q) (hc : q.copy = none)
      (ht : t = { s with
        requests := Function.update s.requests r
          (some { q with copy := some ⟨(s.app.entry q.cell).user, s.app.connected q.cell⟩ }) }) :
      UpgradeOutcome strerror s t (.copy r)
  | added (r : ℕ) (q : Upgrading) (c : Copy) (hq : s.requests r = some q) (hc : q.copy = some c)
      (ht : t = { s with
        app := s.app.addSockTo (s.app.entry q.cell).user
          { target := q.target, cell := q.cell, user := c.user,
            phase := if q.isUpgrade then .posted else .unstarted }
        requests := Function.update s.requests r none
        added := Function.update s.added s.app.nextSock
          (some ⟨(s.app.entry q.cell).user, c.connected, s.app.connected q.cell⟩) }) :
      UpgradeOutcome strerror s t (.add r)

theorem upgrade_outcome {a : UpgradeAction} (h : (upgradeMachine strerror).step s a = some t) :
    s.app.up = true ∧ UpgradeOutcome strerror s t a := by
  simp only [upgradeMachine] at h
  split_ifs at h with hup
  refine ⟨hup, ?_⟩
  cases a with
  | app a =>
    obtain ⟨hne, h⟩ := Option.ite_none_left_eq_some.mp h
    obtain ⟨app, happ, rfl⟩ := Option.map_eq_some_iff.mp h
    exact .app a app (by rintro target isUpgrade errno rfl; exact hne rfl) ((if_pos hup).trans happ) rfl
  | connect target isUpgrade errno =>
    obtain ⟨cell, hcell, rfl⟩ := Option.map_eq_some_iff.mp h
    rcases hg : s.app.poolGet strerror cell errno with ⟨e | c, app⟩
    · exact .refused target isUpgrade errno cell e hcell (congrArg Prod.fst hg) (by rw [hg])
    · exact .connected target isUpgrade errno cell c hcell (congrArg Prod.fst hg) (by rw [hg])
  | copy r =>
    obtain ⟨q, hq, h⟩ := Option.bind_eq_some_iff.mp h
    cases hc : q.copy with
    | some c =>
      simp only [hc] at h
      cases h
    | none =>
      simp only [hc] at h
      exact .copied r q hq hc (Option.some.inj h).symm
  | add r =>
    obtain ⟨q, hq, h⟩ := Option.bind_eq_some_iff.mp h
    obtain ⟨c, hc, rfl⟩ := Option.map_eq_some_iff.mp h
    exact .added r q c hq hc rfl

/-! ## Requests in one go -/

theorem step_copy (hup : s.app.up = true) {r : ℕ} {q : Upgrading} (hq : s.requests r = some q) (hc : q.copy = none) :
    (upgradeMachine strerror).step s (.copy r) = some
      { s with
        requests := Function.update s.requests r
          (some { q with copy := some ⟨(s.app.entry q.cell).user, s.app.connected q.cell⟩ }) } := by
  refine (if_pos hup).trans ?_
  simp only [UpgradeState.stepUp, hq, Option.bind_some, hc]

theorem step_add (hup : s.app.up = true) {r : ℕ} {q : Upgrading} {c : Copy} (hq : s.requests r = some q)
    (hc : q.copy = some c) :
    (upgradeMachine strerror).step s (.add r) = some
      { s with
        app := s.app.addSockTo (s.app.entry q.cell).user
          { target := q.target, cell := q.cell, user := c.user,
            phase := if q.isUpgrade then .posted else .unstarted }
        requests := Function.update s.requests r none
        added := Function.update s.added s.app.nextSock
          (some ⟨(s.app.entry q.cell).user, c.connected, s.app.connected q.cell⟩) } := by
  refine (if_pos hup).trans ?_
  simp only [UpgradeState.stepUp, hq, Option.bind_some, hc, Option.map_some]

/-- Without another step in between, the steps of a websocket request are the request of `appMachine`. -/
theorem exec_request {target : String} {isUpgrade : Bool} {errno : Option ℤ} {app : State}
    (hst : (appMachine strerror).step s.app (.request target isUpgrade errno) = some app) :
    ∃ as u, (upgradeMachine strerror).exec s as = some u ∧ u.app = app := by
  obtain ⟨hup, cell, hcell, ⟨e, hget, rfl⟩ | ⟨c, hget, rfl⟩⟩ := State.step_outcome hst
  · refine ⟨[.connect target isUpgrade errno], { s with app := (s.app.poolGet strerror cell errno).2 },
      Machine.exec_single ((if_pos hup).trans ?_), rfl⟩
    obtain ⟨⟨res, app⟩, hx⟩ : ∃ x, s.app.poolGet strerror cell errno = x := ⟨_, rfl⟩
    rw [hx] at hget ⊢
    obtain rfl : res = .error e := hget
    simp only [UpgradeState.stepUp, hcell, hx, Option.map_some]
  · obtain ⟨⟨res, app⟩, hx⟩ : ∃ x, s.app.poolGet strerror cell errno = x := ⟨_, rfl⟩
    rw [hx] at hget ⊢
    obtain rfl : res = .ok c := hget
    have hup' : app.up = true := by
      have h : (s.app.poolGet strerror cell errno).2.up = true := hup
      rwa [hx] at h
    -- `conn.user()` of the entry that `get` has returned
    have huser : (app.entry cell).user = c.user := by
      have h := get_returns s.app.pool (r := s.app.openResult errno) (u := cell) (c := c)
        (by rw [← State.poolGet_fst, hx])
      have hpool : (s.app.pool.get strerror cell (s.app.openResult errno)).2 = app.pool := by
        have h := congrArg (fun x => x.2.pool) hx
        exact h
      rw [hpool] at h
      exact congrArg Connection.user h
    have hconnect : (upgradeMachine strerror).step s (.connect target isUpgrade errno) = some
        { s with
          app := app
          requests := Function.update s.requests s.nextRequest
            (some { target := target, isUpgrade := isUpgrade, cell := cell })
          nextRequest := s.nextRequest + 1 } := by
      refine (if_pos hup).trans ?_
      simp only [UpgradeState.stepUp, hcell, hx, Option.map_some]
    have hadd := @step_add strerror
      { s with
        app := app
        requests := Function.update (Function.update s.requests s.nextRequest
            (some { target := target, isUpgrade := isUpgrade, cell := cell })) s.nextRequest
          (some { target := target, isUpgrade := isUpgrade, cell := cell,
                  copy := some ⟨(app.entry cell).user, app.connected cell⟩ })
        nextRequest := s.nextRequest + 1 } hup' _ _ _ (Function.update_self ..) rfl
    refine ⟨[.connect target isUpgrade errno, .copy s.nextRequest, .add s.nextRequest], _,
      Machine.exec_cons_eq_some.mpr ⟨_, hconnect, Machine.exec_cons_eq_some.mpr
        ⟨_, step_copy hup' (Function.update_self ..) rfl, Machine.exec_single hadd⟩⟩, ?_⟩
    show app.addSockTo (app.entry cell).user
        { target := target, cell := cell, user := (app.entry cell).user,
          phase := if isUpgrade then .posted else .unstarted } = _
    rw [huser]
    exact State.addSockTo_user _ _

/-- The runs of `appMachine` are among these. -/
theorem exists_exec_of_app {as : List Action} {app : State} (h : (appMachine strerror).exec s.app as = some app) :
    ∃ bs u, (upgradeMachine strerror).exec s bs = some u ∧ u.app = app := by
  induction as generalizing s with
  | nil => exact ⟨[], s, rfl, Option.some.inj h⟩
  | cons a as ih =>
    obtain ⟨app', hst, hrest⟩ := Machine.exec_cons_eq_some.mp h
    have hone : ∃ bs u, (upgradeMachine strerror).exec s bs = some u ∧ u.app = app' := by
      by_cases hreq : a.isRequest = true
      · cases a with
        | request target isUpgrade errno => exact exec_request hst
        | _ => cases hreq
      · obtain ⟨hup, hstep⟩ := Option.ite_none_right_eq_some.mp hst
        refine ⟨[.app a], { s with app := app' }, Machine.exec_single ((if_pos hup).trans ((if_neg hreq).trans ?_)), rfl⟩
        rw [hstep]
        rfl
    obtain ⟨bs, u, hu, rfl⟩ := hone
    obtain ⟨cs, v, hv, happ⟩ := ih hrest
    exact ⟨bs ++ cs, v, Machine.exec_append_of_eq hu hv, happ⟩

/-! ## What the names are -/

/-- What `conn.user()` reads. -/
def nameOf (cell : User) (connected : Bool) : User := if connected then cell else ""

theorem entry_user_eq {s : State} (h : PoolOk s) (cell : User) :
    (s.entry cell).user = nameOf cell (s.connected cell) := by
  unfold State.entry State.connected nameOf
  rw [h.inv.entry cell]
  rcases s.pool.opens cell with _ | ⟨⟨ur, hd | errno, cl⟩, os⟩
  · rfl
  · rfl
  · rfl

theorem nameOf_inj {cell : User} (hcell : cell ≠ "") {b b' : Bool} : nameOf cell b = nameOf cell b' ↔ b = b' := by
  unfold nameOf
  cases b with
  | true =>
    cases b' with
    | true => simp
    | false => simp [hcell]
  | false =>
    cases b' with
    | true => simp [Ne.symm hcell]
    | false => simp

/-- The entry decides what the handlers of a websocket copied, and where the websocket was put; a bucket holds each
websocket that was put there, until its close handler removes it. -/
structure UpgradeInv (s : UpgradeState) : Prop where
  core : CoreInv s.app
  added : ∀ i k, s.app.socks i = some k → ∃ h, s.added i = some h ∧ k.user = nameOf k.cell h.copied ∧
    h.bucket = nameOf k.cell h.added
  lt : ∀ i x, s.added i = some x → i < s.app.nextSock
  bucket : ∀ u i, i ∈ s.app.buckets u ↔ ∃ k h, s.app.socks i = some k ∧ s.added i = some h ∧ h.bucket = u ∧
    k.phase.inBucket = true
  requests : ∀ r q, s.requests r = some q → websocketUser q.target = some q.cell ∧
    ∀ c, q.copy = some c → c.user = nameOf q.cell c.connected

theorem upgradeInv_init : UpgradeInv {} where
  core := appInv_init.core
  added := fun _ _ hk => by cases hk
  lt := fun _ _ hx => by cases hx
  bucket := fun _ _ => ⟨fun hm => absurd hm List.not_mem_nil, fun ⟨_, _, hk, _⟩ => by cases hk⟩
  requests := fun _ _ hq => by cases hq

/-- The websockets and the buckets are the same, as far as the invariant speaks about them. -/
theorem UpgradeInv.congr (h : UpgradeInv s) {app : State} (hpe : PoolOk app ∧ EventsOk app)
    (hb : app.buckets = s.app.buckets) (hn : app.nextSock = s.app.nextSock)
    (hid : ∀ j, (app.socks j).map Sock.identity = (s.app.socks j).map Sock.identity) :
    UpgradeInv { s with app := app } := by
  have hback : ∀ {j k'}, app.socks j = some k' → ∃ k, s.app.socks j = some k ∧ k.identity = k'.identity := by
    intro j k' hk'
    have h := hid j
    rw [hk'] at h
    exact Option.map_eq_some_iff.mp h.symm
  refine ⟨⟨hpe.1, hpe.2, fun i k' hk' => ?_, fun u => ?_⟩, fun i k' hk' => ?_, fun i x hx => hn ▸ h.lt i x hx,
    fun u i => ?_, h.requests⟩
  · obtain ⟨k, hk, heq⟩ := hback hk'
    obtain ⟨hlt, htarget⟩ := h.core.sock i k hk
    simp only [Sock.identity, Prod.mk.injEq] at heq
    rw [hn, ← heq.1, ← heq.2.1]
    exact ⟨hlt, htarget⟩
  · rw [hb]
    exact h.core.nodup u
  · obtain ⟨k, hk, heq⟩ := hback hk'
    obtain ⟨x, hx, huser, hbucket⟩ := h.added i k hk
    simp only [Sock.identity, Prod.mk.injEq] at heq
    exact ⟨x, hx, by rw [← heq.2.1, ← heq.2.2.1, huser], by rw [← heq.2.1, hbucket]⟩
  · show i ∈ app.buckets u ↔ _
    rw [hb, h.bucket u i]
    constructor
    · rintro ⟨k, x, hk, hx, hu, hp⟩
      have hmap := hid i
      rw [hk] at hmap
      obtain ⟨k', hk', heq⟩ := Option.map_eq_some_iff.mp hmap
      simp only [Sock.identity, Prod.mk.injEq] at heq
      exact ⟨k', x, hk', hx, hu, heq.2.2.2.trans hp⟩
    · rintro ⟨k', x, hk', hx, hu, hp⟩
      obtain ⟨k, hk, heq⟩ := hback hk'
      simp only [Sock.identity, Prod.mk.injEq] at heq
      exact ⟨k, x, hk, hx, hu, heq.2.2.2.trans hp⟩

/-- The close handler of a websocket removes it from the bucket of the name that it has copied. -/
theorem upgradeInv_removed (h : UpgradeInv s) {i : SockId} {k : Sock} (hk : s.app.socks i = some k)
    (hm : i ∈ s.app.buckets k.user) :
    UpgradeInv { s with app :=
      { s.app.setSock i { k with phase := .removed } with
        buckets := Function.update s.app.buckets k.user ((s.app.buckets k.user).erase i) } } := by
  obtain ⟨k₀, x, hk₀, hx, hu, -⟩ := (h.bucket _ i).mp hm
  rw [hk] at hk₀
  obtain rfl := Option.some.inj hk₀
  have hsocks : ∀ {j k'}, (s.app.setSock i { k with phase := .removed }).socks j = some k' →
      ∃ k₀, s.app.socks j = some k₀ ∧ k₀.Same k' := by
    intro j k' hk'
    rcases setSock_eq_some.mp hk' with ⟨rfl, rfl⟩ | ⟨-, hk'⟩
    · exact ⟨k, hk, .refl k⟩
    · exact ⟨k', hk', .refl k'⟩
  refine ⟨⟨h.core.pool.congr rfl rfl, h.core.events.congr rfl rfl rfl rfl le_rfl rfl, fun j k' hk' => ?_, fun u => ?_⟩,
    fun j k' hk' => ?_, h.lt, fun u j => ?_, h.requests⟩
  · obtain ⟨k₀, hk₀, htarget, hcell, -⟩ := hsocks hk'
    rw [htarget, hcell]
    exact h.core.sock j k₀ hk₀
  · show (Function.update s.app.buckets k.user ((s.app.buckets k.user).erase i) u).Nodup
    by_cases huser : u = k.user
    · subst huser
      rw [Function.update_self]
      exact (h.core.nodup _).erase i
    · rw [Function.update_of_ne huser]
      exact h.core.nodup u
  · obtain ⟨k₀, hk₀, -, hcell, huser⟩ := hsocks hk'
    rw [hcell, huser]
    exact h.added j k₀ hk₀
  · show j ∈ Function.update s.app.buckets k.user ((s.app.buckets k.user).erase i) u ↔
      ∃ k' x', (s.app.setSock i { k with phase := .removed }).socks j = some k' ∧ s.added j = some x' ∧
        x'.bucket = u ∧ k'.phase.inBucket = true
    by_cases hj : j = i
    · subst hj
      refine iff_of_false (fun hmem => ?_) ?_
      · by_cases huser : u = k.user
        · subst huser
          rw [Function.update_self] at hmem
          exact (h.core.nodup _).not_mem_erase hmem
        · rw [Function.update_of_ne huser] at hmem
          obtain ⟨_, x', -, hx', hu', -⟩ := (h.bucket u j).mp hmem
          rw [hx] at hx'
          obtain rfl := Option.some.inj hx'
          exact huser (hu'.symm.trans hu)
      · rintro ⟨k', x', hk', -, -, hp⟩
        rw [State.setSock_self] at hk'
        obtain rfl := Option.some.inj hk'
        cases hp
    · rw [State.setSock_of_ne s.app hj, ← h.bucket u j]
      by_cases huser : u = k.user
      · subst huser
        rw [Function.update_self, List.mem_erase_of_ne hj]
      · rw [Function.update_of_ne huser]

/-- A new websocket. -/
theorem upgradeInv_addSockTo (h : UpgradeInv s) {k : Sock} {x : Added} {requests : ℕ → Option Upgrading}
    (htarget : websocketUser k.target = some k.cell) (huser : k.user = nameOf k.cell x.copied)
    (hbucket : x.bucket = nameOf k.cell x.added) (hphase : k.phase.inBucket = true)
    (hrequests : ∀ r q, requests r = some q → s.requests r = some q) :
    UpgradeInv { s with
      app := s.app.addSockTo x.bucket k
      requests := requests
      added := Function.update s.added s.app.nextSock (some x) } := by
  have hold : ∀ {j k'}, (s.app.addSockTo x.bucket k).socks j = some k' →
      j = s.app.nextSock ∧ k = k' ∨ j ≠ s.app.nextSock ∧ s.app.socks j = some k' :=
    fun hk' => setSock_eq_some.mp hk'
  have hfresh : ∀ u, s.app.nextSock ∉ s.app.buckets u := by
    intro u hm
    obtain ⟨k', -, hk', -⟩ := (h.bucket u _).mp hm
    exact absurd (h.core.sock _ k' hk').1 (lt_irrefl _)
  refine ⟨⟨h.core.pool.congr rfl rfl, h.core.events.congr rfl rfl rfl rfl le_rfl rfl, fun j k' hk' => ?_, fun u => ?_⟩,
    fun j k' hk' => ?_, fun j x' hx' => ?_, fun u j => ?_, fun r q hq => h.requests r q (hrequests r q hq)⟩
  · rcases hold hk' with ⟨rfl, rfl⟩ | ⟨-, hk'⟩
    · exact ⟨Nat.lt_succ_self _, htarget⟩
    · obtain ⟨hlt, ht⟩ := h.core.sock j k' hk'
      exact ⟨Nat.lt_succ_of_lt hlt, ht⟩
  · show (Function.update s.app.buckets x.bucket (s.app.buckets x.bucket ++ [s.app.nextSock]) u).Nodup
    by_cases hu : u = x.bucket
    · subst hu
      rw [Function.update_self]
      refine List.nodup_append.mpr ⟨h.core.nodup _, List.pairwise_singleton _ _, ?_⟩
      intro a ha b hb hab
      rw [List.mem_singleton.mp hb] at hab
      exact hfresh _ (hab ▸ ha)
    · rw [Function.update_of_ne hu]
      exact h.core.nodup u
  · rcases hold hk' with ⟨rfl, rfl⟩ | ⟨hj, hk'⟩
    · exact ⟨x, Function.update_self .., huser, hbucket⟩
    · obtain ⟨x', hx', hrest⟩ := h.added j k' hk'
      exact ⟨x', (Function.update_of_ne hj ..).trans hx', hrest⟩
  · by_cases hj : j = s.app.nextSock
    · subst hj
      exact Nat.lt_succ_self _
    · replace hx' : Function.update s.added s.app.nextSock (some x) j = some x' := hx'
      rw [Function.update_of_ne hj] at hx'
      exact Nat.lt_succ_of_lt (h.lt j x' hx')
  · show j ∈ Function.update s.app.buckets x.bucket (s.app.buckets x.bucket ++ [s.app.nextSock]) u ↔
      ∃ k' x', (s.app.setSock s.app.nextSock k).socks j = some k' ∧
        Function.update s.added s.app.nextSock (some x) j = some x' ∧ x'.bucket = u ∧ k'.phase.inBucket = true
    by_cases hj : j = s.app.nextSock
    · subst hj
      rw [State.setSock_self, Function.update_self]
      by_cases hu : u = x.bucket
      · subst hu
        rw [Function.update_self]
        exact iff_of_true (List.mem_append_right _ (List.mem_singleton_self _)) ⟨k, x, rfl, rfl, rfl, hphase⟩
      · rw [Function.update_of_ne hu]
        refine iff_of_false (hfresh u) ?_
        rintro ⟨k', x', -, hx', rfl, -⟩
        obtain rfl := Option.some.inj hx'
        exact hu rfl
    · rw [State.setSock_of_ne s.app hj, Function.update_of_ne hj, ← h.bucket u j]
      by_cases hu : u = x.bucket
      · subst hu
        rw [Function.update_self, List.mem_append, List.mem_singleton, or_iff_left hj]
      · rw [Function.update_of_ne hu]

/-- A step of the app, other than a websocket request. -/
theorem upgradeInv_app (h : UpgradeInv s) {a : Action} {app : State}
    (hne : ∀ target isUpgrade errno, a ≠ .request target isUpgrade errno) (ha : s.app.Outcome strerror app a) :
    UpgradeInv { s with app := app } := by
  by_cases hremove : ∃ i, a = .remove i
  · obtain ⟨i, rfl⟩ := hremove
    obtain ⟨k, hk, hp, rfl⟩ := ha
    split_ifs with hm
    · exact upgradeInv_removed h hk hm
    · exact h.congr (h.core.congr ⟨rfl, rfl, rfl, rfl, le_rfl, rfl⟩) rfl rfl fun _ => rfl
  · have hremove : ∀ i, a ≠ .remove i := fun i hi => hremove ⟨i, hi⟩
    obtain ⟨hb, hn⟩ := buckets_outcome h.core ha hne hremove
    exact h.congr (poolEvents_outcome h.core ha) hb hn (identity_outcome h.core ha hne hremove)

theorem upgradeInv_outcome (h : UpgradeInv s) {a : UpgradeAction} (ha : UpgradeOutcome strerror s t a) :
    UpgradeInv t := by
  have hget : ∀ cell errno, UpgradeInv { s with app := (s.app.poolGet strerror cell errno).2 } := by
    intro cell errno
    exact h.congr ⟨poolOk_get h.core.pool cell errno, eventsOk_poolGet h.core.pool h.core.events strerror cell errno⟩
      rfl rfl fun _ => rfl
  have hset : ∀ {s : UpgradeState} {r : ℕ} {q : Upgrading} {next : ℕ}, UpgradeInv s →
      (websocketUser q.target = some q.cell ∧ ∀ c, q.copy = some c → c.user = nameOf q.cell c.connected) →
      UpgradeInv { s with requests := Function.update s.requests r (some q), nextRequest := next } := by
    intro s r q next h hq
    refine ⟨h.core, h.added, h.lt, h.bucket, fun r' q' hq' => ?_⟩
    replace hq' : Function.update s.requests r (some q) r' = some q' := hq'
    by_cases hr : r' = r
    · subst hr
      rw [Function.update_self] at hq'
      obtain rfl := Option.some.inj hq'
      exact hq
    · rw [Function.update_of_ne hr] at hq'
      exact h.requests r' q' hq'
  cases ha with
  | app a app hne hst ht =>
    rw [ht]
    exact upgradeInv_app h hne (State.step_outcome hst).2
  | refused target isUpgrade errno cell e hcell hget' ht =>
    rw [ht]
    exact hget cell errno
  | connected target isUpgrade errno cell c hcell hget' ht =>
    rw [ht]
    exact hset (hget cell errno) ⟨hcell, nofun⟩
  | copied r q hq hc ht =>
    rw [ht]
    refine hset h ⟨(h.requests r q hq).1, fun c hc => ?_⟩
    obtain rfl := Option.some.inj hc
    exact entry_user_eq h.core.pool q.cell
  | added r q c hq hc ht =>
    rw [ht]
    obtain ⟨htarget, hcopy⟩ := h.requests r q hq
    refine upgradeInv_addSockTo h (x := ⟨(s.app.entry q.cell).user, c.connected, s.app.connected q.cell⟩) htarget
      (hcopy c hc) (entry_user_eq h.core.pool q.cell) ?_ fun r' q' hq' => (update_none_eq_some.mp hq').2
    cases q.isUpgrade with
    | true => rfl
    | false => rfl

end

theorem upgradeInvariant (strerror : ℤ → String) : (upgradeMachine strerror).Invariant UpgradeInv where
  init := upgradeInv_init
  step _ _ _ h hst := upgradeInv_outcome h (upgrade_outcome hst).2

end Webvirtd.App
