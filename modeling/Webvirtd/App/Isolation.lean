import Mathlib.Data.List.Nodup
import Webvirtd.App.Frames

/-!
# App.Isolation — whose events reach whose websockets

Everything that is written to a websocket comes from an event of a connection that was opened for the
user in its target (`WritesOk`), and an event of a target type is written once to each websocket in
the bucket of that user.
-/

namespace Webvirtd.App

open Lib Virt Http

/-- Each write went to a websocket of the user whose connection caused it. -/
def WritesOk (s : State) : Prop :=
  ∀ w ∈ s.writes, ∃ k, s.socks w.sock = some k ∧ w.source ∈ s.pool.handles k.cell

section

variable {strerror : ℤ → String} {s t : State}

/-- A handle of a user was opened with the URI of that user. -/
theorem opening_of_mem_handles (h : PoolInv s.pool) {u : User} {hd : Handle}
    (hm : hd ∈ s.pool.handles u) :
    ∃ o ∈ s.pool.opens u, o.result = .handle hd ∧ o.uri = uri u := by
  unfold PoolState.handles at hm
  obtain ⟨o, ho, hr⟩ := List.mem_filterMap.mp hm
  refine ⟨o, ho, ?_, h.uri u o ho⟩
  cases hres : o.result with
  | handle h' =>
    rw [hres] at hr
    rw [Option.some.inj hr]
  | null errno =>
    rw [hres] at hr
    cases hr

theorem mem_handles_of_opening {u : User} {hd : Handle} {o : Opening} (ho : o ∈ s.pool.opens u)
    (hr : o.result = .handle hd) : hd ∈ s.pool.handles u :=
  List.mem_filterMap.mpr ⟨o, ho, by rw [hr]; rfl⟩

/-- An open handle of a user is the one that its entry holds. -/
theorem conn_of_handleOpen (h : PoolOk s) {u : User} {hd : Handle}
    (ho : s.handleOpen u hd = true) : (s.entry u).conn = some hd := by
  unfold State.handleOpen at ho
  obtain ⟨o, hm, hres⟩ := List.any_eq_true.mp ho
  simp only [Bool.and_eq_true, decide_eq_true_eq, Bool.not_eq_true'] at hres
  obtain ⟨hres, hopen⟩ := hres
  have he := h.inv.entry u
  have hstale := h.inv.stale u
  unfold State.entry
  rw [he]
  cases hos : s.pool.opens u with
  | nil =>
    rw [hos] at hm
    cases hm
  | cons o' os =>
    rw [hos] at hm hstale
    rcases List.mem_cons.mp hm with rfl | hm
    · obtain ⟨ur, res, cl⟩ := o
      simp only at hres
      subst hres
      rfl
    · -- a handle that was replaced was closed before
      rw [hstale o hm hd hres] at hopen
      cases hopen

/-- The callback that an event of an open connection is delivered to belongs to a live object of the
user of that connection. -/
theorem callback_of_handleOpen (h : CoreInv s) {u : User} {hd : Handle}
    (ho : s.handleOpen u hd = true) {r : Registration} (hr : r ∈ s.regs) (hh : r.handle = hd) :
    ∃ ev, s.objs r.opaquePtr = some ev ∧ ev.user = u := by
  have hconn := conn_of_handleOpen h.pool ho
  rw [← hh] at hconn
  obtain ⟨ev, hev, hreg, -⟩ := (h.events.regs r hr).2 u hconn
  refine ⟨ev, hev, ?_⟩
  have hmem := (h.events.registered _ ev hev).1
  rw [hreg] at hmem
  rw [(h.events.objs _ ev hev).2.2.1]
  exact (entry_inj h.pool hconn hmem).symm

/-- What the delivery of an event of `u`'s connection does, on a reachable state: no callback dangles,
and a broadcast goes to the bucket of `u`. -/
theorem event_of_handleOpen (h : CoreInv s) {u : User} {hd : Handle} {id : ℤ} {type : EventType}
    {domain : Option Json} (ho : s.handleOpen u hd = true)
    (he : s.event hd id type domain = some t) :
    (type.isTarget = true ∧ domain = none ∧ t = s.terminate) ∨
      (type.isTarget = true ∧ ∃ data, domain = some data ∧ t = s.broadcast hd u data) ∨
      type.isTarget = false ∧ t = s := by
  rcases State.event_cases he with ⟨r, hr, hh, -, hdead, -⟩ |
    ⟨r, ev, hr, hh, -, hev, htype, hdomain, ht⟩ |
    ⟨r, ev, data, hr, hh, -, hev, htype, hdomain, ht⟩ | ⟨r, ev, hr, hh, -, hev, htype, ht⟩
  · obtain ⟨ev, hev, -⟩ := callback_of_handleOpen h ho hr hh
    rw [hdead] at hev
    cases hev
  · exact .inl ⟨htype, hdomain, ht⟩
  · obtain ⟨ev', hev', hu⟩ := callback_of_handleOpen h ho hr hh
    rw [hev] at hev'
    obtain rfl := Option.some.inj hev'
    exact .inr (.inl ⟨htype, data, hdomain, hu ▸ ht⟩)
  · exact .inr (.inr ⟨htype, ht⟩)

/-- Only a broadcast writes. -/
theorem writes_outcome (h : CoreInv s) {a : Action} (ha : s.Outcome strerror t a) :
    t.writes = s.writes ∨ ∃ user hd id type data, a = .event user hd id type (some data) ∧
      s.handleOpen user hd = true ∧ type.isTarget = true ∧ t = s.broadcast hd user data := by
  cases effect_outcome h ha with
  | get _ _ _ _ _ hwrites => exact .inl hwrites
  | close _ _ _ _ _ hwrites => exact .inl hwrites
  | addEvents _ _ _ _ hwrites => exact .inl hwrites
  | removeEvents _ _ _ hwrites => exact .inl hwrites
  | event user hd id type domain ha ho he =>
    rcases event_of_handleOpen h ho he with ⟨-, -, rfl⟩ | ⟨htype, data, rfl, ht⟩ | ⟨-, rfl⟩
    · exact .inl rfl
    · exact .inr ⟨user, hd, id, type, data, ha, ho, htype, ht⟩
    · exact .inl rfl
  | socks _ _ hwrites => exact .inl hwrites

/-- The writes of a broadcast: of its data, to the websockets of the bucket. -/
theorem mem_broadcast_writes (h : SocksOk s) {source : Handle} {user : User} {data : Json} {w : Write}
    (hw : w ∈ (s.buckets user).reverse.flatMap fun i => s.writeOf source data i) :
    w.source = source ∧ w.data = data ∧ ∃ k, s.socks w.sock = some k ∧ k.user = user := by
  obtain ⟨i, hi, hw⟩ := List.mem_flatMap.mp hw
  obtain ⟨k, hk, hu, -⟩ := (h.bucket user i).mp (List.mem_reverse.mp hi)
  unfold State.writeOf at hw
  rw [hk] at hw
  obtain rfl := List.mem_singleton.mp hw
  exact ⟨rfl, rfl, k, hk, hu⟩

/-- One write for each websocket of the bucket, none for the others. -/
theorem count_broadcast_writes (h : SocksOk s) (source : Handle) (user : User) (data : Json)
    (i : SockId) :
    (((s.buckets user).reverse.flatMap fun i => s.writeOf source data i).filter
      fun w => w.sock = i).length = if i ∈ s.buckets user then 1 else 0 := by
  have hone : ∀ j ∈ s.buckets user,
      ((s.writeOf source data j).filter fun w => w.sock = i).length = if j = i then 1 else 0 := by
    intro j hj
    obtain ⟨k, hk, -⟩ := (h.bucket user j).mp hj
    unfold State.writeOf
    rw [hk]
    split_ifs with hji
    · simp [hji]
    · simp [hji]
  have hsum : ∀ l : List SockId, l.Nodup → (∀ j ∈ l, j ∈ s.buckets user) →
      ((l.flatMap fun i => s.writeOf source data i).filter fun w => w.sock = i).length =
        if i ∈ l then 1 else 0 := by
    intro l hl hsub
    induction l with
    | nil => rfl
    | cons j l ih =>
      obtain ⟨hj, hl⟩ := List.nodup_cons.mp hl
      rw [List.flatMap_cons, List.filter_append, List.length_append,
        hone j (hsub j List.mem_cons_self), ih hl fun j' hj' => hsub j' (List.mem_cons_of_mem _ hj')]
      by_cases hji : j = i
      · subst hji
        simp [hj]
      · simp [hji, Ne.symm hji]
  rw [hsum _ (List.nodup_reverse.mpr (h.nodup user)) fun j hj => List.mem_reverse.mp hj]
  simp

theorem writesOk_outcome (h : AppInv s) (hw : WritesOk s) {a : Action}
    (ha : s.Outcome strerror t a) : WritesOk t := by
  have hold : ∀ w ∈ s.writes, ∃ k, t.socks w.sock = some k ∧ w.source ∈ t.pool.handles k.cell := by
    intro w hm
    obtain ⟨k, hk, hsrc⟩ := hw w hm
    obtain ⟨k', hk', -, hcell, -⟩ := same_outcome h.core ha hk
    exact ⟨k', hk', hcell ▸ handles_outcome h.core ha hsrc⟩
  intro w hm
  rcases writes_outcome h.core ha with hsame | ⟨user, hd, id, type, data, rfl, ho, -, ht⟩
  · exact hold w (hsame ▸ hm)
  · rw [ht, State.broadcast_spec s hd data user (h.socks.nodup _)] at hm
    rcases List.mem_append.mp hm with hm | hm
    · obtain ⟨hsrc, -, k, hk, hu⟩ := mem_broadcast_writes h.socks hm
      obtain ⟨k', hk', -, hcell, -⟩ := same_outcome h.core ha hk
      refine ⟨k', hk', handles_outcome h.core ha ?_⟩
      rw [hsrc, hcell, ← (h.socks.user _ k hk).1, hu]
      exact entry_mem h.pool (conn_of_handleOpen h.pool ho)
    · exact hold w hm

end

theorem writesInvariant (strerror : ℤ → String) :
    (appMachine strerror).Invariant fun s => AppInv s ∧ WritesOk s :=
  (appInvariant strerror).and (fun _ hm => absurd hm List.not_mem_nil)
    fun _ _ _ h hw hst _ => writesOk_outcome h hw (State.step_outcome hst).2

/-- **Isolation.**  In every state that a run of the app leads to, what was written to a websocket came
from a connection opened for the user in its target.  The next event, of the open connection of `user`,
is written once to each websocket in the bucket of `user` and to no other if it is of a target type and
`simple_domain` succeeds, and to none if it is of another type. -/
theorem event_isolation (strerror : ℤ → String) (as : List Action) (s : State)
    (hs : (appMachine strerror).exec {} as = some s) :
    (∀ w ∈ s.writes, ∃ k user, s.socks w.sock = some k ∧ websocketUser k.target = some user ∧
      (∃ o ∈ s.pool.opens user, o.result = .handle w.source ∧ o.uri = uri user) ∧
      ∀ v, ∀ o ∈ s.pool.opens v, o.result = .handle w.source → v = user) ∧
    ∀ user h id type domain t,
      (appMachine strerror).step s (.event user h id type domain) = some t →
      (type.isTarget = false → t.writes = s.writes) ∧
      ∀ data, type.isTarget = true → domain = some data →
        ∃ new, t.writes = new ++ s.writes ∧
          (∀ w ∈ new, w.source = h ∧ w.data = data) ∧
          ∀ i, (new.filter fun w => w.sock = i).length = if i ∈ s.buckets user then 1 else 0 := by
  obtain ⟨h, hw⟩ := (writesInvariant strerror).exec (writesInvariant strerror).init hs
  refine ⟨fun w hm => ?_, fun user hd id type domain t hst => ?_⟩
  · obtain ⟨k, hk, hsrc⟩ := hw w hm
    refine ⟨k, k.cell, hk, (h.socks.user _ k hk).2, opening_of_mem_handles h.pool.inv hsrc, ?_⟩
    exact fun v o ho hr => h.pool.apart.apart v k.cell _ (mem_handles_of_opening ho hr) hsrc
  · obtain ⟨ho, he⟩ := (State.step_outcome hst).2
    rcases event_of_handleOpen h.core ho he with ⟨htype, hnone, -⟩ | ⟨htype, data, hdomain, ht⟩ |
      ⟨htype, ht⟩
    · refine ⟨fun hf => ?_, fun data _ hsome => ?_⟩
      · rw [htype] at hf
        cases hf
      · rw [hnone] at hsome
        cases hsome
    · refine ⟨fun hf => ?_, fun data' _ hsome => ?_⟩
      · rw [htype] at hf
        cases hf
      · rw [hdomain] at hsome
        obtain rfl := Option.some.inj hsome
        refine ⟨_, ?_, fun w hm => ?_, count_broadcast_writes h.socks hd user data⟩
        · rw [ht, State.broadcast_spec s hd data user (h.socks.nodup _)]
        · obtain ⟨hsrc, hdata, -⟩ := mem_broadcast_writes h.socks hm
          exact ⟨hsrc, hdata⟩
    · refine ⟨fun _ => by rw [ht], fun data htrue _ => ?_⟩
      rw [htype] at htrue
      cases htrue

/-- One websocket of `ann`, whose domain starts. -/
theorem event_isolation_started :
    ∃ s t, (appMachine fun _ => "").exec {}
        [.request "/users/ann/websocket/" true none, .asyncRun 0, .accept 0 true, .find 0,
          .addEvents 0 7] = some s ∧
      (appMachine fun _ => "").step s (.event "ann" 0 7 .started (some .null)) = some t ∧
      ∃ new, t.writes = new ++ s.writes ∧ (∀ w ∈ new, w.source = 0 ∧ w.data = .null) ∧
        ∀ i, (new.filter fun w => w.sock = i).length = if i ∈ s.buckets "ann" then 1 else 0 := by
  refine ⟨_, _, rfl, rfl, ?_⟩
  exact ((event_isolation (fun _ => "")
    [.request "/users/ann/websocket/" true none, .asyncRun 0, .accept 0 true, .find 0,
      .addEvents 0 7] _ rfl).2 "ann" 0 7 .started (some .null) _ rfl).2 .null rfl rfl

end Webvirtd.App
