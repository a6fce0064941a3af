import Webvirtd.App.Steps

/-!
# App.Invariants — what holds in every state of the app

* `PoolOk`: the pool's own invariant, and handles are numbered in the order in which they are opened.
* `SocksOk`: the name that a websocket's handlers captured is the pool key and the capture of its
  target, and a bucket holds each websocket of its user once, until its close handler removes it.
* `EventsOk`: `events_` and the live event objects point to each other, live objects are registered,
  and a callback on the handle that an entry holds points to a live object.

None of them assumes anything about the order of closes, reconnects and handlers.  `CoreInv` is what does not rest
on how the websockets came into their buckets.
-/

namespace Webvirtd.App

open Lib Virt Http

/-- The close handler of the websocket has not yet removed it from its bucket. -/
def Phase.inBucket : Phase → Bool
  | .removed => false
  | .last => false
  | .closed => false
  | _ => true

structure PoolOk (s : State) : Prop where
  inv : PoolInv s.pool
  apart : HandlesApart s.pool
  lt : ∀ u h, h ∈ s.pool.handles u → h < s.nextHandle

structure SocksOk (s : State) : Prop where
  lt : ∀ i k, s.socks i = some k → i < s.nextSock
  user : ∀ i k, s.socks i = some k → k.user = k.cell ∧ websocketUser k.target = some k.cell
  nodup : ∀ u, (s.buckets u).Nodup
  bucket : ∀ u i, i ∈ s.buckets u ↔
    ∃ k, s.socks i = some k ∧ k.user = u ∧ k.phase.inBucket = true

structure EventsOk (s : State) : Prop where
  events : ∀ u m, s.events u = some m →
    ∃ o ev, m = [(eventIdLifecycle, o)] ∧ s.objs o = some ev ∧ ev.cell = u
  objs : ∀ o ev, s.objs o = some ev →
    o < s.nextObj ∧ s.events ev.cell = some [(eventIdLifecycle, o)] ∧ ev.user = ev.cell ∧
      ev.cell ≠ "" ∧ ev.callbackId ≠ -1
  registered : ∀ o ev, s.objs o = some ev →
    ev.registered ∈ s.pool.handles ev.cell ∧ ⟨ev.registered, ev.callbackId, o⟩ ∈ s.regs
  regs : ∀ r ∈ s.regs, r.handle < s.nextHandle ∧ ∀ u, (s.entry u).conn = some r.handle →
    ∃ ev, s.objs r.opaquePtr = some ev ∧ ev.registered = r.handle ∧ ev.callbackId = r.id

structure AppInv (s : State) : Prop where
  pool : PoolOk s
  socks : SocksOk s
  events : EventsOk s

structure CoreInv (s : State) : Prop where
  pool : PoolOk s
  events : EventsOk s
  sock : ∀ i k, s.socks i = some k → i < s.nextSock ∧ websocketUser k.target = some k.cell
  nodup : ∀ u, (s.buckets u).Nodup

theorem AppInv.core {s : State} (h : AppInv s) : CoreInv s where
  pool := h.pool
  events := h.events
  sock i k hk := ⟨h.socks.lt i k hk, (h.socks.user i k hk).2⟩
  nodup := h.socks.nodup

theorem update_none_eq_some {α β : Type} [DecidableEq α] {f : α → Option β} {i j : α} {b : β} :
    Function.update f i none j = some b ↔ j ≠ i ∧ f j = some b := by
  by_cases hj : j = i
  · subst hj
    simp
  · simp [hj]

/-- The next object does not exist yet. -/
theorem EventsOk.objs_nextObj {s : State} (h : EventsOk s) : s.objs s.nextObj = none := by
  cases hn : s.objs s.nextObj with
  | none => rfl
  | some ev => exact absurd (h.objs _ ev hn).1 (lt_irrefl _)

/-! ## The pool -/

section

variable {strerror : ℤ → String} {s t : State}

/-- An entry holds a handle of its user, or is as good as new. -/
theorem entry_cases (h : PoolOk s) (u : User) :
    (∃ hd, (s.entry u).conn = some hd ∧ (s.entry u).user = u ∧
      (s.pool.handles u).head? = some hd) ∨
    (s.entry u).conn = none ∧ (s.entry u).user = "" := by
  have he : s.entry u = (entryOf u (s.pool.opens u)).getD {} := by
    unfold State.entry
    rw [h.inv.entry u]
  rw [he]
  unfold PoolState.handles
  rcases s.pool.opens u with _ | ⟨⟨ur, hd | errno, cl⟩, os⟩
  · exact .inr ⟨rfl, rfl⟩
  · exact .inl ⟨hd, rfl, rfl, rfl⟩
  · exact .inr ⟨rfl, rfl⟩

theorem entry_user (h : PoolOk s) {u : User} {hd : Handle} (hc : (s.entry u).conn = some hd) :
    (s.entry u).user = u := by
  rcases entry_cases h u with ⟨-, -, hu, -⟩ | ⟨hnone, -⟩
  · exact hu
  · rw [hc] at hnone
    cases hnone

theorem entry_head (h : PoolOk s) {u : User} {hd : Handle} (hc : (s.entry u).conn = some hd) :
    (s.pool.handles u).head? = some hd := by
  rcases entry_cases h u with ⟨hd', hc', -, hh⟩ | ⟨hnone, -⟩
  · rw [hc] at hc'
    rw [hh, hc']
  · rw [hc] at hnone
    cases hnone

theorem entry_mem (h : PoolOk s) {u : User} {hd : Handle} (hc : (s.entry u).conn = some hd) :
    hd ∈ s.pool.handles u := List.mem_of_head? (entry_head h hc)

/-- Entries of distinct users hold distinct handles. -/
theorem entry_inj (h : PoolOk s) {u v : User} {hd : Handle} (hu : (s.entry u).conn = some hd)
    (hv : hd ∈ s.pool.handles v) : u = v := h.apart.apart u v hd (entry_mem h hu) hv

theorem PoolOk.congr (h : PoolOk s) (hp : t.pool = s.pool) (hn : t.nextHandle = s.nextHandle) :
    PoolOk t := by
  refine ⟨hp ▸ h.inv, hp ▸ h.apart, fun u hd hm => ?_⟩
  rw [hn]
  exact h.lt u hd (hp ▸ hm)

theorem fresh_openResult (h : PoolOk s) (user : User) (errno : Option ℤ) :
    Fresh s.pool (.get user (s.openResult errno)) := by
  cases errno with
  | some e => trivial
  | none =>
    intro _ v hm
    exact absurd (h.lt v _ hm) (lt_irrefl _)

/-- Handles only get more, and a new one is the next number. -/
theorem poolGet_handles (h : PoolOk s) (user : User) (errno : Option ℤ) (v : User) {hd : Handle} :
    hd ∈ (s.poolGet strerror user errno).2.pool.handles v →
      hd ∈ s.pool.handles v ∨ hd = s.nextHandle := by
  intro hm
  rw [State.poolGet_snd, get_handles h.inv] at hm
  split_ifs at hm with hv
  · rcases List.mem_append.mp hm with hm | hm
    · cases errno with
      | some e => cases hm
      | none => exact .inr (List.mem_singleton.mp hm)
    · exact .inl hm
  · exact .inl hm

theorem mem_poolGet_handles (h : PoolOk s) (user : User) (errno : Option ℤ) (v : User) {hd : Handle}
    (hm : hd ∈ s.pool.handles v) : hd ∈ (s.poolGet strerror user errno).2.pool.handles v := by
  rw [State.poolGet_snd, get_handles h.inv]
  split_ifs
  · exact List.mem_append_right _ hm
  · exact hm

theorem poolOk_get (h : PoolOk s) (user : User) (errno : Option ℤ) :
    PoolOk (s.poolGet strerror user errno).2 where
  inv := poolInv_get h.inv user _
  apart := handlesApart_get h.inv h.apart (fresh_openResult h user errno)
  lt u hd hm := by
    rcases poolGet_handles h user errno u hm with hm | rfl
    · exact Nat.lt_succ_of_lt (h.lt u hd hm)
    · exact Nat.lt_succ_self _

theorem poolOk_close (h : PoolOk s) {user : User} {n : ℕ} {pool : PoolState}
    (hp : s.pool.close user n = some pool) : PoolOk { s with pool := pool } where
  inv := poolInv_close h.inv hp
  apart := handlesApart_close h.inv h.apart hp
  lt u hd hm := h.lt u hd (by rwa [close_handles h.inv hp] at hm)

/-- A handle that an entry holds after a `get` was held before, or is new. -/
theorem poolGet_conn (h : PoolOk s) (user : User) (errno : Option ℤ) {u : User} {hd : Handle}
    (hc : ((s.poolGet strerror user errno).2.entry u).conn = some hd) :
    (s.entry u).conn = some hd ∨ hd = s.nextHandle := by
  by_cases hu : u = user
  · subst hu
    cases hn : NeedsOpen (s.pool.opens u) with
    | false =>
      obtain ⟨hd', rest, -, hg⟩ := get_of_open strerror h.inv hn (s.openResult errno)
      left
      unfold State.entry at hc ⊢
      rwa [State.poolGet_snd, hg] at hc
    | true =>
      unfold State.entry at hc
      rw [State.poolGet_snd, get_of_needsOpen h.inv hn, reconnect_connections,
        Function.update_self] at hc
      cases errno with
      | some e => cases hc
      | none => exact .inr (Option.some.inj hc).symm
  · left
    unfold State.entry at hc ⊢
    rwa [State.poolGet_snd, get_connections_other s.pool hu] at hc

/-- A close callback leaves the handle in its entry. -/
theorem close_conn (h : PoolOk s) {user : User} {n : ℕ} {pool : PoolState}
    (hp : s.pool.close user n = some pool) (u : User) :
    (State.entry { s with pool := pool } u).conn = (s.entry u).conn := by
  obtain ⟨hd, rest, ho, rfl⟩ := close_cases h.inv hp
  by_cases hu : u = user
  · subst hu
    simp [State.entry, h.inv.entry u, ho, entryOf]
  · simp [State.entry, hu]

/-- A `get` that returns found or made an entry whose user is the key. -/
theorem poolGet_user (h : PoolOk s) {user : User} {errno : Option ℤ} {c : Connection}
    (hg : (s.poolGet strerror user errno).1 = .ok c) : c.user = user := by
  obtain ⟨hd, rest, -, rfl⟩ := get_ok h.inv hg
  rfl

end

/-! ## The websockets -/

section

variable {s t : State}

theorem SocksOk.congr (h : SocksOk s) (hs : t.socks = s.socks) (hb : t.buckets = s.buckets)
    (hn : t.nextSock = s.nextSock) : SocksOk t := by
  refine ⟨fun i k hk => ?_, fun i k hk => ?_, fun u => ?_, fun u i => ?_⟩
  · rw [hn]
    exact h.lt i k (hs ▸ hk)
  · exact h.user i k (hs ▸ hk)
  · rw [hb]
    exact h.nodup u
  · rw [hb, hs]
    exact h.bucket u i

/-- A handler goes on: the websocket stays who it is, and in its bucket if it was there. -/
theorem socksOk_setSock (h : SocksOk s) {i : SockId} {k k' : Sock} (hk : s.socks i = some k)
    (htarget : k'.target = k.target) (hcell : k'.cell = k.cell) (huser : k'.user = k.user)
    (hphase : k'.phase.inBucket = k.phase.inBucket) : SocksOk (s.setSock i k') where
  lt j k'' hj := by
    by_cases hji : j = i
    · subst hji
      exact h.lt j k hk
    · rw [State.setSock_of_ne s hji] at hj
      exact h.lt j k'' hj
  user j k'' hj := by
    by_cases hji : j = i
    · subst hji
      rw [State.setSock_self] at hj
      obtain rfl := Option.some.inj hj
      rw [htarget, hcell, huser]
      exact h.user j k hk
    · rw [State.setSock_of_ne s hji] at hj
      exact h.user j k'' hj
  nodup := h.nodup
  bucket u j := by
    show j ∈ s.buckets u ↔ _
    rw [h.bucket u j]
    by_cases hji : j = i
    · subst hji
      simp [hk, huser, hphase]
    · rw [State.setSock_of_ne s hji]

theorem socksOk_addSock (h : SocksOk s) {k : Sock} (huser : k.user = k.cell)
    (htarget : websocketUser k.target = some k.cell) (hphase : k.phase.inBucket = true) :
    SocksOk (s.addSock k) := by
  have hnew : s.socks s.nextSock = none := by
    cases hk : s.socks s.nextSock with
    | none => rfl
    | some k => exact absurd (h.lt _ k hk) (lt_irrefl _)
  have hfresh : ∀ u, s.nextSock ∉ s.buckets u := by
    intro u hm
    obtain ⟨k, hk, -⟩ := (h.bucket u _).mp hm
    rw [hnew] at hk
    cases hk
  refine ⟨fun i k' hk' => ?_, fun i k' hk' => ?_, fun u => ?_, fun u i => ?_⟩
  · by_cases hi : i = s.nextSock
    · rw [hi]
      exact Nat.lt_succ_self _
    · simp only [State.addSock, State.setSock, Function.update_of_ne hi] at hk'
      exact Nat.lt_succ_of_lt (h.lt i k' hk')
  · by_cases hi : i = s.nextSock
    · simp only [State.addSock, State.setSock, hi, Function.update_self] at hk'
      obtain rfl := Option.some.inj hk'
      exact ⟨huser, htarget⟩
    · simp only [State.addSock, State.setSock, Function.update_of_ne hi] at hk'
      exact h.user i k' hk'
  · by_cases hu : u = k.user
    · subst hu
      simp only [State.addSock, Function.update_self]
      refine List.nodup_append.mpr ⟨h.nodup _, List.pairwise_singleton _ _, ?_⟩
      intro a ha b hb hab
      rw [List.mem_singleton.mp hb] at hab
      exact hfresh _ (hab ▸ ha)
    · simp only [State.addSock, Function.update_of_ne hu]
      exact h.nodup u
  · by_cases hi : i = s.nextSock
    · subst hi
      by_cases hu : u = k.user
      · subst hu
        simp [State.addSock, State.setSock, hphase]
      · simp [State.addSock, State.setSock, hu, Ne.symm hu, hfresh u]
    · by_cases hu : u = k.user
      · subst hu
        simp [State.addSock, State.setSock, hi, h.bucket]
      · simp [State.addSock, State.setSock, hi, hu, h.bucket]

/-- The close handler removes the websocket from its bucket. -/
theorem socksOk_remove (h : SocksOk s) {i : SockId} {k : Sock} (hk : s.socks i = some k) :
    SocksOk { s.setSock i { k with phase := .removed } with
      buckets := Function.update s.buckets k.user ((s.buckets k.user).erase i) } := by
  refine ⟨fun j k' hj => ?_, fun j k' hj => ?_, fun u => ?_, fun u j => ?_⟩
  · by_cases hji : j = i
    · subst hji
      exact h.lt j k hk
    · simp only [State.setSock, Function.update_of_ne hji] at hj
      exact h.lt j k' hj
  · by_cases hji : j = i
    · simp only [State.setSock, hji, Function.update_self] at hj
      obtain rfl := Option.some.inj hj
      exact h.user i k hk
    · simp only [State.setSock, Function.update_of_ne hji] at hj
      exact h.user j k' hj
  · by_cases hu : u = k.user
    · subst hu
      simp only [Function.update_self]
      exact (h.nodup _).erase i
    · simp only [Function.update_of_ne hu]
      exact h.nodup u
  · by_cases hu : u = k.user
    · subst hu
      simp only [Function.update_self, (h.nodup _).mem_erase_iff]
      by_cases hji : j = i
      · subst hji
        simp [State.setSock, Phase.inBucket]
      · simp [State.setSock, hji, h.bucket]
    · simp only [Function.update_of_ne hu, h.bucket]
      by_cases hji : j = i
      · subst hji
        simp [State.setSock, hk, Ne.symm hu]
      · simp [State.setSock, hji]

/-- Started writes change nothing that `SocksOk` speaks about. -/
theorem socksOk_broadcast (h : SocksOk s) (source : Handle) (user : User) (data : Json) :
    SocksOk (s.broadcast source user data) := by
  rw [State.broadcast_spec s source data user (h.nodup user)]
  have hsome : ∀ i k', (if i ∈ s.buckets user then (s.socks i).map State.startWrite else s.socks i) =
      some k' → ∃ k, s.socks i = some k ∧ k'.target = k.target ∧ k'.cell = k.cell ∧
        k'.user = k.user ∧ k'.phase = k.phase := by
    intro i k' hk'
    split_ifs at hk'
    · obtain ⟨k, hk, rfl⟩ := Option.map_eq_some_iff.mp hk'
      exact ⟨k, hk, rfl, rfl, rfl, rfl⟩
    · exact ⟨k', hk', rfl, rfl, rfl, rfl⟩
  refine ⟨fun i k' hk' => ?_, fun i k' hk' => ?_, h.nodup, fun u i => ?_⟩
  · obtain ⟨k, hk, -⟩ := hsome i k' hk'
    exact h.lt i k hk
  · obtain ⟨k, hk, ht, hc, hu, -⟩ := hsome i k' hk'
    rw [ht, hc, hu]
    exact h.user i k hk
  · rw [h.bucket u i]
    constructor
    · rintro ⟨k, hk, hu, hp⟩
      by_cases hi : i ∈ s.buckets user
      · exact ⟨State.startWrite k, by simp [hi, hk], hu, hp⟩
      · exact ⟨k, by simp [hi, hk], hu, hp⟩
    · rintro ⟨k', hk', hu, hp⟩
      obtain ⟨k, hk, -, -, hu', hp'⟩ := hsome i k' hk'
      exact ⟨k, hk, hu' ▸ hu, hp' ▸ hp⟩

end

/-! ## The events -/

section

variable {s t : State}

theorem EventsOk.congr (h : EventsOk s) (hp : t.pool = s.pool) (hh : t.nextHandle = s.nextHandle)
    (he : t.events = s.events) (ho : t.objs = s.objs) (hn : s.nextObj ≤ t.nextObj)
    (hr : t.regs = s.regs) : EventsOk t := by
  have hentry : ∀ u, t.entry u = s.entry u := fun u => by unfold State.entry; rw [hp]
  refine ⟨fun u m hm => ?_, fun o ev hev => ?_, fun o ev hev => ?_, fun r hm => ?_⟩
  · rw [he] at hm
    rw [ho]
    exact h.events u m hm
  · rw [ho] at hev
    obtain ⟨h1, h2⟩ := h.objs o ev hev
    rw [he]
    exact ⟨lt_of_lt_of_le h1 hn, h2⟩
  · rw [ho] at hev
    rw [hp, hr]
    exact h.registered o ev hev
  · rw [hr] at hm
    rw [hh, ho]
    refine ⟨(h.regs r hm).1, fun u hu => (h.regs r hm).2 u ?_⟩
    rwa [hentry] at hu

/-- Reconnects: a new handle has no callbacks yet. -/
theorem eventsOk_poolGet (hp : PoolOk s) (h : EventsOk s) (strerror : ℤ → String) (user : User)
    (errno : Option ℤ) : EventsOk (s.poolGet strerror user errno).2 := by
  refine ⟨h.events, h.objs, fun o ev hev => ?_, fun r hm => ?_⟩
  · obtain ⟨h1, h2⟩ := h.registered o ev hev
    exact ⟨mem_poolGet_handles hp user errno _ h1, h2⟩
  · obtain ⟨hlt, hlive⟩ := h.regs r hm
    refine ⟨Nat.lt_succ_of_lt hlt, fun u hu => ?_⟩
    rcases poolGet_conn hp user errno hu with hu | hnew
    · exact hlive u hu
    · exact absurd hlt (by rw [hnew]; exact lt_irrefl _)

theorem eventsOk_close (hp : PoolOk s) (h : EventsOk s) {user : User} {n : ℕ} {pool : PoolState}
    (hc : s.pool.close user n = some pool) : EventsOk { s with pool := pool } := by
  refine ⟨h.events, h.objs, fun o ev hev => ?_, fun r hm => ⟨(h.regs r hm).1, fun u hu => ?_⟩⟩
  · obtain ⟨h1, h2⟩ := h.registered o ev hev
    exact ⟨by rwa [close_handles hp.inv hc], h2⟩
  · rw [close_conn hp hc] at hu
    exact (h.regs r hm).2 u hu

/-- What `add_events` does: the registration fails and the app goes down; or it succeeds and the new
object is stored; or it succeeds and the object loses to the one that is stored. -/
inductive AddOutcome (s : State) (cell : User) (id : ℤ) (t : State) : Prop
  | failed (hid : id = -1) (ht : t = s.registrationFailed (s.entry cell).conn)
  | stored (h : Handle) (hid : 0 ≤ id) (hconn : (s.entry cell).conn = some h)
      (hfree : ∀ r ∈ s.regs, ¬ (r.handle = h ∧ r.id = id)) (hnone : s.events cell = none)
      (ht : t = { s.register cell cell h id with
        events := Function.update s.events cell (some [(eventIdLifecycle, s.nextObj)]) })
  | dropped (h : Handle) (o : ObjId) (hid : 0 ≤ id) (hconn : (s.entry cell).conn = some h)
      (hfree : ∀ r ∈ s.regs, ¬ (r.handle = h ∧ r.id = id))
      (hsome : s.events cell = some [(eventIdLifecycle, o)])
      (ht : t = { s with
        nextObj := s.nextObj + 1
        calls := .deregister s.nextObj (some h) id :: .register s.nextObj h id :: s.calls })

theorem add_cases (hp : PoolOk s) (h : EventsOk s) {cell : User} {id : ℤ}
    (ha : s.addEvents cell id = some t) : AddOutcome s cell id t := by
  unfold State.addEvents at ha
  by_cases hid : id = -1
  · rw [if_pos hid] at ha
    exact .failed hid (Option.some.inj ha).symm
  · rw [if_neg hid] at ha
    cases hc : (s.entry cell).conn with
    | none =>
      simp only [hc] at ha
      cases ha
    | some hd =>
      simp only [hc] at ha
      split_ifs at ha with hok
      have hfree := hok.2
      have huser : (s.entry cell).user = cell := entry_user hp hc
      rw [huser] at ha
      cases he : s.events cell with
      | none =>
        refine .stored hd hok.1 hc hfree he ?_
        rw [← Option.some.inj ha]
        simp [State.emplace, State.register, he]
      | some m =>
        obtain ⟨o, ev, rfl, -, -⟩ := h.events cell m he
        refine .dropped hd o hok.1 hc hfree he ?_
        have hobjs : Function.update s.objs s.nextObj none = s.objs := by
          rw [← h.objs_nextObj, Function.update_eq_self]
        have hevents : Function.update s.events cell (some [(eventIdLifecycle, o)]) = s.events := by
          rw [← he, Function.update_eq_self]
        have hregs : ∀ r ∈ s.regs, ¬ r.handle = hd ∨ ¬ r.id = id := fun r hr =>
          not_and_or.mp (hfree r hr)
        have hconn : ((s.pool.connections cell).getD {}).conn = some hd := hc
        rw [← Option.some.inj ha]
        simpa [State.emplace, State.register, State.destroy, State.entry, he, hobjs, hevents, hconn]
          using hregs

/-- What `remove_events` does: there is nothing to remove; or the object of the user is destroyed, which
deregisters on the handle that the entry holds now. -/
inductive RemoveOutcome (s : State) (cell : User) (t : State) : Prop
  | none (hnone : s.events (s.entry cell).user = none) (ht : t = s)
  | removed (o : ObjId) (ev : LifecycleEvent) (h : Handle) (hconn : (s.entry cell).conn = some h)
      (hsome : s.events cell = some [(eventIdLifecycle, o)]) (hev : s.objs o = some ev)
      (hcell : ev.cell = cell)
      (ht : t = { s with
        objs := Function.update s.objs o .none
        regs := s.regs.filter fun r => !(r.handle == h && r.id == ev.callbackId)
        calls := .deregister o (some h) ev.callbackId :: s.calls
        events := Function.update s.events cell .none })

theorem remove_cases (hp : PoolOk s) (h : EventsOk s) (cell : User) :
    RemoveOutcome s cell (s.removeEvents cell) := by
  cases he : s.events (s.entry cell).user with
  | none => exact .none he (by simp [State.removeEvents, he])
  | some m =>
    obtain ⟨o, ev, rfl, hev, hcell⟩ := h.events _ m he
    rcases entry_cases hp cell with ⟨hd, hc, hu, -⟩ | ⟨-, hu⟩
    · rw [hu] at he hcell
      refine .removed o ev hd hc he hev hcell ?_
      have hconn : ((s.pool.connections cell).getD {}).conn = some hd := hc
      have huser : ((s.pool.connections cell).getD {}).user = cell := hu
      simp [State.removeEvents, State.destroy, State.entry, huser, he, hev, hcell, hconn]
    · -- the events of a default constructed entry
      have hne := (h.objs o ev hev).2.2.2.1
      rw [hcell, hu] at hne
      exact absurd rfl hne

theorem eventsOk_register (hp : PoolOk s) (h : EventsOk s) {cell : User} (hcell : cell ≠ "") {id : ℤ}
    {hd : Handle} (hid : 0 ≤ id) (hconn : (s.entry cell).conn = some hd)
    (hnone : s.events cell = none) :
    EventsOk { s.register cell cell hd id with
      events := Function.update s.events cell (some [(eventIdLifecycle, s.nextObj)]) } := by
  have hlive : ∀ o ev, s.objs o = some ev → o ≠ s.nextObj := by
    rintro o ev hev rfl
    rw [h.objs_nextObj] at hev
    cases hev
  have hother : ∀ o ev, s.objs o = some ev → ev.cell ≠ cell := by
    rintro o ev hev rfl
    rw [(h.objs o ev hev).2.1] at hnone
    cases hnone
  refine ⟨fun u m hm => ?_, fun o ev hev => ?_, fun o ev hev => ?_, fun r hr => ?_⟩
  · by_cases hu : u = cell
    · subst hu
      simp only [Function.update_self, Option.some.injEq] at hm
      exact ⟨s.nextObj, ⟨u, id, u, hd⟩, hm.symm, by simp [State.register], rfl⟩
    · simp only [Function.update_of_ne hu] at hm
      obtain ⟨o, ev, rfl, hev, hc⟩ := h.events u m hm
      exact ⟨o, ev, rfl, by simp [State.register, hlive o ev hev, hev], hc⟩
  · by_cases ho : o = s.nextObj
    · subst ho
      obtain rfl : ⟨cell, id, cell, hd⟩ = ev := by simpa [State.register] using hev
      exact ⟨Nat.lt_succ_self _, by simp, rfl, hcell, by simp only; omega⟩
    · have hev' : s.objs o = some ev := by simpa [State.register, ho] using hev
      obtain ⟨h1, h2, h3⟩ := h.objs o ev hev'
      exact ⟨Nat.lt_succ_of_lt h1, by simp [hother o ev hev', h2], h3⟩
  · by_cases ho : o = s.nextObj
    · subst ho
      obtain rfl : ⟨cell, id, cell, hd⟩ = ev := by simpa [State.register] using hev
      exact ⟨entry_mem hp hconn, by simp [State.register]⟩
    · have hev' : s.objs o = some ev := by simpa [State.register, ho] using hev
      obtain ⟨h1, h2⟩ := h.registered o ev hev'
      exact ⟨h1, List.mem_cons_of_mem _ h2⟩
  · rcases List.mem_cons.mp hr with rfl | hr
    · exact ⟨hp.lt cell hd (entry_mem hp hconn), fun u _ =>
        ⟨⟨cell, id, cell, hd⟩, by simp [State.register], rfl, rfl⟩⟩
    · obtain ⟨hlt, hregs⟩ := h.regs r hr
      refine ⟨hlt, fun u hu => ?_⟩
      obtain ⟨ev, hev, h1, h2⟩ := hregs u hu
      exact ⟨ev, by simp [State.register, hlive _ ev hev, hev], h1, h2⟩

theorem eventsOk_remove (hp : PoolOk s) (h : EventsOk s) {cell : User} {o : ObjId}
    {ev : LifecycleEvent} {hd : Handle} (hconn : (s.entry cell).conn = some hd)
    (hsome : s.events cell = some [(eventIdLifecycle, o)]) (hev : s.objs o = some ev)
    (hcell : ev.cell = cell) :
    EventsOk { s with
      objs := Function.update s.objs o none
      regs := s.regs.filter fun r => !(r.handle == hd && r.id == ev.callbackId)
      calls := .deregister o (some hd) ev.callbackId :: s.calls
      events := Function.update s.events cell none } := by
  have hother : ∀ o' ev', o' ≠ o → s.objs o' = some ev' → ev'.cell ≠ cell := by
    rintro o' ev' hne hev' rfl
    rw [(h.objs o' ev' hev').2.1] at hsome
    simp only [Option.some.injEq, List.cons.injEq, Prod.mk.injEq, true_and, and_true] at hsome
    exact hne hsome
  refine ⟨fun u m hm => ?_, fun o' ev' hev' => ?_, fun o' ev' hev' => ?_, fun r hr => ?_⟩
  · by_cases hu : u = cell
    · subst hu
      simp at hm
    · simp only [Function.update_of_ne hu] at hm
      obtain ⟨o', ev', rfl, hev', hc⟩ := h.events u m hm
      have hne : o' ≠ o := by
        rintro rfl
        rw [hev] at hev'
        obtain rfl := Option.some.inj hev'
        exact hu (hc.symm.trans hcell)
      exact ⟨o', ev', rfl, by simp [hne, hev'], hc⟩
  · obtain ⟨hne, hev'⟩ := update_none_eq_some.mp hev'
    obtain ⟨h1, h2, h3⟩ := h.objs o' ev' hev'
    exact ⟨h1, by simp [hother o' ev' hne hev', h2], h3⟩
  · obtain ⟨hne, hev'⟩ := update_none_eq_some.mp hev'
    obtain ⟨h1, h2⟩ := h.registered o' ev' hev'
    refine ⟨h1, List.mem_filter.mpr ⟨h2, ?_⟩⟩
    -- the other objects are registered on handles of other users
    have hhd : ev'.registered ≠ hd := by
      intro heq
      rw [heq] at h1
      exact hother o' ev' hne hev' (entry_inj hp hconn h1).symm
    simp [hhd]
  · obtain ⟨hr, hkeep⟩ := List.mem_filter.mp hr
    obtain ⟨hlt, hregs⟩ := h.regs r hr
    refine ⟨hlt, fun u hu => ?_⟩
    have hu : (s.entry u).conn = some r.handle := hu
    obtain ⟨ev', hev', h1, h2⟩ := hregs u hu
    have hne : r.opaquePtr ≠ o := by
      intro heq
      rw [heq, hev] at hev'
      obtain rfl := Option.some.inj hev'
      -- a callback of the destroyed object on a current handle has just been deregistered
      have hmem := (h.registered o ev hev).1
      rw [hcell, h1] at hmem
      have huc : u = cell := entry_inj hp hu hmem
      rw [huc, hconn] at hu
      have hhd : hd = r.handle := Option.some.inj hu
      simp [hhd, h2] at hkeep
    exact ⟨ev', by simp [hne, hev'], h1, h2⟩

end

/-! ## Every step keeps them -/

section

variable {strerror : ℤ → String} {s t : State}

/-- The route has a user with at least one character. -/
theorem ne_empty_of_websocketUser {target : String} {cell : User} (htarget : websocketUser target = some cell) :
    cell ≠ "" := by
  unfold websocketUser at htarget
  obtain ⟨m, hm, hcap⟩ := Option.map_eq_some_iff.mp htarget
  obtain ⟨user, hws, rfl⟩ := websocketTarget_of_location hm
  rintro hcell
  rw [hcell] at hcap
  exact hws.1 (by rw [show user = "" from hcap]; rfl)

theorem cell_ne_empty (h : CoreInv s) {i : SockId} {k : Sock} (hk : s.socks i = some k) : k.cell ≠ "" :=
  ne_empty_of_websocketUser (h.sock i k hk).2

/-- What the pool and the events are made of stays the same. -/
def SamePoolEvents (s t : State) : Prop :=
  t.pool = s.pool ∧ t.nextHandle = s.nextHandle ∧ t.events = s.events ∧ t.objs = s.objs ∧ s.nextObj ≤ t.nextObj ∧
    t.regs = s.regs

theorem CoreInv.congr (h : CoreInv s) (hsame : SamePoolEvents s t) : PoolOk t ∧ EventsOk t := by
  obtain ⟨hp, hh, he, ho, hno, hr⟩ := hsame
  exact ⟨h.pool.congr hp hh, h.events.congr hp hh he ho hno hr⟩

/-- The parts of the state that `add_events` and `remove_events` leave alone. -/
def SameSocks (s t : State) : Prop := t.socks = s.socks ∧ t.buckets = s.buckets ∧ t.nextSock = s.nextSock

theorem poolEvents_addEvents (h : CoreInv s) {cell : User} (hcell : cell ≠ "") {id : ℤ}
    (ha : s.addEvents cell id = some t) : (PoolOk t ∧ EventsOk t) ∧ SameSocks s t := by
  rcases add_cases h.pool h.events ha with ⟨-, rfl⟩ | ⟨hd, hid, hconn, -, hnone, rfl⟩ |
    ⟨hd, o, -, -, -, -, rfl⟩
  · exact ⟨h.congr ⟨rfl, rfl, rfl, rfl, Nat.le_succ _, rfl⟩, rfl, rfl, rfl⟩
  · exact ⟨⟨h.pool.congr rfl rfl, eventsOk_register h.pool h.events hcell hid hconn hnone⟩, rfl, rfl, rfl⟩
  · exact ⟨h.congr ⟨rfl, rfl, rfl, rfl, Nat.le_succ _, rfl⟩, rfl, rfl, rfl⟩

theorem poolEvents_removeEvents (h : CoreInv s) (cell : User) :
    (PoolOk (s.removeEvents cell) ∧ EventsOk (s.removeEvents cell)) ∧ SameSocks s (s.removeEvents cell) := by
  rcases remove_cases h.pool h.events cell with ⟨-, ht⟩ | ⟨o, ev, hd, hconn, hsome, hev, hc, ht⟩
  · rw [ht]
    exact ⟨⟨h.pool, h.events⟩, rfl, rfl, rfl⟩
  · rw [ht]
    exact ⟨⟨h.pool.congr rfl rfl, eventsOk_remove h.pool h.events hconn hsome hev hc⟩, rfl, rfl, rfl⟩

theorem poolEvents_broadcast (h : CoreInv s) (hd : Handle) (user : User) (data : Json) :
    PoolOk (s.broadcast hd user data) ∧ EventsOk (s.broadcast hd user data) := by
  rw [State.broadcast_spec s hd data user (h.nodup user)]
  exact h.congr ⟨rfl, rfl, rfl, rfl, le_rfl, rfl⟩

/-- Every step keeps the pool and the events in order. -/
theorem poolEvents_outcome (h : CoreInv s) {a : Action} (ha : s.Outcome strerror t a) : PoolOk t ∧ EventsOk t := by
  have hget : ∀ user errno, PoolOk (s.poolGet strerror user errno).2 ∧ EventsOk (s.poolGet strerror user errno).2 :=
    fun user errno => ⟨poolOk_get h.pool user errno, eventsOk_poolGet h.pool h.events strerror user errno⟩
  have hsame : PoolOk s ∧ EventsOk s := ⟨h.pool, h.events⟩
  cases a with
  | get user errno =>
    obtain rfl : t = _ := ha
    exact hget user errno
  | closeConn user n =>
    obtain ⟨pool, hpool, rfl⟩ := ha
    exact ⟨poolOk_close h.pool hpool, eventsOk_close h.pool h.events hpool⟩
  | request target isUpgrade errno =>
    obtain ⟨cell, -, ⟨e, -, rfl⟩ | ⟨c, -, rfl⟩⟩ := ha
    · exact hget cell errno
    · obtain ⟨hp, he⟩ := hget cell errno
      exact ⟨hp.congr rfl rfl, he.congr rfl rfl rfl rfl le_rfl rfl⟩
  | asyncRun i =>
    obtain ⟨k, -, -, rfl⟩ := ha
    exact h.congr ⟨rfl, rfl, rfl, rfl, le_rfl, rfl⟩
  | accept i ok =>
    obtain ⟨k, -, -, rfl⟩ := ha
    exact h.congr ⟨rfl, rfl, rfl, rfl, le_rfl, rfl⟩
  | find i =>
    obtain ⟨k, -, -, ⟨-, rfl⟩ | ⟨-, rfl⟩⟩ := ha
    · exact h.congr ⟨rfl, rfl, rfl, rfl, le_rfl, rfl⟩
    · exact h.congr ⟨rfl, rfl, rfl, rfl, le_rfl, rfl⟩
  | addEvents i id =>
    obtain ⟨k, hk, -, s', hs', rfl⟩ := ha
    obtain ⟨⟨hp, he⟩, -⟩ := poolEvents_addEvents h (cell_ne_empty h hk) hs'
    split_ifs
    · exact ⟨hp.congr rfl rfl, he.congr rfl rfl rfl rfl le_rfl rfl⟩
    · exact ⟨hp, he⟩
  | read i r =>
    obtain ⟨k, -, -, rfl⟩ := ha
    cases r with
    | message => exact hsame
    | closed => exact h.congr ⟨rfl, rfl, rfl, rfl, le_rfl, rfl⟩
    | error => exact h.congr ⟨rfl, rfl, rfl, rfl, le_rfl, rfl⟩
  | remove i =>
    obtain ⟨k, -, -, rfl⟩ := ha
    split_ifs
    · exact h.congr ⟨rfl, rfl, rfl, rfl, le_rfl, rfl⟩
    · exact h.congr ⟨rfl, rfl, rfl, rfl, le_rfl, rfl⟩
  | size i =>
    obtain ⟨k, -, -, rfl⟩ := ha
    exact h.congr ⟨rfl, rfl, rfl, rfl, le_rfl, rfl⟩
  | removeEvents i =>
    obtain ⟨k, -, -, rfl⟩ := ha
    obtain ⟨⟨hp, he⟩, -⟩ := poolEvents_removeEvents h k.cell
    split_ifs
    · exact ⟨hp.congr rfl rfl, he.congr rfl rfl rfl rfl le_rfl rfl⟩
    · exact ⟨hp, he⟩
  | event user hd id type domain =>
    rcases State.event_cases ha.2 with ⟨r, -, -, -, -, rfl⟩ | ⟨r, ev, -, -, -, -, -, -, rfl⟩ |
      ⟨r, ev, data, -, -, -, -, -, -, rfl⟩ | ⟨r, ev, -, -, -, -, -, rfl⟩
    · exact h.congr ⟨rfl, rfl, rfl, rfl, le_rfl, rfl⟩
    · exact h.congr ⟨rfl, rfl, rfl, rfl, le_rfl, rfl⟩
    · exact poolEvents_broadcast h hd ev.user data
    · exact hsame
  | wrote i =>
    obtain ⟨k, -, -, rfl⟩ := ha
    exact h.congr ⟨rfl, rfl, rfl, rfl, le_rfl, rfl⟩

/-- And the websockets in their buckets. -/
theorem socksOk_outcome (h : AppInv s) {a : Action} (ha : s.Outcome strerror t a) : SocksOk t := by
  have hset : ∀ {i : SockId} {k k' : Sock}, s.socks i = some k → k'.target = k.target → k'.cell = k.cell →
      k'.user = k.user → k'.phase.inBucket = k.phase.inBucket → SocksOk (s.setSock i k') :=
    fun hk htarget hcell huser hphase => socksOk_setSock h.socks hk htarget hcell huser hphase
  cases a with
  | get user errno =>
    obtain rfl : t = _ := ha
    exact h.socks.congr rfl rfl rfl
  | closeConn user n =>
    obtain ⟨pool, -, rfl⟩ := ha
    exact h.socks.congr rfl rfl rfl
  | request target isUpgrade errno =>
    obtain ⟨cell, hcell, ⟨e, -, rfl⟩ | ⟨c, hc, rfl⟩⟩ := ha
    · exact h.socks.congr rfl rfl rfl
    · -- the connection of its user was got before the websocket is stored
      have hget : SocksOk (s.poolGet strerror cell errno).2 := h.socks.congr rfl rfl rfl
      refine socksOk_addSock hget (poolGet_user h.pool hc) hcell ?_
      cases isUpgrade with
      | true => rfl
      | false => rfl
  | asyncRun i =>
    obtain ⟨k, hk, hp, rfl⟩ := ha
    exact hset hk rfl rfl rfl (by rw [hp]; rfl)
  | accept i ok =>
    obtain ⟨k, hk, hp, rfl⟩ := ha
    refine hset hk rfl rfl rfl ?_
    rw [hp]
    cases ok with
    | true => rfl
    | false => rfl
  | find i =>
    obtain ⟨k, hk, hp, ⟨-, rfl⟩ | ⟨-, rfl⟩⟩ := ha
    · exact hset hk rfl rfl rfl (by rw [hp]; rfl)
    · exact hset hk rfl rfl rfl (by rw [hp]; rfl)
  | addEvents i id =>
    obtain ⟨k, hk, hp, s', hs', rfl⟩ := ha
    obtain ⟨-, hsocks, hb, hn⟩ := poolEvents_addEvents h.core (cell_ne_empty h.core hk) hs'
    have h' : SocksOk s' := h.socks.congr hsocks hb hn
    rw [← hsocks] at hk
    split_ifs
    · exact socksOk_setSock h' hk rfl rfl rfl (by rw [hp]; rfl)
    · exact h'
  | read i r =>
    obtain ⟨k, hk, hp, rfl⟩ := ha
    cases r with
    | message => exact h.socks
    | closed => exact hset hk rfl rfl rfl (by rw [hp]; rfl)
    | error => exact hset hk rfl rfl rfl (by rw [hp]; rfl)
  | remove i =>
    obtain ⟨k, hk, hp, rfl⟩ := ha
    split_ifs
    · exact socksOk_remove h.socks hk
    · exact h.socks.congr rfl rfl rfl
  | size i =>
    obtain ⟨k, hk, hp, rfl⟩ := ha
    refine hset hk rfl rfl rfl ?_
    rw [hp]
    split_ifs
    · rfl
    · rfl
  | removeEvents i =>
    obtain ⟨k, hk, hp, rfl⟩ := ha
    obtain ⟨-, hsocks, hb, hn⟩ := poolEvents_removeEvents h.core k.cell
    have h' : SocksOk (s.removeEvents k.cell) := h.socks.congr hsocks hb hn
    rw [← hsocks] at hk
    split_ifs
    · exact socksOk_setSock h' hk rfl rfl rfl (by rw [hp]; rfl)
    · exact h'
  | event user hd id type domain =>
    rcases State.event_cases ha.2 with ⟨r, -, -, -, -, rfl⟩ | ⟨r, ev, -, -, -, -, -, -, rfl⟩ |
      ⟨r, ev, data, -, -, -, -, -, -, rfl⟩ | ⟨r, ev, -, -, -, -, -, rfl⟩
    · exact h.socks.congr rfl rfl rfl
    · exact h.socks.congr rfl rfl rfl
    · exact socksOk_broadcast h.socks hd ev.user data
    · exact h.socks
  | wrote i =>
    obtain ⟨k, hk, -, rfl⟩ := ha
    exact hset hk rfl rfl rfl rfl

theorem appInv_outcome (h : AppInv s) {a : Action} (ha : s.Outcome strerror t a) : AppInv t where
  pool := (poolEvents_outcome h.core ha).1
  socks := socksOk_outcome h ha
  events := (poolEvents_outcome h.core ha).2

/-- The parts of handlers that are not steps of their own. -/
theorem appInv_setSock (h : AppInv s) {i : SockId} {k k' : Sock} (hk : s.socks i = some k)
    (htarget : k'.target = k.target) (hcell : k'.cell = k.cell) (huser : k'.user = k.user)
    (hphase : k'.phase.inBucket = k.phase.inBucket) : AppInv (s.setSock i k') where
  pool := h.pool.congr rfl rfl
  socks := socksOk_setSock h.socks hk htarget hcell huser hphase
  events := h.events.congr rfl rfl rfl rfl le_rfl rfl

theorem appInv_addEvents (h : AppInv s) {cell : User} (hcell : cell ≠ "") {id : ℤ}
    (ha : s.addEvents cell id = some t) : AppInv t := by
  obtain ⟨⟨hp, he⟩, hsocks, hb, hn⟩ := poolEvents_addEvents h.core hcell ha
  exact ⟨hp, h.socks.congr hsocks hb hn, he⟩

theorem appInv_removeEvents (h : AppInv s) (cell : User) : AppInv (s.removeEvents cell) := by
  obtain ⟨⟨hp, he⟩, hsocks, hb, hn⟩ := poolEvents_removeEvents h.core cell
  exact ⟨hp, h.socks.congr hsocks hb hn, he⟩

theorem appInv_init : AppInv {} where
  pool := ⟨poolInv_init, handlesApart_init, fun _ _ hm => absurd hm List.not_mem_nil⟩
  socks :=
    { lt := fun _ _ hk => by cases hk
      user := fun _ _ hk => by cases hk
      nodup := fun _ => List.nodup_nil
      bucket := fun _ i => ⟨fun hm => absurd hm List.not_mem_nil, fun ⟨_, hk, _⟩ => by cases hk⟩ }
  events :=
    { events := fun _ _ hm => by cases hm
      objs := fun _ _ hev => by cases hev
      registered := fun _ _ hev => by cases hev
      regs := fun _ hm => absurd hm List.not_mem_nil }

end

/-- The invariants hold in every state of the app. -/
theorem appInvariant (strerror : ℤ → String) : (appMachine strerror).Invariant AppInv where
  init := appInv_init
  step _ _ _ h hst := appInv_outcome h (State.step_outcome hst).2

/-- A step out of a reachable state, with the invariants on both sides. -/
theorem appInv_step {strerror : ℤ → String} {s t : State} {a : Action} (h : AppInv s)
    (hst : (appMachine strerror).step s a = some t) : AppInv t := (appInvariant strerror).step s a t h hst

end Webvirtd.App
