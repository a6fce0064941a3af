import Webvirtd.App.Handlers

/-!
# App.Reconnect — subscriptions and reconnects

The handshake handler looks for events under the user's name.  After a reconnect those it finds may be
registered on the handle that was replaced, and after a failed reconnect the entry holds no handle at
all.  `Follows` is what one wants: a websocket that completed its handshake on the current handle has an
event registered on it.  It speaks about completed handlers, one after the other.
-/

namespace Webvirtd.App

open Lib Virt Http

/-- The handshake was completed after the last time that a connection was opened for the user. -/
def State.Current (s : State) (k : Sock) : Prop :=
  ∃ h, k.handshaken = some h ∧ (s.pool.handles k.cell).head? = some h

/-- The user has a lifecycle event, registered on the handle that the entry holds. -/
def SubscribedOn (s : State) (user : User) : Prop :=
  ∃ o ev, s.events user = some [(eventIdLifecycle, o)] ∧ s.objs o = some ev ∧
    (s.entry user).conn = some ev.registered

def Follows (s : State) : Prop :=
  ∀ i k, s.socks i = some k → k.phase.live = true → s.Current k → SubscribedOn s k.user

/-- A connection that has to be opened is opened, or no live websocket relies on the last one. -/
def OpenAllowed (s : State) (user : User) (errno : Option ℤ) : Prop :=
  NeedsOpen (s.pool.opens user) = true → (∃ e, errno = some e) →
    ∀ i k, s.socks i = some k → k.cell = user → k.phase.live = true → ¬ s.Current k

/-- Events that a handshake finds are registered on the current handle, and connections that websockets
rely on are not reopened in vain. -/
def ReconnectAllowed (s : State) : Handler → Prop
  | .handshake i _ => ∀ k, s.socks i = some k → ∀ m, s.events k.cell = some m →
    SubscribedOn s k.cell
  | .get user errno => OpenAllowed s user errno
  | .request target _ errno => ∀ cell, websocketUser target = some cell → OpenAllowed s cell errno
  | _ => True

/-- The step leaves the pool and the events alone and completes no handshake. -/
def Action.quiet : Action → Bool
  | .get _ _ => false
  | .closeConn _ _ => false
  | .request _ _ _ => false
  | .find _ => false
  | .addEvents _ _ => false
  | .removeEvents _ => false
  | _ => true

/-- Handshakes were completed on handles of the user. -/
def HandshakesOk (s : State) : Prop :=
  ∀ i k h, s.socks i = some k → k.handshaken = some h → h ∈ s.pool.handles k.cell

section

variable {strerror : ℤ → String} {s t : State}

theorem handshakesOk_outcome (h : AppInv s) (hs : HandshakesOk s) {a : Action}
    (ha : s.Outcome strerror t a) : HandshakesOk t := by
  intro j k' hd hk' hhd
  rcases sock_outcome h.core ha hk' with ⟨k, hk, ⟨-, hcell, -⟩, -, hh⟩ | ⟨k, hk, ⟨-, hcell, -⟩, -, hh⟩ |
    ⟨_, _, _, _, _, -, -, -, -, hh⟩
  · rw [hcell]
    exact handles_outcome h.core ha (hs j k hd hk (hh ▸ hhd))
  · rw [hcell]
    refine handles_outcome h.core ha ?_
    rw [hh] at hhd
    split_ifs at hhd
    · exact List.mem_of_head? hhd
    · exact hs j k hd hk hhd
  · rw [hh] at hhd
    cases hhd

theorem handshakesInvariant (strerror : ℤ → String) :
    (handlerMachine strerror).Invariant fun s => AppInv s ∧ HandshakesOk s :=
  Machine.Invariant.of_coarse (handlerMachine_coarsens strerror) <|
    (appInvariant strerror).and (fun _ _ _ hk => by cases hk)
      fun _ _ _ h hs hst _ => handshakesOk_outcome h hs (State.step_outcome hst).2

/-- Live websockets are in the bucket of their user. -/
theorem mem_bucket_of_live (h : SocksOk s) {i : SockId} {k : Sock} (hk : s.socks i = some k)
    (hl : k.phase.live = true) : i ∈ s.buckets k.user := by
  refine (h.bucket _ i).mpr ⟨k, hk, rfl, ?_⟩
  revert hl
  cases k.phase <;> decide

/-! ## Opening a connection -/

variable (strerror) in
theorem poolGet_head (h : PoolOk s) (user : User) (errno : Option ℤ) (u : User) :
    ((s.poolGet strerror user errno).2.pool.handles u).head? =
      if u = user ∧ NeedsOpen (s.pool.opens user) = true ∧ errno = none then some s.nextHandle
      else (s.pool.handles u).head? := by
  rw [State.poolGet_snd, get_handles h.inv]
  by_cases hu : u = user ∧ NeedsOpen (s.pool.opens user) = true
  · rw [if_pos hu]
    cases errno with
    | none => simp [hu, State.openResult, OpenResult.handle?]
    | some e => simp [State.openResult, OpenResult.handle?]
  · rw [if_neg hu, if_neg fun hc => hu ⟨hc.1, hc.2.1⟩]

variable (strerror) in
theorem poolGet_entry_conn (h : PoolOk s) (user : User) (errno : Option ℤ) (u : User) :
    ((s.poolGet strerror user errno).2.entry u).conn =
      if u = user ∧ NeedsOpen (s.pool.opens user) = true then
        if errno = none then some s.nextHandle else none
      else (s.entry u).conn := by
  unfold State.entry
  rw [State.poolGet_snd]
  by_cases hu : u = user
  · subst hu
    cases hn : NeedsOpen (s.pool.opens u) with
    | true =>
      rw [get_of_needsOpen h.inv hn, reconnect_connections, Function.update_self]
      cases errno with
      | none => simp [State.openResult, entryOf]
      | some e => simp [State.openResult, entryOf]
    | false =>
      obtain ⟨hd, rest, -, hg⟩ := get_of_open strerror h.inv hn (s.openResult errno)
      rw [hg]
      simp
  · rw [get_connections_other s.pool hu, if_neg fun hc => hu hc.1]

variable (strerror) in
theorem follows_poolGet (h : AppInv s) (hs : HandshakesOk s) (hf : Follows s) (user : User)
    (errno : Option ℤ) : Follows (s.poolGet strerror user errno).2 ↔ OpenAllowed s user errno := by
  have hconn := poolGet_entry_conn strerror h.pool user errno
  have hhead := poolGet_head strerror h.pool user errno
  constructor
  · rintro hft hn ⟨e, rfl⟩ i k hk hcell hl ⟨hd, hhd, hcur⟩
    have huser := (h.socks.user i k hk).1.trans hcell
    have hcur' : (s.poolGet strerror user (some e)).2.Current k := by
      refine ⟨hd, hhd, ?_⟩
      rw [hhead, if_neg fun hc => by cases hc.2.2]
      exact hcur
    -- the entry holds no handle now
    obtain ⟨o, ev, -, -, hev⟩ := hft i k hk hl hcur'
    rw [hconn, huser, if_pos ⟨rfl, hn⟩] at hev
    cases hev
  · rintro hallowed i k hk hl ⟨hd, hhd, hcur⟩
    have hk : s.socks i = some k := hk
    rw [hhead] at hcur
    by_cases hopen : k.cell = user ∧ NeedsOpen (s.pool.opens user) = true
    · obtain ⟨hcell, hn⟩ := hopen
      cases errno with
      | none =>
        -- nobody has completed a handshake on the new handle
        rw [if_pos ⟨hcell, hn, rfl⟩] at hcur
        have hlt := h.pool.lt _ hd (hs i k hd hk hhd)
        rw [← Option.some.inj hcur] at hlt
        exact absurd hlt (lt_irrefl _)
      | some e =>
        rw [if_neg fun hc => by cases hc.2.2] at hcur
        exact absurd ⟨hd, hhd, hcur⟩ (hallowed hn ⟨e, rfl⟩ i k hk hcell hl)
    · rw [if_neg fun hc => hopen ⟨hc.1, hc.2.1⟩] at hcur
      obtain ⟨o, ev, he, ho, hev⟩ := hf i k hk hl ⟨hd, hhd, hcur⟩
      refine ⟨o, ev, he, ho, ?_⟩
      rw [hconn, if_neg fun hc => hopen ⟨(h.socks.user i k hk).1.symm.trans hc.1, hc.2⟩]
      exact hev

/-- A websocket that is not live changes nothing. -/
theorem follows_addSock {k : Sock} (hlt : ∀ i k, s.socks i = some k → i < s.nextSock)
    (hl : k.phase.live = false) : Follows (s.addSock k) ↔ Follows s := by
  constructor
  · intro hf i k' hk'
    have hi : i ≠ s.nextSock := ne_of_lt (hlt i k' hk')
    exact hf i k' (setSock_eq_some.mpr (.inr ⟨hi, hk'⟩))
  · intro hf i k' hk' hl'
    rcases setSock_eq_some.mp hk' with ⟨-, rfl⟩ | ⟨-, hk'⟩
    · rw [hl] at hl'
      cases hl'
    · exact hf i k' hk' hl'

/-! ## The handlers -/

theorem follows_outcome (h : AppInv s) (hf : Follows s) {a : Action} (ha : s.Outcome strerror t a)
    (hq : a.quiet = true) : Follows t := by
  obtain ⟨he, ho, -⟩ := events_outcome h.core (by rintro i id rfl; cases hq) (by rintro i rfl; cases hq) ha
  have hpool : t.pool = s.pool := by
    rcases pool_outcome h.core ha with ⟨user, errno, rfl | ⟨target, up, rfl⟩, -⟩ | ⟨user, n, rfl, -⟩ | hp
    · cases hq
    · cases hq
    · cases hq
    · exact hp
  have hentry : ∀ u, t.entry u = s.entry u := fun u => by unfold State.entry; rw [hpool]
  intro j k' hk' hl hcur
  obtain ⟨k, hk, hlk, ⟨-, hcell, huser⟩, hh⟩ : ∃ k, s.socks j = some k ∧ k.phase.live = true ∧
      k.Same k' ∧ k'.handshaken = k.handshaken := by
    rcases sock_outcome h.core ha hk' with ⟨k, hk, hs, hp, hh⟩ | ⟨k, hk, hs, hmove, hh⟩ |
      ⟨target, up, errno, _, _, rfl, -, -, -, -⟩
    · exact ⟨k, hk, hp ▸ hl, hs, hh⟩
    · rcases hmove.live hl with ⟨hlk, hp⟩ | ⟨-, rfl | ⟨id, rfl⟩⟩
      · exact ⟨k, hk, hlk, hs, by rw [hh, if_neg hp]⟩
      · cases hq
      · cases hq
    · cases hq
  unfold State.Current at hcur
  rw [hh, hcell, hpool] at hcur
  rw [huser]
  unfold SubscribedOn
  rw [he, ho, hentry]
  exact hf j k hk hlk hcur

/-- A closed connection stays in its entry. -/
theorem follows_close (h : AppInv s) (hf : Follows s) {user : User} {n : ℕ} {pool : PoolState}
    (hc : s.pool.close user n = some pool) : Follows { s with pool := pool } := by
  rintro i k hk hl ⟨hd, hhd, hcur⟩
  have hcur : (pool.handles k.cell).head? = some hd := hcur
  rw [close_handles h.pool.inv hc] at hcur
  obtain ⟨o, ev, he, ho, hev⟩ := hf i k hk hl ⟨hd, hhd, hcur⟩
  exact ⟨o, ev, he, ho, (close_conn h.pool hc _).trans hev⟩

/-- The event of a user is not the event of another. -/
theorem obj_ne_of_user_ne (h : EventsOk s) {u v : User} {o o' : ObjId} (huv : u ≠ v)
    (hu : s.events u = some [(eventIdLifecycle, o)])
    (hv : s.events v = some [(eventIdLifecycle, o')]) : o ≠ o' := by
  rintro rfl
  obtain ⟨o1, ev1, h1, hev1, hc1⟩ := h.events u _ hu
  obtain ⟨o2, ev2, h2, hev2, hc2⟩ := h.events v _ hv
  simp only [List.cons.injEq, Prod.mk.injEq, true_and, and_true] at h1 h2
  rw [← h1] at hev1
  rw [← h2, hev1] at hev2
  obtain rfl := Option.some.inj hev2
  exact huv (hc1.symm.trans hc2)

/-- A websocket that completes its handshake relies on the events that it finds or adds. -/
theorem follows_handshake (h : AppInv s) (hf : Follows s) {i : SockId} {id : ℤ}
    (ho : HandshakeOutcome s i id t) :
    Follows t ↔ ∀ k, s.socks i = some k → ∀ m, s.events k.cell = some m → SubscribedOn s k.cell := by
  rcases ho with ⟨k, m, hk, hp, hm, rfl⟩ | ⟨k, hd, hk, hp, hid, hconn, hnone, rfl⟩
  · have huser := (h.socks.user i k hk).1
    constructor
    · intro hft k' hk' m' _
      rw [hk] at hk'
      obtain rfl := Option.some.inj hk'
      -- the user has a handle: the one that the events were registered on
      obtain ⟨o, ev, -, hev, hcell⟩ := h.events.events _ m hm
      have hmem := (h.events.registered o ev hev).1
      rw [hcell] at hmem
      obtain ⟨hd, hhead⟩ := Option.isSome_iff_exists.mp
        (List.isSome_head?.mpr (List.ne_nil_of_mem hmem))
      have hsub := hft i _ (State.setSock_self ..) rfl ⟨hd, hhead, hhead⟩
      rw [← huser]
      exact hsub
    · intro hC j k' hk' hl hcur
      rcases setSock_eq_some.mp hk' with ⟨-, rfl⟩ | ⟨-, hk'⟩
      · have hsub := hC k hk m hm
        rw [← huser] at hsub
        exact hsub
      · exact hf j k' hk' hl hcur
  · refine ⟨fun _ k' hk' m hm => ?_, fun _ j k' hk' hl hcur => ?_⟩
    · rw [hk] at hk'
      obtain rfl := Option.some.inj hk'
      rw [hnone] at hm
      cases hm
    · by_cases hu : k'.user = k.cell
      · rw [hu]
        exact ⟨s.nextObj, ⟨k.cell, id, k.cell, hd⟩, Function.update_self .., Function.update_self ..,
          hconn⟩
      · rcases setSock_eq_some.mp hk' with ⟨-, rfl⟩ | ⟨-, hk'⟩
        · exact absurd (h.socks.user i k hk).1 hu
        · obtain ⟨o, ev, he, ho, hev⟩ := hf j k' hk' hl hcur
          have hne : o ≠ s.nextObj := ne_of_lt (h.events.objs o ev ho).1
          exact ⟨o, ev, (Function.update_of_ne hu _ _).trans he,
            (Function.update_of_ne hne _ _).trans ho, hev⟩

/-- A websocket that leaves takes the events along only when it is the last of its user. -/
theorem follows_leave (h : AppInv s) (hf : Follows s) {i : SockId} (ho : CloseOutcome s i t) :
    Follows t := by
  have hleave : ∀ k, Follows (s.leave i k) := by
    intro k j k' hk' hl hcur
    rcases setSock_eq_some.mp hk' with ⟨-, rfl⟩ | ⟨-, hk'⟩
    · cases hl
    · exact hf j k' hk' hl hcur
  rcases ho with ⟨k, hk, hp, hne, rfl⟩ | ⟨k, hk, hp, hnil, rfl⟩
  · exact hleave k
  · have hpool : PoolOk (s.leave i k) := h.pool.congr rfl rfl
    have hevents : EventsOk (s.leave i k) := h.events.congr rfl rfl rfl rfl le_rfl rfl
    rcases remove_cases hpool hevents k.cell with ⟨-, ht⟩ | ⟨o, ev, hd, -, hsome, -, -, ht⟩
    · rw [ht]
      exact hleave k
    · rw [ht]
      intro j k' hk' hl hcur
      have hk' : (s.leave i k).socks j = some k' := hk'
      obtain ⟨o', ev', he, ho, hev⟩ := hleave k j k' hk' hl hcur
      rcases setSock_eq_some.mp hk' with ⟨-, rfl⟩ | ⟨hj, hk'⟩
      · cases hl
      · -- it belongs to another user: it would still be in the bucket
        have hu : k'.user ≠ k.cell := by
          intro heq
          have hm := mem_bucket_of_live h.socks hk' hl
          rw [heq, ← (h.socks.user i k hk).1] at hm
          have hm' := ((h.socks.nodup k.user).mem_erase_iff).mpr ⟨hj, hm⟩
          rw [hnil] at hm'
          cases hm'
        have hne := obj_ne_of_user_ne hevents hu he hsome
        exact ⟨o', ev', (Function.update_of_ne hu _ _).trans he,
          (Function.update_of_ne hne _ _).trans ho, hev⟩

/-- One handler: subscriptions follow exactly when the condition is met. -/
theorem follows_step (h : AppInv s) (hs : HandshakesOk s) (hf : Follows s) {b : Handler}
    (hst : (handlerMachine strerror).step s b = some t) : Follows t ↔ ReconnectAllowed s b := by
  have hother : ∀ {a : Action}, runHandler strerror s b = (appMachine strerror).step s a →
      s.Outcome strerror t a := fun hrun =>
    (State.step_outcome (hrun ▸ (handler_eq_some.mp hst).1)).2
  cases b with
  | get user errno =>
    obtain rfl : t = _ := hother rfl
    exact follows_poolGet strerror h hs hf user errno
  | closeConn user n =>
    obtain ⟨pool, hpool, rfl⟩ := hother rfl
    exact ⟨fun _ => trivial, fun _ => follows_close h hf hpool⟩
  | request target isUpgrade errno =>
    have hone : ∀ cell, websocketUser target = some cell → (Follows t ↔ OpenAllowed s cell errno) := by
      intro cell hcell
      obtain ⟨cell', hcell', ht⟩ := hother (a := .request target isUpgrade errno) rfl
      rw [hcell] at hcell'
      obtain rfl := Option.some.inj hcell'
      rw [← follows_poolGet strerror h hs hf cell errno]
      rcases ht with ⟨e, -, rfl⟩ | ⟨c, -, rfl⟩
      · rfl
      · refine follows_addSock h.socks.lt ?_
        cases isUpgrade with
        | true => rfl
        | false => rfl
    obtain ⟨cell, hcell, -⟩ := hother (a := .request target isUpgrade errno) rfl
    constructor
    · intro hft cell' hcell'
      exact (hone cell' hcell').mp hft
    · exact fun hC => (hone cell hcell).mpr (hC cell hcell)
  | asyncRun i => exact ⟨fun _ => trivial, fun _ => follows_outcome h hf (hother rfl) rfl⟩
  | acceptError i => exact ⟨fun _ => trivial, fun _ => follows_outcome h hf (hother rfl) rfl⟩
  | handshake i id => exact follows_handshake h hf (handshake_cases h hst)
  | readMessage i => exact ⟨fun _ => trivial, fun _ => follows_outcome h hf (hother rfl) rfl⟩
  | readError i => exact ⟨fun _ => trivial, fun _ => follows_outcome h hf (hother rfl) rfl⟩
  | close i => exact ⟨fun _ => trivial, fun _ => follows_leave h hf (close_cases h hst)⟩
  | event user hd id type domain => exact ⟨fun _ => trivial, fun _ => follows_outcome h hf (hother rfl) rfl⟩
  | wrote i => exact ⟨fun _ => trivial, fun _ => follows_outcome h hf (hother rfl) rfl⟩

end

/-- **Subscriptions and reconnects.**  Along a run of completed handlers every user with a websocket that
completed its handshake on the current connection has a lifecycle event registered on it if and only if
no handshake of the run finds events of an older connection, and no reopening fails on which such a
websocket relies. -/
theorem follows_iff (strerror : ℤ → String) (bs : List Handler) :
    (handlerMachine strerror).Always Follows {} bs ↔
      (handlerMachine strerror).Meets ReconnectAllowed {} bs := by
  have hinit : Follows {} := fun _ _ hk => by cases hk
  refine (handshakesInvariant strerror).always_iff_meets hinit ?_ bs
  rintro s b t ⟨hs, hhandshakes⟩ - hf hst
  exact follows_step hs hhandshakes hf hst

/-- The connection is closed and reopened, and the second handshake finds the events of the first. -/
theorem stale_subscription :
    ¬ (handlerMachine fun _ => "").Always Follows {}
      [.request "/users/ann/websocket/" true none, .asyncRun 0, .handshake 0 7, .closeConn "ann" 0,
        .get "ann" none, .request "/users/ann/websocket/" true none, .asyncRun 1,
        .handshake 1 8] := by
  intro h
  obtain ⟨s, hs, k, hk, hl, hcur, hstale⟩ : ∃ s, (handlerMachine fun _ => "").exec {}
      [.request "/users/ann/websocket/" true none, .asyncRun 0, .handshake 0 7, .closeConn "ann" 0,
        .get "ann" none, .request "/users/ann/websocket/" true none, .asyncRun 1,
        .handshake 1 8] = some s ∧ ∃ k, s.socks 1 = some k ∧ k.phase.live = true ∧ s.Current k ∧
      ∀ o ev, s.events k.user = some [(eventIdLifecycle, o)] → s.objs o = some ev →
        (s.entry k.user).conn ≠ some ev.registered := by
    refine ⟨_, rfl, _, rfl, rfl, ⟨_, rfl, rfl⟩, ?_⟩
    rintro o ev ho hev hconn
    cases ho
    cases hev
    cases hconn
  obtain ⟨o, ev, ho, hev, hconn⟩ := h.last hs 1 k hk hl hcur
  exact hstale o ev ho hev hconn

end Webvirtd.App
