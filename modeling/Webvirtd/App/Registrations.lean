import Webvirtd.App.Pairing
import Webvirtd.App.Subscription

/-!
# App.Registrations — one active registration for each user

Two handshakes of a user can both find no events and both register.  `emplace` keeps the object that was
stored first, and the destructor of the other one deregisters it at once.  As long as no connection is
closed and registrations succeed, this leaves at most one callback on the connection of a user, so a
domain event is written at most once to a websocket.
-/

namespace Webvirtd.App

open Lib Virt Http

/-- No connection is closed, and registrations succeed. -/
def Undisturbed (_ : State) : Action → Prop
  | .closeConn _ _ => False
  | .addEvents _ id => id ≠ -1
  | _ => True

/-- One domain event of the user, delivered to every callback on an open connection of the user. -/
def State.dispatch (s : State) (user : User) (type : EventType) (domain : Option Json) : List Action :=
  (s.regs.filter fun r => s.handleOpen user r.handle).map fun r =>
    .event user r.handle r.id type domain

/-- The registrations on the connections of a user: at most one is active, it is the one in `events_`,
and all others have been taken back once.  A domain event is written at most once to a websocket. -/
structure OneRegistration (strerror : ℤ → String) (s : State) (user : User) : Prop where
  atMostOne : (s.regs.filter fun r => r.handle ∈ s.pool.handles user).length ≤ 1
  stored : ∀ r ∈ s.regs, r.handle ∈ s.pool.handles user →
    s.events user = some [(eventIdLifecycle, r.opaquePtr)] ∧
      ∃ ev, s.objs r.opaquePtr = some ev ∧ ev.registered = r.handle ∧ ev.callbackId = r.id
  active : ∀ m, s.events user = some m →
    ∃ r ∈ s.regs, r.handle ∈ s.pool.handles user ∧ m = [(eventIdLifecycle, r.opaquePtr)]
  settled : ∀ o h id, h ∈ s.pool.handles user → .register o h id ∈ s.calls →
    (s.events user = some [(eventIdLifecycle, o)] ∧ ⟨h, id, o⟩ ∈ s.regs ∧
        s.calls.count (.deregister o (some h) id) = 0) ∨
      (∀ r ∈ s.regs, r.handle ∈ s.pool.handles user → r.opaquePtr ≠ o) ∧
        s.calls.count (.deregister o (some h) id) = 1
  once : ∀ type domain t, (appMachine strerror).exec s (s.dispatch user type domain) = some t →
    ∃ new, t.writes = new ++ s.writes ∧ ∀ i, (new.filter fun w => w.sock = i).length ≤ 1

/-- No close callback has fired. -/
def NoneClosed (s : State) : Prop := ∀ u, ∀ o ∈ s.pool.opens u, o.closed = false

section

variable {strerror : ℤ → String} {s t : State}

theorem noneClosed_outcome (h : AppInv s) (hn : NoneClosed s) {a : Action} (hC : Undisturbed s a)
    (ha : s.Outcome strerror t a) : NoneClosed t := by
  intro u o ho
  rcases pool_outcome h.core ha with ⟨user, errno, -, hp⟩ | ⟨user, n, rfl, -⟩ | hp
  · rw [hp, State.poolGet_snd, get_opens h.pool.inv] at ho
    split_ifs at ho
    · by_cases hu : u = user
      · subst hu
        rw [Function.update_self] at ho
        rcases List.mem_cons.mp ho with rfl | ho
        · rfl
        · exact hn u o ho
      · rw [Function.update_of_ne hu] at ho
        exact hn u o ho
    · exact hn u o ho
  · exact absurd hC id
  · rw [hp] at ho
    exact hn u o ho

/-- A connection that was opened for a user is still open. -/
theorem handleOpen_of_mem (hn : NoneClosed s) {u : User} {hd : Handle} (hm : hd ∈ s.pool.handles u) :
    s.handleOpen u hd = true := by
  obtain ⟨o, ho, hr⟩ := List.mem_filterMap.mp hm
  refine List.any_eq_true.mpr ⟨o, ho, ?_⟩
  have hclosed := hn u o ho
  cases hres : o.result with
  | handle h' =>
    rw [hres] at hr
    obtain rfl := Option.some.inj hr
    simp [hclosed]
  | null errno =>
    rw [hres] at hr
    cases hr

theorem mem_of_handleOpen {u : User} {hd : Handle} (ho : s.handleOpen u hd = true) :
    hd ∈ s.pool.handles u := by
  obtain ⟨o, hm, hres⟩ := List.any_eq_true.mp ho
  simp only [Bool.and_eq_true, decide_eq_true_eq] at hres
  exact mem_handles_of_opening hm hres.1

/-- So entries hold the handles that their objects were registered on. -/
theorem pairingAllowed_of_noneClosed (h : AppInv s) (hn : NoneClosed s) {a : Action}
    (hC : Undisturbed s a) : PairingAllowed s a := by
  cases a with
  | addEvents i id => exact hC
  | removeEvents i =>
    intro k o ev hk hev hcell
    have hmem := (h.events.registered o ev hev).1
    have hconn := conn_of_handleOpen h.pool (handleOpen_of_mem hn hmem)
    have huser : (s.entry k.cell).user = k.cell :=
      events_entry h (hcell ▸ (h.events.objs o ev hev).2.1)
    rw [← huser, ← hcell]
    exact hconn
  | _ => trivial

/-- Fresh ids keep the registrations apart. -/
theorem nodup_regs_outcome (h : AppInv s) (hr : s.regs.Nodup) {a : Action}
    (ha : s.Outcome strerror t a) : t.regs.Nodup := by
  by_cases hadd : ∃ i id, a = .addEvents i id
  · obtain ⟨i, id, rfl⟩ := hadd
    obtain ⟨k, -, -, s', hs', rfl⟩ := ha
    have hnodup : s'.regs.Nodup := by
      rcases add_cases h.pool h.events hs' with ⟨-, rfl⟩ | ⟨hd, -, -, hfree, -, rfl⟩ |
        ⟨hd, o, -, -, -, -, rfl⟩
      · exact hr
      · exact List.nodup_cons.mpr ⟨fun hm => hfree _ hm ⟨rfl, rfl⟩, hr⟩
      · exact hr
    split_ifs
    · exact hnodup
    · exact hnodup
  · by_cases hremove : ∃ i, a = .removeEvents i
    · obtain ⟨i, rfl⟩ := hremove
      obtain ⟨k, -, -, rfl⟩ := ha
      have hnodup : (s.removeEvents k.cell).regs.Nodup := by
        rcases remove_cases h.pool h.events k.cell with ⟨-, ht⟩ | ⟨o, ev, hd, -, -, -, -, ht⟩
        · rw [ht]
          exact hr
        · rw [ht]
          exact hr.filter _
      split_ifs
      · exact hnodup
      · exact hnodup
    · obtain ⟨-, -, -, hregs, -⟩ := events_outcome h.core (fun i id he => hadd ⟨i, id, he⟩)
        (fun i he => hremove ⟨i, he⟩) ha
      rw [hregs]
      exact hr

end

/-- What holds along undisturbed runs. -/
structure Regular (s : State) : Prop where
  app : AppInv s
  calls : CallsOk s
  paired : Paired s
  noneClosed : NoneClosed s
  nodup : s.regs.Nodup

section

variable {strerror : ℤ → String} {s t : State}

theorem regular_init : Regular {} where
  app := appInv_init
  calls := (callsInvariant fun _ => "").init.2
  paired := ⟨trivial, fun _ _ _ hm => absurd hm List.not_mem_nil, fun _ hm => absurd hm List.not_mem_nil⟩
  noneClosed _ _ ho := absurd ho List.not_mem_nil
  nodup := List.nodup_nil

theorem regular_step (h : Regular s) {a : Action} (hC : Undisturbed s a)
    (hst : (appMachine strerror).step s a = some t) : Regular t := by
  have ha := (State.step_outcome hst).2
  have happ : AppInv t := appInv_step h.app hst
  have hallowed : PairingAllowed s a := pairingAllowed_of_noneClosed h.app h.noneClosed hC
  exact
    { app := happ
      calls := callsOk_outcome h.app h.calls ha
      paired := (paired_step h.app h.calls h.paired ha happ).mpr hallowed
      noneClosed := noneClosed_outcome h.app h.noneClosed hC ha
      nodup := nodup_regs_outcome h.app h.nodup ha }

/-- An active registration of a user belongs to the object that `events_` holds. -/
theorem Regular.stored (h : Regular s) {u : User} {r : Registration} (hr : r ∈ s.regs)
    (hm : r.handle ∈ s.pool.handles u) :
    s.events u = some [(eventIdLifecycle, r.opaquePtr)] ∧
      ∃ ev, s.objs r.opaquePtr = some ev ∧ ev.registered = r.handle ∧ ev.callbackId = r.id := by
  have hconn := conn_of_handleOpen h.app.pool (handleOpen_of_mem h.noneClosed hm)
  obtain ⟨ev, hev, hreg, hid⟩ := (h.app.events.regs r hr).2 u hconn
  have hmem := (h.app.events.registered _ ev hev).1
  rw [hreg] at hmem
  obtain rfl := entry_inj h.app.pool hconn hmem
  exact ⟨(h.app.events.objs _ ev hev).2.1, ev, hev, hreg, hid⟩

/-- Two active registrations of a user are the same. -/
theorem Regular.unique (h : Regular s) {u : User} {r r' : Registration} (hr : r ∈ s.regs)
    (hm : r.handle ∈ s.pool.handles u) (hr' : r' ∈ s.regs) (hm' : r'.handle ∈ s.pool.handles u) :
    r = r' := by
  obtain ⟨he, ev, hev, hh, hid⟩ := h.stored hr hm
  obtain ⟨he', ev', hev', hh', hid'⟩ := h.stored hr' hm'
  have hptr : r.opaquePtr = r'.opaquePtr := by
    rw [he] at he'
    simpa using he'
  rw [hptr, hev'] at hev
  obtain rfl := Option.some.inj hev
  obtain ⟨rh, rid, rptr⟩ := r
  obtain ⟨rh', rid', rptr'⟩ := r'
  simp only [Registration.mk.injEq]
  exact ⟨hh.symm.trans hh', hid.symm.trans hid', hptr⟩

theorem Regular.atMostOne (h : Regular s) (u : User) :
    (s.regs.filter fun r => r.handle ∈ s.pool.handles u).length ≤ 1 := by
  have hnodup := h.nodup.filter fun r => decide (r.handle ∈ s.pool.handles u)
  have hall : ∀ r ∈ s.regs.filter fun r => r.handle ∈ s.pool.handles u,
      r ∈ s.regs ∧ r.handle ∈ s.pool.handles u := by
    intro r hr
    simpa using hr
  cases hl : s.regs.filter fun r => r.handle ∈ s.pool.handles u with
  | nil => simp
  | cons r l =>
    cases l with
    | nil => simp
    | cons r' l =>
      rw [hl] at hnodup hall
      obtain ⟨hr, hm⟩ := hall r List.mem_cons_self
      obtain ⟨hr', hm'⟩ := hall r' (List.mem_cons_of_mem _ List.mem_cons_self)
      obtain rfl := h.unique hr hm hr' hm'
      exact absurd List.mem_cons_self (List.nodup_cons.mp hnodup).1

/-- An object that is gone has been deregistered, and one that is not is the stored one. -/
theorem Regular.settled (h : Regular s) {u : User} {o : ObjId} {hd : Handle} {id : ℤ}
    (hm : hd ∈ s.pool.handles u) (hcall : .register o hd id ∈ s.calls) :
    (s.events u = some [(eventIdLifecycle, o)] ∧ ⟨hd, id, o⟩ ∈ s.regs ∧
        s.calls.count (.deregister o (some hd) id) = 0) ∨
      (∀ r ∈ s.regs, r.handle ∈ s.pool.handles u → r.opaquePtr ≠ o) ∧
        s.calls.count (.deregister o (some hd) id) = 1 := by
  have hcount := h.paired.matched o hd id hcall
  cases hev : s.objs o with
  | some ev =>
    left
    rw [hev] at hcount
    obtain ⟨rfl, rfl⟩ := h.calls.unique o hd id _ _ hcall (h.calls.live o ev hev).1
    have hreg := (h.app.events.registered o ev hev).2
    exact ⟨(h.stored hreg hm).1, hreg, hcount⟩
  | none =>
    right
    rw [hev] at hcount
    refine ⟨?_, hcount⟩
    rintro r hr hmr rfl
    obtain ⟨-, ev, hlive, -⟩ := h.stored hr hmr
    rw [hlive] at hev
    cases hev

/-- One delivery writes at most once to a websocket. -/
theorem event_writes (h : AppInv s) {user : User} {hd : Handle} {id : ℤ} {type : EventType}
    {domain : Option Json} (hst : (appMachine strerror).step s (.event user hd id type domain) = some t) :
    ∃ new, t.writes = new ++ s.writes ∧ ∀ i, (new.filter fun w => w.sock = i).length ≤ 1 := by
  obtain ⟨ho, he⟩ := (State.step_outcome hst).2
  rcases event_of_handleOpen h.core ho he with ⟨-, -, rfl⟩ | ⟨-, data, -, rfl⟩ | ⟨-, rfl⟩
  · exact ⟨[], rfl, fun i => by simp⟩
  · rw [State.broadcast_spec s hd data user (h.socks.nodup _)]
    refine ⟨_, rfl, fun i => ?_⟩
    rw [count_broadcast_writes h.socks hd user data i]
    split_ifs
    · exact le_rfl
    · exact Nat.zero_le 1
  · exact ⟨[], rfl, fun i => by simp⟩

theorem Regular.once (h : Regular s) (u : User) (type : EventType) (domain : Option Json)
    (ht : (appMachine strerror).exec s (s.dispatch u type domain) = some t) :
    ∃ new, t.writes = new ++ s.writes ∧ ∀ i, (new.filter fun w => w.sock = i).length ≤ 1 := by
  have hopen : (fun r : Registration => s.handleOpen u r.handle) =
      fun r => decide (r.handle ∈ s.pool.handles u) := by
    funext r
    rw [Bool.eq_iff_iff, decide_eq_true_eq]
    exact ⟨mem_of_handleOpen, handleOpen_of_mem h.noneClosed⟩
  have hone := h.atMostOne u
  unfold State.dispatch at ht
  rw [hopen] at ht
  cases hl : s.regs.filter fun r => decide (r.handle ∈ s.pool.handles u) with
  | nil =>
    rw [hl] at ht
    obtain rfl : s = t := by simpa using ht
    exact ⟨[], rfl, fun i => by simp⟩
  | cons r l =>
    rw [hl] at ht hone
    obtain rfl : l = [] := by simpa using hone
    obtain ⟨t', hst, ht'⟩ := Machine.exec_cons_eq_some.mp ht
    obtain rfl : t' = t := by simpa using ht'
    exact event_writes h.app hst

theorem Regular.oneRegistration (h : Regular s) (u : User) : OneRegistration strerror s u where
  atMostOne := h.atMostOne u
  stored _ hr hm := h.stored hr hm
  active m hm := by
    obtain ⟨o, ev, rfl, hev, rfl⟩ := h.app.events.events u m hm
    obtain ⟨hmem, hreg⟩ := h.app.events.registered o ev hev
    exact ⟨_, hreg, hmem, rfl⟩
  settled _ _ _ hm hcall := h.settled hm hcall
  once type domain _ ht := h.once u type domain ht

end

/-- **No duplicate subscription.**  Along every run in which no connection is closed and registrations
succeed with fresh ids, each user has at most one active registration, the one in `events_`; those that
lost a race have been deregistered once, and a domain event is written at most once to a websocket. -/
theorem one_registration (strerror : ℤ → String) (as : List Action)
    (h : (appMachine strerror).Meets Undisturbed {} as) :
    (appMachine strerror).Always (fun s => ∀ user, OneRegistration strerror s user) {} as :=
  Machine.always_of_meets (I := Regular) (fun _ hs user => hs.oneRegistration user)
    (fun _ _ _ hs hC hst => regular_step hs hC hst) regular_init h

/-- Two websockets of `ann` race: both find no events and both register. -/
theorem one_registration_race :
    (appMachine fun _ => "").Always (fun s => ∀ user, OneRegistration (fun _ => "") s user) {}
      [.request "/users/ann/websocket/" true none, .request "/users/ann/websocket/" true none,
        .asyncRun 0, .asyncRun 1, .accept 0 true, .accept 1 true, .find 0, .find 1,
        .addEvents 1 7, .addEvents 0 8] := by
  refine one_registration (fun _ => "") _ ?_
  refine .cons rfl trivial (.cons rfl trivial (.cons rfl trivial (.cons rfl trivial
    (.cons rfl trivial (.cons rfl trivial (.cons rfl trivial (.cons rfl trivial
      (.cons rfl ?_ (.cons rfl ?_ trivial)))))))))
  · show (7 : ℤ) ≠ -1
    omega
  · show (8 : ℤ) ≠ -1
    omega

end Webvirtd.App
