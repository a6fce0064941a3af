import Webvirtd.App.State

/-!
# App.Steps — what each step does

`Outcome` says everything that a step can do, guards included; `step_outcome` is the only proof that
unfolds the step function.  `add_cases` and `remove_cases` do the same for `add_events` and
`remove_events`, and `broadcast_spec` for the loop of `broadcast`.
-/

namespace Webvirtd.App

open Lib Virt Http

namespace State

section

variable (strerror : ℤ → String) (s t : State)

/-- What a step by the action leads to. -/
def Outcome : Action → Prop
  | .get user errno => t = (s.poolGet strerror user errno).2
  | .closeConn user n => ∃ pool, s.pool.close user n = some pool ∧ t = { s with pool := pool }
  | .request target isUpgrade errno => ∃ cell, websocketUser target = some cell ∧
    ((∃ e, (s.poolGet strerror cell errno).1 = .error e ∧ t = (s.poolGet strerror cell errno).2) ∨
      ∃ c, (s.poolGet strerror cell errno).1 = .ok c ∧
        t = (s.poolGet strerror cell errno).2.addSock
          { target := target, cell := cell, user := c.user,
            phase := if isUpgrade then .posted else .unstarted })
  | .asyncRun i => ∃ k, s.socks i = some k ∧ k.phase = .posted ∧
    t = s.setSock i { k with phase := .accepting }
  | .accept i ok => ∃ k, s.socks i = some k ∧ k.phase = .accepting ∧
    t = s.setSock i { k with phase := if ok then .handshaking else .failed }
  | .find i => ∃ k, s.socks i = some k ∧ k.phase = .handshaking ∧
    ((s.events (s.entry k.cell).user = none ∧ t = s.setSock i { k with phase := .missing }) ∨
      (∃ m, s.events (s.entry k.cell).user = some m) ∧ t = s.finishHandshake i k)
  | .addEvents i id => ∃ k, s.socks i = some k ∧ k.phase = .missing ∧
    ∃ s', s.addEvents k.cell id = some s' ∧
      t = if s'.up then s'.finishHandshake i k else s'
  | .read i r => ∃ k, s.socks i = some k ∧ k.phase = .reading ∧
    t = match r with
      | .message => s
      | .closed => s.setSock i { k with phase := .closing }
      | .error => s.setSock i { k with phase := .broken }
  | .remove i => ∃ k, s.socks i = some k ∧ k.phase = .closing ∧
    t = if i ∈ s.buckets k.user then
        { s.setSock i { k with phase := .removed } with
          buckets := Function.update s.buckets k.user ((s.buckets k.user).erase i) }
      else s.terminate
  | .size i => ∃ k, s.socks i = some k ∧ k.phase = .removed ∧
    t = s.setSock i { k with phase := if (s.buckets k.user).length = 0 then .last else .closed }
  | .removeEvents i => ∃ k, s.socks i = some k ∧ k.phase = .last ∧
    t = if (s.removeEvents k.cell).up then
        (s.removeEvents k.cell).setSock i { k with phase := .closed }
      else s.removeEvents k.cell
  | .event user h id type domain => s.handleOpen user h = true ∧ s.event h id type domain = some t
  | .wrote i => ∃ k, s.socks i = some k ∧ 0 < k.writing ∧
    t = s.setSock i { k with writing := k.writing - 1 }

variable {strerror s t}

theorem sockAt_eq_some {i : SockId} {phase : Phase} {k : Sock} :
    s.sockAt i phase = some k ↔ s.socks i = some k ∧ k.phase = phase := by
  unfold sockAt
  rw [Option.filter_eq_some_iff]
  simp

theorem step_outcome {a : Action} (h : (appMachine strerror).step s a = some t) :
    s.up = true ∧ s.Outcome strerror t a := by
  simp only [appMachine] at h
  split_ifs at h with hup
  refine ⟨hup, ?_⟩
  cases a with
  | get user errno => exact (Option.some.inj h).symm
  | closeConn user n =>
    obtain ⟨pool, hpool, ht⟩ := Option.map_eq_some_iff.mp h
    exact ⟨pool, hpool, ht.symm⟩
  | request target isUpgrade errno =>
    simp only [stepUp, request] at h
    cases hcell : websocketUser target with
    | none => rw [hcell] at h; cases h
    | some cell =>
      rw [hcell] at h
      refine ⟨cell, hcell, ?_⟩
      rcases hg : s.poolGet strerror cell errno with ⟨e | c, s'⟩
      · simp only [hg] at h
        exact .inl ⟨e, rfl, (Option.some.inj h).symm⟩
      · simp only [hg] at h
        exact .inr ⟨c, rfl, (Option.some.inj h).symm⟩
  | asyncRun i =>
    obtain ⟨k, hk, rfl⟩ := Option.map_eq_some_iff.mp h
    obtain ⟨hk, hp⟩ := sockAt_eq_some.mp hk
    exact ⟨k, hk, hp, rfl⟩
  | accept i ok =>
    obtain ⟨k, hk, rfl⟩ := Option.map_eq_some_iff.mp h
    obtain ⟨hk, hp⟩ := sockAt_eq_some.mp hk
    exact ⟨k, hk, hp, rfl⟩
  | find i =>
    obtain ⟨k, hk, rfl⟩ := Option.map_eq_some_iff.mp h
    obtain ⟨hk, hp⟩ := sockAt_eq_some.mp hk
    refine ⟨k, hk, hp, ?_⟩
    cases he : s.events (s.entry k.cell).user with
    | none => exact .inl ⟨rfl, by simp⟩
    | some m => exact .inr ⟨⟨m, rfl⟩, by simp⟩
  | addEvents i id =>
    obtain ⟨k, hk, h⟩ := Option.bind_eq_some_iff.mp h
    obtain ⟨hk, hp⟩ := sockAt_eq_some.mp hk
    obtain ⟨s', hs', rfl⟩ := Option.map_eq_some_iff.mp h
    exact ⟨k, hk, hp, s', hs', rfl⟩
  | read i r =>
    obtain ⟨k, hk, rfl⟩ := Option.map_eq_some_iff.mp h
    obtain ⟨hk, hp⟩ := sockAt_eq_some.mp hk
    exact ⟨k, hk, hp, rfl⟩
  | remove i =>
    obtain ⟨k, hk, rfl⟩ := Option.map_eq_some_iff.mp h
    obtain ⟨hk, hp⟩ := sockAt_eq_some.mp hk
    exact ⟨k, hk, hp, rfl⟩
  | size i =>
    obtain ⟨k, hk, rfl⟩ := Option.map_eq_some_iff.mp h
    obtain ⟨hk, hp⟩ := sockAt_eq_some.mp hk
    exact ⟨k, hk, hp, rfl⟩
  | removeEvents i =>
    obtain ⟨k, hk, rfl⟩ := Option.map_eq_some_iff.mp h
    obtain ⟨hk, hp⟩ := sockAt_eq_some.mp hk
    exact ⟨k, hk, hp, rfl⟩
  | event user h' id type domain =>
    simp only [stepUp] at h
    split_ifs at h with ho
    exact ⟨ho, h⟩
  | wrote i =>
    obtain ⟨k, hk, h⟩ := Option.bind_eq_some_iff.mp h
    split_ifs at h with hw
    exact ⟨k, hk, hw, (Option.some.inj h).symm⟩

end

@[simp] theorem setSock_self (s : State) (i : SockId) (k : Sock) : (s.setSock i k).socks i = some k :=
  Function.update_self ..

theorem setSock_of_ne (s : State) {i j : SockId} (h : j ≠ i) (k : Sock) :
    (s.setSock i k).socks j = s.socks j := Function.update_of_ne h ..

/-- What the delivery of an event does: the callback runs on an object that is gone, or `simple_domain`
throws; or the event is broadcast; or it is of no interest. -/
inductive EventOutcome (s : State) (h : Handle) (id : ℤ) (type : EventType) (domain : Option Json)
    (t : State) : Prop
  | dangling (r : Registration) (hr : r ∈ s.regs) (hh : r.handle = h) (hid : r.id = id)
      (hdead : s.objs r.opaquePtr = none) (ht : t = s.terminate)
  | threw (r : Registration) (ev : LifecycleEvent) (hr : r ∈ s.regs) (hh : r.handle = h)
      (hid : r.id = id) (hev : s.objs r.opaquePtr = some ev) (htype : type.isTarget = true)
      (hdomain : domain = none) (ht : t = s.terminate)
  | broadcast (r : Registration) (ev : LifecycleEvent) (data : Json) (hr : r ∈ s.regs)
      (hh : r.handle = h) (hid : r.id = id) (hev : s.objs r.opaquePtr = some ev)
      (htype : type.isTarget = true) (hdomain : domain = some data)
      (ht : t = s.broadcast h ev.user data)
  | ignored (r : Registration) (ev : LifecycleEvent) (hr : r ∈ s.regs) (hh : r.handle = h)
      (hid : r.id = id) (hev : s.objs r.opaquePtr = some ev) (htype : type.isTarget = false)
      (ht : t = s)

theorem event_cases {s t : State} {h : Handle} {id : ℤ} {type : EventType} {domain : Option Json}
    (he : s.event h id type domain = some t) : s.EventOutcome h id type domain t := by
  unfold event at he
  cases hf : s.regs.find? fun r => r.handle = h && r.id = id with
  | none => rw [hf] at he; cases he
  | some r =>
    have hr := List.mem_of_find?_eq_some hf
    have hp := List.find?_some hf
    simp only [Bool.and_eq_true, decide_eq_true_eq] at hp
    obtain ⟨hh, hid⟩ := hp
    simp only [hf] at he
    cases hev : s.objs r.opaquePtr with
    | none =>
      simp only [hev] at he
      exact .dangling r hr hh hid hev (Option.some.inj he).symm
    | some ev =>
      simp only [hev] at he
      cases htype : type.isTarget with
      | false =>
        rw [htype] at he
        exact .ignored r ev hr hh hid hev htype (Option.some.inj he).symm
      | true =>
        rw [htype] at he
        cases domain with
        | none => exact .threw r ev hr hh hid hev htype rfl (Option.some.inj he).symm
        | some data => exact .broadcast r ev data hr hh hid hev htype rfl (Option.some.inj he).symm

/-! ## The pool -/

section

variable {strerror : ℤ → String} {s : State}

/-- What the next `virConnectOpen` returns. -/
def openResult (s : State) (errno : Option ℤ) : OpenResult :=
  match errno with
  | some e => .null e
  | none => .handle s.nextHandle

theorem poolGet_fst (user : User) (errno : Option ℤ) :
    (s.poolGet strerror user errno).1 = (s.pool.get strerror user (s.openResult errno)).1 := rfl

theorem poolGet_snd (user : User) (errno : Option ℤ) :
    (s.poolGet strerror user errno).2 =
      { s with
        pool := (s.pool.get strerror user (s.openResult errno)).2
        nextHandle := s.nextHandle + 1 } := rfl

end

/-! ## Broadcasts -/

section

variable (s : State) (source : Handle) (data : Json)

/-- A websocket after one more write has started. -/
def startWrite (k : Sock) : Sock := { k with writing := k.writing + 1 }

/-- What a write to `i` is recorded as. -/
def writeOf (i : SockId) : List Write :=
  (s.socks i).toList.map fun k => ⟨i, source, data, k.phase.isOpen, 0 < k.writing⟩

theorem write_eq (i : SockId) :
    s.write source data i =
      { s with
        socks := Function.update s.socks i ((s.socks i).map startWrite)
        writes := s.writeOf source data i ++ s.writes } := by
  unfold write writeOf
  cases hk : s.socks i with
  | none =>
    have hsame : Function.update s.socks i (none : Option Sock) = s.socks := by
      rw [← hk, Function.update_eq_self]
    simp only [Option.map_none, hsame]
    rfl
  | some k => rfl

theorem foldl_write (l : List SockId) (hl : l.Nodup) :
    l.foldl (fun s i => s.write source data i) s =
      { s with
        socks := fun i => if i ∈ l then (s.socks i).map startWrite else s.socks i
        writes := (l.reverse.flatMap fun i => s.writeOf source data i) ++ s.writes } := by
  induction l generalizing s with
  | nil => simp
  | cons i l ih =>
    obtain ⟨hi, hl⟩ := List.nodup_cons.mp hl
    rw [List.foldl_cons, ih _ hl, write_eq]
    have hother : ∀ j ∈ l, Function.update s.socks i ((s.socks i).map startWrite) j = s.socks j :=
      fun j hj => Function.update_of_ne (by rintro rfl; exact hi hj) _ _
    have hwrites : (l.reverse.flatMap fun j =>
        ({ s with
            socks := Function.update s.socks i ((s.socks i).map startWrite)
            writes := s.writeOf source data i ++ s.writes } : State).writeOf source data j) =
        l.reverse.flatMap fun j => s.writeOf source data j := by
      refine List.flatMap_congr fun j hj => ?_
      simp only [writeOf, hother j (List.mem_reverse.mp hj)]
    congr 1
    · funext j
      by_cases hj : j = i
      · subst hj
        simp [hi]
      · by_cases hjl : j ∈ l
        · simp [hj, hjl]
        · simp [hj, hjl]
    · rw [hwrites]
      simp [List.flatMap_append]

/-- One write to each websocket of a bucket, and nothing else. -/
theorem broadcast_spec (user : User) (hn : (s.buckets user).Nodup) :
    s.broadcast source user data =
      { s with
        socks := fun i => if i ∈ s.buckets user then (s.socks i).map startWrite else s.socks i
        writes := ((s.buckets user).reverse.flatMap fun i => s.writeOf source data i) ++ s.writes } :=
  foldl_write s source data _ hn

end

end State

end Webvirtd.App
