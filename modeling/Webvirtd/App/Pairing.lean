import Webvirtd.App.Isolation

/-!
# App.Pairing — registrations and deregistrations with libvirt

`calls` lists what the event objects asked of libvirt, newest first.  `CallsOk` ties it to the callbacks
that libvirt holds and to the live objects, in every run.  `Paired` is what one wants of it: nothing is
deregistered that is not registered, and each registration is taken back exactly when its object goes.
-/

namespace Webvirtd.App

open Lib Virt Http

/-- The object that makes the call. -/
def EventCall.obj : EventCall → ObjId
  | .register o _ _ => o
  | .registerFailed o _ => o
  | .deregister o _ _ => o

/-- The pair was returned by a registration and not deregistered since. -/
def activeIn : List EventCall → Handle → ℤ → Bool
  | [], _, _ => false
  | .register _ h' id' :: cs, h, id => (h' == h && id' == id) || activeIn cs h id
  | .deregister _ conn id' :: cs, h, id => !(conn == some h && id' == id) && activeIn cs h id
  | .registerFailed _ _ :: cs, h, id => activeIn cs h id

/-- Only active pairs are deregistered. -/
def Sound : List EventCall → Prop
  | [] => True
  | .deregister _ conn id :: cs => (∃ h, conn = some h ∧ activeIn cs h id = true) ∧ Sound cs
  | _ :: cs => Sound cs

structure Paired (s : State) : Prop where
  sound : Sound s.calls
  matched : ∀ o h id, .register o h id ∈ s.calls →
    s.calls.count (.deregister o (some h) id) = if (s.objs o).isSome then 0 else 1
  noDangling : ∀ r ∈ s.regs, ∀ u, s.handleOpen u r.handle = true → (s.objs r.opaquePtr).isSome

structure CallsOk (s : State) : Prop where
  lt : ∀ c ∈ s.calls, c.obj < s.nextObj
  active : ∀ h id, activeIn s.calls h id = true ↔ ∃ r ∈ s.regs, r.handle = h ∧ r.id = id
  regs : ∀ r ∈ s.regs, r.id ≠ -1
  live : ∀ o ev, s.objs o = some ev → .register o ev.registered ev.callbackId ∈ s.calls ∧
    ∀ conn id, .deregister o conn id ∉ s.calls
  unique : ∀ o h id h' id', .register o h id ∈ s.calls → .register o h' id' ∈ s.calls →
    h = h' ∧ id = id'

section

variable {s t : State}

theorem CallsOk.congr (h : CallsOk s) (ho : t.objs = s.objs) (hn : t.nextObj = s.nextObj)
    (hr : t.regs = s.regs) (hc : t.calls = s.calls) : CallsOk t := by
  refine ⟨fun c hm => ?_, fun hd id => ?_, fun r hm => ?_, fun o ev hev => ?_,
    fun o hd id hd' id' h1 h2 => ?_⟩
  · rw [hn]
    exact h.lt c (hc ▸ hm)
  · rw [hc, hr]
    exact h.active hd id
  · exact h.regs r (hr ▸ hm)
  · rw [hc]
    exact h.live o ev (ho ▸ hev)
  · exact h.unique o hd id hd' id' (hc ▸ h1) (hc ▸ h2)

/-- An object that does not exist yet has made no calls. -/
theorem not_mem_calls (h : CallsOk s) {c : EventCall} (hc : c.obj = s.nextObj) : c ∉ s.calls :=
  fun hm => absurd (h.lt c hm) (by rw [hc]; exact lt_irrefl _)

/-- A pair that libvirt holds no callback for is not active. -/
theorem activeIn_eq_false (h : CallsOk s) {hd : Handle} {id : ℤ}
    (hfree : ∀ r ∈ s.regs, ¬ (r.handle = hd ∧ r.id = id)) : activeIn s.calls hd id = false := by
  cases ha : activeIn s.calls hd id with
  | false => rfl
  | true =>
    obtain ⟨r, hr, hh, hid⟩ := (h.active hd id).mp ha
    exact absurd ⟨hh, hid⟩ (hfree r hr)

/-! ### The calls of a new object -/

section

variable {new : List EventCall}

theorem lt_append (h : CallsOk s) (hnew : ∀ c ∈ new, c.obj = s.nextObj) :
    ∀ c ∈ new ++ s.calls, c.obj < s.nextObj + 1 := by
  intro c hm
  rcases List.mem_append.mp hm with hm | hm
  · rw [hnew c hm]
    exact Nat.lt_succ_self _
  · exact Nat.lt_succ_of_lt (h.lt c hm)

theorem live_append (h : CallsOk s) (hnew : ∀ c ∈ new, c.obj = s.nextObj) {o : ObjId}
    {ev : LifecycleEvent} (hev : s.objs o = some ev) :
    .register o ev.registered ev.callbackId ∈ new ++ s.calls ∧
      ∀ conn id, .deregister o conn id ∉ new ++ s.calls := by
  obtain ⟨h1, h2⟩ := h.live o ev hev
  have hold : o ≠ s.nextObj := fun ho =>
    not_mem_calls h (c := .register o ev.registered ev.callbackId) ho h1
  refine ⟨List.mem_append_right _ h1, fun conn id hm => ?_⟩
  rcases List.mem_append.mp hm with hm | hm
  · exact hold (hnew _ hm)
  · exact h2 conn id hm

theorem unique_append (h : CallsOk s) (hnew : ∀ c ∈ new, c.obj = s.nextObj)
    (hone : ∀ o hd id hd' id', .register o hd id ∈ new → .register o hd' id' ∈ new →
      hd = hd' ∧ id = id') :
    ∀ o hd id hd' id', .register o hd id ∈ new ++ s.calls → .register o hd' id' ∈ new ++ s.calls →
      hd = hd' ∧ id = id' := by
  intro o hd id hd' id' h1 h2
  have hapart : ∀ {hd id hd' id'}, .register o hd id ∈ new → .register o hd' id' ∉ s.calls :=
    fun {hd id hd' id'} hm => not_mem_calls h (hnew (.register o hd id) hm)
  rcases List.mem_append.mp h1 with hm1 | hm1
  · rcases List.mem_append.mp h2 with hm2 | hm2
    · exact hone o hd id hd' id' hm1 hm2
    · exact absurd hm2 (hapart hm1)
  · rcases List.mem_append.mp h2 with hm2 | hm2
    · exact absurd hm1 (hapart hm2)
    · exact h.unique o hd id hd' id' hm1 hm2

end

theorem callsOk_failed (h : CallsOk s) (conn : Option Handle) :
    CallsOk (s.registrationFailed conn) := by
  have hnew : ∀ c ∈ [EventCall.deregister s.nextObj conn (-1), .registerFailed s.nextObj conn],
      c.obj = s.nextObj := by simp [EventCall.obj]
  refine ⟨lt_append h hnew, fun hd id => ?_, h.regs, fun o ev hev => live_append h hnew hev,
    unique_append h hnew (by simp)⟩
  refine Iff.trans ?_ (h.active hd id)
  show (!(conn == some hd && (-1 : ℤ) == id) && activeIn s.calls hd id) = true ↔ _
  by_cases hid : id = -1
  · -- no callback has the id -1
    have hno : activeIn s.calls hd id = false :=
      activeIn_eq_false h fun r hr hpair => h.regs r hr (hpair.2.trans hid)
    simp [hno]
  · simp [Ne.symm hid]

/-- A registration that succeeds, and whose object is stored. -/
theorem callsOk_register (h : CallsOk s) (cell user : User) (hd : Handle) {id : ℤ}
    (hid : 0 ≤ id) : CallsOk (s.register cell user hd id) := by
  have hnew : ∀ c ∈ [EventCall.register s.nextObj hd id], c.obj = s.nextObj := by simp [EventCall.obj]
  refine ⟨lt_append h hnew, fun hd' id' => ?_, fun r hm => ?_, fun o ev hev => ?_,
    unique_append h hnew ?_⟩
  · have hold := h.active hd' id'
    show ((hd == hd' && id == id') || activeIn s.calls hd' id') = true ↔ _
    simp [State.register, hold]
  · rcases List.mem_cons.mp hm with rfl | hm
    · simp only
      omega
    · exact h.regs r hm
  · by_cases ho : o = s.nextObj
    · subst ho
      obtain rfl : ⟨cell, id, user, hd⟩ = ev := by simpa [State.register] using hev
      refine ⟨List.mem_cons_self, fun conn id' hm => ?_⟩
      rcases List.mem_cons.mp hm with heq | hm
      · cases heq
      · exact not_mem_calls h (c := .deregister s.nextObj conn id') rfl hm
    · have hev' : s.objs o = some ev := by simpa [State.register, ho] using hev
      exact live_append h hnew hev'
  · intro o hd1 id1 hd2 id2 h1 h2
    cases List.mem_singleton.mp h1
    cases List.mem_singleton.mp h2
    exact ⟨rfl, rfl⟩

/-- A registration that succeeds, and whose object is destroyed at once. -/
theorem callsOk_dropped (h : CallsOk s) {hd : Handle} {id : ℤ}
    (hfree : ∀ r ∈ s.regs, ¬ (r.handle = hd ∧ r.id = id)) :
    CallsOk { s with
      nextObj := s.nextObj + 1
      calls := .deregister s.nextObj (some hd) id :: .register s.nextObj hd id :: s.calls } := by
  have hnew : ∀ c ∈ [EventCall.deregister s.nextObj (some hd) id, .register s.nextObj hd id],
      c.obj = s.nextObj := by simp [EventCall.obj]
  refine ⟨lt_append h hnew, fun hd' id' => ?_, h.regs, fun o ev hev => live_append h hnew hev,
    unique_append h hnew ?_⟩
  · have hold := h.active hd' id'
    show (!(some hd == some hd' && id == id') &&
      ((hd == hd' && id == id') || activeIn s.calls hd' id')) = true ↔ _
    rw [← hold]
    by_cases hpair : hd = hd' ∧ id = id'
    · obtain ⟨rfl, rfl⟩ := hpair
      simp [activeIn_eq_false h hfree]
    · have hne : (hd == hd' && id == id') = false := by simpa using not_and.mp hpair
      simp [hne]
  · intro o hd1 id1 hd2 id2 h1 h2
    simp only [List.mem_cons, reduceCtorEq, List.not_mem_nil, or_false, false_or,
      EventCall.register.injEq] at h1 h2
    exact ⟨h1.2.1.trans h2.2.1.symm, h1.2.2.trans h2.2.2.symm⟩

/-- The object `o` is destroyed while its entry holds `hd`. -/
theorem callsOk_removed (h : CallsOk s) {o : ObjId} {ev : LifecycleEvent} (hev : s.objs o = some ev)
    (hd : Handle) (events : User → Option EventMap) :
    CallsOk { s with
      objs := Function.update s.objs o none
      regs := s.regs.filter fun r => !(r.handle == hd && r.id == ev.callbackId)
      calls := .deregister o (some hd) ev.callbackId :: s.calls
      events := events } := by
  refine ⟨fun c hm => ?_, fun hd' id' => ?_, fun r hm => ?_, fun o' ev' hev' => ?_,
    fun o' hd1 id1 hd2 id2 h1 h2 => ?_⟩
  · rcases List.mem_cons.mp hm with rfl | hm
    · have hlt := h.lt _ (h.live o ev hev).1
      exact hlt
    · exact h.lt c hm
  · have hold := h.active hd' id'
    show (!(some hd == some hd' && ev.callbackId == id') && activeIn s.calls hd' id') = true ↔
      ∃ r ∈ s.regs.filter _, _
    constructor
    · intro ha
      obtain ⟨hne, hact⟩ := Bool.and_eq_true_iff.mp ha
      obtain ⟨r, hr, rfl, rfl⟩ := hold.mp hact
      have hne : ¬ hd = r.handle ∨ ¬ ev.callbackId = r.id := by simpa using hne
      refine ⟨r, List.mem_filter.mpr ⟨hr, ?_⟩, rfl, rfl⟩
      simpa using hne.imp Ne.symm Ne.symm
    · rintro ⟨r, hr, rfl, rfl⟩
      obtain ⟨hr, hne⟩ := List.mem_filter.mp hr
      have hne : ¬ r.handle = hd ∨ ¬ r.id = ev.callbackId := by simpa using hne
      refine Bool.and_eq_true_iff.mpr ⟨?_, hold.mpr ⟨r, hr, rfl, rfl⟩⟩
      simpa using hne.imp Ne.symm Ne.symm
  · exact h.regs r (List.mem_filter.mp hm).1
  · obtain ⟨hne, hev'⟩ := update_none_eq_some.mp hev'
    obtain ⟨h1, h2⟩ := h.live o' ev' hev'
    refine ⟨List.mem_cons_of_mem _ h1, fun conn id' hm => ?_⟩
    rcases List.mem_cons.mp hm with heq | hm
    · cases heq
      exact hne rfl
    · exact h2 conn id' hm
  · have hold : ∀ {hd' id'}, .register o' hd' id' ∈
        (.deregister o (some hd) ev.callbackId :: s.calls) → .register o' hd' id' ∈ s.calls := by
      intro hd' id' hm
      rcases List.mem_cons.mp hm with heq | hm
      · cases heq
      · exact hm
    exact h.unique o' hd1 id1 hd2 id2 (hold h1) (hold h2)

/-- Every step keeps `CallsOk`. -/
theorem callsOk_outcome {strerror : ℤ → String} (h : AppInv s) (hc : CallsOk s) {a : Action}
    (ha : s.Outcome strerror t a) : CallsOk t := by
  by_cases hadd : ∃ i id, a = .addEvents i id
  · obtain ⟨i, id, rfl⟩ := hadd
    obtain ⟨k, hk, -, s', hs', rfl⟩ := ha
    have hcalls : CallsOk s' := by
      rcases add_cases h.pool h.events hs' with ⟨-, rfl⟩ | ⟨hd, hid, -, -, -, rfl⟩ |
        ⟨hd, o, -, -, hfree, -, rfl⟩
      · exact callsOk_failed hc _
      · exact (callsOk_register hc k.cell k.cell hd hid).congr rfl rfl rfl rfl
      · exact callsOk_dropped hc hfree
    split_ifs
    · exact hcalls.congr rfl rfl rfl rfl
    · exact hcalls
  · by_cases hremove : ∃ i, a = .removeEvents i
    · obtain ⟨i, rfl⟩ := hremove
      obtain ⟨k, hk, -, rfl⟩ := ha
      have hcalls : CallsOk (s.removeEvents k.cell) := by
        rcases remove_cases h.pool h.events k.cell with ⟨-, ht⟩ | ⟨o, ev, hd, -, -, hev, -, ht⟩
        · rw [ht]
          exact hc
        · rw [ht]
          exact callsOk_removed hc hev hd _
      split_ifs
      · exact hcalls.congr rfl rfl rfl rfl
      · exact hcalls
    · obtain ⟨-, ho, hn, hr, hcs⟩ := events_outcome h.core (fun i id he => hadd ⟨i, id, he⟩)
        (fun i he => hremove ⟨i, he⟩) ha
      exact hc.congr ho hn hr hcs

end

theorem callsInvariant (strerror : ℤ → String) :
    (appMachine strerror).Invariant fun s => AppInv s ∧ CallsOk s :=
  (appInvariant strerror).and
    { lt := fun _ hm => absurd hm List.not_mem_nil
      active := fun _ _ =>
        ⟨fun h => (by cases h), fun ⟨_, hm, _⟩ => absurd hm List.not_mem_nil⟩
      regs := fun _ hm => absurd hm List.not_mem_nil
      live := fun _ _ hev => by cases hev
      unique := fun _ _ _ _ _ hm => absurd hm List.not_mem_nil }
    fun _ _ _ h hc hst _ => callsOk_outcome h hc (State.step_outcome hst).2

/-! ## When the calls are paired -/

/-- Registrations succeed, and events are removed while the entry still holds the handle that their
object was registered on. -/
def PairingAllowed (s : State) : Action → Prop
  | .addEvents _ id => id ≠ -1
  | .removeEvents i => ∀ k o ev, s.socks i = some k → s.objs o = some ev →
    ev.cell = (s.entry k.cell).user → (s.entry k.cell).conn = some ev.registered
  | _ => True

section

variable {strerror : ℤ → String} {s t : State}

theorem noDangling_of_appInv (h : AppInv s) : ∀ r ∈ s.regs, ∀ u, s.handleOpen u r.handle = true →
    (s.objs r.opaquePtr).isSome := by
  intro r hr u ho
  obtain ⟨ev, hev, -⟩ := callback_of_handleOpen h.core ho hr rfl
  rw [hev]
  rfl

theorem Paired.congr (h : Paired s) (ht : AppInv t) (ho : t.objs = s.objs)
    (hc : t.calls = s.calls) : Paired t := by
  refine ⟨hc ▸ h.sound, fun o hd id hm => ?_, noDangling_of_appInv ht⟩
  rw [hc] at hm ⊢
  rw [ho]
  exact h.matched o hd id hm

/-- A failed registration deregisters the id -1, which no registration returned. -/
theorem not_sound_failed (hc : CallsOk s) (conn : Option Handle) :
    ¬ Sound (s.registrationFailed conn).calls := by
  rintro ⟨⟨hd, -, hact⟩, -⟩
  have hact : activeIn s.calls hd (-1) = true := hact
  obtain ⟨r, hr, -, hid⟩ := (hc.active hd (-1)).mp hact
  exact hc.regs r hr hid

theorem count_register (cs : List EventCall) (o o' : ObjId) (h h' : Handle) (id id' : ℤ) :
    (EventCall.register o' h' id' :: cs).count (.deregister o (some h) id) =
      cs.count (.deregister o (some h) id) := List.count_cons_of_ne (by simp)

theorem count_deregister_of_ne (cs : List EventCall) {o o' : ObjId} (ho : o' ≠ o)
    (h : Handle) (conn : Option Handle) (id id' : ℤ) :
    (EventCall.deregister o' conn id' :: cs).count (.deregister o (some h) id) =
      cs.count (.deregister o (some h) id) := List.count_cons_of_ne (by simp [ho])

/-- A registration whose object is stored is not deregistered yet. -/
theorem paired_register (hc : CallsOk s) (hp : Paired s) (cell user : User) (hd : Handle) (id : ℤ)
    (events : User → Option EventMap)
    (ht : AppInv { s.register cell user hd id with events := events }) :
    Paired { s.register cell user hd id with events := events } := by
  refine ⟨hp.sound, fun o h id' hm => ?_, noDangling_of_appInv ht⟩
  show (EventCall.register s.nextObj hd id :: s.calls).count (.deregister o (some h) id') = _
  rw [count_register]
  rcases List.mem_cons.mp hm with heq | hm
  · have ho : o = s.nextObj := congrArg EventCall.obj heq
    subst ho
    rw [List.count_eq_zero.mpr (not_mem_calls hc rfl)]
    simp [State.register]
  · have ho : o ≠ s.nextObj := fun ho => not_mem_calls hc (c := .register o h id') ho hm
    rw [hp.matched o h id' hm]
    simp [State.register, ho]

/-- A duplicate is deregistered at once, on the handle it was registered on. -/
theorem paired_dropped (h : AppInv s) (hc : CallsOk s) (hp : Paired s) (hd : Handle) (id : ℤ)
    (ht : AppInv { s with
      nextObj := s.nextObj + 1
      calls := .deregister s.nextObj (some hd) id :: .register s.nextObj hd id :: s.calls }) :
    Paired { s with
      nextObj := s.nextObj + 1
      calls := .deregister s.nextObj (some hd) id :: .register s.nextObj hd id :: s.calls } := by
  have hdead : s.objs s.nextObj = none := h.events.objs_nextObj
  refine ⟨⟨⟨hd, rfl, by simp [activeIn]⟩, hp.sound⟩, fun o hd' id' hm => ?_, noDangling_of_appInv ht⟩
  show (EventCall.deregister s.nextObj (some hd) id :: .register s.nextObj hd id ::
    s.calls).count (.deregister o (some hd') id') = if (s.objs o).isSome then 0 else 1
  rcases List.mem_cons.mp hm with heq | hm
  · cases heq
  · rcases List.mem_cons.mp hm with heq | hm
    · cases heq
      rw [List.count_cons_self, count_register, List.count_eq_zero.mpr (not_mem_calls hc rfl), hdead]
      rfl
    · have ho : s.nextObj ≠ o := fun ho =>
        not_mem_calls hc (c := .register o hd' id') ho.symm hm
      rw [count_deregister_of_ne _ ho, count_register]
      exact hp.matched o hd' id' hm

/-- The removal of an object is paired exactly when its entry still holds its handle. -/
theorem paired_removed_iff (hc : CallsOk s) (hp : Paired s) {o : ObjId} {ev : LifecycleEvent}
    (hev : s.objs o = some ev) (hreg : ⟨ev.registered, ev.callbackId, o⟩ ∈ s.regs) (hd : Handle)
    (events : User → Option EventMap)
    (ht : AppInv { s with
      objs := Function.update s.objs o none
      regs := s.regs.filter fun r => !(r.handle == hd && r.id == ev.callbackId)
      calls := .deregister o (some hd) ev.callbackId :: s.calls
      events := events }) :
    Paired { s with
      objs := Function.update s.objs o none
      regs := s.regs.filter fun r => !(r.handle == hd && r.id == ev.callbackId)
      calls := .deregister o (some hd) ev.callbackId :: s.calls
      events := events } ↔ hd = ev.registered := by
  obtain ⟨hmem, hno⟩ := hc.live o ev hev
  constructor
  · intro h
    have hone := h.matched o ev.registered ev.callbackId (List.mem_cons_of_mem _ hmem)
    have hone : (EventCall.deregister o (some hd) ev.callbackId :: s.calls).count
        (.deregister o (some ev.registered) ev.callbackId) =
        if (Function.update s.objs o none o).isSome then 0 else 1 := hone
    by_contra hne
    rw [List.count_cons_of_ne (by simpa using hne), List.count_eq_zero.mpr (hno _ _),
      Function.update_self] at hone
    cases hone
  · rintro rfl
    have hactive : activeIn s.calls ev.registered ev.callbackId = true :=
      (hc.active _ _).mpr ⟨_, hreg, rfl, rfl⟩
    refine ⟨⟨⟨_, rfl, hactive⟩, hp.sound⟩, fun o' hd' id' hm => ?_, noDangling_of_appInv ht⟩
    show (EventCall.deregister o (some ev.registered) ev.callbackId :: s.calls).count
      (.deregister o' (some hd') id') = if (Function.update s.objs o none o').isSome then 0 else 1
    rcases List.mem_cons.mp hm with heq | hold
    · cases heq
    · by_cases ho : o' = o
      · subst ho
        obtain ⟨rfl, rfl⟩ := hc.unique o' _ _ _ _ hold hmem
        rw [List.count_cons_self, List.count_eq_zero.mpr (hno _ _), Function.update_self]
        rfl
      · rw [count_deregister_of_ne _ (Ne.symm ho), Function.update_of_ne ho]
        exact hp.matched o' hd' id' hold

/-- The handler that goes on afterwards makes no calls. -/
theorem paired_ite_setSock (h : AppInv s) {i : SockId} {k : Sock}
    (ht : AppInv (if s.up then s.setSock i k else s)) :
    Paired (if s.up then s.setSock i k else s) ↔ Paired s := by
  split_ifs at ht ⊢
  · exact ⟨fun hp => hp.congr h rfl rfl, fun hp => hp.congr ht rfl rfl⟩
  · exact Iff.rfl

theorem paired_addEvents_iff (h : AppInv s) (hc : CallsOk s) (hp : Paired s) {cell : User} {id : ℤ}
    (ht : AppInv t) (ha : s.addEvents cell id = some t) : Paired t ↔ id ≠ -1 := by
  rcases add_cases h.pool h.events ha with ⟨hid, rfl⟩ | ⟨hd, hid, -, -, -, rfl⟩ |
    ⟨hd, o, hid, -, -, -, rfl⟩
  · exact ⟨fun hq => absurd hq.sound (not_sound_failed hc _), fun hne => absurd hid hne⟩
  · exact iff_of_true (paired_register hc hp _ _ _ _ _ ht) (by omega)
  · exact iff_of_true (paired_dropped h hc hp _ _ ht) (by omega)

/-- The removal is paired exactly when the entry still holds the handles of the objects it is to remove. -/
theorem paired_removeEvents_iff (h : AppInv s) (hc : CallsOk s) (hp : Paired s) {cell : User}
    (ht : AppInv (s.removeEvents cell)) :
    Paired (s.removeEvents cell) ↔ ∀ o ev, s.objs o = some ev → ev.cell = (s.entry cell).user →
      (s.entry cell).conn = some ev.registered := by
  rcases remove_cases h.pool h.events cell with ⟨hnone, hrm⟩ |
    ⟨o, ev, hd, hconn, hsome, hev, hcell, hrm⟩
  · rw [hrm]
    refine iff_of_true hp fun o ev hev hcell => ?_
    rw [← hcell, (h.events.objs o ev hev).2.1] at hnone
    cases hnone
  · rw [hrm] at ht ⊢
    rw [paired_removed_iff hc hp hev (h.events.registered o ev hev).2 hd _ ht]
    have huser := entry_user h.pool hconn
    constructor
    · rintro rfl o' ev' hev' hcell'
      have hevents := (h.events.objs o' ev' hev').2.1
      rw [hcell', huser, hsome] at hevents
      obtain rfl : o = o' := by simpa using hevents
      rw [hev] at hev'
      obtain rfl := Option.some.inj hev'
      exact hconn
    · intro hallowed
      have hregistered := hallowed o ev hev (hcell.trans huser.symm)
      rw [hconn] at hregistered
      exact Option.some.inj hregistered

/-- One step: the calls stay paired exactly by the allowed steps. -/
theorem paired_step (h : AppInv s) (hc : CallsOk s) (hp : Paired s) {a : Action}
    (ha : s.Outcome strerror t a) (ht : AppInv t) : Paired t ↔ PairingAllowed s a := by
  by_cases hadd : ∃ i id, a = .addEvents i id
  · obtain ⟨i, id, rfl⟩ := hadd
    obtain ⟨k, hk, -, s', hs', rfl⟩ := ha
    have hs'inv := appInv_addEvents h (cell_ne_empty h.core hk) hs'
    exact (paired_ite_setSock hs'inv ht).trans (paired_addEvents_iff h hc hp hs'inv hs')
  · by_cases hremove : ∃ i, a = .removeEvents i
    · obtain ⟨i, rfl⟩ := hremove
      obtain ⟨k, hk, -, rfl⟩ := ha
      have hs'inv := appInv_removeEvents h k.cell
      refine (paired_ite_setSock hs'inv ht).trans ((paired_removeEvents_iff h hc hp hs'inv).trans ?_)
      constructor
      · intro hallowed k' o ev hk' hev hcell
        rw [hk] at hk'
        obtain rfl := Option.some.inj hk'
        exact hallowed o ev hev hcell
      · intro hallowed o ev hev hcell
        exact hallowed k o ev hk hev hcell
    · obtain ⟨-, ho, -, -, hcs⟩ := events_outcome h.core (fun i id he => hadd ⟨i, id, he⟩)
        (fun i he => hremove ⟨i, he⟩) ha
      refine ⟨fun _ => ?_, fun _ => hp.congr ht ho hcs⟩
      cases a with
      | addEvents i id => exact absurd ⟨i, id, rfl⟩ hadd
      | removeEvents i => exact absurd ⟨i, rfl⟩ hremove
      | _ => trivial

end

/-- **Pairing.**  Along a run each registration is taken back exactly once, with the handle and id it
was made with, when its object goes, and nothing else is deregistered, if and only if every registration
of the run succeeds and events are only removed while their user's entry holds the handle that they
were registered on. -/
theorem registration_pairing_iff (strerror : ℤ → String) (as : List Action) :
    (appMachine strerror).Always Paired {} as ↔
      (appMachine strerror).Meets PairingAllowed {} as := by
  have hinit : Paired {} := ⟨trivial, fun _ _ _ hm => absurd hm List.not_mem_nil,
    fun _ hm => absurd hm List.not_mem_nil⟩
  refine (callsInvariant strerror).always_iff_meets hinit ?_ as
  rintro s a t ⟨hs, hcalls⟩ ⟨ht, -⟩ hp hst
  exact paired_step hs hcalls hp (State.step_outcome hst).2 ht

/-- The connection is closed and opened again before the last websocket closes: the event object is
deregistered on the new handle. -/
theorem registration_unpaired :
    ¬ (appMachine fun _ => "").Always Paired {}
      [.request "/users/ann/websocket/" true none, .asyncRun 0, .accept 0 true, .find 0,
        .addEvents 0 7, .closeConn "ann" 0, .get "ann" none, .read 0 .closed, .remove 0, .size 0,
        .removeEvents 0] := by
  intro h
  obtain ⟨s, hs, hmem, hcount⟩ : ∃ s, (appMachine fun _ => "").exec {}
      [.request "/users/ann/websocket/" true none, .asyncRun 0, .accept 0 true, .find 0,
        .addEvents 0 7, .closeConn "ann" 0, .get "ann" none, .read 0 .closed, .remove 0, .size 0,
        .removeEvents 0] = some s ∧ .register 0 0 7 ∈ s.calls ∧
      s.calls = [.deregister 0 (some 1) 7, .register 0 0 7] :=
    ⟨_, rfl, List.mem_cons_of_mem _ List.mem_cons_self, rfl⟩
  obtain ⟨⟨hd, heq, hact⟩, -⟩ : Sound [.deregister 0 (some 1) 7, .register 0 0 7] :=
    hcount ▸ (h.last hs).sound
  obtain rfl := Option.some.inj heq
  cases hact

end Webvirtd.App
