import Webvirtd.App.Frames

/-!
# App.Subscription — handshakes and closes of one user's websockets, interleaved

The handshake handler looks for the user's events and adds them if there are none.  The close handler
removes its websocket, looks whether the bucket is empty, and then removes the user's events; the mutex
is released in between.  A websocket that gets through its handshake in the gap loses the events that it
has just found or added.
-/

namespace Webvirtd.App

open Lib Virt Http

def Quiescent (s : State) : Prop := ∀ i k, s.socks i = some k → k.phase.idle = true

/-- The user has a lifecycle event. -/
def HasEvents (s : State) (user : User) : Prop :=
  ∃ o ev, s.events user = some [(eventIdLifecycle, o)] ∧ s.objs o = some ev

/-- While no handler is in progress, a user with a live websocket has its lifecycle event. -/
def Subscribed (s : State) : Prop :=
  Quiescent s → ∀ i k, s.socks i = some k → k.phase.live = true → HasEvents s k.user

/-- When the events of a user are about to be removed, no websocket of the user is live. -/
def RemovalAllowed (s : State) : Action → Prop
  | .removeEvents i => ∀ k, s.socks i = some k →
    ∀ j k', s.socks j = some k' → k'.user = k.user → k'.phase.live = false
  | _ => True

/-- Users with a live websocket have events, whatever handlers are in progress. -/
def LiveSubscribed (s : State) : Prop :=
  ∀ i k, s.socks i = some k → k.phase.live = true → ∃ m, s.events k.user = some m

section

variable {strerror : ℤ → String} {s t : State}

theorem hasEvents_of_some (h : EventsOk s) {user : User} {m : EventMap} (hm : s.events user = some m) :
    HasEvents s user := by
  obtain ⟨o, ev, rfl, hev, -⟩ := h.events user m hm
  exact ⟨o, ev, hm, hev⟩

/-- Events found under the name in an entry are those of the user of the entry. -/
theorem events_entry (h : AppInv s) {cell : User} {m : EventMap}
    (hm : s.events (s.entry cell).user = some m) : (s.entry cell).user = cell := by
  rcases entry_cases h.pool cell with ⟨-, -, hu, -⟩ | ⟨-, hu⟩
  · exact hu
  · obtain ⟨o, ev, -, hev, hcell⟩ := h.events.events _ m hm
    have hne := (h.events.objs o ev hev).2.2.2.1
    exact absurd (hcell.trans hu) hne

/-- A websocket becomes live when its handshake handler completes. -/
theorem Moves.live {a : Action} {j : SockId} {p p' : Phase} (h : Moves a j p p')
    (hl : p'.live = true) :
    p.live = true ∧ p' ≠ .reading ∨ p' = .reading ∧ (a = .find j ∨ ∃ id, a = .addEvents j id) := by
  cases h with
  | found => exact .inr ⟨rfl, .inl rfl⟩
  | added => exact .inr ⟨rfl, .inr ⟨_, rfl⟩⟩
  | broken => exact .inl ⟨rfl, nofun⟩
  | _ => cases hl

/-- A live websocket was live before, or has just completed its handshake: then its user has events. -/
theorem live_outcome (h : AppInv s) {a : Action} (ha : s.Outcome strerror t a) {j : SockId} {k' : Sock}
    (hk' : t.socks j = some k') (hl : k'.phase.live = true) :
    (∃ k, s.socks j = some k ∧ k.phase.live = true ∧ k.Same k') ∨ ∃ m, t.events k'.user = some m := by
  rcases sock_outcome h.core ha hk' with ⟨k, hk, hs, hp, -⟩ | ⟨k, hk, hs, hmove, -⟩ |
    ⟨_, up, _, _, _, -, -, -, hp, -⟩
  · exact .inl ⟨k, hk, hp ▸ hl, hs⟩
  · rcases hmove.live hl with ⟨hlive, -⟩ | ⟨hp', rfl | ⟨id, rfl⟩⟩
    · exact .inl ⟨k, hk, hlive, hs⟩
    · -- it has found events
      right
      obtain ⟨k1, hk1, -, ⟨-, rfl⟩ | ⟨⟨m, hm⟩, rfl⟩⟩ := ha
      · rw [State.setSock_self] at hk'
        obtain rfl := Option.some.inj hk'
        cases hp'
      · rw [State.finishHandshake, State.setSock_self] at hk'
        obtain rfl := Option.some.inj hk'
        rw [events_entry h hm] at hm
        exact ⟨m, (congrArg s.events (h.socks.user j k1 hk1).1).trans hm⟩
    · -- it has added events
      right
      obtain ⟨k1, hk1, hp1, s', hs', rfl⟩ := ha
      obtain ⟨-, -, hsocks, -⟩ := addEvents_frame h.core hs'
      split_ifs at hk' ⊢ with hup
      · rw [State.finishHandshake, State.setSock_self] at hk'
        obtain rfl := Option.some.inj hk'
        have huser := (h.socks.user j k1 hk1).1
        show ∃ m, s'.events k1.user = some m
        rcases add_cases h.pool h.events hs' with ⟨-, rfl⟩ | ⟨hd, -, -, -, -, rfl⟩ |
          ⟨hd, o, -, -, -, hsome, rfl⟩
        · cases hup
        · refine ⟨[(eventIdLifecycle, s.nextObj)], ?_⟩
          rw [huser]
          exact Function.update_self ..
        · exact ⟨_, huser ▸ hsome⟩
      · rw [hsocks, hk1] at hk'
        obtain rfl := Option.some.inj hk'
        rw [hp1] at hp'
        cases hp'
  · rw [hp] at hl
    cases up with
    | true => cases hl
    | false => cases hl

/-- Only `remove_events` takes events away. -/
theorem events_kept (h : AppInv s) {a : Action} (hremove : ∀ i, a ≠ .removeEvents i)
    (ha : s.Outcome strerror t a) {user : User} {m : EventMap} (hm : s.events user = some m) :
    ∃ m', t.events user = some m' := by
  by_cases hadd : ∃ i id, a = .addEvents i id
  · obtain ⟨i, id, rfl⟩ := hadd
    obtain ⟨k, hk, -, s', hs', rfl⟩ := ha
    have hs'm : ∃ m', s'.events user = some m' := by
      rcases add_cases h.pool h.events hs' with ⟨-, rfl⟩ | ⟨hd, -, -, -, -, rfl⟩ |
        ⟨hd, o, -, -, -, -, rfl⟩
      · exact ⟨m, hm⟩
      · by_cases hu : user = k.cell
        · exact ⟨_, by rw [hu]; exact Function.update_self ..⟩
        · exact ⟨m, (Function.update_of_ne hu _ _).trans hm⟩
      · exact ⟨m, hm⟩
    split_ifs
    · exact hs'm
    · exact hs'm
  · obtain ⟨he, -⟩ := events_outcome h.core (fun i id ha' => hadd ⟨i, id, ha'⟩) hremove ha
    exact ⟨m, he ▸ hm⟩

theorem liveSubscribed_outcome (h : AppInv s) (hl : LiveSubscribed s) {a : Action}
    (hC : RemovalAllowed s a) (ha : s.Outcome strerror t a) : LiveSubscribed t := by
  intro j k' hk' hlive
  rcases live_outcome h ha hk' hlive with ⟨k, hk, hklive, -, -, huser⟩ | hm
  · rw [huser]
    obtain ⟨m, hm⟩ := hl j k hk hklive
    by_cases hremove : ∃ i, a = .removeEvents i
    · obtain ⟨i, rfl⟩ := hremove
      obtain ⟨ki, hki, -, rfl⟩ := ha
      -- the removal is of another user's events, or of none
      have hne : k.user ≠ ki.cell := by
        intro heq
        have hdead := hC ki hki j k hk (heq.trans (h.socks.user i ki hki).1.symm)
        rw [hklive] at hdead
        cases hdead
      have hkept : (s.removeEvents ki.cell).events k.user = some m := by
        rcases remove_cases h.pool h.events ki.cell with ⟨-, ht⟩ | ⟨_, _, _, -, -, -, -, ht⟩
        · rw [ht]
          exact hm
        · rw [ht]
          exact (Function.update_of_ne hne _ _).trans hm
      refine ⟨m, ?_⟩
      split_ifs
      · exact hkept
      · exact hkept
    · exact events_kept h (fun i hi => hremove ⟨i, hi⟩) ha hm
  · exact hm

end

/-- **No lost subscription without a race.**  Along a run in which no websocket of a user gets through
its handshake between the last look at the user's bucket and the removal of the user's events, the
users of live websockets are subscribed in every quiescent state. -/
theorem subscribed_of_removalAllowed (strerror : ℤ → String) (as : List Action)
    (h : (appMachine strerror).Meets RemovalAllowed {} as) :
    (appMachine strerror).Always Subscribed {} as := by
  refine Machine.always_of_meets (I := fun s => AppInv s ∧ LiveSubscribed s) (fun s hs _ i k hk hl => ?_)
    (fun s a t hs hC hst => ?_) ⟨appInv_init, fun _ _ hk => by cases hk⟩ h
  · obtain ⟨m, hm⟩ := hs.2 i k hk hl
    exact hasEvents_of_some hs.1.events hm
  · exact ⟨appInv_step hs.1 hst, liveSubscribed_outcome hs.1 hs.2 hC (State.step_outcome hst).2⟩

/-- A websocket of `ann` that comes and goes. -/
theorem subscribed_of_removalAllowed_closed :
    (appMachine fun _ => "").Always Subscribed {}
      [.request "/users/ann/websocket/" true none, .asyncRun 0, .accept 0 true, .find 0,
        .addEvents 0 7, .read 0 .closed, .remove 0, .size 0, .removeEvents 0] := by
  refine subscribed_of_removalAllowed (fun _ => "") _ ?_
  refine .cons rfl trivial (.cons rfl trivial (.cons rfl trivial (.cons rfl trivial (.cons rfl trivial
    (.cons rfl trivial (.cons rfl trivial (.cons rfl trivial (.cons rfl ?_ trivial))))))))
  rintro k - (_ | j) k' hk' -
  · cases hk'
    rfl
  · cases hk'

/-- The second websocket completes its handshake between the first one's look at the bucket and its
removal of the events. -/
theorem subscription_lost :
    ¬ (appMachine fun _ => "").Always Subscribed {}
      [.request "/users/ann/websocket/" true none, .asyncRun 0, .accept 0 true, .find 0,
        .addEvents 0 7, .read 0 .closed, .remove 0, .size 0,
        .request "/users/ann/websocket/" true none, .asyncRun 1, .accept 1 true, .find 1,
        .removeEvents 0] := by
  intro h
  obtain ⟨s, hs, hq, k, hk, hl, he⟩ : ∃ s, (appMachine fun _ => "").exec {}
      [.request "/users/ann/websocket/" true none, .asyncRun 0, .accept 0 true, .find 0,
        .addEvents 0 7, .read 0 .closed, .remove 0, .size 0,
        .request "/users/ann/websocket/" true none, .asyncRun 1, .accept 1 true, .find 1,
        .removeEvents 0] = some s ∧ Quiescent s ∧ ∃ k, s.socks 1 = some k ∧ k.phase.live = true ∧
      s.events k.user = none := by
    refine ⟨_, rfl, ?_, _, rfl, rfl, rfl⟩
    rintro (_ | _ | i) k hk
    · cases hk
      rfl
    · cases hk
      rfl
    · cases hk
  obtain ⟨o, ev, hsome, -⟩ := h.last hs hq 1 k hk hl
  rw [he] at hsome
  cases hsome

end Webvirtd.App
