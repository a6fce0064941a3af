import Webvirtd.App.Upgrading

/-!
# App.EraseSafety — what is erased, and whether it is there

`websocket::pool::remove` and `virt::events::remove` erase what `find` returns without a look at it.  The second is
only called on maps in `events_`, which hold the lifecycle event and no other.  The first is called with the name that
`on_close` has copied, and the websocket is in the bucket of the name that `websockets_.add` has read: it is there if
and only if the entry of the user was connected both times, or neither time.
-/

namespace Webvirtd.App

open Lib Virt Http

/-- Neither `erase` receives the end iterator, and the maps in `events_` hold the lifecycle key alone. -/
structure EraseSafe (strerror : ℤ → String) (s : State) : Prop where
  remove : ∀ i t, (appMachine strerror).step s (.remove i) = some t →
    t.up = true ∧ ∃ k, s.socks i = some k ∧ i ∈ s.buckets k.user
  removeEvents : ∀ i t, (appMachine strerror).step s (.removeEvents i) = some t →
    t.up = true ∧ ∃ k, s.socks i = some k ∧
      ∀ m, s.events (s.entry k.cell).user = some m → ∃ o, (eventIdLifecycle, o) ∈ m
  stored : ∀ u m, s.events u = some m → m.map Prod.fst = [eventIdLifecycle]

/-- Along the run the erased elements are there, and the close handler of a websocket runs at most once. -/
structure ErasesSafely (strerror : ℤ → String) (as : List UpgradeAction) : Prop where
  safe : (upgradeMachine strerror).Always (fun s => EraseSafe strerror s.app) {} as
  once : ∀ bs cs s, as = bs ++ cs → (upgradeMachine strerror).exec {} bs = some s → ∀ i,
    Machine.AtMostOnce (.app (.read i .closed)) bs ∧ Machine.AtMostOnce (.app (.remove i)) bs

/-- A websocket that closes had its name copied and read by `add` while its entry was connected both times, or neither
time. -/
def ClosesAsAdded (s : UpgradeState) : UpgradeAction → Prop
  | .app (.read i .closed) => ∀ x, s.added i = some x → x.copied = x.added
  | _ => True

/-- How far the phase is from the start. -/
def Phase.rank : Phase → ℕ
  | .unstarted => 0
  | .posted => 0
  | .accepting => 1
  | .handshaking => 2
  | .missing => 3
  | .reading => 4
  | .failed => 5
  | .broken => 5
  | .closing => 5
  | .removed => 6
  | .last => 7
  | .closed => 8

/-- The handlers of the websocket have come further than `phase`. -/
def Past (i : SockId) (phase : Phase) (s : State) : Prop :=
  ∃ k, s.socks i = some k ∧ phase.rank < k.phase.rank

section

variable {strerror : ℤ → String} {s t : State} {i : SockId} {phase : Phase}

/-- Handlers only move on. -/
theorem Moves.rank_lt {a : Action} {i : SockId} {p p' : Phase} (h : Moves a i p p') :
    p.rank < p'.rank := by
  cases h with
  | _ => decide

/-- A request for a websocket does not touch the others. -/
theorem socks_request (h : CoreInv s) {target : String} {isUpgrade : Bool} {errno : Option ℤ}
    (ha : s.Outcome strerror t (.request target isUpgrade errno)) {i : SockId} {k : Sock}
    (hk : s.socks i = some k) : t.socks i = some k := by
  obtain ⟨cell, -, ⟨e, -, rfl⟩ | ⟨c, -, rfl⟩⟩ := ha
  · exact hk
  · exact setSock_eq_some.mpr (.inr ⟨ne_of_lt (h.sock i k hk).1, hk⟩)

theorem past_outcome (h : CoreInv s) {i : SockId} {phase : Phase} (hp : Past i phase s) {a : Action}
    (ha : s.Outcome strerror t a) : Past i phase t := by
  obtain ⟨k, hk, hlt⟩ := hp
  obtain ⟨k', hk', -⟩ := same_outcome h ha hk
  refine ⟨k', hk', ?_⟩
  rcases sock_outcome h ha hk' with ⟨k1, hk1, -, hph, -⟩ | ⟨k1, hk1, -, hmove, -⟩ |
    ⟨target, up, errno, cell, c, rfl, -⟩
  · rw [hk] at hk1
    obtain rfl := Option.some.inj hk1
    rw [hph]
    exact hlt
  · rw [hk] at hk1
    obtain rfl := Option.some.inj hk1
    exact hlt.trans hmove.rank_lt
  · rw [socks_request h ha hk] at hk'
    obtain rfl := Option.some.inj hk'
    exact hlt

theorem not_past (hk : ∃ k, s.socks i = some k ∧ k.phase = phase) : ¬ Past i phase s := by
  obtain ⟨k, hk, rfl⟩ := hk
  rintro ⟨k', hk', hlt⟩
  rw [hk] at hk'
  obtain rfl := Option.some.inj hk'
  exact lt_irrefl _ hlt

theorem past_of_rank_lt {k : Sock} {p : Phase} (hk : s.socks i = some k) (hp : k.phase = p)
    (hlt : phase.rank < p.rank) : Past i phase s := ⟨k, hk, hp ▸ hlt⟩

/-- `remove_events` finds the lifecycle event of the user, if the user has events at all. -/
theorem removeEvents_step (h : CoreInv s)
    (hst : (appMachine strerror).step s (.removeEvents i) = some t) :
    t.up = true ∧ ∃ k, s.socks i = some k ∧
      ∀ m, s.events (s.entry k.cell).user = some m → ∃ o, (eventIdLifecycle, o) ∈ m := by
  obtain ⟨hup, k, hk, hp, rfl⟩ := State.step_outcome hst
  have hup' : (s.removeEvents k.cell).up = true := (removeEvents_frame h k.cell).2.2.2.2.trans hup
  rw [if_pos hup']
  refine ⟨hup', k, hk, fun m hm => ?_⟩
  obtain ⟨o, ev, rfl, -⟩ := h.events.events _ m hm
  exact ⟨o, List.mem_singleton_self _⟩

theorem closed_step (hst : (appMachine strerror).step s (.read i .closed) = some t) :
    Past i .reading t ∧ ∃ k, s.socks i = some k ∧ k.phase = .reading := by
  obtain ⟨-, k, hk, hp, rfl⟩ := State.step_outcome hst
  exact ⟨past_of_rank_lt (p := .closing) (State.setSock_self ..) rfl (by decide), k, hk, hp⟩

/-- The close handler goes on, or takes the app down. -/
theorem remove_step (hst : (appMachine strerror).step s (.remove i) = some t) :
    (Past i .closing t ∨ t.up = false) ∧ ∃ k, s.socks i = some k ∧ k.phase = .closing := by
  obtain ⟨-, k, hk, hp, rfl⟩ := State.step_outcome hst
  refine ⟨?_, k, hk, hp⟩
  by_cases hm : i ∈ s.buckets k.user
  · rw [if_pos hm]
    exact .inl (past_of_rank_lt (p := .removed) (State.setSock_self ..) rfl (by decide))
  · rw [if_neg hm]
    exact .inr rfl

end

section

variable {strerror : ℤ → String} {s t : UpgradeState} {i : SockId} {phase : Phase}

/-- The websockets whose close handler is about to run are in the bucket of the copied name. -/
def UpgradeState.Matched (s : UpgradeState) : Prop :=
  ∀ i k x, s.app.socks i = some k → k.phase = .closing → s.added i = some x → x.copied = x.added

theorem mem_bucket_iff (h : UpgradeInv s) {k : Sock} {x : Added} (hk : s.app.socks i = some k)
    (hx : s.added i = some x) (hp : k.phase.inBucket = true) : i ∈ s.app.buckets k.user ↔ x.copied = x.added := by
  obtain ⟨x', hx', huser, hbucket⟩ := h.added i k hk
  rw [hx] at hx'
  obtain rfl := Option.some.inj hx'
  rw [h.bucket, ← nameOf_inj (cell_ne_empty h.core hk), ← huser, ← hbucket]
  constructor
  · rintro ⟨k', x', hk', hx', hu, -⟩
    rw [hk] at hk'
    rw [hx] at hx'
    obtain rfl := Option.some.inj hk'
    obtain rfl := Option.some.inj hx'
    exact hu.symm
  · exact fun heq => ⟨k, x, hk, hx, heq.symm, hp⟩

theorem eraseSafe_iff (h : UpgradeInv s) : EraseSafe strerror s.app ↔ (s.app.up = true → s.Matched) := by
  constructor
  · intro hsafe hup i k x hk hp hx
    have hin : k.phase.inBucket = true := by rw [hp]; rfl
    have hst : (appMachine strerror).step s.app (.remove i) = some _ :=
      (if_pos hup).trans (Option.map_eq_some_iff.mpr ⟨k, State.sockAt_eq_some.mpr ⟨hk, hp⟩, rfl⟩)
    obtain ⟨-, k', hk', hm⟩ := hsafe.remove i _ hst
    rw [hk] at hk'
    obtain rfl := Option.some.inj hk'
    exact (mem_bucket_iff h hk hx hin).mp hm
  · intro hmatched
    refine ⟨fun i t hst => ?_, fun i t hst => removeEvents_step h.core hst, fun u m hm => ?_⟩
    · obtain ⟨hup, k, hk, hp, rfl⟩ := State.step_outcome hst
      obtain ⟨x, hx, -⟩ := h.added i k hk
      have hin : k.phase.inBucket = true := by rw [hp]; rfl
      have hm := (mem_bucket_iff h hk hx hin).mpr (hmatched hup i k x hk hp hx)
      rw [if_pos hm]
      exact ⟨hup, k, hk, hm⟩
    · obtain ⟨o, ev, rfl, -⟩ := h.core.events.events u m hm
      rfl

/-- Only a read that ends by `closed` calls the close handler. -/
theorem Moves.closing {a : Action} {i : SockId} {p p' : Phase} (h : Moves a i p p') (hp : p' = .closing) :
    a = .read i .closed := by
  cases h with
  | closed => rfl
  | _ => cases hp

/-- One step: it brings a close handler to a bucket without its websocket, or none. -/
theorem matched_outcome (h : UpgradeInv s) (hup : s.app.up = true) (hm : s.Matched) {a : UpgradeAction}
    (ha : UpgradeOutcome strerror s t a) : (t.app.up = true → t.Matched) ↔ ClosesAsAdded s a := by
  cases ha with
  | app a app hne hst ht =>
    have ha := (State.step_outcome hst).2
    constructor
    · intro htm
      cases a with
      | read i r =>
        cases r with
        | closed =>
          obtain ⟨k, hk, -, rfl⟩ := ha
          intro x hx
          subst ht
          exact htm hup i { k with phase := .closing } x (State.setSock_self ..) rfl hx
        | _ => trivial
      | _ => trivial
    · intro hC _ i k' x hk' hp hx
      subst ht
      rcases sock_outcome h.core ha hk' with ⟨k, hk, -, hph, -⟩ | ⟨k, -, -, hmove, -⟩ | ⟨target, up, errno, _, _, rfl, -⟩
      · exact hm i k x hk (hph.symm.trans hp) hx
      · obtain rfl := hmove.closing hp
        exact hC x hx
      · exact absurd rfl (hne _ _ _)
  | refused target isUpgrade errno cell e hcell hget ht =>
    subst ht
    exact iff_of_true (fun _ i k x hk hp hx => hm i k x hk hp hx) trivial
  | connected target isUpgrade errno cell c hcell hget ht =>
    subst ht
    exact iff_of_true (fun _ i k x hk hp hx => hm i k x hk hp hx) trivial
  | copied r q hq hc ht =>
    subst ht
    exact iff_of_true (fun _ i k x hk hp hx => hm i k x hk hp hx) trivial
  | added r q c hq hc ht =>
    subst ht
    refine iff_of_true (fun _ i k x hk hp hx => ?_) trivial
    rcases setSock_eq_some.mp hk with ⟨rfl, rfl⟩ | ⟨hi, hk⟩
    · -- the new websocket is not closing
      cases hup : q.isUpgrade with
      | true => simp [hup] at hp
      | false => simp [hup] at hp
    · replace hx : Function.update s.added s.app.nextSock _ i = some x := hx
      rw [Function.update_of_ne hi] at hx
      exact hm i k x hk hp hx

theorem past_upgrade (h : UpgradeInv s) (hp : Past i phase s.app) {a : UpgradeAction}
    (ha : UpgradeOutcome strerror s t a) : Past i phase t.app := by
  cases ha with
  | app a app hne hst ht =>
    subst ht
    exact past_outcome h.core hp (State.step_outcome hst).2
  | refused target isUpgrade errno cell e hcell hget ht =>
    subst ht
    exact hp
  | connected target isUpgrade errno cell c hcell hget ht =>
    subst ht
    exact hp
  | copied r q hq hc ht =>
    subst ht
    exact hp
  | added r q c hq hc ht =>
    subst ht
    obtain ⟨k, hk, hlt⟩ := hp
    exact ⟨k, setSock_eq_some.mpr (.inr ⟨ne_of_lt (h.core.sock i k hk).1, hk⟩), hlt⟩

/-- The handlers for the end of a websocket run at most once, whatever becomes of them. -/
theorem closes_once {as : List UpgradeAction} (hs : (upgradeMachine strerror).exec {} as = some s) (i : SockId) :
    Machine.AtMostOnce (.app (.read i .closed)) as ∧ Machine.AtMostOnce (.app (.remove i)) as := by
  have hinv := upgradeInvariant strerror
  have hkeep : ∀ {i phase} s b t, UpgradeInv s → Past i phase s.app →
      (upgradeMachine strerror).step s b = some t → Past i phase t.app :=
    fun s b t h hp hst => past_upgrade h hp (upgrade_outcome hst).2
  constructor
  · refine Machine.atMostOnce_of_blocks (D := fun s => Past i .reading s.app) hinv (fun s t _ hst => ?_) hkeep
      (fun s t _ hp hst => ?_) hs
    · obtain ⟨-, ⟨_, app, -, happ, rfl⟩⟩ := upgrade_outcome hst
      exact (closed_step happ).1
    · obtain ⟨-, ⟨_, app, -, happ, rfl⟩⟩ := upgrade_outcome hst
      exact not_past (closed_step happ).2 hp
  · refine Machine.atMostOnce_of_blocks (D := fun s => Past i .closing s.app ∨ s.app.up = false) hinv
      (fun s t _ hst => ?_) (fun s b t h hp hst => ?_) (fun s t _ hp hst => ?_) hs
    · obtain ⟨-, ⟨_, app, -, happ, rfl⟩⟩ := upgrade_outcome hst
      exact (remove_step happ).1
    · rcases hp with hp | hdown
      · exact .inl (hkeep s b t h hp hst)
      · rw [(upgrade_outcome hst).1] at hdown
        cases hdown
    · obtain ⟨hup, ⟨_, app, -, happ, rfl⟩⟩ := upgrade_outcome hst
      rcases hp with hp | hdown
      · exact not_past (remove_step happ).2 hp
      · rw [hup] at hdown
        cases hdown

end

/-- **Erase safety.**  Along a run, under any interleaving of handlers, websocket requests, reconnects and closes, both
`erase`s only erase what is there if and only if no websocket closes whose entry was connected when one of its two
names was read and not when the other was. -/
theorem erase_safety_iff (strerror : ℤ → String) (as : List UpgradeAction) :
    ErasesSafely strerror as ↔ (upgradeMachine strerror).Meets ClosesAsAdded {} as := by
  have hinit : EraseSafe strerror ({} : UpgradeState).app :=
    (eraseSafe_iff upgradeInv_init).mpr fun _ _ _ _ hk => by cases hk
  have hiff := (upgradeInvariant strerror).always_iff_meets (P := fun s => EraseSafe strerror s.app)
    (C := ClosesAsAdded) hinit (fun s a t hs ht hsafe hst => by
      obtain ⟨hup, ha⟩ := upgrade_outcome hst
      exact (eraseSafe_iff ht).trans (matched_outcome hs hup ((eraseSafe_iff hs).mp hsafe hup) ha)) as
  exact ⟨fun h => hiff.mp h.safe, fun h => ⟨hiff.mpr h, fun bs cs s _ hs i => closes_once hs i⟩⟩

/-- While a websocket request of `ann` is between its two reads of `conn.user()`, libvirt closes her connection and
another request fails to reopen it: the websocket is added to the bucket of no one, and when it closes it is looked for
in the bucket of `ann`. -/
def betweenReads : List UpgradeAction :=
  [.connect "/users/ann/websocket/" true none, .copy 0, .app (.closeConn "ann" 0), .app (.get "ann" (some 111)), .add 0,
    .app (.get "ann" none), .app (.asyncRun 0), .app (.accept 0 true), .app (.find 0), .app (.addEvents 0 7),
    .app (.read 0 .closed)]

theorem erase_unsafe : ¬ ErasesSafely (fun _ => "") betweenReads := by
  intro h
  obtain ⟨s, t, hs, hst, hdown⟩ : ∃ s t, (upgradeMachine fun _ => "").exec {} betweenReads = some s ∧
      (appMachine fun _ => "").step s.app (.remove 0) = some t ∧ t.up = false := ⟨_, _, rfl, rfl, rfl⟩
  obtain ⟨hup, -⟩ := (h.safe.last hs).remove 0 t hst
  rw [hdown] at hup
  cases hup

end Webvirtd.App
