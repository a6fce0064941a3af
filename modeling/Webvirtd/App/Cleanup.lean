import Webvirtd.App.Handlers

/-!
# App.Cleanup — what is left after the last websocket of a user

The close handler looks its user's bucket up under the name that it captured, but `remove_events` looks
the events up under the name in the pool entry.  A failed reconnect by another request resets that name,
and then the events of the user stay, registered under a bucket that is empty.
-/

namespace Webvirtd.App

open Lib Virt Http

/-- The step is a handler of its own. -/
def Action.isHandler : Action → Bool
  | .find _ => false
  | .addEvents _ _ => false
  | .remove _ => false
  | .size _ => false
  | .removeEvents _ => false
  | _ => true

/-- The handler does not complete a handshake for the user. -/
def NoHandshake (user : User) (s : State) : Handler → Prop
  | .handshake i _ => ∀ k, s.socks i = some k → k.user ≠ user
  | _ => True

/-- Users without websockets have no events, and the first of them to get through its handshake
registers a new one. -/
structure CleanedUp (strerror : ℤ → String) (s : State) : Prop where
  clean : ∀ user, s.buckets user = [] → s.events user = none
  registers : ∀ user bs t, s.buckets user = [] → (handlerMachine strerror).exec s bs = some t →
    (handlerMachine strerror).Meets (NoHandshake user) s bs →
    ∀ i k id t', t.socks i = some k → k.user = user →
      (handlerMachine strerror).step t (.handshake i id) = some t' →
      t'.events user = some [(eventIdLifecycle, t.nextObj)] ∧
        ∃ h, t'.calls = .register t.nextObj h id :: t.calls

/-- The last `virConnectOpen` for the user has returned a handle. -/
def LastOpened (s : State) (user : User) : Prop :=
  ∃ o h, (s.pool.opens user).head? = some o ∧ o.result = .handle h

/-- When the last websocket of a user with events closes, the last `virConnectOpen` for the user has
returned a handle. -/
def CloseAllowed (s : State) : Handler → Prop
  | .close i => ∀ k, s.socks i = some k → s.buckets k.user = [i] → s.events k.user ≠ none →
    LastOpened s k.user
  | _ => True

section

variable {strerror : ℤ → String} {s t : State}

theorem handler_cases (h : AppInv s) {b : Handler}
    (hst : (handlerMachine strerror).step s b = some t) :
    (∃ i id, b = .handshake i id ∧ HandshakeOutcome s i id t) ∨
      (∃ i, b = .close i ∧ CloseOutcome s i t) ∨
      ((∀ i id, b ≠ .handshake i id) ∧ ∀ i, b ≠ .close i) ∧
        ∃ a, a.isHandler = true ∧ s.Outcome strerror t a := by
  have hone : ∀ {a : Action}, runHandler strerror s b = (appMachine strerror).step s a →
      a.isHandler = true → ∃ a, a.isHandler = true ∧ s.Outcome strerror t a := fun hrun ha =>
    ⟨_, ha, (State.step_outcome (hrun ▸ (handler_eq_some.mp hst).1)).2⟩
  cases b with
  | handshake i id => exact .inl ⟨i, id, rfl, handshake_cases h hst⟩
  | close i => exact .inr (.inl ⟨i, rfl, close_cases h hst⟩)
  | get user errno => exact .inr (.inr ⟨⟨nofun, nofun⟩, hone rfl rfl⟩)
  | closeConn user n => exact .inr (.inr ⟨⟨nofun, nofun⟩, hone rfl rfl⟩)
  | request target isUpgrade errno => exact .inr (.inr ⟨⟨nofun, nofun⟩, hone rfl rfl⟩)
  | asyncRun i => exact .inr (.inr ⟨⟨nofun, nofun⟩, hone rfl rfl⟩)
  | acceptError i => exact .inr (.inr ⟨⟨nofun, nofun⟩, hone rfl rfl⟩)
  | readMessage i => exact .inr (.inr ⟨⟨nofun, nofun⟩, hone rfl rfl⟩)
  | readError i => exact .inr (.inr ⟨⟨nofun, nofun⟩, hone rfl rfl⟩)
  | event user hd id type domain => exact .inr (.inr ⟨⟨nofun, nofun⟩, hone rfl rfl⟩)
  | wrote i => exact .inr (.inr ⟨⟨nofun, nofun⟩, hone rfl rfl⟩)

theorem events_of_isHandler (h : AppInv s) {a : Action} (hone : a.isHandler = true)
    (ha : s.Outcome strerror t a) : t.events = s.events :=
  (events_outcome h.core (by rintro i id rfl; cases hone) (by rintro i rfl; cases hone) ha).1

/-- Only the close handler takes a websocket out of its bucket. -/
theorem mem_bucket_outcome (h : AppInv s) (ht : AppInv t) {a : Action} (hone : a.isHandler = true)
    (ha : s.Outcome strerror t a) {u : User} {i : SockId} (hi : i ∈ s.buckets u) :
    i ∈ t.buckets u := by
  obtain ⟨k, hk, hu, hin⟩ := (h.socks.bucket u i).mp hi
  obtain ⟨k', hk', -, -, huser⟩ := same_outcome h.core ha hk
  refine (ht.socks.bucket u i).mpr ⟨k', hk', huser.trans hu, ?_⟩
  rcases sock_outcome h.core ha hk' with ⟨k1, hk1, -, hp, -⟩ | ⟨k1, hk1, -, hmove, -⟩ |
    ⟨_, up, _, _, _, -, -, -, hp, -⟩
  · rw [hk] at hk1
    obtain rfl := Option.some.inj hk1
    rw [hp]
    exact hin
  · rw [hk] at hk1
    obtain rfl := Option.some.inj hk1
    generalize k.phase = p at hmove hin
    generalize k'.phase = p' at hmove ⊢
    cases hmove with
    | removed => cases hone
    | others => cases hone
    | last => cases hone
    | unsubscribed => cases hone
    | _ => rfl
  · rw [hp]
    cases up with
    | true => rfl
    | false => rfl

/-- An entry holds a handle exactly when the last `virConnectOpen` returned one. -/
theorem lastOpened_iff (h : PoolOk s) (u : User) :
    LastOpened s u ↔ ∃ hd, (s.entry u).conn = some hd := by
  rcases connected_cases h.inv u with ⟨hopened, hconn, -⟩ | ⟨hopened, hconn, -⟩
  · exact iff_of_true hopened hconn
  · refine iff_of_false hopened ?_
    rintro ⟨hd, hhandle⟩
    have hnone : (s.entry u).conn = none := hconn
    rw [hnone] at hhandle
    cases hhandle

theorem leave_ok (h : AppInv s) (i : SockId) (k : Sock) :
    PoolOk (s.leave i k) ∧ EventsOk (s.leave i k) :=
  ⟨h.pool.congr rfl rfl, h.events.congr rfl rfl rfl rfl le_rfl rfl⟩

/-- When the last websocket of a user leaves, the events of the user go if and only if there are none or
the entry holds a handle. -/
theorem events_leave_iff (h : AppInv s) {i : SockId} {k : Sock} (hk : s.socks i = some k) :
    ((s.leave i k).removeEvents k.cell).events k.user = none ↔
      (s.events k.user ≠ none → LastOpened s k.user) := by
  have huser := (h.socks.user i k hk).1
  obtain ⟨hpool, hevents⟩ := leave_ok h i k
  rw [lastOpened_iff h.pool, huser]
  rcases remove_cases hpool hevents k.cell with ⟨hnone, ht⟩ | ⟨o, ev, hd, hconn, -, -, -, ht⟩
  · rw [ht]
    show s.events k.cell = none ↔ _
    have hnone : s.events (s.entry k.cell).user = none := hnone
    constructor
    · exact fun he hne => absurd he hne
    · intro hC
      by_contra hne
      obtain ⟨hd, hconn⟩ := hC hne
      rw [entry_user h.pool hconn] at hnone
      exact hne hnone
  · rw [ht]
    refine ⟨fun _ _ => ⟨hd, hconn⟩, fun _ => ?_⟩
    exact Function.update_self ..

/-- `remove_events` leaves the events of other users alone. -/
theorem events_removeEvents_of_ne (hp : PoolOk s) (h : EventsOk s) {cell u : User} (hu : u ≠ cell) :
    (s.removeEvents cell).events u = s.events u := by
  rcases remove_cases hp h cell with ⟨-, ht⟩ | ⟨_, _, _, -, -, -, -, ht⟩
  · rw [ht]
  · rw [ht]
    exact Function.update_of_ne hu _ _

/-- `remove_events` adds nothing. -/
theorem events_removeEvents_none (hp : PoolOk s) (h : EventsOk s) {cell u : User}
    (hnone : s.events u = none) : (s.removeEvents cell).events u = none := by
  rcases remove_cases hp h cell with ⟨-, ht⟩ | ⟨_, _, _, -, -, -, -, ht⟩
  · rw [ht]
    exact hnone
  · rw [ht]
    by_cases hu : u = cell
    · rw [hu]
      exact Function.update_self ..
    · exact (Function.update_of_ne hu _ _).trans hnone

/-- The last websocket of a bucket. -/
theorem erase_eq_nil_iff (h : SocksOk s) {i : SockId} {k : Sock} (hk : s.socks i = some k)
    (hp : k.phase = .reading) : (s.buckets k.user).erase i = [] ↔ s.buckets k.user = [i] := by
  have hmem : i ∈ s.buckets k.user := (h.bucket _ i).mpr ⟨k, hk, rfl, by rw [hp]; rfl⟩
  constructor
  · intro hnil
    have hperm := List.perm_cons_erase hmem
    rw [hnil] at hperm
    exact List.perm_singleton.mp hperm
  · intro hone
    rw [hone, List.erase_cons_head]

/-! ## Events come with handshakes -/

/-- A user without events gets them only from a handshake of the user. -/
theorem events_none_step (h : AppInv s) {b : Handler} {u : User} (hC : NoHandshake u s b)
    (hnone : s.events u = none) (hst : (handlerMachine strerror).step s b = some t) :
    t.events u = none := by
  rcases handler_cases h hst with ⟨i, id, rfl, ho⟩ | ⟨i, rfl, ho⟩ | ⟨-, a, hone, ha⟩
  · rcases ho with ⟨k, m, hk, hp, hm, rfl⟩ | ⟨k, hd, hk, hp, hid, hconn, hno, rfl⟩
    · exact hnone
    · have hu : u ≠ k.cell := fun hu => hC k hk ((h.socks.user i k hk).1.trans hu.symm)
      exact (Function.update_of_ne hu _ _).trans hnone
  · rcases ho with ⟨k, hk, hp, hne, rfl⟩ | ⟨k, hk, hp, hnil, rfl⟩
    · exact hnone
    · obtain ⟨hpool, hevents⟩ := leave_ok h i k
      exact events_removeEvents_none hpool hevents hnone
  · rw [events_of_isHandler h hone ha]
    exact hnone

theorem events_none_exec (h : AppInv s) {bs : List Handler} {u : User}
    (hC : (handlerMachine strerror).Meets (NoHandshake u) s bs) (hnone : s.events u = none)
    (hst : (handlerMachine strerror).exec s bs = some t) : AppInv t ∧ t.events u = none := by
  induction bs generalizing s with
  | nil =>
    obtain rfl : s = t := by simpa using hst
    exact ⟨h, hnone⟩
  | cons b bs ih =>
    obtain ⟨s1, h1, hrest⟩ := Machine.exec_cons_eq_some.mp hst
    obtain ⟨hb, hbs⟩ := hC s1 h1
    have hinv : AppInv s1 := (handlerInvariant strerror).step s b s1 h h1
    exact ih hinv hbs (events_none_step h hb hnone h1) hrest

/-- A handshake that finds no events registers a new one. -/
theorem registers_of_none (h : AppInv s) {i : SockId} {k : Sock} {id : ℤ} (hk : s.socks i = some k)
    (hnone : s.events k.user = none)
    (hst : (handlerMachine strerror).step s (.handshake i id) = some t) :
    t.events k.user = some [(eventIdLifecycle, s.nextObj)] ∧
      ∃ h, t.calls = .register s.nextObj h id :: s.calls := by
  have huser := (h.socks.user i k hk).1
  rcases handshake_cases h hst with ⟨k', m, hk', -, hm, -⟩ | ⟨k', hd, hk', -, -, -, -, rfl⟩
  · rw [hk] at hk'
    obtain rfl := Option.some.inj hk'
    rw [huser, hm] at hnone
    cases hnone
  · rw [hk] at hk'
    obtain rfl := Option.some.inj hk'
    rw [huser]
    exact ⟨Function.update_self .., hd, rfl⟩

/-! ## Clean-up -/

theorem cleanedUp_iff (h : AppInv s) :
    CleanedUp strerror s ↔ ∀ u, s.buckets u = [] → s.events u = none := by
  refine ⟨fun hc => hc.clean, fun hclean => ⟨hclean, ?_⟩⟩
  rintro u bs t hnil hbs hC i k id t' hk rfl hst
  obtain ⟨ht, hnone⟩ := events_none_exec h hC (hclean _ hnil) hbs
  exact registers_of_none ht hk hnone hst

theorem clean_handshake (h : AppInv s) (hclean : ∀ u, s.buckets u = [] → s.events u = none)
    {i : SockId} {id : ℤ} (ho : HandshakeOutcome s i id t) :
    ∀ u, t.buckets u = [] → t.events u = none := by
  intro u hnil
  rcases ho with ⟨k, m, hk, hp, hm, rfl⟩ | ⟨k, hd, hk, hp, hid, hconn, hno, rfl⟩
  · exact hclean u hnil
  · -- the websocket is in the bucket of its user
    have hnil : s.buckets u = [] := hnil
    have hmem : i ∈ s.buckets k.user := (h.socks.bucket _ i).mpr ⟨k, hk, rfl, by rw [hp]; rfl⟩
    have hu : u ≠ k.cell := by
      rintro rfl
      rw [(h.socks.user i k hk).1, hnil] at hmem
      cases hmem
    exact (Function.update_of_ne hu _ _).trans (hclean u hnil)

theorem buckets_leave_self (i : SockId) (k : Sock) :
    (s.leave i k).buckets k.user = (s.buckets k.user).erase i := Function.update_self ..

theorem buckets_leave_of_ne {u : User} {k : Sock} (hu : u ≠ k.user) (i : SockId) :
    (s.leave i k).buckets u = s.buckets u := Function.update_of_ne hu _ _

/-- A websocket that leaves others behind. -/
theorem clean_leave (hclean : ∀ u, s.buckets u = [] → s.events u = none) {i : SockId} {k : Sock}
    (hne : (s.buckets k.user).erase i ≠ []) :
    ∀ u, (s.leave i k).buckets u = [] → (s.leave i k).events u = none := by
  intro u hnil
  have hu : u ≠ k.user := by
    rintro rfl
    rw [buckets_leave_self] at hnil
    exact hne hnil
  rw [buckets_leave_of_ne hu] at hnil
  exact hclean u hnil

/-- The last websocket of its user leaves. -/
theorem clean_removeEvents_iff (h : AppInv s) (hclean : ∀ u, s.buckets u = [] → s.events u = none)
    {i : SockId} {k : Sock} (hk : s.socks i = some k) (hnil : (s.buckets k.user).erase i = []) :
    (∀ u, ((s.leave i k).removeEvents k.cell).buckets u = [] →
      ((s.leave i k).removeEvents k.cell).events u = none) ↔
      (s.events k.user ≠ none → LastOpened s k.user) := by
  have huser := (h.socks.user i k hk).1
  obtain ⟨hpool, hevents⟩ := leave_ok h i k
  have hbuckets : ((s.leave i k).removeEvents k.cell).buckets = (s.leave i k).buckets := by
    rcases remove_cases hpool hevents k.cell with ⟨-, hr⟩ | ⟨_, _, _, -, -, -, -, hr⟩
    · rw [hr]
    · rw [hr]
  rw [← events_leave_iff h hk, hbuckets]
  constructor
  · intro hcl
    exact hcl k.user ((buckets_leave_self i k).trans hnil)
  · intro hnone u hu
    by_cases huk : u = k.user
    · rw [huk]
      exact hnone
    · rw [buckets_leave_of_ne huk] at hu
      rw [events_removeEvents_of_ne hpool hevents (huser ▸ huk)]
      exact hclean u hu

/-- One handler keeps the users without websockets free of events exactly when it is allowed. -/
theorem clean_step (h : AppInv s) (hclean : ∀ u, s.buckets u = [] → s.events u = none) {b : Handler}
    (hst : (handlerMachine strerror).step s b = some t) :
    (∀ u, t.buckets u = [] → t.events u = none) ↔ CloseAllowed s b := by
  have ht : AppInv t := (handlerInvariant strerror).step s b t h hst
  rcases handler_cases h hst with ⟨i, id, rfl, ho⟩ | ⟨i, rfl, ho⟩ | ⟨⟨-, hnot⟩, a, hone, ha⟩
  · exact ⟨fun _ => trivial, fun _ => clean_handshake h hclean ho⟩
  · have hallowed : ∀ {k}, s.socks i = some k → k.phase = .reading →
        (CloseAllowed s (.close i) ↔ ((s.buckets k.user).erase i = [] → s.events k.user ≠ none →
          LastOpened s k.user)) := by
      intro k hk hp
      rw [erase_eq_nil_iff h.socks hk hp]
      refine ⟨fun hC hlast => hC k hk hlast, fun hC k' hk' hlast => ?_⟩
      rw [hk] at hk'
      obtain rfl := Option.some.inj hk'
      exact hC hlast
    rcases ho with ⟨k, hk, hp, hne, rfl⟩ | ⟨k, hk, hp, hnil, rfl⟩
    · rw [hallowed hk hp]
      exact ⟨fun _ hnil => absurd hnil hne, fun _ => clean_leave hclean hne⟩
    · rw [hallowed hk hp, clean_removeEvents_iff h hclean hk hnil]
      exact ⟨fun hlast _ => hlast, fun hlast => hlast hnil⟩
  · constructor
    · intro _
      cases b with
      | close i => exact absurd rfl (hnot i)
      | _ => trivial
    · intro _ u hnil
      rw [events_of_isHandler h hone ha]
      refine hclean u (List.eq_nil_iff_forall_not_mem.mpr fun i hi => ?_)
      have hmem := mem_bucket_outcome h ht hone ha hi
      rw [hnil] at hmem
      cases hmem

end

/-- **Clean-up.**  Along a run of completed handlers the users without websockets have no events, and the
first of their websockets to get through its handshake registers a new one, if and only if whenever the
last websocket of a user with events closes, the last `virConnectOpen` for the user has returned a
handle. -/
theorem cleanedUp_always_iff (strerror : ℤ → String) (bs : List Handler) :
    (handlerMachine strerror).Always (CleanedUp strerror) {} bs ↔
      (handlerMachine strerror).Meets CloseAllowed {} bs := by
  have hinit : CleanedUp strerror {} := (cleanedUp_iff appInv_init).mpr fun _ _ => rfl
  refine (handlerInvariant strerror).always_iff_meets hinit ?_ bs
  intro s b t hs ht hc hst
  rw [cleanedUp_iff ht]
  exact clean_step hs hc.clean hst

/-- The connection is closed, another request fails to open it again, and then the last websocket
closes. -/
theorem events_left_behind :
    ¬ (handlerMachine fun _ => "").Always (CleanedUp fun _ => "") {}
      [.request "/users/ann/websocket/" true none, .asyncRun 0, .handshake 0 7, .closeConn "ann" 0,
        .get "ann" (some 5), .close 0] := by
  intro h
  obtain ⟨s, hs, hnil, hsome⟩ : ∃ s, (handlerMachine fun _ => "").exec {}
      [.request "/users/ann/websocket/" true none, .asyncRun 0, .handshake 0 7, .closeConn "ann" 0,
        .get "ann" (some 5), .close 0] = some s ∧ s.buckets "ann" = [] ∧
      s.events "ann" = some [(eventIdLifecycle, 0)] := ⟨_, rfl, rfl, rfl⟩
  have hnone := (h.last hs).clean "ann" hnil
  rw [hsome] at hnone
  cases hnone

end Webvirtd.App
