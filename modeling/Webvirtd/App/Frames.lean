import Webvirtd.App.Invariants

/-!
# App.Frames — what a step leaves alone

For each part of the state, which steps touch it and what they do to it: the websockets
(`socksEffect_outcome`; `same_outcome` forwards, `sock_outcome` backwards), and the rest (`effect_outcome`:
the pool, the events, the writes).
The proofs about runs go by these rather than by the thirteen kinds of steps.
-/

namespace Webvirtd.App

open Lib Virt Http

/-- The same websocket, possibly further on. -/
def Sock.Same (k k' : Sock) : Prop :=
  k'.target = k.target ∧ k'.cell = k.cell ∧ k'.user = k.user

theorem Sock.Same.refl (k : Sock) : k.Same k := ⟨rfl, rfl, rfl⟩

section

variable {strerror : ℤ → String} {s t : State}

theorem addEvents_frame (h : CoreInv s) {cell : User} {id : ℤ} (ha : s.addEvents cell id = some t) :
    t.pool = s.pool ∧ t.buckets = s.buckets ∧ t.socks = s.socks ∧ t.writes = s.writes := by
  rcases add_cases h.pool h.events ha with ⟨-, rfl⟩ | ⟨_, _, _, _, _, rfl⟩ | ⟨_, _, _, _, _, _, rfl⟩
  · exact ⟨rfl, rfl, rfl, rfl⟩
  · exact ⟨rfl, rfl, rfl, rfl⟩
  · exact ⟨rfl, rfl, rfl, rfl⟩

theorem removeEvents_frame (h : CoreInv s) (cell : User) :
    (s.removeEvents cell).pool = s.pool ∧ (s.removeEvents cell).buckets = s.buckets ∧
      (s.removeEvents cell).socks = s.socks ∧ (s.removeEvents cell).writes = s.writes ∧
      (s.removeEvents cell).up = s.up := by
  rcases remove_cases h.pool h.events cell with ⟨-, ht⟩ | ⟨_, _, _, _, _, _, _, ht⟩
  · rw [ht]
    exact ⟨rfl, rfl, rfl, rfl, rfl⟩
  · rw [ht]
    exact ⟨rfl, rfl, rfl, rfl, rfl⟩

/-- The handshake handler has completed, and the websocket has not closed. -/
def Phase.live : Phase → Bool
  | .reading => true
  | .broken => true
  | _ => false

/-- No handler of the websocket is in progress. -/
def Phase.idle : Phase → Bool
  | .handshaking => false
  | .missing => false
  | .closing => false
  | .removed => false
  | .last => false
  | _ => true

/-- How a step moves the handlers of the websocket on. -/
inductive Moves : Action → SockId → Phase → Phase → Prop
  | run (i : SockId) : Moves (.asyncRun i) i .posted .accepting
  | accepted (i : SockId) : Moves (.accept i true) i .accepting .handshaking
  | refused (i : SockId) : Moves (.accept i false) i .accepting .failed
  | missing (i : SockId) : Moves (.find i) i .handshaking .missing
  | found (i : SockId) : Moves (.find i) i .handshaking .reading
  | added (i : SockId) (id : ℤ) : Moves (.addEvents i id) i .missing .reading
  | closed (i : SockId) : Moves (.read i .closed) i .reading .closing
  | broken (i : SockId) : Moves (.read i .error) i .reading .broken
  | removed (i : SockId) : Moves (.remove i) i .closing .removed
  | others (i : SockId) : Moves (.size i) i .removed .closed
  | last (i : SockId) : Moves (.size i) i .removed .last
  | unsubscribed (i : SockId) : Moves (.removeEvents i) i .last .closed

/-- What a step does to the websockets: nothing, or a handler of one of them runs, or a new one comes, or
writes start on a bucket. -/
inductive SocksEffect (strerror : ℤ → String) (s t : State) (a : Action) : Prop
  | same (hsocks : t.socks = s.socks)
  | kept (i : SockId) (k k' : Sock) (hk : s.socks i = some k)
      (hsocks : t.socks = Function.update s.socks i (some k')) (hs : k.Same k')
      (hp : k'.phase = k.phase) (hh : k'.handshaken = k.handshaken)
  | moved (i : SockId) (k k' : Sock) (hk : s.socks i = some k)
      (hsocks : t.socks = Function.update s.socks i (some k')) (hs : k.Same k')
      (hp : Moves a i k.phase k'.phase)
      (hh : k'.handshaken =
        if k'.phase = .reading then (s.pool.handles k.cell).head? else k.handshaken)
  | new (k : Sock) (target : String) (isUpgrade : Bool) (errno : Option ℤ) (cell : User)
      (c : Connection) (ha : a = .request target isUpgrade errno)
      (hcell : websocketUser target = some cell) (hget : (s.poolGet strerror cell errno).1 = .ok c)
      (hp : k.phase = if isUpgrade then .posted else .unstarted) (hh : k.handshaken = none)
      (hsocks : t.socks = Function.update s.socks s.nextSock (some k))
  | broadcast (user : User) (hsocks : t.socks = fun i =>
      if i ∈ s.buckets user then (s.socks i).map State.startWrite else s.socks i)

theorem socksEffect_outcome (h : CoreInv s) {a : Action} (ha : s.Outcome strerror t a) :
    SocksEffect strerror s t a := by
  cases a with
  | get user errno =>
    obtain rfl : t = _ := ha
    exact .same rfl
  | closeConn user n =>
    obtain ⟨pool, -, rfl⟩ := ha
    exact .same rfl
  | request target isUpgrade errno =>
    obtain ⟨cell, hcell, ⟨e, -, rfl⟩ | ⟨c, hget, rfl⟩⟩ := ha
    · exact .same rfl
    · exact .new _ target isUpgrade errno cell c rfl hcell hget rfl rfl rfl
  | asyncRun i =>
    obtain ⟨k, hk, hp, rfl⟩ := ha
    exact .moved i k _ hk rfl (.refl k) (by rw [hp]; exact .run i) rfl
  | accept i ok =>
    obtain ⟨k, hk, hp, rfl⟩ := ha
    cases ok with
    | true => exact .moved i k _ hk rfl (.refl k) (by rw [hp]; exact .accepted i) rfl
    | false => exact .moved i k _ hk rfl (.refl k) (by rw [hp]; exact .refused i) rfl
  | find i =>
    obtain ⟨k, hk, hp, ⟨-, rfl⟩ | ⟨-, rfl⟩⟩ := ha
    · exact .moved i k _ hk rfl (.refl k) (by rw [hp]; exact .missing i) rfl
    · exact .moved i k _ hk rfl (.refl k) (by rw [hp]; exact .found i) rfl
  | addEvents i id =>
    obtain ⟨k, hk, hp, s', hs', rfl⟩ := ha
    obtain ⟨hpool, -, hsocks, -⟩ := addEvents_frame h hs'
    split_ifs
    · have hset : (s'.finishHandshake i k).socks = Function.update s'.socks i (some _) := rfl
      rw [hsocks] at hset
      refine .moved i k _ hk hset (.refl k) (by rw [hp]; exact .added i id) ?_
      rw [← hpool]
      rfl
    · exact .same hsocks
  | read i r =>
    obtain ⟨k, hk, hp, rfl⟩ := ha
    cases r with
    | message => exact .same rfl
    | closed => exact .moved i k _ hk rfl (.refl k) (by rw [hp]; exact .closed i) rfl
    | error => exact .moved i k _ hk rfl (.refl k) (by rw [hp]; exact .broken i) rfl
  | remove i =>
    obtain ⟨k, hk, hp, rfl⟩ := ha
    split_ifs
    · exact .moved i k { k with phase := .removed } hk rfl (.refl k)
        (by rw [hp]; exact .removed i) rfl
    · exact .same rfl
  | size i =>
    obtain ⟨k, hk, hp, rfl⟩ := ha
    by_cases hlen : (s.buckets k.user).length = 0
    · rw [if_pos hlen]
      exact .moved i k _ hk rfl (.refl k) (by rw [hp]; exact .last i) rfl
    · rw [if_neg hlen]
      exact .moved i k _ hk rfl (.refl k) (by rw [hp]; exact .others i) rfl
  | removeEvents i =>
    obtain ⟨k, hk, hp, rfl⟩ := ha
    obtain ⟨-, -, hsocks, -⟩ := removeEvents_frame h k.cell
    split_ifs
    · exact .moved i k { k with phase := .closed } hk (hsocks ▸ rfl) (.refl k)
        (by rw [hp]; exact .unsubscribed i) rfl
    · exact .same hsocks
  | event user hd id type domain =>
    rcases State.event_cases ha.2 with ⟨r, -, -, -, -, rfl⟩ | ⟨r, ev, -, -, -, -, -, -, rfl⟩ |
      ⟨r, ev, data, -, -, -, -, -, -, rfl⟩ | ⟨r, ev, -, -, -, -, -, rfl⟩
    · exact .same rfl
    · exact .same rfl
    · refine .broadcast ev.user ?_
      rw [State.broadcast_spec s hd data ev.user (h.nodup _)]
    · exact .same rfl
  | wrote i =>
    obtain ⟨k, hk, -, rfl⟩ := ha
    exact .kept i k { k with writing := k.writing - 1 } hk rfl (.refl k) rfl rfl

/-- Websockets stay who they are. -/
theorem same_outcome (h : CoreInv s) {a : Action} (ha : s.Outcome strerror t a) {j : SockId} {k : Sock}
    (hk : s.socks j = some k) : ∃ k', t.socks j = some k' ∧ k.Same k' := by
  have hset : ∀ {i : SockId} {k1 k' : Sock}, s.socks i = some k1 → k1.Same k' →
      t.socks = Function.update s.socks i (some k') → ∃ k'', t.socks j = some k'' ∧ k.Same k'' := by
    intro i k1 k' hk1 hs hsocks
    rw [hsocks]
    by_cases hj : j = i
    · subst hj
      rw [hk] at hk1
      obtain rfl := Option.some.inj hk1
      exact ⟨k', Function.update_self .., hs⟩
    · exact ⟨k, (Function.update_of_ne hj ..).trans hk, .refl k⟩
  cases socksEffect_outcome h ha with
  | same hsocks => exact ⟨k, hsocks ▸ hk, .refl k⟩
  | kept i k1 k' hk1 hsocks hs _ _ => exact hset hk1 hs hsocks
  | moved i k1 k' hk1 hsocks hs _ _ => exact hset hk1 hs hsocks
  | new k' _ _ _ _ _ _ _ _ _ _ hsocks =>
    have hj : j ≠ s.nextSock := ne_of_lt ((h.sock j k hk).1)
    rw [hsocks]
    exact ⟨k, (Function.update_of_ne hj ..).trans hk, .refl k⟩
  | broadcast user hsocks =>
    rw [hsocks]
    by_cases hj : j ∈ s.buckets user
    · exact ⟨State.startWrite k, by simp [hj, hk], .refl k⟩
    · exact ⟨k, by simp [hj, hk], .refl k⟩

/-- Where a websocket comes from: its handlers are where they were, or the step was one of theirs, or
the step was the request that upgraded it. -/
inductive SockOutcome (strerror : ℤ → String) (s : State) (a : Action) (j : SockId) (k' : Sock) :
    Prop
  | kept (k : Sock) (hk : s.socks j = some k) (hs : k.Same k') (hp : k'.phase = k.phase)
      (hh : k'.handshaken = k.handshaken)
  | moved (k : Sock) (hk : s.socks j = some k) (hs : k.Same k') (hp : Moves a j k.phase k'.phase)
      (hh : k'.handshaken =
        if k'.phase = .reading then (s.pool.handles k.cell).head? else k.handshaken)
  | new (target : String) (isUpgrade : Bool) (errno : Option ℤ) (cell : User) (c : Connection)
      (ha : a = .request target isUpgrade errno) (hcell : websocketUser target = some cell)
      (hget : (s.poolGet strerror cell errno).1 = .ok c)
      (hp : k'.phase = if isUpgrade then .posted else .unstarted) (hh : k'.handshaken = none)

theorem setSock_eq_some {i j : SockId} {k k' : Sock} :
    (s.setSock i k).socks j = some k' ↔ j = i ∧ k = k' ∨ j ≠ i ∧ s.socks j = some k' := by
  by_cases hj : j = i
  · subst hj
    simp
  · simp [hj, State.setSock_of_ne s hj]

theorem sock_outcome (h : CoreInv s) {a : Action} (ha : s.Outcome strerror t a) {j : SockId} {k' : Sock}
    (hk' : t.socks j = some k') : SockOutcome strerror s a j k' := by
  have hid : s.socks j = some k' → SockOutcome strerror s a j k' := fun hk => .kept k' hk (.refl k') rfl rfl
  have hset : ∀ {i : SockId} {k1 : Sock}, t.socks = Function.update s.socks i (some k1) →
      j = i ∧ k1 = k' ∨ j ≠ i ∧ s.socks j = some k' := by
    intro i k1 hsocks
    rw [hsocks] at hk'
    exact setSock_eq_some.mp hk'
  cases socksEffect_outcome h ha with
  | same hsocks => exact hid (hsocks ▸ hk')
  | kept i k k1 hk hsocks hs hp hh =>
    rcases hset hsocks with ⟨rfl, rfl⟩ | ⟨-, hk'⟩
    · exact .kept k hk hs hp hh
    · exact hid hk'
  | moved i k k1 hk hsocks hs hp hh =>
    rcases hset hsocks with ⟨rfl, rfl⟩ | ⟨-, hk'⟩
    · exact .moved k hk hs hp hh
    · exact hid hk'
  | new k1 target isUpgrade errno cell c ha hcell hget hp hh hsocks =>
    rcases hset hsocks with ⟨-, rfl⟩ | ⟨-, hk'⟩
    · exact .new target isUpgrade errno cell c ha hcell hget hp hh
    · exact hid hk'
  | broadcast user hsocks =>
    rw [hsocks] at hk'
    by_cases hj : j ∈ s.buckets user
    · simp only [hj, if_true] at hk'
      obtain ⟨k, hk, rfl⟩ := Option.map_eq_some_iff.mp hk'
      exact .kept k hk (.refl k) rfl rfl
    · simp only [hj, if_false] at hk'
      exact hid hk'

theorem Moves.inBucket {a : Action} {i : SockId} {p p' : Phase} (h : Moves a i p p') (ha : a ≠ .remove i) :
    p'.inBucket = p.inBucket := by
  cases h with
  | removed => exact absurd rfl ha
  | _ => rfl

/-- Who a websocket is, and whether it is to be found in a bucket. -/
def Sock.identity (k : Sock) : String × User × User × Bool := (k.target, k.cell, k.user, k.phase.inBucket)

theorem Sock.Same.identity {k k' : Sock} (h : k.Same k') (hp : k'.phase.inBucket = k.phase.inBucket) :
    k'.identity = k.identity := by
  unfold Sock.identity
  rw [h.1, h.2.1, h.2.2, hp]

/-- What removes no websocket and brings none leaves the buckets alone, and what they hold. -/
theorem identity_outcome (h : CoreInv s) {a : Action} (ha : s.Outcome strerror t a)
    (hrequest : ∀ target isUpgrade errno, a ≠ .request target isUpgrade errno) (hremove : ∀ i, a ≠ .remove i) :
    ∀ j, (t.socks j).map Sock.identity = (s.socks j).map Sock.identity := by
  intro j
  have hset : ∀ {i : SockId} {k k' : Sock}, s.socks i = some k → k'.identity = k.identity →
      t.socks = Function.update s.socks i (some k') → (t.socks j).map Sock.identity = (s.socks j).map Sock.identity := by
    intro i k k' hk hid hsocks
    rw [hsocks]
    by_cases hj : j = i
    · subst hj
      rw [Function.update_self, hk, Option.map_some, Option.map_some, hid]
    · rw [Function.update_of_ne hj]
  cases socksEffect_outcome h ha with
  | same hsocks => rw [hsocks]
  | kept i k k' hk hsocks hs hp hh => exact hset hk (hs.identity (by rw [hp])) hsocks
  | moved i k k' hk hsocks hs hp hh => exact hset hk (hs.identity (hp.inBucket (hremove i))) hsocks
  | new k target isUpgrade errno cell c ha => exact absurd ha (hrequest _ _ _)
  | broadcast user hsocks =>
    rw [hsocks]
    show Option.map _ (if j ∈ s.buckets user then (s.socks j).map State.startWrite else s.socks j) = _
    split_ifs
    · rw [Option.map_map]
      rfl
    · rfl

/-- The buckets, and the number of the next websocket. -/
theorem buckets_outcome (h : CoreInv s) {a : Action} (ha : s.Outcome strerror t a)
    (hrequest : ∀ target isUpgrade errno, a ≠ .request target isUpgrade errno) (hremove : ∀ i, a ≠ .remove i) :
    t.buckets = s.buckets ∧ t.nextSock = s.nextSock := by
  cases a with
  | get user errno =>
    obtain rfl : t = _ := ha
    exact ⟨rfl, rfl⟩
  | closeConn user n =>
    obtain ⟨pool, -, rfl⟩ := ha
    exact ⟨rfl, rfl⟩
  | request target isUpgrade errno => exact absurd rfl (hrequest _ _ _)
  | remove i => exact absurd rfl (hremove i)
  | addEvents i id =>
    obtain ⟨k, hk, -, s', hs', rfl⟩ := ha
    obtain ⟨-, -, hb, hn⟩ := poolEvents_addEvents h (cell_ne_empty h hk) hs'
    split_ifs
    · exact ⟨hb, hn⟩
    · exact ⟨hb, hn⟩
  | removeEvents i =>
    obtain ⟨k, -, -, rfl⟩ := ha
    obtain ⟨-, -, hb, hn⟩ := poolEvents_removeEvents h k.cell
    split_ifs
    · exact ⟨hb, hn⟩
    · exact ⟨hb, hn⟩
  | find i =>
    obtain ⟨k, -, -, ⟨-, rfl⟩ | ⟨-, rfl⟩⟩ := ha
    · exact ⟨rfl, rfl⟩
    · exact ⟨rfl, rfl⟩
  | read i r =>
    obtain ⟨k, -, -, rfl⟩ := ha
    cases r with
    | _ => exact ⟨rfl, rfl⟩
  | event user hd id type domain =>
    rcases State.event_cases ha.2 with ⟨r, -, -, -, -, rfl⟩ | ⟨r, ev, -, -, -, -, -, -, rfl⟩ |
      ⟨r, ev, data, -, -, -, -, -, -, rfl⟩ | ⟨r, ev, -, -, -, -, -, rfl⟩
    · exact ⟨rfl, rfl⟩
    · exact ⟨rfl, rfl⟩
    · rw [State.broadcast_spec s hd data ev.user (h.nodup _)]
      exact ⟨rfl, rfl⟩
    · exact ⟨rfl, rfl⟩
  | _ =>
    obtain ⟨k, -, -, rfl⟩ := ha
    exact ⟨rfl, rfl⟩

/-- The events stay, and libvirt is not told about any. -/
def SameEvents (s t : State) : Prop :=
  t.events = s.events ∧ t.objs = s.objs ∧ t.nextObj = s.nextObj ∧ t.regs = s.regs ∧ t.calls = s.calls

/-- The part of the state that a step touches besides the websockets and the buckets. -/
inductive Effect (strerror : ℤ → String) (s t : State) (a : Action) : Prop
  | get (user : User) (errno : Option ℤ)
      (ha : a = .get user errno ∨ ∃ target isUpgrade, a = .request target isUpgrade errno)
      (hpool : t.pool = (s.poolGet strerror user errno).2.pool) (hevents : SameEvents s t)
      (hwrites : t.writes = s.writes)
  | close (user : User) (n : ℕ) (ha : a = .closeConn user n)
      (hpool : s.pool.close user n = some t.pool) (hevents : SameEvents s t)
      (hwrites : t.writes = s.writes)
  | addEvents (i : SockId) (id : ℤ) (ha : a = .addEvents i id) (hpool : t.pool = s.pool)
      (hwrites : t.writes = s.writes)
  | removeEvents (i : SockId) (ha : a = .removeEvents i) (hpool : t.pool = s.pool)
      (hwrites : t.writes = s.writes)
  | event (user : User) (hd : Handle) (id : ℤ) (type : EventType) (domain : Option Json)
      (ha : a = .event user hd id type domain) (ho : s.handleOpen user hd = true)
      (he : s.event hd id type domain = some t)
  | socks (hpool : t.pool = s.pool) (hevents : SameEvents s t) (hwrites : t.writes = s.writes)

theorem effect_outcome (h : CoreInv s) {a : Action} (ha : s.Outcome strerror t a) :
    Effect strerror s t a := by
  have hsame : SameEvents s s := ⟨rfl, rfl, rfl, rfl, rfl⟩
  cases a with
  | get user errno =>
    obtain rfl : t = _ := ha
    exact .get user errno (.inl rfl) rfl hsame rfl
  | closeConn user n =>
    obtain ⟨pool, hpool, rfl⟩ := ha
    exact .close user n rfl hpool hsame rfl
  | request target isUpgrade errno =>
    obtain ⟨cell, -, ⟨e, -, rfl⟩ | ⟨c, -, rfl⟩⟩ := ha
    · exact .get cell errno (.inr ⟨target, isUpgrade, rfl⟩) rfl hsame rfl
    · exact .get cell errno (.inr ⟨target, isUpgrade, rfl⟩) rfl hsame rfl
  | asyncRun i =>
    obtain ⟨k, -, -, rfl⟩ := ha
    exact .socks rfl hsame rfl
  | accept i ok =>
    obtain ⟨k, -, -, rfl⟩ := ha
    exact .socks rfl hsame rfl
  | find i =>
    obtain ⟨k, -, -, ⟨-, rfl⟩ | ⟨-, rfl⟩⟩ := ha
    · exact .socks rfl hsame rfl
    · exact .socks rfl hsame rfl
  | addEvents i id =>
    obtain ⟨k, -, -, s', hs', rfl⟩ := ha
    obtain ⟨hpool, -, -, hwrites⟩ := addEvents_frame h hs'
    refine .addEvents i id rfl ?_ ?_
    · split_ifs <;> exact hpool
    · split_ifs <;> exact hwrites
  | read i r =>
    obtain ⟨k, -, -, rfl⟩ := ha
    cases r with
    | message => exact .socks rfl hsame rfl
    | closed => exact .socks rfl hsame rfl
    | error => exact .socks rfl hsame rfl
  | remove i =>
    obtain ⟨k, -, -, rfl⟩ := ha
    split_ifs
    · exact .socks rfl hsame rfl
    · exact .socks rfl hsame rfl
  | size i =>
    obtain ⟨k, -, -, rfl⟩ := ha
    exact .socks rfl hsame rfl
  | removeEvents i =>
    obtain ⟨k, -, -, rfl⟩ := ha
    obtain ⟨hpool, -, -, hwrites, -⟩ := removeEvents_frame h k.cell
    refine .removeEvents i rfl ?_ ?_
    · split_ifs <;> exact hpool
    · split_ifs <;> exact hwrites
  | event user hd id type domain => exact .event user hd id type domain rfl ha.1 ha.2
  | wrote i =>
    obtain ⟨k, -, -, rfl⟩ := ha
    exact .socks rfl hsame rfl

/-- The delivery of an event touches neither the pool nor the events. -/
theorem event_frame (h : CoreInv s) {hd : Handle} {id : ℤ} {type : EventType} {domain : Option Json}
    (he : s.event hd id type domain = some t) : t.pool = s.pool ∧ SameEvents s t := by
  rcases State.event_cases he with ⟨r, -, -, -, -, rfl⟩ | ⟨r, ev, -, -, -, -, -, -, rfl⟩ |
    ⟨r, ev, data, -, -, -, -, -, -, rfl⟩ | ⟨r, ev, -, -, -, -, -, rfl⟩
  · exact ⟨rfl, rfl, rfl, rfl, rfl, rfl⟩
  · exact ⟨rfl, rfl, rfl, rfl, rfl, rfl⟩
  · rw [State.broadcast_spec s hd data ev.user (h.nodup _)]
    exact ⟨rfl, rfl, rfl, rfl, rfl, rfl⟩
  · exact ⟨rfl, rfl, rfl, rfl, rfl, rfl⟩

/-- What a step does to the pool: a `get`, a close callback, or nothing. -/
theorem pool_outcome (h : CoreInv s) {a : Action} (ha : s.Outcome strerror t a) :
    (∃ user errno, (a = .get user errno ∨ ∃ target isUpgrade, a = .request target isUpgrade errno) ∧
      t.pool = (s.poolGet strerror user errno).2.pool) ∨
    (∃ user n, a = .closeConn user n ∧ s.pool.close user n = some t.pool) ∨ t.pool = s.pool := by
  cases effect_outcome h ha with
  | get user errno ha hpool _ _ => exact .inl ⟨user, errno, ha, hpool⟩
  | close user n ha hpool _ _ => exact .inr (.inl ⟨user, n, ha, hpool⟩)
  | addEvents i id _ hpool _ => exact .inr (.inr hpool)
  | removeEvents i _ hpool _ => exact .inr (.inr hpool)
  | event user hd id type domain _ _ he => exact .inr (.inr (event_frame h he).1)
  | socks hpool _ _ => exact .inr (.inr hpool)

/-- The handles of a user only get more. -/
theorem handles_outcome (h : CoreInv s) {a : Action} (ha : s.Outcome strerror t a) {u : User}
    {hd : Handle} (hm : hd ∈ s.pool.handles u) : hd ∈ t.pool.handles u := by
  rcases pool_outcome h ha with ⟨user, errno, -, hp⟩ | ⟨user, n, -, hp⟩ | hp
  · rw [hp]
    exact mem_poolGet_handles h.pool user errno u hm
  · rwa [close_handles h.pool.inv hp]
  · rwa [hp]

/-- Only `add_events` and `remove_events` touch the events and talk to libvirt about them. -/
theorem events_outcome (h : CoreInv s) {a : Action} (hadd : ∀ i id, a ≠ .addEvents i id)
    (hremove : ∀ i, a ≠ .removeEvents i) (ha : s.Outcome strerror t a) : SameEvents s t := by
  cases effect_outcome h ha with
  | get _ _ _ _ hevents _ => exact hevents
  | close _ _ _ _ hevents _ => exact hevents
  | addEvents i id ha _ _ => exact absurd ha (hadd i id)
  | removeEvents i ha _ _ => exact absurd ha (hremove i)
  | event user hd id type domain _ _ he => exact (event_frame h he).2
  | socks _ hevents _ => exact hevents

end

end Webvirtd.App
