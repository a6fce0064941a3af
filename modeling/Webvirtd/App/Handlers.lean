import Webvirtd.App.Subscription

/-!
# App.Handlers — the app, one completed handler at a time

`handlerMachine` has the states of `appMachine`, and each of its steps is a whole handler: the steps that
`appMachine` takes for it, in a row.  A handler that throws does not complete.  `handlerMachine_coarsens`
makes every invariant of the app one of its handlers; `handshake_cases` and `close_cases` say what the
two handlers do that consist of several steps.
-/

namespace Webvirtd.App

open Lib Virt Http

inductive Handler
  /-- Another request calls `pool.get(user)`. -/
  | get (user : User) (errno : Option ℤ)
  | closeConn (user : User) (n : ℕ)
  | request (target : String) (isUpgrade : Bool) (errno : Option ℤ)
  | asyncRun (i : SockId)
  /-- `async_accept` has failed. -/
  | acceptError (i : SockId)
  /-- `async_accept` has succeeded; `id` is what `RegisterAny` returns if it is called. -/
  | handshake (i : SockId) (id : ℤ)
  | readMessage (i : SockId)
  /-- `async_read` has failed other than by `closed`. -/
  | readError (i : SockId)
  /-- `async_read` has found the websocket closed. -/
  | close (i : SockId)
  | event (user : User) (h : Handle) (id : ℤ) (type : EventType) (domain : Option Json)
  | wrote (i : SockId)

/-- `a` follows if the handlers of `i` have come to `phase`. -/
def andThenAt (strerror : ℤ → String) (i : SockId) (phase : Phase) (a : Action) (s : State) :
    Option State :=
  if (s.sockAt i phase).isSome then (appMachine strerror).step s a else some s

/-- The steps of a handler. -/
def runHandler (strerror : ℤ → String) (s : State) : Handler → Option State
  | .get user errno => (appMachine strerror).step s (.get user errno)
  | .closeConn user n => (appMachine strerror).step s (.closeConn user n)
  | .request target isUpgrade errno =>
    (appMachine strerror).step s (.request target isUpgrade errno)
  | .asyncRun i => (appMachine strerror).step s (.asyncRun i)
  | .acceptError i => (appMachine strerror).step s (.accept i false)
  | .handshake i id =>
    ((appMachine strerror).exec s [.accept i true, .find i]).bind
      (andThenAt strerror i .missing (.addEvents i id))
  | .readMessage i => (appMachine strerror).step s (.read i .message)
  | .readError i => (appMachine strerror).step s (.read i .error)
  | .close i =>
    ((appMachine strerror).exec s [.read i .closed, .remove i, .size i]).bind
      (andThenAt strerror i .last (.removeEvents i))
  | .event user h id type domain => (appMachine strerror).step s (.event user h id type domain)
  | .wrote i => (appMachine strerror).step s (.wrote i)

/-- The app, one completed handler at a time. -/
def handlerMachine (strerror : ℤ → String) : Machine State Handler where
  init := {}
  step s b := (runHandler strerror s b).filter (·.up)

section

variable {strerror : ℤ → String} {s t : State}

theorem handler_eq_some {b : Handler} :
    (handlerMachine strerror).step s b = some t ↔ runHandler strerror s b = some t ∧ t.up = true := by
  unfold handlerMachine
  simp [Option.filter_eq_some_iff]

theorem andThenAt_exec {i : SockId} {phase : Phase} {a : Action}
    (h : andThenAt strerror i phase a s = some t) :
    ∃ as, (appMachine strerror).exec s as = some t := by
  unfold andThenAt at h
  split_ifs at h
  · exact ⟨[a], Machine.exec_single h⟩
  · exact ⟨[], h⟩

theorem andThenAt_of_eq {i : SockId} {phase : Phase} {k : Sock} (hk : s.socks i = some k)
    (hp : k.phase = phase) (a : Action) :
    andThenAt strerror i phase a s = (appMachine strerror).step s a := by
  unfold andThenAt
  rw [State.sockAt_eq_some.mpr ⟨hk, hp⟩]
  exact if_pos rfl

theorem andThenAt_of_ne {i : SockId} {phase : Phase} {k : Sock} (hk : s.socks i = some k)
    (hp : k.phase ≠ phase) (a : Action) : andThenAt strerror i phase a s = some s := by
  refine if_neg fun hat => ?_
  obtain ⟨k', hk'⟩ := Option.isSome_iff_exists.mp hat
  obtain ⟨hk', hp'⟩ := State.sockAt_eq_some.mp hk'
  rw [hk] at hk'
  obtain rfl := Option.some.inj hk'
  exact hp hp'

/-- Handlers take steps of the app. -/
theorem handlerMachine_coarsens (strerror : ℤ → String) :
    Machine.Coarsens (handlerMachine strerror) (appMachine strerror) := by
  refine ⟨rfl, fun s b t h => ?_⟩
  obtain ⟨h, -⟩ := handler_eq_some.mp h
  have htwo : ∀ {as : List Action} {i phase a},
      ((appMachine strerror).exec s as).bind (andThenAt strerror i phase a) = some t →
      ∃ bs, (appMachine strerror).exec s bs = some t := by
    intro as i phase a h
    obtain ⟨u, hu, hut⟩ := Option.bind_eq_some_iff.mp h
    obtain ⟨bs, hbs⟩ := andThenAt_exec hut
    exact ⟨as ++ bs, Machine.exec_append_of_eq hu hbs⟩
  cases b with
  | get user errno => exact ⟨_, Machine.exec_single h⟩
  | closeConn user n => exact ⟨_, Machine.exec_single h⟩
  | request target isUpgrade errno => exact ⟨_, Machine.exec_single h⟩
  | asyncRun i => exact ⟨_, Machine.exec_single h⟩
  | acceptError i => exact ⟨_, Machine.exec_single h⟩
  | handshake i id => exact htwo h
  | readMessage i => exact ⟨_, Machine.exec_single h⟩
  | readError i => exact ⟨_, Machine.exec_single h⟩
  | close i => exact htwo h
  | event user h' id type domain => exact ⟨_, Machine.exec_single h⟩
  | wrote i => exact ⟨_, Machine.exec_single h⟩

theorem handlerInvariant (strerror : ℤ → String) : (handlerMachine strerror).Invariant AppInv :=
  (appInvariant strerror).of_coarse (handlerMachine_coarsens strerror)

/-- The handshake handler: the user has events already, or they are added. -/
inductive HandshakeOutcome (s : State) (i : SockId) (id : ℤ) (t : State) : Prop
  | found (k : Sock) (m : EventMap) (hk : s.socks i = some k) (hp : k.phase = .accepting)
      (hm : s.events k.cell = some m) (ht : t = s.finishHandshake i k)
  | added (k : Sock) (hd : Handle) (hk : s.socks i = some k) (hp : k.phase = .accepting)
      (hid : 0 ≤ id) (hconn : (s.entry k.cell).conn = some hd) (hnone : s.events k.cell = none)
      (ht : t = State.finishHandshake { s.register k.cell k.cell hd id with
        events := Function.update s.events k.cell (some [(eventIdLifecycle, s.nextObj)]) } i k)

/-- Two steps of one websocket in a row. -/
theorem setSock_setSock (i : SockId) (k k' : Sock) :
    (s.setSock i k).setSock i k' = s.setSock i k' := by
  simp [State.setSock]

/-- What the handshake handler has done to the websocket before it completes is overwritten. -/
theorem finishHandshake_setSock (i : SockId) (k k' : Sock) :
    (s.setSock i k).finishHandshake i k' = s.finishHandshake i k' := setSock_setSock i k _

theorem handshake_cases (h : AppInv s) {i : SockId} {id : ℤ}
    (hst : (handlerMachine strerror).step s (.handshake i id) = some t) :
    HandshakeOutcome s i id t := by
  obtain ⟨hrun, hup⟩ := handler_eq_some.mp hst
  obtain ⟨s2, hexec, hlast⟩ := Option.bind_eq_some_iff.mp hrun
  obtain ⟨s1, h1, hexec⟩ := Machine.exec_cons_eq_some.mp hexec
  obtain ⟨s2', h2, hs2⟩ := Machine.exec_cons_eq_some.mp hexec
  obtain rfl : s2' = s2 := Option.some.inj hs2
  obtain ⟨k, hk, hp, rfl⟩ := (State.step_outcome h1).2
  obtain ⟨k1, hk1, -, hfind⟩ := (State.step_outcome h2).2
  rw [State.setSock_self] at hk1
  obtain rfl := Option.some.inj hk1
  have huser := (h.socks.user i k hk).1
  rcases hfind with ⟨hnone, rfl⟩ | ⟨⟨m, hm⟩, rfl⟩
  · -- no events: they are added
    have hnone : s.events (s.entry k.cell).user = none := hnone
    rw [setSock_setSock] at hlast
    have hstep : (appMachine strerror).step (s.setSock i { k with phase := .missing })
        (.addEvents i id) = some t :=
      (andThenAt_of_eq (State.setSock_self ..) rfl _).symm.trans hlast
    obtain ⟨k2, hk2, -, s', hadd, ht⟩ := (State.step_outcome hstep).2
    rw [State.setSock_self] at hk2
    obtain rfl := Option.some.inj hk2
    have hinv : AppInv (s.setSock i { k with phase := .missing }) :=
      appInv_setSock h hk rfl rfl rfl (by rw [hp]; rfl)
    rcases add_cases hinv.pool hinv.events hadd with ⟨-, rfl⟩ | ⟨hd, hid, hconn, -, hno, rfl⟩ |
      ⟨hd, o, -, hconn, -, hsome, -⟩
    · obtain rfl : t = _ := ht
      cases hup
    · have hconn : (s.entry k.cell).conn = some hd := hconn
      have hno : s.events k.cell = none := hno
      refine .added k hd hk hp hid hconn hno ?_
      have hup1 : (s.register k.cell k.cell hd id).up = true := (State.step_outcome h1).1
      rw [ht]
      refine (if_pos hup1).trans ?_
      exact finishHandshake_setSock (s := { s.register k.cell k.cell hd id with
        events := Function.update s.events k.cell (some [(eventIdLifecycle, s.nextObj)]) }) i _ _
    · have hconn : (s.entry k.cell).conn = some hd := hconn
      have hsome : s.events k.cell = some [(eventIdLifecycle, o)] := hsome
      rw [entry_user h.pool hconn, hsome] at hnone
      cases hnone
  · have hm : s.events (s.entry k.cell).user = some m := hm
    have ht := (andThenAt_of_ne (State.setSock_self ..) (fun h => by cases h) _).symm.trans hlast
    refine .found k m hk hp (by rwa [events_entry h hm] at hm) ?_
    rw [← Option.some.inj ht]
    exact finishHandshake_setSock i _ k

/-- `remove_events` does not look at the websockets. -/
theorem removeEvents_setSock (i : SockId) (k : Sock) (cell : User) :
    (s.setSock i k).removeEvents cell = (s.removeEvents cell).setSock i k := by
  unfold State.removeEvents
  have hentry : (s.setSock i k).entry cell = s.entry cell := rfl
  rw [hentry]
  cases he : s.events (s.entry cell).user with
  | none => simp [State.setSock, he]
  | some m =>
    cases hf : m.find? fun e => e.1 = eventIdLifecycle with
    | none => simp [State.setSock, State.terminate, he, hf]
    | some e =>
      cases ho : s.objs e.2 with
      | none => simp [State.setSock, he, hf, ho]
      | some ev =>
        have he : s.events ((s.pool.connections cell).getD {}).user = some m := he
        simp [State.setSock, State.destroy, State.entry, he, hf, ho]

/-- The websocket is not in its bucket any more. -/
def State.unbucket (s : State) (i : SockId) (k : Sock) : State :=
  { s with buckets := Function.update s.buckets k.user ((s.buckets k.user).erase i) }

/-- The websocket has left its bucket and is closed. -/
def State.leave (s : State) (i : SockId) (k : Sock) : State :=
  (s.unbucket i k).setSock i { k with phase := .closed }

/-- The close handler: the websocket leaves its bucket, and the last one takes the events with it. -/
inductive CloseOutcome (s : State) (i : SockId) (t : State) : Prop
  | others (k : Sock) (hk : s.socks i = some k) (hp : k.phase = .reading)
      (hne : (s.buckets k.user).erase i ≠ []) (ht : t = s.leave i k)
  | last (k : Sock) (hk : s.socks i = some k) (hp : k.phase = .reading)
      (hnil : (s.buckets k.user).erase i = []) (ht : t = (s.leave i k).removeEvents k.cell)

theorem close_cases (h : AppInv s) {i : SockId}
    (hst : (handlerMachine strerror).step s (.close i) = some t) : CloseOutcome s i t := by
  obtain ⟨hrun, hup⟩ := handler_eq_some.mp hst
  obtain ⟨s3, hexec, hlast⟩ := Option.bind_eq_some_iff.mp hrun
  obtain ⟨s1, h1, hexec⟩ := Machine.exec_cons_eq_some.mp hexec
  obtain ⟨s2, h2, hexec⟩ := Machine.exec_cons_eq_some.mp hexec
  obtain ⟨s3', h3, hs3⟩ := Machine.exec_cons_eq_some.mp hexec
  obtain rfl : s3' = s3 := Option.some.inj hs3
  obtain ⟨k, hk, hp, rfl⟩ := (State.step_outcome h1).2
  obtain ⟨k1, hk1, -, hs2⟩ := (State.step_outcome h2).2
  rw [State.setSock_self] at hk1
  obtain rfl := Option.some.inj hk1
  have hmem : i ∈ s.buckets k.user := (h.socks.bucket _ i).mpr ⟨k, hk, rfl, by rw [hp]; rfl⟩
  obtain rfl : s2 = (s.unbucket i k).setSock i { k with phase := .removed } := by
    rw [hs2]
    refine (if_pos hmem).trans ?_
    simp [State.setSock, State.unbucket]
  obtain ⟨k2, hk2, -, hs3⟩ := (State.step_outcome h3).2
  rw [State.setSock_self] at hk2
  obtain rfl := Option.some.inj hk2
  have hbucket : ((s.unbucket i k).setSock i { k with phase := .removed }).buckets k.user =
    (s.buckets k.user).erase i := Function.update_self ..
  rw [hbucket, setSock_setSock] at hs3
  by_cases hnil : (s.buckets k.user).erase i = []
  · rw [hs3, if_pos (by rw [hnil]; rfl)] at hlast
    have hstep : (appMachine strerror).step ((s.unbucket i k).setSock i { k with phase := .last })
        (.removeEvents i) = some t :=
      (andThenAt_of_eq (State.setSock_self ..) rfl _).symm.trans hlast
    obtain ⟨k3, hk3, -, ht⟩ := (State.step_outcome hstep).2
    rw [State.setSock_self] at hk3
    obtain rfl := Option.some.inj hk3
    refine .last k hk hp hnil ?_
    rw [removeEvents_setSock, setSock_setSock] at ht
    split_ifs at ht with hup'
    · rw [ht, State.leave, removeEvents_setSock]
    · rw [ht] at hup
      exact absurd hup hup'
  · rw [hs3, if_neg (by rwa [List.length_eq_zero_iff])] at hlast
    have ht := (andThenAt_of_ne (State.setSock_self ..) (fun h => by cases h) _).symm.trans hlast
    exact .others k hk hp hnil (Option.some.inj ht).symm

end

end Webvirtd.App
