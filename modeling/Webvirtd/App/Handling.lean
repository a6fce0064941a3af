import Webvirtd.App.Containment
import Webvirtd.App.Programs

/-!
# App.Handling — the handlers as they are written, on the state of the app

The code of `App.Containment`, with the containers and the event objects of `App.State` as its surroundings.  A handler
that throws leaves no state: the exception is not caught, and the app goes down.

* `handshake_refines`, `close_refines`, `event_refines`: a handler completes when that of `App.Handlers` does, and
  leaves the same state.
-/

namespace Webvirtd.App

open Lib Virt Http

/-- A handler that runs. -/
structure Handling (σ : Type) where
  app : State
  /-- Its websocket. -/
  websock : SockId := 0
  /-- What `RegisterAny` returns, if it takes the registration. -/
  id : ℤ := -1
  /-- The connection that its event is of. -/
  source : Handle := 0
  /-- The `lifecycle_event` that no map holds. -/
  object : Option ObjId := none
  outside : σ

namespace State

variable (s : State)

/-- The handle on which libvirt takes a registration as `id`. -/
def takes (conn : User) (id : ℤ) : Option Handle :=
  (s.entry conn).conn.filter fun h => decide (0 ≤ id ∧ ∀ r ∈ s.regs, ¬ (r.handle = h ∧ r.id = id))

/-- `RegisterAny` has returned -1 to a new `lifecycle_event`. -/
def refuse (conn : User) : State :=
  { s with nextObj := s.nextObj + 1, calls := .registerFailed s.nextObj (s.entry conn).conn :: s.calls }

/-- `event::~event` of an object that may not have been registered. -/
def deregister (conn : User) (o : ObjId) : State :=
  match s.objs o with
  | some ev => s.destroy o ev
  | none => { s with calls := .deregister o (s.entry conn).conn (-1) :: s.calls }

/-- What `events_` holds for the user. -/
def setEvents (user : User) (m : Option EventMap) : State := { s with events := Function.update s.events user m }

/-- The last pointer to the event object goes. -/
def discard (o : ObjId) : State :=
  match s.objs o with
  | some ev => s.destroy o ev
  | none => s

/-- `websockets_.remove(user, ws_conn)` -/
def removeWebsocket (user : User) (i : SockId) : State :=
  if i ∈ s.buckets user then { s with buckets := Function.update s.buckets user ((s.buckets user).erase i) }
  else s.terminate

end State

/-- How the commands of a handler are answered. -/
def Outside.answerHandler {σ : Type} (O : Outside σ) (w : Handling σ) : (c : HandlerCmd) → HandlerCmd.Res c × Handling σ
  | .findEvents conn => ((w.app.events (w.app.entry conn).user).isSome, w)
  | .virConnectDomainEventRegisterAny conn =>
    match w.app.takes conn w.id with
    | some h =>
      (.ok w.id,
        { w with app := w.app.register conn (w.app.entry conn).user h w.id, object := some w.app.nextObj })
    | none => (.ok (-1), { w with app := w.app.refuse conn, object := some w.app.nextObj })
  | .virConnectDomainEventDeregisterAny conn =>
    (.ok 0, match w.object with
      | some o => { w with app := w.app.deregister conn o, object := none }
      | none => w)
  | .setEvent conn =>
    let user := (w.app.entry conn).user
    let m := (w.app.events user).getD []
    if m.any fun e => e.1 = eventIdLifecycle then
      (false, { w with app := { w.app with events := Function.update w.app.events user (some m) } })
    else
      (true,
        { w with
          app := { w.app with
            events := Function.update w.app.events user (some (m ++ w.object.toList.map (eventIdLifecycle, ·))) }
          object := none })
  | .removeEvent conn =>
    let user := (w.app.entry conn).user
    let m := (w.app.events user).getD []
    ((), match m.find? fun e => e.1 = eventIdLifecycle with
      | none => { w with app := w.app.terminate }
      | some e =>
        { w with
          app := w.app.setEvents user (some (m.filter fun e => e.1 ≠ eventIdLifecycle))
          object := (w.app.objs e.2).map fun _ => e.2 })
  | .eventsSize conn => (((w.app.events (w.app.entry conn).user).getD []).length, w)
  | .eraseEvents conn =>
    ((), { w with app := w.app.setEvents (w.app.entry conn).user none })
  | .removeWebsocket user => ((), { w with app := w.app.removeWebsocket user w.websock })
  | .websocketsSize user => ((w.app.buckets user).length, w)
  | .broadcast user data => ((), { w with app := w.app.broadcast w.source user data })
  | .op o => ((O.answer w.outside (.op o)).1, { w with outside := (O.answer w.outside (.op o)).2 })

section

variable {σ : Type} (O : Outside σ) {strerror : ℤ → String} {s t : State} {conn : User} {id : ℤ} {w : σ}

/-- A handler that is done, where the app has come to; one that throws is never done. -/
def Outside.handled {α : Type} (O : Outside σ) (m : HandlerM α) (w : Handling σ) : Option State :=
  match m.exec O.answerHandler () w with
  | (.ok _, _, w') => if w'.app.up then some w'.app else none
  | (.error _, _, _) => none

/-- `add_events` of libvirt's side: what registers, and what does not. -/
theorem addEvents_of_takes {h : Handle} (ht : s.takes conn id = some h) :
    s.addEvents conn id =
      some ((s.register conn (s.entry conn).user h id).emplace (s.entry conn).user s.nextObj
        ⟨conn, id, (s.entry conn).user, h⟩) := by
  obtain ⟨hconn, hid⟩ := Option.filter_eq_some_iff.mp ht
  have hid := of_decide_eq_true hid
  unfold State.addEvents
  rw [if_neg (by have hpos := hid.1; omega)]
  simp only [hconn]
  exact if_pos hid

theorem addEvents_of_not_takes (ht : s.takes conn id = none) : ∀ t, s.addEvents conn id = some t → t.up = false := by
  intro t h
  unfold State.addEvents at h
  split_ifs at h with hid
  · obtain rfl := Option.some.inj h
    rfl
  · cases hc : (s.entry conn).conn with
    | none =>
      simp only [hc] at h
      cases h
    | some hd =>
      simp only [hc] at h
      split_ifs at h with hok
      have hno := Option.filter_eq_none_iff.mp ht
      exact absurd (decide_eq_true hok) (hno hd hc)

/-- libvirt takes the registration. -/
theorem exec_lifecycleEvent_of_takes {h : Handle} (ht : s.takes conn id = some h) :
    (lifecycleEvent conn).exec O.answerHandler () { app := s, id := id, outside := w } =
      (.ok (), (), { app := s.register conn (s.entry conn).user h id, id := id, object := some s.nextObj,
                     outside := w }) := by
  have hid : id ≠ -1 := by
    have hpos := (of_decide_eq_true (Option.filter_eq_some_iff.mp ht).2).1
    omega
  have hanswer : O.answerHandler { app := s, id := id, outside := w } (.virConnectDomainEventRegisterAny conn) =
      (.ok id, { app := s.register conn (s.entry conn).user h id, id := id, object := some s.nextObj,
                 outside := w }) := by
    unfold Outside.answerHandler
    simp only [ht]
  unfold lifecycleEvent registerEvent ask
  rw [Eff.exec_tryCatch, Eff.exec_bind_ok _ (Eff.exec_call ..), hanswer]
  simp only [if_neg hid, Eff.exec_pure]

/-- It does not, and the constructor throws. -/
theorem exec_lifecycleEvent_of_not_takes (ht : s.takes conn id = none) :
    ∃ e w', (lifecycleEvent conn).exec O.answerHandler () { app := s, id := id, outside := w } = (.error e, (), w') := by
  have hanswer : O.answerHandler { app := s, id := id, outside := w } (.virConnectDomainEventRegisterAny conn) =
      (.ok (-1), { app := s.refuse conn, id := id, object := some s.nextObj, outside := w }) := by
    unfold Outside.answerHandler
    simp only [ht]
  unfold lifecycleEvent registerEvent ask
  rw [Eff.exec_tryCatch, Eff.exec_bind_ok _ (Eff.exec_call ..), hanswer]
  exact ⟨_, _, rfl⟩

/-- libvirt always deregisters. -/
theorem exec_destroyEvent (v : Handling σ) : (destroyEvent conn).exec O.answerHandler () v =
    (.ok (), (), (O.answerHandler v (.virConnectDomainEventDeregisterAny conn)).2) := rfl

/-- The event object `o` is put into the map of the user, or destroyed. -/
theorem exec_setEvent {o : ObjId} {ev : LifecycleEvent} (ho : s.objs o = some ev) :
    ∃ object, (ask (.setEvent conn) >>= fun free => if free then pure () else destroyEvent conn : HandlerM Unit).exec
        O.answerHandler () { app := s, id := id, object := some o, outside := w } =
      (.ok (), (), { app := s.emplace (s.entry conn).user o ev, id := id, object := object, outside := w }) := by
  unfold ask State.emplace
  obtain ⟨user, huser⟩ : ∃ user, (s.entry conn).user = user := ⟨_, rfl⟩
  obtain ⟨m, hm⟩ : ∃ m, (s.events user).getD [] = m := ⟨_, rfl⟩
  rw [Eff.exec_bind_ok _ (Eff.exec_call ..), huser, hm]
  by_cases hany : m.any fun e => e.1 = eventIdLifecycle
  · have hanswer : O.answerHandler { app := s, id := id, object := some o, outside := w } (.setEvent conn) =
        (false, { app := { s with events := Function.update s.events user (some m) }, id := id, object := some o,
                  outside := w }) := by
      simp only [Outside.answerHandler, huser, hm, hany, if_true]
    rw [hanswer, if_neg Bool.false_ne_true, exec_destroyEvent]
    refine ⟨none, ?_⟩
    simp only [Outside.answerHandler, State.deregister, ho, hany, if_true]
  · have hanswer : O.answerHandler { app := s, id := id, object := some o, outside := w } (.setEvent conn) =
        (true, { app := { s with events := Function.update s.events user (some (m ++ [(eventIdLifecycle, o)])) },
                 id := id, outside := w }) := by
      simp only [Outside.answerHandler, huser, hm, hany]
      rfl
    rw [hanswer, if_pos rfl]
    refine ⟨none, ?_⟩
    simp only [hany]
    rfl

/-- `add_events` -/
theorem handled_addEvents : O.handled (addEvents conn) { app := s, id := id, outside := w } =
    (s.addEvents conn id).filter (·.up) := by
  unfold Outside.handled addEvents
  cases ht : s.takes conn id with
  | none =>
    obtain ⟨e, w', hexec⟩ := exec_lifecycleEvent_of_not_takes O (w := w) ht
    rw [Eff.exec_bind_error _ hexec]
    exact (Option.filter_eq_none_iff.mpr fun t h => by simp [addEvents_of_not_takes ht t h]).symm
  | some h =>
    rw [Eff.exec_bind_ok _ (exec_lifecycleEvent_of_takes O ht), addEvents_of_takes ht]
    have hobj : (s.register conn (s.entry conn).user h id).objs s.nextObj =
      some ⟨conn, id, (s.entry conn).user, h⟩ := Function.update_self ..
    obtain ⟨object, hset⟩ : ∃ object,
        (ask (.setEvent conn) >>= fun free => if free then pure () else destroyEvent conn : HandlerM Unit).exec
          O.answerHandler ()
          { app := s.register conn (s.entry conn).user h id, id := id, object := some s.nextObj, outside := w } =
        (.ok (), (), { app := (s.register conn (s.entry conn).user h id).emplace (s.entry conn).user s.nextObj
                              ⟨conn, id, (s.entry conn).user, h⟩,
                       id := id, object := object, outside := w }) := exec_setEvent O hobj
    rw [hset]
    exact (Option.filter_some ..).symm

/-- The handler of a handshake adds events if the user has none. -/
theorem handled_onHandshake (hup : s.up = true) : O.handled (onHandshake conn) { app := s, id := id, outside := w } =
    if (s.events (s.entry conn).user).isSome then some s else (s.addEvents conn id).filter (·.up) := by
  have hexec : (onHandshake conn).exec O.answerHandler () { app := s, id := id, outside := w } =
      (if (s.events (s.entry conn).user).isSome then pure () else addEvents conn : HandlerM Unit).exec O.answerHandler ()
        { app := s, id := id, outside := w } := by
    unfold onHandshake ask
    rw [Eff.exec_bind_ok _ (Eff.exec_call ..)]
    rfl
  by_cases hsome : (s.events (s.entry conn).user).isSome = true
  · rw [if_pos hsome] at hexec ⊢
    unfold Outside.handled
    rw [hexec]
    exact if_pos hup
  · rw [if_neg hsome] at hexec ⊢
    rw [← handled_addEvents O (w := w)]
    unfold Outside.handled
    rw [hexec]

/-- `add_events` does not look at the websockets. -/
theorem addEvents_setSock (i : SockId) (k : Sock) :
    (s.setSock i k).addEvents conn id = (s.addEvents conn id).map (·.setSock i k) := by
  have hemplace : ∀ (u : State) (user : User) (o : ObjId) (ev : LifecycleEvent),
      (u.setSock i k).emplace user o ev = (u.emplace user o ev).setSock i k := by
    intro u user o ev
    unfold State.emplace
    by_cases hany : ((u.events user).getD []).any fun e => e.1 = eventIdLifecycle
    · have hany' : (((u.setSock i k).events user).getD []).any fun e => e.1 = eventIdLifecycle := hany
      simp only [hany, hany', if_true]
      rfl
    · have hany' : ¬ (((u.setSock i k).events user).getD []).any fun e => e.1 = eventIdLifecycle := hany
      simp only [hany, hany']
      rfl
  unfold State.addEvents
  have hentry : (s.setSock i k).entry conn = s.entry conn := rfl
  have hregs : (s.setSock i k).regs = s.regs := rfl
  rw [hentry, hregs]
  by_cases hid : id = -1
  · simp only [if_pos hid]
    rfl
  · simp only [if_neg hid]
    cases hc : (s.entry conn).conn with
    | none => rfl
    | some h =>
      simp only
      split_ifs
      · exact congrArg some (hemplace (s.register conn (s.entry conn).user h id) _ _ _)
      · rfl

/-! ## Steps of the app, one after the other -/

theorem step_of_up (hup : s.up = true) (a : Action) : (appMachine strerror).step s a = s.stepUp strerror a := if_pos hup

theorem filter_up (hup : s.up = true) : (some s).filter (·.up) = some s := (Option.filter_some ..).trans (if_pos hup)

theorem filter_down (hdown : s.up = false) : (some s).filter (·.up) = none :=
  (Option.filter_some ..).trans (if_neg (Bool.eq_false_iff.mp hdown))

theorem up_setSock (i : SockId) (k : Sock) : (s.setSock i k).up = s.up := rfl

theorem sockAt_setSock (s : State) (i : SockId) (k : Sock) (phase : Phase) :
    (s.setSock i { k with phase := phase }).sockAt i phase = some { k with phase := phase } :=
  State.sockAt_eq_some.mpr ⟨State.setSock_self .., rfl⟩

/-- The last step of a handler leaves `f`, unless the app has gone down before. -/
theorem filter_last {f : State → State} {g : State} (hf : (f t).up = t.up) (hg : g.up = t.up) :
    ((some t).filter (·.up)).map f = (some (if t.up then f t else g)).filter (·.up) := by
  by_cases hup : t.up = true
  · rw [if_pos hup, filter_up hup, filter_up (hf.trans hup), Option.map_some]
  · have hdown : t.up = false := Bool.eq_false_iff.mpr hup
    rw [if_neg hup, filter_down hdown, filter_down (hg.trans hdown), Option.map_none]

/-- What follows at a phase, when the websocket has just come to one. -/
theorem andThenAt_setSock (s : State) (i : SockId) (k : Sock) (phase at' : Phase) (a : Action) :
    andThenAt strerror i at' a (s.setSock i { k with phase := phase }) =
      if phase = at' then (appMachine strerror).step (s.setSock i { k with phase := phase }) a
      else some (s.setSock i { k with phase := phase }) := by
  split_ifs with hphase
  · exact andThenAt_of_eq (State.setSock_self ..) hphase a
  · exact andThenAt_of_ne (State.setSock_self ..) hphase a

/-! ## The handshake -/

/-- The handler of the app, once the handshake has been accepted. -/
theorem exec_accept_find (hup : s.up = true) {i : SockId} {k : Sock} (hk : s.sockAt i .accepting = some k) :
    (appMachine strerror).exec s [.accept i true, .find i] =
      some (if (s.events (s.entry k.cell).user).isNone then s.setSock i { k with phase := .missing }
        else s.finishHandshake i k) := by
  have haccept : (appMachine strerror).step s (.accept i true) = some (s.setSock i { k with phase := .handshaking }) := by
    rw [step_of_up hup]
    simp only [State.stepUp, hk, Option.map_some, if_true]
  rw [Machine.exec_cons, haccept, Option.bind_some, Machine.exec_cons, step_of_up ((up_setSock i _).trans hup)]
  simp only [State.stepUp, sockAt_setSock, Option.map_some, Option.bind_some, Machine.exec_nil]
  rw [setSock_setSock, finishHandshake_setSock]
  rfl

/-- **The handler of a handshake**, run from its code, is that of the app. -/
theorem handshake_refines (hup : s.up = true) (i : SockId) :
    (s.sockAt i .accepting).bind (fun k =>
      (O.handled (onHandshake k.cell) { app := s, id := id, outside := w }).map (·.finishHandshake i k)) =
    (handlerMachine strerror).step s (.handshake i id) := by
  show _ = ((((appMachine strerror).exec s [.accept i true, .find i]).bind _).filter _)
  cases hk : s.sockAt i .accepting with
  | none =>
    have haccept : (appMachine strerror).step s (.accept i true) = none := by
      rw [step_of_up hup]
      simp only [State.stepUp, hk, Option.map_none]
    rw [Machine.exec_cons, haccept]
    rfl
  | some k =>
    rw [exec_accept_find hup hk, Option.bind_some, Option.bind_some, handled_onHandshake O hup]
    cases he : s.events (s.entry k.cell).user with
    | some m =>
      simp only [Option.isSome_some, Option.isNone_some, Bool.false_eq_true, if_true, if_false, Option.map_some]
      unfold State.finishHandshake
      rw [andThenAt_of_ne (State.setSock_self ..) (fun h => by cases h), filter_up ((up_setSock i _).trans hup)]
    | none =>
      simp only [Option.isSome_none, Option.isNone_none, Bool.false_eq_true, if_true, if_false]
      rw [andThenAt_setSock, if_pos rfl, step_of_up ((up_setSock i _).trans hup)]
      simp only [State.stepUp, sockAt_setSock, Option.bind_some, addEvents_setSock]
      cases s.addEvents k.cell id with
      | none => rfl
      | some t =>
        rw [Option.map_some, Option.map_some, finishHandshake_setSock]
        exact filter_last (f := fun t => t.finishHandshake i k) rfl rfl

/-! ## The close of a websocket -/

/-- Nothing that a closed websocket does brings the app up again. -/
theorem removeEvents_down (hdown : s.up = false) : (s.removeEvents conn).up = false := by
  unfold State.removeEvents
  cases he : s.events (s.entry conn).user with
  | none =>
    simp only [he]
    exact hdown
  | some m =>
    cases hf : m.find? fun e => e.1 = eventIdLifecycle with
    | none =>
      simp only [he, hf]
      rfl
    | some e =>
      simp only [he, hf]
      cases ho : s.objs e.2 with
      | none => exact hdown
      | some ev => exact hdown

/-- What `remove_events` asks, one after the other. -/
theorem exec_removeFound (v v₁ v₂ : Handling σ) (hremove : (O.answerHandler v (.removeEvent conn)).2 = v₁)
    (hdestroy : (O.answerHandler v₁ (.virConnectDomainEventDeregisterAny conn)).2 = v₂) :
    (removeFound conn).exec O.answerHandler () v =
      (.ok (), (), if ((v₂.app.events (v₂.app.entry conn).user).getD []).length = 0 then
        (O.answerHandler v₂ (.eraseEvents conn)).2 else v₂) := by
  unfold removeFound ask
  rw [Eff.exec_bind_ok _ (Eff.exec_call ..), hremove, Eff.exec_bind_ok _ (exec_destroyEvent ..), hdestroy,
    Eff.exec_bind_ok _ (Eff.exec_call ..)]
  show Eff.exec _ (if ((v₂.app.events (v₂.app.entry conn).user).getD []).length = 0 then _ else _) _ _ = _
  split_ifs
  · rfl
  · rfl

theorem entry_discard (s : State) (o : ObjId) (conn : User) : (s.discard o).entry conn = s.entry conn := by
  unfold State.discard
  cases s.objs o with
  | none => rfl
  | some ev => rfl

theorem setEvents_setEvents (s : State) (user : User) (m m' : Option EventMap) :
    (s.setEvents user m).setEvents user m' = s.setEvents user m' := by
  unfold State.setEvents
  simp only [Function.update_idem]

/-- There is no lifecycle event to remove. -/
theorem removeEvents_of_find_none {m : EventMap} (hm : s.events (s.entry conn).user = some m)
    (hf : m.find? (fun e => e.1 = eventIdLifecycle) = none) : s.removeEvents conn = s.terminate := by
  unfold State.removeEvents
  simp only [hm, hf]

theorem removeEvents_of_find {m : EventMap} {e : ℤ × ObjId} (hm : s.events (s.entry conn).user = some m)
    (hf : m.find? (fun e => e.1 = eventIdLifecycle) = some e) : s.removeEvents conn =
      (s.discard e.2).setEvents (s.entry conn).user
        (if (m.filter fun e => e.1 ≠ eventIdLifecycle).length = 0 then none
          else some (m.filter fun e => e.1 ≠ eventIdLifecycle)) := by
  unfold State.removeEvents State.discard
  simp only [hm, hf]
  cases s.objs e.2 with
  | none => rfl
  | some ev => rfl

/-- The event is taken out of its map, and then destroyed. -/
theorem answer_removeEvent {i : SockId} {m : EventMap} {e : ℤ × ObjId} (hm : s.events (s.entry conn).user = some m)
    (hf : m.find? (fun e => e.1 = eventIdLifecycle) = some e) :
    (O.answerHandler (O.answerHandler { app := s, websock := i, outside := w } (.removeEvent conn)).2
        (.virConnectDomainEventDeregisterAny conn)).2 =
      { app := (s.discard e.2).setEvents (s.entry conn).user (some (m.filter fun e => e.1 ≠ eventIdLifecycle)),
        websock := i, outside := w } := by
  unfold State.discard
  simp only [Outside.answerHandler, hm, Option.getD_some, hf]
  cases ho : s.objs e.2 with
  | none => rfl
  | some ev =>
    have ho' : (s.setEvents (s.entry conn).user (some (m.filter fun e => e.1 ≠ eventIdLifecycle))).objs e.2 = some ev := ho
    simp only [Option.map_some, State.deregister, ho']
    rfl

/-- What `remove_events` does with the events that it has found. -/
theorem handled_removeFound {i : SockId} {m : EventMap} (hm : s.events (s.entry conn).user = some m) :
    O.handled (removeFound conn) { app := s, websock := i, outside := w } = (some (s.removeEvents conn)).filter (·.up) := by
  unfold Outside.handled
  cases hf : m.find? fun e => e.1 = eventIdLifecycle with
  | none =>
    have hremove : (O.answerHandler { app := s, websock := i, outside := w } (.removeEvent conn)).2 =
        { app := s.terminate, websock := i, outside := w } := by
      simp only [Outside.answerHandler, hm, Option.getD_some, hf]
    rw [removeEvents_of_find_none hm hf, exec_removeFound O _ _ _ hremove rfl]
    split_ifs
    · rfl
    · rfl
  | some e =>
    obtain ⟨m', hm'⟩ : ∃ m', (m.filter fun e => e.1 ≠ eventIdLifecycle) = m' := ⟨_, rfl⟩
    obtain ⟨t, ht⟩ : ∃ t, (s.discard e.2).setEvents (s.entry conn).user (some m') = t := ⟨_, rfl⟩
    have hevent := answer_removeEvent O (i := i) (w := w) hm hf
    rw [hm', ht] at hevent
    have hentry : t.entry conn = s.entry conn := by
      rw [← ht]
      exact entry_discard s e.2 conn
    have hevents : (t.events (s.entry conn).user).getD [] = m' := by
      have hself : t.events (s.entry conn).user = some m' := ht ▸ Function.update_self ..
      rw [hself, Option.getD_some]
    rw [removeEvents_of_find hm hf, exec_removeFound O _ _ _ rfl hevent, hm', hentry, hevents]
    by_cases hlen : m'.length = 0
    · have herase : (O.answerHandler { app := t, websock := i, outside := w } (.eraseEvents conn)).2.app =
          (s.discard e.2).setEvents (s.entry conn).user none := by
        show t.setEvents (t.entry conn).user none = _
        rw [hentry, ← ht, setEvents_setEvents]
      rw [if_pos hlen, if_pos hlen, ← herase]
      exact (Option.filter_some ..).symm
    · rw [if_neg hlen, if_neg hlen, ht]
      exact (Option.filter_some ..).symm

/-- The handler of a closed websocket removes it, and the events of the user after the last one. -/
theorem handled_onClose {user : User} {i : SockId} :
    O.handled (onClose user conn) { app := s, websock := i, outside := w } =
      if ((s.removeWebsocket user i).buckets user).length = 0 then
        (some ((s.removeWebsocket user i).removeEvents conn)).filter (·.up)
      else (some (s.removeWebsocket user i)).filter (·.up) := by
  obtain ⟨t, ht⟩ : ∃ t, s.removeWebsocket user i = t := ⟨_, rfl⟩
  have hexec : (onClose user conn).exec O.answerHandler () { app := s, websock := i, outside := w } =
      (if (t.buckets user).length = 0 then removeEvents conn else pure () : HandlerM Unit).exec O.answerHandler ()
        { app := t, websock := i, outside := w } := by
    unfold onClose ask
    rw [Eff.exec_bind_ok _ (Eff.exec_call ..), Eff.exec_bind_ok _ (Eff.exec_call ..)]
    simp only [Outside.answerHandler, ht]
  rw [ht]
  by_cases hsize : (t.buckets user).length = 0
  · rw [if_pos hsize] at hexec ⊢
    have hfound : (removeEvents conn).exec O.answerHandler () { app := t, websock := i, outside := w } =
        (if (t.events (t.entry conn).user).isSome then removeFound conn else pure () : HandlerM Unit).exec
          O.answerHandler () { app := t, websock := i, outside := w } := by
      unfold removeEvents ask
      rw [Eff.exec_bind_ok _ (Eff.exec_call ..)]
      rfl
    cases he : t.events (t.entry conn).user with
    | none =>
      have hsame : t.removeEvents conn = t := by
        unfold State.removeEvents
        simp only [he]
      unfold Outside.handled
      rw [hexec, hfound, he, hsame]
      exact (Option.filter_some ..).symm
    | some m =>
      rw [← handled_removeFound O (w := w) (i := i) he]
      unfold Outside.handled
      rw [hexec, hfound, he]
      rfl
  · rw [if_neg hsize] at hexec ⊢
    unfold Outside.handled
    rw [hexec]
    exact (Option.filter_some ..).symm

/-- The handler of the app, once a close has been read, for a websocket that is in its bucket. -/
theorem exec_read_remove_size (hup : s.up = true) {i : SockId} {k : Sock} (hk : s.sockAt i .reading = some k)
    (hmem : i ∈ s.buckets k.user) :
    (appMachine strerror).exec s [.read i .closed, .remove i, .size i] =
      some ((s.unbucket i k).setSock i
        { k with phase := if ((s.unbucket i k).buckets k.user).length = 0 then .last else .closed }) := by
  have hread : (appMachine strerror).step s (.read i .closed) = some (s.setSock i { k with phase := .closing }) := by
    rw [step_of_up hup]
    simp only [State.stepUp, hk, Option.map_some]
  have hremove : (appMachine strerror).step (s.setSock i { k with phase := .closing }) (.remove i) =
      some ((s.unbucket i k).setSock i { k with phase := .removed }) := by
    rw [step_of_up ((up_setSock i _).trans hup)]
    simp only [State.stepUp, sockAt_setSock, Option.map_some]
    refine congrArg some ((if_pos hmem).trans ?_)
    simp [State.setSock, State.unbucket]
  rw [Machine.exec_cons, hread, Option.bind_some, Machine.exec_cons, hremove, Option.bind_some, Machine.exec_cons,
    step_of_up (show ((s.unbucket i k).setSock i _).up = true from hup)]
  simp only [State.stepUp, sockAt_setSock, Option.map_some, Option.bind_some, Machine.exec_nil]
  rw [setSock_setSock]
  rfl

/-- There is nothing to erase. -/
theorem exec_read_remove_size_none (hup : s.up = true) {i : SockId} {k : Sock} (hk : s.sockAt i .reading = some k)
    (hmem : i ∉ s.buckets k.user) : (appMachine strerror).exec s [.read i .closed, .remove i, .size i] = none := by
  have hread : (appMachine strerror).step s (.read i .closed) = some (s.setSock i { k with phase := .closing }) := by
    rw [step_of_up hup]
    simp only [State.stepUp, hk, Option.map_some]
  have hremove : (appMachine strerror).step (s.setSock i { k with phase := .closing }) (.remove i) =
      some (s.setSock i { k with phase := .closing }).terminate := by
    rw [step_of_up ((up_setSock i _).trans hup)]
    simp only [State.stepUp, sockAt_setSock, Option.map_some]
    exact congrArg some (if_neg hmem)
  rw [Machine.exec_cons, hread, Option.bind_some, Machine.exec_cons, hremove]
  rfl

/-- **The handler of a closed websocket**, run from its code, is that of the app. -/
theorem close_refines (hup : s.up = true) (i : SockId) :
    (s.sockAt i .reading).bind (fun k =>
      (O.handled (onClose k.user k.cell) { app := s, websock := i, outside := w }).map
        (·.setSock i { k with phase := .closed })) =
    (handlerMachine strerror).step s (.close i) := by
  show _ = ((((appMachine strerror).exec s [.read i .closed, .remove i, .size i]).bind _).filter _)
  cases hk : s.sockAt i .reading with
  | none =>
    have hread : (appMachine strerror).step s (.read i .closed) = none := by
      rw [step_of_up hup]
      simp only [State.stepUp, hk, Option.map_none]
    rw [Machine.exec_cons, hread]
    rfl
  | some k =>
    rw [Option.bind_some, handled_onClose]
    by_cases hmem : i ∈ s.buckets k.user
    · have hremove : s.removeWebsocket k.user i = s.unbucket i k := if_pos hmem
      rw [hremove, exec_read_remove_size hup hk hmem, Option.bind_some, andThenAt_setSock]
      by_cases hlast : ((s.unbucket i k).buckets k.user).length = 0
      · rw [if_pos hlast, if_pos hlast, if_pos rfl, step_of_up (show ((s.unbucket i k).setSock i _).up = true from hup)]
        simp only [State.stepUp, sockAt_setSock, Option.map_some, removeEvents_setSock, setSock_setSock]
        exact filter_last (f := fun t => t.setSock i { k with phase := .closed }) rfl rfl
      · rw [if_neg hlast, if_neg hlast, if_neg (fun h => by cases h)]
        rw [filter_up (show (s.unbucket i k).up = true from hup),
          filter_up (show ((s.unbucket i k).setSock i _).up = true from hup), Option.map_some]
    · have hremove : s.removeWebsocket k.user i = s.terminate := if_neg hmem
      rw [hremove, exec_read_remove_size_none hup hk hmem, filter_down (removeEvents_down (s := s.terminate) rfl),
        filter_down (s := s.terminate) rfl, ite_self]
      rfl

/-! ## The callback of an event -/

/-- The document of a domain, unless `simple_domain` throws. -/
def Outside.document (O : Outside σ) (w : σ) (d : DomainPtr) : Option Json :=
  ((Data.simpleDomain d).exec (fun w o => O.answer w (.op o)) {} w).1.toOption

theorem up_broadcast (source : Handle) (user : User) (data : Json) : (s.broadcast source user data).up = s.up := by
  unfold State.broadcast
  induction s.buckets user generalizing s with
  | nil => rfl
  | cons i is ih =>
    rw [List.foldl_cons, ih]
    unfold State.write
    cases s.socks i with
    | none => rfl
    | some k => rfl

/-- The callback of an event of interest broadcasts the document. -/
theorem handled_lifecycle (hup : s.up = true) {user : User} {h : Handle} {d : DomainPtr} {type : EventType} :
    O.handled (Dispatch.lifecycle user d type).run { app := s, source := h, outside := w } =
      if type.isTarget then (O.document w d).map fun data => s.broadcast h user data else some s := by
  have hrun : (Dispatch.lifecycle user d type).run =
    if type.isTarget then HandlerM.ofView (Data.simpleDomain d) >>= fun data => ask (.broadcast user data) else pure () :=
      rfl
  unfold Outside.handled
  rw [hrun]
  by_cases htarget : type.isTarget = true
  · obtain ⟨res, r, w', hview⟩ : ∃ res r w',
        (Data.simpleDomain d).exec (fun w o => O.answer w (.op o)) {} w = (res, r, w') := ⟨_, _, _, rfl⟩
    have hmap : (Data.simpleDomain d).exec (fun (v : Handling σ) o => O.answerHandler v (.op o)) {}
        { app := s, source := h, outside := w } =
      (((Data.simpleDomain d).exec (fun w o => O.answer w (.op o)) {} w).1,
        ((Data.simpleDomain d).exec (fun w o => O.answer w (.op o)) {} w).2.1,
        { app := s, source := h, outside := ((Data.simpleDomain d).exec (fun w o => O.answer w (.op o)) {} w).2.2 }) :=
      Eff.exec_map (fun v => ({ app := s, source := h, outside := v } : Handling σ)) (fun _ _ => rfl) _ _ _
    have hdocument : O.document w d = res.toOption := by
      unfold Outside.document
      rw [hview]
    rw [hview] at hmap
    rw [if_pos htarget, if_pos htarget, hdocument, Eff.exec_bind, exec_ofView, hmap]
    cases res with
    | error e => rfl
    | ok data =>
      have hup' : (s.broadcast h user data).up = true := (up_broadcast ..).trans hup
      exact if_pos hup'
  · rw [if_neg htarget, if_neg htarget]
    exact if_pos hup

/-- **The callback of an event**, run from its code, is that of the app. -/
theorem event_refines (hup : s.up = true) {user : User} {h : Handle} {d : DomainPtr} {type : EventType}
    (hopen : s.handleOpen user h = true) :
    (s.regs.find? fun r => r.handle = h && r.id = id).bind (fun r => (s.objs r.opaquePtr).bind fun ev =>
      O.handled (Dispatch.lifecycle ev.user d type).run { app := s, source := h, outside := w }) =
    (handlerMachine strerror).step s (.event user h id type (O.document w d)) := by
  show _ = ((appMachine strerror).step s _).filter _
  rw [step_of_up hup]
  simp only [State.stepUp, hopen, if_true]
  unfold State.event
  cases hr : s.regs.find? fun r => r.handle = h && r.id = id with
  | none => rfl
  | some r =>
    cases ho : s.objs r.opaquePtr with
    | none =>
      simp only [Option.bind_some, ho]
      exact (filter_down rfl).symm
    | some ev =>
      simp only [Option.bind_some, ho]
      rw [handled_lifecycle O hup]
      split_ifs
      · cases O.document w d with
        | none => exact (filter_down rfl).symm
        | some data => exact (filter_up ((up_broadcast ..).trans hup)).symm
      · exact (filter_up hup).symm

end

end Webvirtd.App
