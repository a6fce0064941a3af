import Webvirtd.App.Handling

/-!
# App.Daemon — the app, run from its code

Its entry points run one at a time, in any order; it is `App.State` that interleaves their steps.

* `handlers_refine`: the handlers of `App.Containment` complete when those of `App.Handlers` do, and leave the same
  state.
* `daemon_coarsens`: what the app does when it is run from its code, it does in steps of `appMachine`.
-/

namespace Webvirtd.App

open Lib Virt Http

/-- An entry point runs, with what is outside then. -/
inductive DaemonAction (σ : Type)
  | request (request : Request) (w : σ)
  /-- `async_accept` has succeeded; `id` is what `RegisterAny` returns if it takes a registration. -/
  | handshake (i : SockId) (id : ℤ) (w : σ)
  /-- `async_read` has found the websocket closed. -/
  | close (i : SockId) (w : σ)
  /-- libvirt calls the callback `id` of the connection `h` of `user`. -/
  | lifecycle (user : User) (h : Handle) (id : ℤ) (type : EventType) (domain : DomainPtr) (w : σ)
  /-- An operation completes whose handler calls nothing of these. -/
  | completes (a : Action)

/-- A completion that the containers and libvirt have no part in. -/
def Action.IsCompletion : Action → Bool
  | .asyncRun _ => true
  | .accept _ ok => !ok
  | .read _ .message => true
  | .read _ .error => true
  | .wrote _ => true
  | _ => false

section

variable {σ : Type} (L : Linked) (T : Timeouts) (O : Outside σ)

/-- The app, one entry point at a time. -/
def daemonMachine : Machine State (DaemonAction σ) where
  init := {}
  step s a :=
    if s.up then
      match a with
      | .request request w => O.served L T request s w
      | .handshake i id w => (s.sockAt i .accepting).bind fun k =>
        (O.handled (onHandshake k.cell) { app := s, id := id, outside := w }).map (·.finishHandshake i k)
      | .close i w => (s.sockAt i .reading).bind fun k =>
        (O.handled (onClose k.user k.cell) { app := s, websock := i, outside := w }).map
          (·.setSock i { k with phase := .closed })
      | .lifecycle user h id type domain w =>
        if s.handleOpen user h then
          (s.regs.find? fun r => r.handle = h && r.id = id).bind fun r => (s.objs r.opaquePtr).bind fun ev =>
            O.handled (Dispatch.lifecycle ev.user domain type).run { app := s, source := h, outside := w }
        else none
      | .completes a => if a.IsCompletion then (appMachine L.strerror).step s a else none
    else none

variable {L T O} {s t : State}

theorem step_of_down (hdown : ¬ s.up = true) (strerror : ℤ → String) (a : Action) :
    (appMachine strerror).step s a = none := if_neg hdown

theorem daemon_handshake (i : SockId) (id : ℤ) (w : σ) :
    (daemonMachine L T O).step s (.handshake i id w) = (handlerMachine L.strerror).step s (.handshake i id) := by
  by_cases hup : s.up = true
  · exact (if_pos hup).trans (handshake_refines O hup i)
  · refine (if_neg hup).trans ?_
    show none = ((((appMachine L.strerror).exec s [.accept i true, .find i]).bind _).filter _)
    rw [Machine.exec_cons, step_of_down hup]
    rfl

theorem daemon_close (i : SockId) (w : σ) :
    (daemonMachine L T O).step s (.close i w) = (handlerMachine L.strerror).step s (.close i) := by
  by_cases hup : s.up = true
  · exact (if_pos hup).trans (close_refines O hup i)
  · refine (if_neg hup).trans ?_
    show none = ((((appMachine L.strerror).exec s [.read i .closed, .remove i, .size i]).bind _).filter _)
    rw [Machine.exec_cons, step_of_down hup]
    rfl

theorem daemon_lifecycle (user : User) (h : Handle) (id : ℤ) (type : EventType) (d : DomainPtr) (w : σ) :
    (daemonMachine L T O).step s (.lifecycle user h id type d w) =
      (handlerMachine L.strerror).step s (.event user h id type (O.document w d)) := by
  by_cases hup : s.up = true
  · refine (if_pos hup).trans ?_
    by_cases hopen : s.handleOpen user h = true
    · exact (if_pos hopen).trans (event_refines O hup hopen)
    · refine (if_neg hopen).trans ?_
      show none = ((appMachine L.strerror).step s _).filter _
      rw [step_of_up hup]
      simp only [State.stepUp, if_neg hopen]
      rfl
  · refine (if_neg hup).trans ?_
    show none = ((appMachine L.strerror).step s _).filter _
    rw [step_of_down hup]
    rfl

variable (L T O)

/-- **The handlers**, run from their code, complete when those of the app do, and leave the same state. -/
theorem handlers_refine (s : State) (w : σ) :
    (∀ i id, (daemonMachine L T O).step s (.handshake i id w) = (handlerMachine L.strerror).step s (.handshake i id)) ∧
    (∀ i, (daemonMachine L T O).step s (.close i w) = (handlerMachine L.strerror).step s (.close i)) ∧
    ∀ user h id type d, (daemonMachine L T O).step s (.lifecycle user h id type d w) =
      (handlerMachine L.strerror).step s (.event user h id type (O.document w d)) :=
  ⟨fun i id => daemon_handshake i id w, fun i => daemon_close i w,
    fun user h id type d => daemon_lifecycle user h id type d w⟩

/-- **The daemon, run from its code**, takes steps of the app: what is invariant of `appMachine` holds of it. -/
theorem daemon_coarsens : Machine.Coarsens (daemonMachine L T O) (appMachine L.strerror) := by
  refine ⟨rfl, fun s a t h => ?_⟩
  have hhandler : ∀ {b}, (handlerMachine L.strerror).step s b = some t →
    ∃ as, (appMachine L.strerror).exec s as = some t := fun hb => (handlerMachine_coarsens L.strerror).2 s _ t hb
  cases a with
  | request request w =>
    obtain ⟨hup, h⟩ := Option.ite_none_right_eq_some.mp h
    by_cases hrequest : O.Upgrades L request s w
    · obtain ⟨errno, hstep⟩ := served_of_upgrades (T := T) hup hrequest
      exact ⟨_, Machine.exec_single (hstep.symm.trans h)⟩
    · obtain ⟨user, t', ⟨as, -, has⟩, hserved⟩ := served_of_not_upgrades (T := T) hup hrequest
      obtain ⟨-, ht⟩ := Option.ite_none_left_eq_some.mp (hserved.symm.trans h)
      obtain rfl := Option.some.inj ht
      exact ⟨as, has⟩
  | handshake i id w => exact hhandler ((daemon_handshake i id w).symm.trans h)
  | close i w => exact hhandler ((daemon_close i w).symm.trans h)
  | lifecycle user hd id type d w => exact hhandler ((daemon_lifecycle user hd id type d w).symm.trans h)
  | completes a =>
    obtain ⟨-, h⟩ := Option.ite_none_right_eq_some.mp h
    obtain ⟨-, h⟩ := Option.ite_none_right_eq_some.mp h
    exact ⟨[a], Machine.exec_single h⟩

/-- A websocket from the request to its close: the event object is registered and deregistered. -/
example : ((daemonMachine plainLinked ⟨60, 15⟩ annOutside).exec {} [.request (annWebsocket .get) 0,
    .completes (.asyncRun 0), .handshake 0 7 0, .close 0 0]).map State.calls =
      some [.deregister 0 (some 0) 7, .register 0 0 7] := by
  rfl

end

end Webvirtd.App
