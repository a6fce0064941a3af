import Mathlib.Data.Nat.Notation
import Webvirtd.Lib.Machine

/-!
# App.Teardown — from `server_.run` to the end of `~app`

`server::run` starts the workers and runs the `io_context` on the main thread as well.  SIGINT posts its stop; each
thread returns from `io_->run` once its handler is over.  Then `~app` clears `event_loop_`, joins the event thread
and, in the opposite order of the declarations, destroys the members; the workers are joined by `~server`, after
what is declared below `server_` is gone: the views, `pool_`, `websockets_`, `events_`.

libvirt calls a callback in a thread that is inside of it: the event thread in `run_one`, a handler that calls libvirt,
or the main thread, when what it destroys calls libvirt.

* `teardown`: whatever the order, no thread outlives its `std::thread`, nothing gets stuck, after the stop there are
  only so many steps of the main thread and of the workers, and once `event_loop_` is false, `~app` ends.
* `members_iff`: a worker is in a handler while the members are gone exactly if it was in one when they went.
  It may be (`members_gone`), and then libvirt may call a close callback.

What comes before the end of the wait in `app::run` is in `App.Startup`; that an exception leaves a handler, in
`App.Containment`.
-/

namespace Webvirtd.App

open Lib

/-- A thread in `io_context::run`. -/
inductive Runner
  | idle
  /-- In a handler. -/
  | busy
  | returned
  deriving DecidableEq, Repr

inductive MainPhase
  /-- Past the wait of `app::run`. -/
  | woken
  /-- In `pool_.start`. -/
  | starting
  /-- In `io_->run`. -/
  | serving
  /-- At `~app`. -/
  | left
  /-- `event_loop_` is false. -/
  | flagged
  /-- The event thread has been joined. -/
  | joined
  /-- The members below `server_` are gone; at the `k`-th worker of `pool_.join`. -/
  | joining (k : ℕ)
  | exited
  deriving DecidableEq, Repr

/-- `event_loop` -/
inductive EventPhase
  | absent
  /-- At the test of `event_error_`. -/
  | notified
  /-- At the test of `event_loop_`. -/
  | testing
  /-- In `run_one`, where callbacks are called. -/
  | running
  | returned
  deriving DecidableEq, Repr

/-- How `app::run` begins, if at all. -/
inductive Begin
  | setupFailed
  | registrationFailed
  | registered

structure TeardownState where
  main : MainPhase := .woken
  event : EventPhase := .notified
  /-- The workers in the order of `workers_`, and then the main thread. -/
  runners : List Runner := []
  eventLoop : Bool := true
  eventError : Bool := false
  /-- The stop has been posted. -/
  posted : Bool := false
  stopped : Bool := false
  deriving DecidableEq, Repr

def TeardownState.begin : Begin → TeardownState
  | .setupFailed => { main := .left, event := .absent }
  | .registrationFailed => { eventError := true }
  | .registered => {}

inductive TeardownAction
  /-- `signal::int_` -/
  | sigint
  -- the main thread
  | testError
  | startWorker
  | enterRun
  | returnRun
  | clearFlag
  | joinEvent
  | destroyMembers
  | joinWorker
  | exit
  -- the threads in `io_context::run`
  | take (i : ℕ)
  | takeStop (i : ℕ)
  | finish (i : ℕ)
  | leave (i : ℕ)
  -- the event thread
  | testEventError
  | testEventLoop
  | runOne
  -- libvirt calls a callback: in `run_one`, in a handler, or in the destructor of a member
  | callback
  | callbackIn (i : ℕ)
  | callbackInMain
  deriving DecidableEq, Repr

/-- `event_thread_.join()` returns, or there is nothing to join. -/
def EventPhase.ended : EventPhase → Bool
  | .absent => true
  | .returned => true
  | _ => false

namespace TeardownState

variable (s : TeardownState)

/-- The size of `workers_`. -/
def workers : ℕ := s.runners.length - 1

def setRunner (i : ℕ) (r : Runner) : TeardownState := { s with runners := s.runners.set i r }

end TeardownState

/-- All interleavings of the threads. -/
def teardownMachine (b : Begin) (threads : ℕ) : Machine TeardownState TeardownAction where
  init := .begin b
  step s
    | .sigint => some { s with posted := true }
    | .testError =>
      if s.main = .woken then some { s with main := if s.eventError then .left else .starting } else none
    | .startWorker =>
      if s.main = .starting ∧ s.runners.length < threads then some { s with runners := s.runners ++ [.idle] } else none
    | .enterRun =>
      if s.main = .starting ∧ s.runners.length = threads then
        some { s with main := .serving, runners := s.runners ++ [.idle] }
      else none
    | .returnRun =>
      if s.main = .serving ∧ s.runners[threads]? = some .returned then some { s with main := .left } else none
    | .clearFlag => if s.main = .left then some { s with main := .flagged, eventLoop := false } else none
    | .joinEvent => if s.main = .flagged ∧ s.event.ended = true then some { s with main := .joined } else none
    | .destroyMembers => if s.main = .joined then some { s with main := .joining 0 } else none
    | .joinWorker =>
      match s.main with
      | .joining k =>
        if k < s.workers ∧ s.runners[k]? = some .returned then some { s with main := .joining (k + 1) } else none
      | _ => none
    | .exit => if s.main = .joining s.workers then some { s with main := .exited } else none
    | .take i => if s.runners[i]? = some .idle ∧ s.stopped = false then some (s.setRunner i .busy) else none
    | .takeStop i =>
      if s.runners[i]? = some .idle ∧ s.posted = true ∧ s.stopped = false then some { s with stopped := true }
      else none
    | .finish i => if s.runners[i]? = some .busy then some (s.setRunner i .idle) else none
    | .leave i => if s.runners[i]? = some .idle ∧ s.stopped = true then some (s.setRunner i .returned) else none
    | .testEventError =>
      if s.event = .notified then some { s with event := if s.eventError then .returned else .testing } else none
    | .testEventLoop =>
      if s.event = .testing then some { s with event := if s.eventLoop then .running else .returned } else none
    | .runOne => if s.event = .running then some { s with event := .testing } else none
    | .callback => if s.event = .running then some s else none
    | .callbackIn i => if s.runners[i]? = some .busy then some s else none
    | .callbackInMain => if s.main = .joined then some s else none

/-! ## What a step does -/

/-- The action takes a thread further. -/
def TeardownAction.isStep : TeardownAction → Bool
  | .sigint => false
  | .callback => false
  | .callbackIn _ => false
  | .callbackInMain => false
  | _ => true

/-- It takes the main thread or a worker further. -/
def TeardownAction.counts : TeardownAction → Bool
  | .testEventError => false
  | .testEventLoop => false
  | .runOne => false
  | a => a.isStep

/-- libvirt calls a callback. -/
def TeardownAction.isCallback : TeardownAction → Bool
  | .callback => true
  | .callbackIn _ => true
  | .callbackInMain => true
  | _ => false

/-- How many steps the event thread has before it at most, once `event_loop_` is false. -/
def EventPhase.work : EventPhase → ℕ
  | .notified => 2
  | .testing => 1
  | .running => 2
  | _ => 0

inductive TeardownStep (threads : ℕ) (s : TeardownState) : TeardownAction → TeardownState → Prop
  | post : TeardownStep threads s .sigint { s with posted := true }
  | stop {a : TeardownAction} {i : ℕ} (hi : s.runners[i]? = some .idle) (hs : s.stopped = false) :
    TeardownStep threads s a { s with stopped := true }
  | event {a : TeardownAction} (event : EventPhase) (ha : a.counts = false) (he : s.event.ended = false)
    (hwork : s.eventLoop = false → event.work + 1 ≤ s.event.work) : TeardownStep threads s a { s with event := event }
  | callback {a : TeardownAction} (ha : a.isStep = false) : TeardownStep threads s a s
  /-- A thread in `io_->run` takes a handler, finishes it, or returns. -/
  | runner {a : TeardownAction} {i : ℕ} {r r' : Runner} (hi : s.runners[i]? = some r)
    (hr : r = .idle ∧ r' = .busy ∧ s.stopped = false ∨ r = .busy ∧ r' = .idle ∨
      r = .idle ∧ r' = .returned ∧ s.stopped = true) : TeardownStep threads s a (s.setRunner i r')
  /-- One more thread enters it. -/
  | grow {a : TeardownAction} {main : MainPhase} (hm : s.main = .starting)
    (h : main = .starting ∧ s.runners.length < threads ∨ main = .serving ∧ s.runners.length = threads) :
    TeardownStep threads s a { s with main := main, runners := s.runners ++ [.idle] }
  | begin {a : TeardownAction} {main : MainPhase} (hm : s.main = .woken) (h : main = .left ∨ main = .starting) :
    TeardownStep threads s a { s with main := main }
  | leave {a : TeardownAction} (hm : s.main = .serving) (hret : s.runners[threads]? = some .returned) :
    TeardownStep threads s a { s with main := .left }
  | clear {a : TeardownAction} (hm : s.main = .left) :
    TeardownStep threads s a { s with main := .flagged, eventLoop := false }
  | joinEvent {a : TeardownAction} (hm : s.main = .flagged) (he : s.event.ended = true) :
    TeardownStep threads s a { s with main := .joined }
  | destroy (hm : s.main = .joined) : TeardownStep threads s .destroyMembers { s with main := .joining 0 }
  | joinWorker {a : TeardownAction} {k : ℕ} (hm : s.main = .joining k) (hk : k < s.workers)
    (hret : s.runners[k]? = some .returned) : TeardownStep threads s a { s with main := .joining (k + 1) }
  | exit {a : TeardownAction} (hm : s.main = .joining s.workers) : TeardownStep threads s a { s with main := .exited }

theorem teardownStep {b : Begin} {threads : ℕ} {s t : TeardownState} {a : TeardownAction}
    (ha : (teardownMachine b threads).step s a = some t) : TeardownStep threads s a t := by
  cases a with
  | sigint =>
    obtain rfl := Option.some.inj ha
    exact .post
  | testError =>
    obtain ⟨hm, ha⟩ := Option.ite_none_right_eq_some.mp ha
    obtain rfl := Option.some.inj ha
    refine .begin hm ?_
    by_cases he : s.eventError = true
    · exact .inl (if_pos he)
    · exact .inr (if_neg he)
  | startWorker =>
    obtain ⟨⟨hm, hlt⟩, ha⟩ := Option.ite_none_right_eq_some.mp ha
    obtain rfl := Option.some.inj ha
    exact .grow hm (.inl ⟨hm, hlt⟩)
  | enterRun =>
    obtain ⟨⟨hm, heq⟩, ha⟩ := Option.ite_none_right_eq_some.mp ha
    obtain rfl := Option.some.inj ha
    exact .grow hm (.inr ⟨rfl, heq⟩)
  | returnRun =>
    obtain ⟨⟨hm, hret⟩, ha⟩ := Option.ite_none_right_eq_some.mp ha
    obtain rfl := Option.some.inj ha
    exact .leave hm hret
  | clearFlag =>
    obtain ⟨hm, ha⟩ := Option.ite_none_right_eq_some.mp ha
    obtain rfl := Option.some.inj ha
    exact .clear hm
  | joinEvent =>
    obtain ⟨⟨hm, he⟩, ha⟩ := Option.ite_none_right_eq_some.mp ha
    obtain rfl := Option.some.inj ha
    exact .joinEvent hm he
  | destroyMembers =>
    obtain ⟨hm, ha⟩ := Option.ite_none_right_eq_some.mp ha
    obtain rfl := Option.some.inj ha
    exact .destroy hm
  | joinWorker =>
    cases hm : s.main with
    | joining k =>
      simp only [teardownMachine, hm] at ha
      obtain ⟨⟨hk, hret⟩, ha⟩ := Option.ite_none_right_eq_some.mp ha
      obtain rfl := Option.some.inj ha
      exact .joinWorker hm hk hret
    | _ => simp [teardownMachine, hm] at ha
  | exit =>
    obtain ⟨hm, ha⟩ := Option.ite_none_right_eq_some.mp ha
    obtain rfl := Option.some.inj ha
    exact .exit hm
  | take i =>
    obtain ⟨⟨hi, hs⟩, ha⟩ := Option.ite_none_right_eq_some.mp ha
    obtain rfl := Option.some.inj ha
    exact .runner hi (.inl ⟨rfl, rfl, hs⟩)
  | takeStop i =>
    obtain ⟨⟨hi, -, hs⟩, ha⟩ := Option.ite_none_right_eq_some.mp ha
    obtain rfl := Option.some.inj ha
    exact .stop hi hs
  | finish i =>
    obtain ⟨hi, ha⟩ := Option.ite_none_right_eq_some.mp ha
    obtain rfl := Option.some.inj ha
    exact .runner hi (.inr (.inl ⟨rfl, rfl⟩))
  | leave i =>
    obtain ⟨⟨hi, hs⟩, ha⟩ := Option.ite_none_right_eq_some.mp ha
    obtain rfl := Option.some.inj ha
    exact .runner hi (.inr (.inr ⟨rfl, rfl, hs⟩))
  | testEventError =>
    obtain ⟨he, ha⟩ := Option.ite_none_right_eq_some.mp ha
    obtain rfl := Option.some.inj ha
    refine .event _ rfl (by rw [he]; rfl) fun _ => ?_
    rw [he]
    cases s.eventError with
    | false => decide
    | true => decide
  | testEventLoop =>
    obtain ⟨he, ha⟩ := Option.ite_none_right_eq_some.mp ha
    obtain rfl := Option.some.inj ha
    refine .event _ rfl (by rw [he]; rfl) fun hflag => ?_
    rw [he, hflag]
    decide
  | runOne =>
    obtain ⟨he, ha⟩ := Option.ite_none_right_eq_some.mp ha
    obtain rfl := Option.some.inj ha
    exact .event _ rfl (by rw [he]; rfl) fun _ => by rw [he]; decide
  | callback =>
    obtain ⟨-, ha⟩ := Option.ite_none_right_eq_some.mp ha
    obtain rfl := Option.some.inj ha
    exact .callback rfl
  | callbackIn i =>
    obtain ⟨-, ha⟩ := Option.ite_none_right_eq_some.mp ha
    obtain rfl := Option.some.inj ha
    exact .callback rfl
  | callbackInMain =>
    obtain ⟨-, ha⟩ := Option.ite_none_right_eq_some.mp ha
    obtain rfl := Option.some.inj ha
    exact .callback rfl

/-! ## What carries it along -/

namespace MainPhase

/-- How far the main thread has come. -/
@[simp] def stage : MainPhase → ℕ
  | .woken => 0
  | .starting => 1
  | .serving => 2
  | .left => 3
  | .flagged => 4
  | .joined => 5
  | .joining _ => 6
  | .exited => 7

/-- How many of the workers have been joined. -/
@[simp] def joins (workers : ℕ) : MainPhase → ℕ
  | .joining k => k
  | .exited => workers
  | _ => 0

theorem joins_early {main : MainPhase} (h : main.stage < 3) (workers : ℕ) : main.joins workers = 0 := by
  cases main with
  | joining k => exact absurd h (by simp)
  | exited => exact absurd h (by simp)
  | _ => rfl

end MainPhase

structure TeardownInv (threads : ℕ) (s : TeardownState) : Prop where
  woken : s.main = .woken → s.runners = []
  starting : s.main = .starting → s.runners.length ≤ threads
  serving : s.main = .serving → s.runners.length = threads + 1
  left : 3 ≤ s.main.stage → s.runners = [] ∨ s.runners.length = threads + 1 ∧ s.runners[threads]? = some Runner.returned
  flag : 4 ≤ s.main.stage → s.eventLoop = false
  ended : 5 ≤ s.main.stage → s.event.ended = true
  joins : ∀ k : ℕ, k < s.main.joins s.workers → s.runners[k]? = some Runner.returned
  bound : s.main.joins s.workers ≤ s.workers
  stopped : ∀ i : ℕ, s.runners[i]? = some Runner.returned → s.stopped = true

section

variable {b : Begin} {threads : ℕ} {s t : TeardownState}

theorem teardownInv_begin (b : Begin) : TeardownInv threads (.begin b) := by
  cases b with
  | setupFailed => constructor <;> simp [TeardownState.begin]
  | registrationFailed => constructor <;> simp [TeardownState.begin]
  | registered => constructor <;> simp [TeardownState.begin]

/-- A thread that has not returned from `io_->run` goes on. -/
theorem TeardownInv.setRunner (h : TeardownInv threads s) {i : ℕ} {r r' : Runner} (hi : s.runners[i]? = some r)
    (hr : r ≠ .returned) (hr' : r' = .returned → s.stopped = true) : TeardownInv threads (s.setRunner i r') := by
  have hlt : i < s.runners.length := (List.getElem?_eq_some_iff.mp hi).1
  have hne : s.runners ≠ [] := fun hnil => by simp [hnil] at hi
  have hlength : (s.setRunner i r').runners.length = s.runners.length := List.length_set
  have hworkers : (s.setRunner i r').workers = s.workers := congrArg (· - 1) hlength
  -- Who has returned has still returned.
  have hkeep : ∀ k : ℕ, s.runners[k]? = some Runner.returned → (s.setRunner i r').runners[k]? = some Runner.returned := by
    intro k hk
    have hik : i ≠ k := by
      rintro rfl
      rw [hi] at hk
      exact hr (Option.some.inj hk)
    show (s.runners.set i r')[k]? = _
    rw [List.getElem?_set_ne hik]
    exact hk
  refine ⟨fun hm => absurd (h.woken hm) hne, fun hm => ?_, fun hm => ?_, fun hm => ?_, h.flag, h.ended, ?_, ?_, ?_⟩
  · rw [hlength]
    exact h.starting hm
  · rw [hlength]
    exact h.serving hm
  · rcases h.left hm with hnil | ⟨hl, hn⟩
    · exact absurd hnil hne
    · exact .inr ⟨hlength.trans hl, hkeep _ hn⟩
  · intro k hk
    rw [hworkers] at hk
    exact hkeep k (h.joins k hk)
  · rw [hworkers]
    exact h.bound
  · intro k hk
    by_cases hik : i = k
    · subst hik
      have hset : (s.runners.set i r')[i]? = some r' := List.getElem?_set_self hlt
      exact hr' (Option.some.inj (hset.symm.trans hk))
    · have hset : (s.runners.set i r')[k]? = s.runners[k]? := List.getElem?_set_ne hik
      exact h.stopped k (hset.symm.trans hk)

/-- The main thread goes on in `~app`. -/
theorem TeardownInv.move (h : TeardownInv threads s) {main : MainPhase} {eventLoop : Bool} (hstage : 3 ≤ main.stage)
    (hleft : s.runners = [] ∨ s.runners.length = threads + 1 ∧ s.runners[threads]? = some Runner.returned)
    (hflag : 4 ≤ main.stage → eventLoop = false) (hover : 5 ≤ main.stage → s.event.ended = true)
    (hjoins : ∀ k : ℕ, k < main.joins s.workers → s.runners[k]? = some Runner.returned)
    (hbound : main.joins s.workers ≤ s.workers) :
    TeardownInv threads { s with main := main, eventLoop := eventLoop } where
  woken hm := by
    obtain rfl : main = .woken := hm
    exact absurd hstage (by decide)
  starting hm := by
    obtain rfl : main = .starting := hm
    exact absurd hstage (by decide)
  serving hm := by
    obtain rfl : main = .serving := hm
    exact absurd hstage (by decide)
  left _ := hleft
  flag := hflag
  ended := hover
  joins := hjoins
  bound := hbound
  stopped := h.stopped

/-- `pool_.start` and the entry into `io_->run`. -/
theorem TeardownInv.append (h : TeardownInv threads s) {main : MainPhase} (hmain : main ≠ .woken) (hstage : main.stage < 3)
    (hlt : main = .starting → s.runners.length < threads) (heq : main = .serving → s.runners.length = threads) :
    TeardownInv threads { s with main := main, runners := s.runners ++ [.idle] } where
  woken hm := absurd hm hmain
  starting hm := by
    have hlt := hlt hm
    show (s.runners ++ [Runner.idle]).length ≤ threads
    rw [List.length_append, List.length_singleton]
    omega
  serving hm := by
    have heq := heq hm
    show (s.runners ++ [Runner.idle]).length = threads + 1
    rw [List.length_append, List.length_singleton]
    omega
  left hm := absurd hm (Nat.not_le.mpr hstage)
  flag hm := absurd (Nat.le_of_succ_le hm) (Nat.not_le.mpr hstage)
  ended hm := absurd (Nat.le_of_succ_le (Nat.le_of_succ_le hm)) (Nat.not_le.mpr hstage)
  joins k hk := absurd hk (by rw [MainPhase.joins_early hstage]; exact Nat.not_lt_zero k)
  bound := by
    rw [MainPhase.joins_early hstage]
    exact Nat.zero_le _
  stopped i hi := by
    by_cases hlen : i < s.runners.length
    · rw [List.getElem?_append_left hlen] at hi
      exact h.stopped i hi
    · rw [List.getElem?_append_right (Nat.le_of_not_lt hlen)] at hi
      have hmem := List.mem_singleton.mp (List.mem_of_getElem? hi)
      cases hmem

/-- A step of the event thread, which does nothing after its end. -/
theorem TeardownInv.setEvent (h : TeardownInv threads s) {event : EventPhase} (hover : s.event.ended = false) :
    TeardownInv threads { s with event := event } :=
  { h with ended := fun hm => absurd (h.ended hm) (by rw [hover]; decide) }

theorem teardownInv (b : Begin) (threads : ℕ) : (teardownMachine b threads).Invariant (TeardownInv threads) where
  init := teardownInv_begin b
  step s a t h ha := by
    cases teardownStep ha with
    | post => exact { h with }
    | stop _ hs => exact { h with stopped := fun _ _ => rfl }
    | event event _ he _ => exact h.setEvent he
    | callback _ => exact h
    | runner hi hr =>
      rcases hr with ⟨rfl, rfl, -⟩ | ⟨rfl, rfl⟩ | ⟨rfl, rfl, hs⟩
      · exact h.setRunner hi (by decide) nofun
      · exact h.setRunner hi (by decide) nofun
      · exact h.setRunner hi (by decide) (fun _ => hs)
    | grow hm hmain =>
      rcases hmain with ⟨rfl, hlt⟩ | ⟨rfl, heq⟩
      · exact h.append nofun (by simp) (fun _ => hlt) nofun
      · exact h.append nofun (by simp) nofun (fun _ => heq)
    | begin hm hmain =>
      have hnil := h.woken hm
      rcases hmain with rfl | rfl
      · exact h.move (by simp) (.inl hnil) (fun hle => absurd hle (by simp)) (fun hle => absurd hle (by simp))
          (fun k hk => absurd hk (Nat.not_lt_zero k)) (Nat.zero_le _)
      · refine { h with woken := nofun, starting := fun _ => ?_, serving := nofun, left := fun hle => absurd hle (by simp),
                        flag := fun hle => absurd hle (by simp), ended := fun hle => absurd hle (by simp),
                        joins := fun k hk => absurd hk (Nat.not_lt_zero k), bound := Nat.zero_le _ }
        show s.runners.length ≤ threads
        rw [hnil]
        exact Nat.zero_le _
    | leave hm hret =>
      exact h.move (by simp) (.inr ⟨h.serving hm, hret⟩) (fun hle => absurd hle (by simp))
        (fun hle => absurd hle (by simp)) (fun k hk => absurd hk (Nat.not_lt_zero k)) (Nat.zero_le _)
    | clear hm =>
      exact h.move (by simp) (h.left (by simp [hm])) (fun _ => rfl) (fun hle => absurd hle (by simp))
        (fun k hk => absurd hk (Nat.not_lt_zero k)) (Nat.zero_le _)
    | joinEvent hm he =>
      exact h.move (by simp) (h.left (by simp [hm])) (fun _ => h.flag (by simp [hm])) (fun _ => he)
        (fun k hk => absurd hk (Nat.not_lt_zero k)) (Nat.zero_le _)
    | destroy hm =>
      exact h.move (by simp) (h.left (by simp [hm])) (fun _ => h.flag (by simp [hm]))
        (fun _ => h.ended (by simp [hm])) (fun k hk => absurd hk (Nat.not_lt_zero k)) (Nat.zero_le _)
    | joinWorker hm hk hret =>
      rename_i k
      refine h.move (by simp) (h.left (by simp [hm])) (fun _ => h.flag (by simp [hm]))
        (fun _ => h.ended (by simp [hm])) (fun j hj => ?_) hk
      by_cases hjk : j = k
      · rw [hjk]
        exact hret
      · have hj : j < k + 1 := hj
        have hlt : j < s.main.joins s.workers := by
          rw [hm]
          show j < k
          omega
        exact h.joins j hlt
    | exit hm =>
      have hjoins := h.joins
      rw [hm] at hjoins
      exact h.move (by simp) (h.left (by simp [hm])) (fun _ => h.flag (by simp [hm]))
        (fun _ => h.ended (by simp [hm])) hjoins (Nat.le_refl _)

/-! ## No thread is left waiting -/

def GoesOn (b : Begin) (threads : ℕ) (s : TeardownState) : Prop :=
  ∃ a t, a.isStep = true ∧ (teardownMachine b threads).step s a = some t

/-- Nobody waits for a thread in `io_->run` that cannot go on. -/
theorem goesOn_runner {i : ℕ} {r : Runner} (hi : s.runners[i]? = some r) (hr : r ≠ .returned) :
    GoesOn b threads s := by
  cases r with
  | idle =>
    by_cases hs : s.stopped = true
    · exact ⟨.leave i, _, rfl, if_pos ⟨hi, hs⟩⟩
    · exact ⟨.take i, _, rfl, if_pos ⟨hi, by simpa using hs⟩⟩
  | busy => exact ⟨.finish i, _, rfl, if_pos hi⟩
  | returned => exact absurd rfl hr

theorem TeardownInv.goesOn (h : TeardownInv threads s) (hmain : s.main ≠ .exited) : GoesOn b threads s := by
  cases hm : s.main with
  | woken => exact ⟨.testError, _, rfl, if_pos hm⟩
  | starting =>
    have hle := h.starting hm
    by_cases hlt : s.runners.length < threads
    · exact ⟨.startWorker, _, rfl, if_pos ⟨hm, hlt⟩⟩
    · exact ⟨.enterRun, _, rfl, if_pos ⟨hm, by omega⟩⟩
  | serving =>
    have hlen := h.serving hm
    have hlt : threads < s.runners.length := by omega
    have hi : s.runners[threads]? = some s.runners[threads] := List.getElem?_eq_getElem hlt
    by_cases hr : s.runners[threads] = .returned
    · rw [hr] at hi
      exact ⟨.returnRun, _, rfl, if_pos ⟨hm, hi⟩⟩
    · exact goesOn_runner hi hr
  | left => exact ⟨.clearFlag, _, rfl, if_pos hm⟩
  | flagged =>
    cases he : s.event with
    | absent => exact ⟨.joinEvent, _, rfl, if_pos ⟨hm, by rw [he]; rfl⟩⟩
    | returned => exact ⟨.joinEvent, _, rfl, if_pos ⟨hm, by rw [he]; rfl⟩⟩
    | notified => exact ⟨.testEventError, _, rfl, if_pos he⟩
    | testing => exact ⟨.testEventLoop, _, rfl, if_pos he⟩
    | running => exact ⟨.runOne, _, rfl, if_pos he⟩
  | joined => exact ⟨.destroyMembers, _, rfl, if_pos hm⟩
  | joining k =>
    have hbound : k ≤ s.workers := by
      have hb := h.bound
      rw [hm] at hb
      exact hb
    by_cases hk : k = s.workers
    · subst hk
      exact ⟨.exit, _, rfl, if_pos hm⟩
    · have hlt : k < s.runners.length := by
        have hk : k < s.workers := by omega
        unfold TeardownState.workers at hk
        omega
      have hi : s.runners[k]? = some s.runners[k] := List.getElem?_eq_getElem hlt
      by_cases hr : s.runners[k] = .returned
      · rw [hr] at hi
        refine ⟨.joinWorker, { s with main := .joining (k + 1) }, rfl, ?_⟩
        simp only [teardownMachine, hm]
        exact if_pos ⟨by omega, hi⟩
      · exact goesOn_runner hi hr
  | exited => exact absurd hm hmain

/-! ## The steps after the stop -/

def Runner.work : Runner → ℕ
  | .idle => 1
  | .busy => 2
  | .returned => 0

/-- How many steps the main thread has before it at most. -/
def TeardownState.mainWork (threads : ℕ) (s : TeardownState) : ℕ :=
  match s.main with
  | .woken => 3 * threads + 8
  | .starting => 2 * (threads + 1 - s.runners.length) + threads + 5
  | .serving => threads + 5
  | .left => threads + 4
  | .flagged => threads + 3
  | .joined => threads + 2
  | .joining k => threads - k + 1
  | .exited => 0

def TeardownState.work (threads : ℕ) (s : TeardownState) : ℕ := s.mainWork threads + total Runner.work s.runners

theorem TeardownInv.workers_le (h : TeardownInv threads s) (hm : 3 ≤ s.main.stage) : s.workers ≤ threads := by
  unfold TeardownState.workers
  rcases h.left hm with hnil | ⟨hlen, -⟩
  · simp [hnil]
  · omega

/-- A thread in `io_->run` goes on, and leaves itself less to do. -/
theorem work_setRunner {i : ℕ} {r r' : Runner} (hi : s.runners[i]? = some r) (hlt : r'.work + 1 ≤ r.work) :
    (s.setRunner i r').work threads + 1 ≤ s.work threads := by
  have htotal := total_set Runner.work hi r'
  have hmain : (s.setRunner i r').mainWork threads = s.mainWork threads := by
    unfold TeardownState.mainWork TeardownState.setRunner
    rw [List.length_set]
  unfold TeardownState.work
  rw [hmain]
  show s.mainWork threads + total Runner.work (s.runners.set i r') + 1 ≤ _
  omega

/-- The main thread goes on, and leaves itself less to do. -/
theorem work_move {main : MainPhase} {eventLoop : Bool}
    (hlt : ({ s with main := main, eventLoop := eventLoop } : TeardownState).mainWork threads + 1 ≤ s.mainWork threads) :
    ({ s with main := main, eventLoop := eventLoop } : TeardownState).work threads + 1 ≤ s.work threads := by
  unfold TeardownState.work
  show _ + total Runner.work s.runners + 1 ≤ _
  omega

/-- The stop has been taken, or the main thread is in `~app`. -/
def TeardownState.Winding (s : TeardownState) : Prop := s.stopped = true ∨ 3 ≤ s.main.stage

/-- Then nobody takes another handler. -/
theorem TeardownInv.not_taken (h : TeardownInv threads s) (hw : s.Winding) {i : ℕ} {r : Runner}
    (hi : s.runners[i]? = some r) : s.stopped = true := by
  rcases hw with hstopped | hm
  · exact hstopped
  · rcases h.left hm with hnil | ⟨-, hlast⟩
    · simp [hnil] at hi
    · exact h.stopped threads hlast

theorem winding_step {a : TeardownAction} (hw : s.Winding) (ha : (teardownMachine b threads).step s a = some t) :
    t.Winding ∧ (s.eventLoop = false → t.eventLoop = false) := by
  have hstage : s.main.stage < 3 → s.stopped = true := fun hlt => hw.resolve_right (Nat.not_le.mpr hlt)
  cases teardownStep ha with
  | post => exact ⟨hw, id⟩
  | stop _ _ => exact ⟨.inl rfl, id⟩
  | event _ _ _ _ => exact ⟨hw, id⟩
  | callback _ => exact ⟨hw, id⟩
  | runner _ _ => exact ⟨hw, id⟩
  | grow hm _ => exact ⟨.inl (hstage (by simp [hm])), id⟩
  | begin hm _ => exact ⟨.inl (hstage (by simp [hm])), id⟩
  | leave _ _ => exact ⟨.inr (by simp), id⟩
  | clear _ => exact ⟨.inr (by simp), fun _ => rfl⟩
  | joinEvent _ _ => exact ⟨.inr (by simp), id⟩
  | destroy _ => exact ⟨.inr (by simp), id⟩
  | joinWorker _ _ _ => exact ⟨.inr (by simp), id⟩
  | exit _ => exact ⟨.inr (by simp), id⟩

/-- A step leaves the main thread and the workers less to do, or the event thread. -/
theorem work_step (h : TeardownInv threads s) (hw : s.Winding) {a : TeardownAction}
    (ha : (teardownMachine b threads).step s a = some t) :
    (t.event = s.event ∧ t.work threads + a.isStep.toNat ≤ s.work threads) ∨
      a.counts = false ∧ t.work threads = s.work threads ∧ (s.eventLoop = false → t.event.work + 1 ≤ s.event.work) := by
  have hone : a.isStep.toNat ≤ 1 := Bool.toNat_le _
  have hadd : ∀ {t : TeardownState}, t.work threads + 1 ≤ s.work threads →
      t.work threads + a.isStep.toNat ≤ s.work threads := fun hle => by omega
  cases teardownStep ha with
  | post => exact .inl ⟨rfl, Nat.le_refl _⟩
  | stop hi hs =>
    rw [h.not_taken hw hi] at hs
    cases hs
  | event event hcounts _ hwork => exact .inr ⟨hcounts, rfl, hwork⟩
  | callback hstep =>
    rw [hstep]
    exact .inl ⟨rfl, Nat.le_refl _⟩
  | runner hi hr =>
    refine .inl ⟨rfl, hadd (work_setRunner hi ?_)⟩
    rcases hr with ⟨-, -, hs⟩ | ⟨rfl, rfl⟩ | ⟨rfl, rfl, -⟩
    · rw [h.not_taken hw hi] at hs
      cases hs
    · exact Nat.le_refl _
    · exact Nat.le_refl _
  | grow hm hmain =>
    refine .inl ⟨rfl, hadd ?_⟩
    rcases hmain with ⟨rfl, hlt⟩ | ⟨rfl, heq⟩
    · simp only [TeardownState.work, TeardownState.mainWork, hm, total_append, List.length_append,
        List.length_singleton, total, Runner.work]
      omega
    · simp only [TeardownState.work, TeardownState.mainWork, hm, total_append, total, Runner.work, heq]
      omega
  | begin hm hmain =>
    refine .inl ⟨rfl, hadd (work_move ?_)⟩
    rcases hmain with rfl | rfl
    · simp only [TeardownState.mainWork, hm]
      omega
    · simp only [TeardownState.mainWork, hm, h.woken hm, List.length_nil]
      omega
  | leave hm _ => exact .inl ⟨rfl, hadd (work_move (by simp [TeardownState.mainWork, hm]))⟩
  | clear hm => exact .inl ⟨rfl, hadd (work_move (by simp [TeardownState.mainWork, hm]))⟩
  | joinEvent hm _ => exact .inl ⟨rfl, hadd (work_move (by simp [TeardownState.mainWork, hm]))⟩
  | destroy hm => exact .inl ⟨rfl, hadd (work_move (by simp [TeardownState.mainWork, hm]))⟩
  | joinWorker hm hk _ =>
    have hle : s.workers ≤ threads := h.workers_le (by simp [hm])
    refine .inl ⟨rfl, hadd (work_move ?_)⟩
    simp only [TeardownState.mainWork, hm]
    omega
  | exit hm => exact .inl ⟨rfl, hadd (work_move (by simp [TeardownState.mainWork, hm]))⟩

theorem counts_le (a : TeardownAction) : a.counts.toNat ≤ a.isStep.toNat := by
  cases a with
  | _ => exact Nat.le_of_ble_eq_true rfl

/-- The main thread and the workers come to an end. -/
theorem bounded_of_winding (h : TeardownInv threads s) (hw : s.Winding) {as : List TeardownAction}
    (ht : (teardownMachine b threads).exec s as = some t) :
    as.countP TeardownAction.counts ≤ s.work threads := by
  have hstep : ∀ s a t, True → (TeardownInv threads s ∧ s.Winding) → (teardownMachine b threads).step s a = some t →
      (TeardownInv threads t ∧ t.Winding) ∧ t.work threads + a.counts.toNat ≤ s.work threads := by
    intro s a t _ hs ha
    refine ⟨⟨(teardownInv b threads).step s a t hs.1 ha, (winding_step hs.2 ha).1⟩, ?_⟩
    rcases work_step hs.1 hs.2 ha with ⟨-, hle⟩ | ⟨hcounts, heq, -⟩
    · have hcounts := counts_le a
      omega
    · rw [hcounts, heq]
      exact Nat.le_refl _
  obtain ⟨-, hcount⟩ := Machine.countP_le hstep (fun _ _ => trivial) ⟨h, hw⟩ ht
  omega

/-- And so does the event thread, once `event_loop_` is false. -/
theorem bounded_of_flag (h : TeardownInv threads s) (hw : s.Winding) (hflag : s.eventLoop = false)
    {as : List TeardownAction} (ht : (teardownMachine b threads).exec s as = some t) :
    as.countP TeardownAction.isStep ≤ s.work threads + s.event.work := by
  have hstep : ∀ s a t, True → (TeardownInv threads s ∧ s.Winding ∧ s.eventLoop = false) →
      (teardownMachine b threads).step s a = some t → (TeardownInv threads t ∧ t.Winding ∧ t.eventLoop = false) ∧
        t.work threads + t.event.work + a.isStep.toNat ≤ s.work threads + s.event.work := by
    intro s a t _ hs ha
    obtain ⟨hw, hkeep⟩ := winding_step hs.2.1 ha
    refine ⟨⟨(teardownInv b threads).step s a t hs.1 ha, hw, hkeep hs.2.2⟩, ?_⟩
    rcases work_step hs.1 hs.2.1 ha with ⟨hevent, hle⟩ | ⟨-, heq, hwork⟩
    · rw [hevent]
      omega
    · have hone : a.isStep.toNat ≤ 1 := Bool.toNat_le _
      have hdrop := hwork hs.2.2
      omega
  obtain ⟨-, hcount⟩ := Machine.countP_le hstep (fun _ _ => trivial) ⟨h, hw, hflag⟩ ht
  omega

/-- Past the destruction of the members, a callback is called in a worker's handler. -/
theorem callback_late (h : TeardownInv threads s) (hm : 6 ≤ s.main.stage) {a : TeardownAction}
    (ha : a.isCallback = true) (hst : (teardownMachine b threads).step s a = some t) :
    ∃ i, a = .callbackIn i ∧ s.runners[i]? = some .busy := by
  cases a with
  | callback =>
    obtain ⟨he, -⟩ := Option.ite_none_right_eq_some.mp hst
    have hended := h.ended (Nat.le_of_succ_le hm)
    rw [he] at hended
    cases hended
  | callbackIn i =>
    obtain ⟨hi, -⟩ := Option.ite_none_right_eq_some.mp hst
    exact ⟨i, rfl, hi⟩
  | callbackInMain =>
    obtain ⟨hj, -⟩ := Option.ite_none_right_eq_some.mp hst
    rw [hj] at hm
    exact absurd hm (by simp)
  | _ => cases ha

end

/-! ## The end -/

/-- What holds of every reachable state. -/
structure EndsWell (b : Begin) (threads : ℕ) (s : TeardownState) : Prop where
  /-- All threads are over when the last `std::thread` is destroyed. -/
  joined : s.main = .exited → s.event.ended = true ∧ ∀ r ∈ s.runners, r = .returned
  /-- Once the members are gone, libvirt calls no callback but in a handler that a worker was left in. -/
  callbacks : 6 ≤ s.main.stage → ∀ a t, a.isCallback = true → (teardownMachine b threads).step s a = some t →
    ∃ i, a = .callbackIn i ∧ s.runners[i]? = some .busy
  goesOn : s.main ≠ .exited → GoesOn b threads s
  /-- After the stop, the main thread and the workers have only so many steps before them. -/
  bounded : s.stopped = true → ∀ as t, (teardownMachine b threads).exec s as = some t →
    as.countP TeardownAction.counts ≤ s.work threads
  /-- After the first step of `~app` all threads have, and they go on until it has ended. -/
  ends : 4 ≤ s.main.stage → ∀ as t, (teardownMachine b threads).exec s as = some t →
    as.countP TeardownAction.isStep ≤ s.work threads + s.event.work ∧ (t.main = .exited ∨ GoesOn b threads t)

/-- **Teardown.**  However the main thread, the workers and the event thread take turns, whatever arrives before and
whether or not `app::run` has served at all. -/
theorem teardown (b : Begin) (threads : ℕ) {as : List TeardownAction} {s : TeardownState}
    (hs : (teardownMachine b threads).exec (.begin b) as = some s) : EndsWell b threads s := by
  have hinvariant := teardownInv b threads
  have hinv := hinvariant.exec (teardownInv_begin b) hs
  refine ⟨fun hm => ⟨hinv.ended (by simp [hm]), fun r hr => ?_⟩, fun hm a t ha hst => callback_late hinv hm ha hst,
    hinv.goesOn, fun hstopped as t ht => bounded_of_winding hinv (.inl hstopped) ht, fun hm as t ht => ⟨?_, ?_⟩⟩
  · obtain ⟨k, hk⟩ := List.mem_iff_getElem?.mp hr
    have hlen : k < s.runners.length := (List.getElem?_eq_some_iff.mp hk).1
    rcases hinv.left (by simp [hm]) with hnil | ⟨hl, hlast⟩
    · simp [hnil] at hlen
    · by_cases hkt : k = threads
      · rw [hkt, hlast] at hk
        exact (Option.some.inj hk).symm
      · have hjoined := hinv.joins k (by
          rw [hm]
          show k < s.runners.length - 1
          omega)
        rw [hjoined] at hk
        exact (Option.some.inj hk).symm
  · exact bounded_of_flag hinv (.inr (Nat.le_of_succ_le hm)) (hinv.flag hm) ht
  · by_cases hmain : t.main = .exited
    · exact .inl hmain
    · exact .inr ((hinvariant.exec hinv ht).goesOn hmain)

/-- One worker, and SIGINT while it is in a handler. -/
def slowTeardown : List TeardownAction :=
  [.testError, .startWorker, .enterRun, .testEventError, .take 0, .sigint, .takeStop 1, .leave 1, .returnRun,
    .testEventLoop, .clearFlag, .runOne, .finish 0, .testEventLoop, .joinEvent, .leave 0, .destroyMembers, .joinWorker,
    .exit]

theorem teardown_slow : ∃ s, (teardownMachine .registered 1).exec (.begin .registered) slowTeardown = some s ∧
    s.event.ended = true ∧ ∀ r ∈ s.runners, r = .returned := by
  obtain ⟨s, hs, hm⟩ : ∃ s, (teardownMachine .registered 1).exec (.begin .registered) slowTeardown = some s ∧
      s.main = .exited := ⟨_, rfl, rfl⟩
  exact ⟨s, hs, (teardown .registered 1 hs).joined hm⟩

/-! ## Workers and members -/

/-- No handler finds the members gone. -/
def MembersThere (s : TeardownState) : Prop :=
  6 ≤ s.main.stage → ∀ r ∈ s.runners, r ≠ .busy

/-- The members go while no worker is in a handler. -/
def GoQuietly (s : TeardownState) (a : TeardownAction) : Prop :=
  a = .destroyMembers → ∀ r ∈ s.runners, r ≠ .busy

section

variable {b : Begin} {threads : ℕ} {s t : TeardownState}

theorem membersThere_setRunner {i : ℕ} {r : Runner} (h : MembersThere s) (hr : r ≠ .busy) :
    MembersThere (s.setRunner i r) := by
  intro hm r' hr'
  rcases List.mem_or_eq_of_mem_set hr' with hr' | rfl
  · exact h hm r' hr'
  · exact hr

theorem membersThere_early (hm : t.main.stage < 6) : MembersThere t :=
  fun hle => absurd hle (Nat.not_le.mpr hm)

/-- Past the destruction the main thread only joins. -/
theorem membersThere_step (hs : TeardownInv threads s) (hthere : MembersThere s) {a : TeardownAction}
    (ha : (teardownMachine b threads).step s a = some t) : MembersThere t ↔ GoQuietly s a := by
  by_cases hd : a = .destroyMembers
  · subst hd
    obtain ⟨-, ha⟩ := Option.ite_none_right_eq_some.mp ha
    obtain rfl := Option.some.inj ha
    exact ⟨fun h _ => h (Nat.le_refl 6), fun h _ => h rfl⟩
  · refine iff_of_true ?_ (fun h => absurd h hd)
    cases teardownStep ha with
    | post => exact hthere
    | stop _ _ => exact hthere
    | event _ _ _ _ => exact hthere
    | callback _ => exact hthere
    | runner hi hr =>
      rcases hr with ⟨rfl, rfl, hgoes⟩ | ⟨rfl, rfl⟩ | ⟨rfl, rfl, -⟩
      · intro hm
        have hstopped := hs.not_taken (.inr (Nat.le_trans (by decide) hm)) hi
        rw [hgoes] at hstopped
        cases hstopped
      · exact membersThere_setRunner hthere (by decide)
      · exact membersThere_setRunner hthere (by decide)
    | grow hm hmain =>
      rcases hmain with ⟨rfl, -⟩ | ⟨rfl, -⟩
      · exact membersThere_early (by simp)
      · exact membersThere_early (by simp)
    | begin hm hmain =>
      rcases hmain with rfl | rfl
      · exact membersThere_early (by simp)
      · exact membersThere_early (by simp)
    | leave hm _ => exact membersThere_early (by simp)
    | clear hm => exact membersThere_early (by simp)
    | joinEvent hm _ => exact membersThere_early (by simp)
    | destroy hm => exact absurd rfl hd
    | joinWorker hm _ _ => exact fun _ => hthere (by simp [hm])
    | exit hm => exact fun _ => hthere (by simp [hm])

end

/-- **Members.**  A run has no worker in a handler while the members are gone if and only if no worker was in one when
they went.  Nothing sees to that: the workers are joined afterwards. -/
theorem members_iff (b : Begin) (threads : ℕ) (as : List TeardownAction) :
    (teardownMachine b threads).Always MembersThere (.begin b) as ↔
      (teardownMachine b threads).Meets GoQuietly (.begin b) as := by
  refine (teardownInv b threads).always_iff_meets ?_ (fun s a t hs _ hthere ha => membersThere_step hs hthere ha) as
  cases b with
  | setupFailed => exact membersThere_early (show 3 < 6 by decide)
  | registrationFailed => exact membersThere_early (show 0 < 6 by decide)
  | registered => exact membersThere_early (show 0 < 6 by decide)

/-- The stop comes while the one worker is in a handler; the main thread does not wait for it. -/
def hastyTeardown : List TeardownAction :=
  [.testError, .startWorker, .enterRun, .take 0, .sigint, .takeStop 1, .leave 1, .returnRun, .clearFlag,
    .testEventError, .testEventLoop, .joinEvent, .destroyMembers]

/-- The worker is in its handler, where libvirt may call a callback, and the members are gone. -/
theorem members_gone : ¬ (teardownMachine .registered 1).Always MembersThere (.begin .registered) hastyTeardown ∧
    ∃ s, (teardownMachine .registered 1).exec (.begin .registered) (hastyTeardown ++ [.callbackIn 0]) = some s := by
  refine ⟨fun h => ?_, _, rfl⟩
  obtain ⟨s, hs, hm, hbusy⟩ : ∃ s, (teardownMachine .registered 1).exec (.begin .registered) hastyTeardown = some s ∧
      s.main = .joining 0 ∧ .busy ∈ s.runners := ⟨_, rfl, rfl, by decide⟩
  exact h.last hs (by simp [hm]) .busy hbusy rfl

end Webvirtd.App
