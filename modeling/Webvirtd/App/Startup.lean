import Mathlib.Data.Int.Notation
import Mathlib.Tactic.SplitIfs
import Webvirtd.Lib.Machine

/-!
# App.Startup — `app::run` and the event thread

`run` starts the thread of `event_loop` and waits for its `notify_one`.  Nothing else takes
`event_mutex_`, so the mutex only says that `wait` begins with its caller awake.  The wait has no
predicate and the notifier takes no lock: a notification that comes before the wait is lost, and a
spurious wakeup ends the wait before there is anything to read.
-/

namespace Webvirtd.App

open Lib

inductive RunPhase
  | begin
  /-- The thread has been started. -/
  | started
  | locked
  /-- Inside `event_cv_.wait`. -/
  | waiting
  /-- Past the wait, about to test `event_error_`. -/
  | woken
  /-- Returned 0. -/
  | returned
  /-- Inside `server_.run`. -/
  | serving
  deriving DecidableEq, Repr

inductive LoopPhase
  | absent
  | begin
  /-- `register_impl` has returned -1. -/
  | failed
  /-- Registration is over, `notify_one` comes next. -/
  | registered
  | notified
  | looping
  | returned
  deriving DecidableEq, Repr

structure StartState where
  run : RunPhase := .begin
  loop : LoopPhase := .absent
  eventError : Bool := false
  /-- Whether `register_impl` succeeded, once it has returned. -/
  outcome : Option Bool := none
  deriving DecidableEq, Repr

/-- `event::register_impl`, from what `virEventRegisterDefaultImpl` and `virEventAddTimeout` return. -/
def registerImpl (defaultImpl addTimeout : ℤ) : ℤ := if defaultImpl = -1 then -1 else addTimeout

inductive StartAction
  -- `run`
  | startThread
  | lock
  | wait
  | spuriousWakeup
  | testError
  -- `event_loop`
  | register (defaultImpl addTimeout : ℤ)
  | setError
  | notifyOne
  | testLoop
  | runOne

def RunPhase.pastWait : RunPhase → Bool
  | .woken => true
  | .returned => true
  | .serving => true
  | _ => false

/-- Registration is over and `event_error_` set if it has to be. -/
def LoopPhase.finished : LoopPhase → Bool
  | .registered => true
  | .notified => true
  | .looping => true
  | .returned => true
  | _ => false

/-- `notify_one` has been called. -/
def LoopPhase.hasNotified : LoopPhase → Bool
  | .notified => true
  | .looping => true
  | .returned => true
  | _ => false

/-- All interleavings of the two threads. -/
def startupMachine : Machine StartState StartAction where
  init := {}
  step s
    | .startThread =>
      if s.run = .begin then some { s with run := .started, loop := .begin } else none
    | .lock => if s.run = .started then some { s with run := .locked } else none
    | .wait => if s.run = .locked then some { s with run := .waiting } else none
    | .spuriousWakeup => if s.run = .waiting then some { s with run := .woken } else none
    | .testError =>
      if s.run = .woken then some { s with run := if s.eventError then .returned else .serving }
      else none
    | .register defaultImpl addTimeout =>
      if s.loop = .begin then
        if registerImpl defaultImpl addTimeout = -1 then
          some { s with loop := .failed, outcome := some false }
        else some { s with loop := .registered, outcome := some true }
      else none
    | .setError =>
      if s.loop = .failed then some { s with loop := .registered, eventError := true } else none
    | .notifyOne =>
      if s.loop = .registered then
        some { s with loop := .notified, run := if s.run = .waiting then .woken else s.run }
      else none
    | .testLoop =>
      if s.loop = .notified then
        some { s with loop := if s.eventError then .returned else .looping }
      else none
    | .runOne => if s.loop = .looping then some s else none

/-- What the start-up is to guarantee. -/
structure StartupOk (s : StartState) : Prop where
  /-- Past the wait, registration is over. -/
  finished : s.run.pastWait = true → s.loop.finished = true
  /-- Past the wait, `event_error_` does not change any more. -/
  final : s.run.pastWait = true →
    ∀ as t, startupMachine.exec s as = some t → t.eventError = s.eventError
  served : s.run = .serving → s.outcome = some true
  /-- After the notification, `run` is not before or inside the wait. -/
  heard : s.loop.hasNotified = true → s.run.pastWait = true

/-- Spurious wakeups come after registration, and the notification comes when `run` waits or is past
the wait. -/
def StartAllowed (s : StartState) : StartAction → Prop
  | .spuriousWakeup => s.loop.finished = true
  | .notifyOne => s.run = .waiting ∨ s.run.pastWait = true
  | _ => True

/-- What carries `StartupOk` along. -/
structure StartInv (s : StartState) : Prop where
  absent : s.run = .begin → s.loop = .absent
  unset : s.loop.finished = false → s.eventError = false
  failed : s.loop = .failed → s.outcome = some false
  finished : s.run.pastWait = true → s.loop.finished = true
  outcome : s.loop.finished = true → s.outcome = some !s.eventError
  served : s.run = .serving → s.outcome = some true
  heard : s.loop.hasNotified = true → s.run.pastWait = true

section

variable {s t : StartState}

/-- What each step needs and does. -/
def StartOutcome (s t : StartState) : StartAction → Prop
  | .startThread => s.run = .begin ∧ t = { s with run := .started, loop := .begin }
  | .lock => s.run = .started ∧ t = { s with run := .locked }
  | .wait => s.run = .locked ∧ t = { s with run := .waiting }
  | .spuriousWakeup => s.run = .waiting ∧ t = { s with run := .woken }
  | .testError => s.run = .woken ∧ t = { s with run := if s.eventError then .returned else .serving }
  | .register d a => s.loop = .begin ∧
    (registerImpl d a = -1 ∧ t = { s with loop := .failed, outcome := some false } ∨
      registerImpl d a ≠ -1 ∧ t = { s with loop := .registered, outcome := some true })
  | .setError => s.loop = .failed ∧ t = { s with loop := .registered, eventError := true }
  | .notifyOne => s.loop = .registered ∧
    t = { s with loop := .notified, run := if s.run = .waiting then .woken else s.run }
  | .testLoop => s.loop = .notified ∧
    t = { s with loop := if s.eventError then .returned else .looping }
  | .runOne => s.loop = .looping ∧ t = s

theorem start_outcome {a : StartAction} (h : startupMachine.step s a = some t) :
    StartOutcome s t a := by
  cases a with
  | register d a =>
    obtain ⟨hp, h⟩ := Option.ite_none_right_eq_some.mp h
    refine ⟨hp, ?_⟩
    split_ifs at h with hr
    · exact .inl ⟨hr, (Option.some.inj h).symm⟩
    · exact .inr ⟨hr, (Option.some.inj h).symm⟩
  | _ =>
    obtain ⟨hp, h⟩ := Option.ite_none_right_eq_some.mp h
    exact ⟨hp, (Option.some.inj h).symm⟩

/-- `event_error_` is written before the end of registration only. -/
theorem eventError_of_finished (hrun : s.run ≠ .begin) (hs : s.loop.finished = true)
    {a : StartAction} (ha : StartOutcome s t a) :
    t.run ≠ .begin ∧ t.loop.finished = true ∧ t.eventError = s.eventError := by
  cases a with
  | startThread => exact absurd ha.1 hrun
  | lock => obtain ⟨-, rfl⟩ := ha; exact ⟨by simp, hs, rfl⟩
  | wait => obtain ⟨-, rfl⟩ := ha; exact ⟨by simp, hs, rfl⟩
  | spuriousWakeup => obtain ⟨-, rfl⟩ := ha; exact ⟨by simp, hs, rfl⟩
  | testError =>
    obtain ⟨-, rfl⟩ := ha
    refine ⟨?_, hs, rfl⟩
    cases s.eventError with
    | true => simp
    | false => simp
  | register d a =>
    obtain ⟨hp, -⟩ := ha
    rw [hp] at hs
    cases hs
  | setError =>
    obtain ⟨hp, -⟩ := ha
    rw [hp] at hs
    cases hs
  | notifyOne =>
    obtain ⟨-, rfl⟩ := ha
    refine ⟨?_, rfl, rfl⟩
    show (if s.run = .waiting then RunPhase.woken else s.run) ≠ .begin
    split_ifs
    · simp
    · exact hrun
  | testLoop =>
    obtain ⟨-, rfl⟩ := ha
    refine ⟨hrun, ?_, rfl⟩
    cases s.eventError with
    | true => rfl
    | false => rfl
  | runOne =>
    obtain ⟨-, rfl⟩ := ha
    exact ⟨hrun, hs, rfl⟩

theorem eventError_final (hrun : s.run ≠ .begin) (hs : s.loop.finished = true)
    {as : List StartAction} (h : startupMachine.exec s as = some t) : t.eventError = s.eventError := by
  induction as generalizing s with
  | nil =>
    obtain rfl : s = t := Option.some.inj h
    rfl
  | cons a as ih =>
    obtain ⟨u, hu, hut⟩ := Machine.exec_cons_eq_some.mp h
    obtain ⟨hrun', hs', he⟩ := eventError_of_finished hrun hs (start_outcome hu)
    exact (ih hrun' hs' hut).trans he

theorem startupOk_of_inv (hs : StartInv s) : StartupOk s where
  finished := hs.finished
  final hp as t h := by
    refine eventError_final (fun hb => ?_) (hs.finished hp) h
    rw [hb] at hp
    cases hp
  served := hs.served
  heard := hs.heard

/-! ### Steps of `run` -/

theorem startInv_startThread (hs : StartInv s) (hp : s.run = .begin) :
    StartInv { s with run := .started, loop := .begin } where
  absent := nofun
  unset _ := by
    have hloop : s.loop.finished = false := by rw [hs.absent hp]; rfl
    exact hs.unset hloop
  failed := nofun
  finished := nofun
  outcome := nofun
  served := nofun
  heard := nofun

/-- Before the wait nothing has been notified. -/
theorem startInv_beforeWait (hs : StartInv s) (hp : s.run.pastWait = false) {run : RunPhase}
    (hbegin : run ≠ .begin) (hrun : run.pastWait = false) : StartInv { s with run := run } :=
  { hs with
    absent := fun h => absurd h hbegin
    finished := fun h => by
      have hpast : run.pastWait = true := h
      rw [hrun] at hpast
      cases hpast
    served := fun h => by
      have hserving : run = .serving := h
      rw [hserving] at hrun
      cases hrun
    heard := fun h => by
      rw [hs.heard h] at hp
      cases hp }

theorem startInv_spuriousWakeup (hs : StartInv s) (hC : s.loop.finished = true) :
    StartInv { s with run := .woken } :=
  { hs with
    absent := nofun
    finished := fun _ => hC
    served := nofun
    heard := fun _ => rfl }

theorem startInv_testError (hs : StartInv s) (hp : s.run = .woken) :
    StartInv { s with run := if s.eventError then .returned else .serving } := by
  have hfin : s.loop.finished = true := hs.finished (by rw [hp]; rfl)
  have hout : s.outcome = some !s.eventError := hs.outcome hfin
  cases he : s.eventError with
  | true =>
    exact { hs with
      unset := he ▸ hs.unset
      absent := nofun
      finished := fun _ => hfin
      outcome := he ▸ hs.outcome
      served := nofun
      heard := fun _ => rfl }
  | false =>
    rw [he] at hout
    exact { hs with
      unset := he ▸ hs.unset
      absent := nofun
      finished := fun _ => hfin
      outcome := he ▸ hs.outcome
      served := fun _ => hout
      heard := fun _ => rfl }

/-! ### Steps of `event_loop` -/

/-- While `event_loop` runs, `run` is past its beginning. -/
theorem StartInv.started (hs : StartInv s) (h : s.loop ≠ .absent) : s.run ≠ .begin :=
  fun hrun => h (hs.absent hrun)

theorem StartInv.waiting (hs : StartInv s) (h : s.loop.finished = false) : s.run.pastWait ≠ true := by
  intro hpast
  rw [hs.finished hpast] at h
  cases h

theorem startInv_register (hs : StartInv s) (hp : s.loop = .begin) {d a : ℤ}
    (ht : registerImpl d a = -1 ∧ t = { s with loop := .failed, outcome := some false } ∨
      registerImpl d a ≠ -1 ∧ t = { s with loop := .registered, outcome := some true }) :
    StartInv t := by
  have hfin : s.loop.finished = false := by rw [hp]; rfl
  have hunset : s.eventError = false := hs.unset hfin
  have hbegin : s.run ≠ .begin := hs.started (by rw [hp]; nofun)
  have hpast : s.run.pastWait ≠ true := hs.waiting hfin
  have hserving : s.run ≠ .serving := fun h => hpast (by rw [h]; rfl)
  rcases ht with ⟨-, rfl⟩ | ⟨-, rfl⟩
  · exact {
      absent := fun h => absurd h hbegin
      unset := fun _ => hunset
      failed := fun _ => rfl
      finished := fun h => absurd h hpast
      outcome := nofun
      served := fun h => absurd h hserving
      heard := nofun }
  · exact {
      absent := fun h => absurd h hbegin
      unset := nofun
      failed := nofun
      finished := fun h => absurd h hpast
      outcome := fun _ => by rw [hunset]; rfl
      served := fun h => absurd h hserving
      heard := nofun }

theorem startInv_setError (hs : StartInv s) (hp : s.loop = .failed) :
    StartInv { s with loop := .registered, eventError := true } where
  absent h := absurd h (hs.started (by rw [hp]; nofun))
  unset := nofun
  failed := nofun
  finished h := absurd h (hs.waiting (by rw [hp]; rfl))
  outcome _ := hs.failed hp
  served := hs.served
  heard := nofun

theorem startInv_notifyOne (hs : StartInv s) (hp : s.loop = .registered)
    (hC : s.run = .waiting ∨ s.run.pastWait = true) :
    StartInv { s with loop := .notified, run := if s.run = .waiting then .woken else s.run } := by
  have hout : s.outcome = some !s.eventError := hs.outcome (by rw [hp]; rfl)
  have hbegin : s.run ≠ .begin := hs.started (by rw [hp]; nofun)
  by_cases hw : s.run = .waiting
  · rw [if_pos hw]
    exact {
      absent := nofun
      unset := nofun
      failed := nofun
      finished := fun _ => rfl
      outcome := fun _ => hout
      served := nofun
      heard := fun _ => rfl }
  · rw [if_neg hw]
    exact {
      absent := fun h => absurd h hbegin
      unset := nofun
      failed := nofun
      finished := fun _ => rfl
      outcome := fun _ => hout
      served := hs.served
      heard := fun _ => hC.resolve_left hw }

theorem startInv_testLoop (hs : StartInv s) (hp : s.loop = .notified) :
    StartInv { s with loop := if s.eventError then .returned else .looping } := by
  have hout : s.outcome = some !s.eventError := hs.outcome (by rw [hp]; rfl)
  have hpast : s.run.pastWait = true := hs.heard (by rw [hp]; rfl)
  have hbegin : s.run ≠ .begin := hs.started (by rw [hp]; nofun)
  have hloop : ∀ loop : LoopPhase, loop.finished = true → loop ≠ .failed →
      StartInv { s with loop := loop } := fun loop hfin hfailed => {
    absent := fun h => absurd h hbegin
    unset := fun h => by
      have hunfinished : loop.finished = false := h
      rw [hfin] at hunfinished
      cases hunfinished
    failed := fun h => absurd h hfailed
    finished := fun _ => hfin
    outcome := fun _ => hout
    served := hs.served
    heard := fun _ => hpast }
  split_ifs
  · exact hloop .returned rfl nofun
  · exact hloop .looping rfl nofun

theorem startInv_outcome (hs : StartInv s) {a : StartAction} (hC : StartAllowed s a)
    (ha : StartOutcome s t a) : StartInv t := by
  cases a with
  | startThread =>
    obtain ⟨hp, rfl⟩ := ha
    exact startInv_startThread hs hp
  | lock =>
    obtain ⟨hp, rfl⟩ := ha
    exact startInv_beforeWait hs (by rw [hp]; rfl) nofun rfl
  | wait =>
    obtain ⟨hp, rfl⟩ := ha
    exact startInv_beforeWait hs (by rw [hp]; rfl) nofun rfl
  | spuriousWakeup =>
    obtain ⟨-, rfl⟩ := ha
    exact startInv_spuriousWakeup hs hC
  | testError =>
    obtain ⟨hp, rfl⟩ := ha
    exact startInv_testError hs hp
  | register d a => exact startInv_register hs ha.1 ha.2
  | setError =>
    obtain ⟨hp, rfl⟩ := ha
    exact startInv_setError hs hp
  | notifyOne =>
    obtain ⟨hp, rfl⟩ := ha
    exact startInv_notifyOne hs hp hC
  | testLoop =>
    obtain ⟨hp, rfl⟩ := ha
    exact startInv_testLoop hs hp
  | runOne =>
    obtain ⟨-, rfl⟩ := ha
    exact hs

theorem startInv_init : StartInv {} where
  absent _ := rfl
  unset _ := rfl
  failed := nofun
  finished := nofun
  outcome := nofun
  served := nofun
  heard := nofun

end

/-- **Start-up.**  Along an interleaving of `run` and `event_loop` the start-up keeps its guarantees if and
only if every spurious wakeup comes after registration, and the notification when `run` is inside the
wait or past it. -/
theorem startupOk_iff (as : List StartAction) :
    startupMachine.Always StartupOk {} as ↔ startupMachine.Meets StartAllowed {} as := by
  constructor
  · refine fun h => Machine.meets_of_always (I := fun _ => True) (fun _ _ _ _ _ _ => trivial)
      (fun s a t _ _ hst hok => ?_) trivial h
    have ha := start_outcome hst
    cases a with
    | spuriousWakeup =>
      obtain ⟨-, rfl⟩ := ha
      exact hok.finished rfl
    | notifyOne =>
      obtain ⟨-, rfl⟩ := ha
      have hpast := hok.heard rfl
      by_cases hw : s.run = .waiting
      · exact .inl hw
      · simp only [hw, if_false] at hpast
        exact .inr hpast
    | _ => trivial
  · exact fun h => Machine.always_of_meets (fun s hs => startupOk_of_inv hs)
      (fun s a t hs hC hst => startInv_outcome hs hC (start_outcome hst)) startInv_init h

/-- The notification comes before the wait: nothing wakes `run` any more. -/
theorem startup_lost_notification :
    ¬ startupMachine.Always StartupOk {}
      [.startThread, .register 0 0, .notifyOne, .lock, .wait, .testLoop] := by
  intro h
  have hok : StartupOk ⟨.waiting, .looping, false, some true⟩ := h.last rfl
  have hpast := hok.heard rfl
  cases hpast

end Webvirtd.App
