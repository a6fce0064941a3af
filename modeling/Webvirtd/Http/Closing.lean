import Mathlib.Data.Int.Notation
import Mathlib.Data.Nat.Notation
import Mathlib.Tactic.SplitIfs
import Webvirtd.Lib.Machine

/-!
# Http.Closing — the completions of a connection, and `on_close_`

A connection waits for one operation at a time, and for its deadline.  When one of them completes, its
handler is queued, with an error code, and runs later.  Cancelling the timer only recalls a wait that has
begun and has not expired; `start()` begins it after the read, and another worker may run handlers in between.
The writes of a websocket only invoke `on_error_` and are left out.

* `notifications`: how often `on_close_` was invoked, and will be by the handlers that are queued.
* `notifications_step_iff`: it stays below two exactly by the steps that keep the expiry of the deadline
  and a completion that notifies `Apart`.
* `onClose_once_iff`: so do runs, in whatever order the queued handlers run.
-/

namespace Webvirtd.Http

open Lib

/-- `closed` is `beast::websocket::error::closed`. -/
inductive ErrorCode
  | success | operationAborted | closed
  | other (value : ℤ)
  deriving DecidableEq, Repr

/-- The operation that the connection waits for, or whose handler is queued. -/
inductive Stage
  | read
  | readDone (ec : ErrorCode)
  | write
  | writeDone (ec : ErrorCode)
  /-- `websock_->run()` has posted `async_run`. -/
  | posted
  | accept
  | acceptDone (ec : ErrorCode)
  | wsRead
  | wsReadDone (ec : ErrorCode)
  /-- No operation is left. -/
  | finished
  deriving DecidableEq, Repr

/-- `deadline_`, and the handler that waits for it. -/
inductive Deadline
  /-- `start()` has not come to `check_deadline` yet. -/
  | unset
  | waiting
  | queued (ec : ErrorCode)
  | ran (ec : ErrorCode)
  deriving DecidableEq, Repr

/-- `deadline_.cancel()`: an expiry that is queued already is not recalled, nor is a wait that is still to begin. -/
def Deadline.cancel : Deadline → Deadline
  | .waiting => .queued .operationAborted
  | d => d

structure ConnState where
  stage : Stage := .read
  deadline : Deadline := .unset
  /-- `socket_` is open. -/
  socket : Bool := true
  /-- The socket that was moved to the websocket is open. -/
  websock : Bool := false
  /-- How often `on_close_` has been invoked. -/
  closes : ℕ := 0
  /-- How often `on_error_` has been invoked. -/
  errors : ℕ := 0
  deriving DecidableEq, Repr

namespace ConnState

variable (s : ConnState)

def onClose : ConnState := { s with closes := s.closes + 1 }

def onError : ConnState := { s with errors := s.errors + 1 }

def cancel : ConnState := { s with deadline := s.deadline.cancel }

/-- `connection::upgrade` -/
def upgrade : ConnState := { s with socket := false, websock := s.socket }

/-- `connection::process_request`, with what the headers ask for and whether the request handler
upgrades.  Nothing runs after a null `websock_` is dereferenced. -/
def processRequest (isUpgrade upgraded : Bool) : Option ConnState :=
  let s := if upgraded then s.upgrade else s
  if isUpgrade then
    if upgraded then some { s.cancel with stage := .posted } else none
  else some { s with stage := .write }

/-- `connection::async_read` -/
def asyncRead (ec : ErrorCode) (isUpgrade upgraded : Bool) : Option ConnState :=
  if ec ≠ .success then some { s.onError with stage := .finished }
  else s.processRequest isUpgrade upgraded

/-- `connection::async_write` -/
def asyncWrite (ec : ErrorCode) : ConnState :=
  if ec ≠ .success then { s.onError with stage := .finished }
  else { s.cancel.onClose with stage := .finished }

/-- `connection::async_deadline` -/
def asyncDeadline (ec : ErrorCode) : ConnState :=
  let s := { s with deadline := .ran ec }
  if ec = .operationAborted then s else { s with socket := false }.onClose

/-- `websocket::connection::async_accept` -/
def wsAsyncAccept (ec : ErrorCode) : ConnState :=
  if ec ≠ .success then { s.onError with stage := .finished } else { s with stage := .wsRead }

/-- `websocket::connection::async_read` -/
def wsAsyncRead (ec : ErrorCode) : ConnState :=
  if ec = .closed then { s.onClose with stage := .finished }
  else if ec ≠ .success then { s.onError with stage := .finished }
  else { s with stage := .wsRead }

end ConnState

/-- The queued handler of an operation that completes. -/
def Stage.done : Stage → ErrorCode → Option Stage
  | .read, ec => some (.readDone ec)
  | .write, ec => some (.writeDone ec)
  | .accept, ec => some (.acceptDone ec)
  | .wsRead, ec => some (.wsReadDone ec)
  | _, _ => none

/-- The socket of the operation is open. -/
def ConnState.isOpen (s : ConnState) : Bool :=
  match s.stage with
  | .read => s.socket
  | .write => s.socket
  | _ => s.websock

/-- Nothing succeeds on a socket that is not open, and no close frame arrives there. -/
def ConnState.CanComplete (s : ConnState) (ec : ErrorCode) : Prop :=
  ec = .success ∨ ec = .closed → s.isOpen = true

instance (s : ConnState) (ec : ErrorCode) : Decidable (s.CanComplete ec) :=
  inferInstanceAs (Decidable (_ → _))

inductive ConnAction
  /-- `start()` comes to `check_deadline`. -/
  | checkDeadline
  /-- The operation completes, and its handler is queued. -/
  | complete (ec : ErrorCode)
  /-- The deadline expires, and its handler is queued. -/
  | expire (ec : ErrorCode)
  /-- The queued handler of the operation runs; what follows is for `process_request`. -/
  | runHandler (isUpgrade upgraded : Bool)
  /-- The queued handler of the deadline runs. -/
  | runDeadline
  deriving DecidableEq, Repr

/-- The action runs a handler. -/
def ConnAction.isRun : ConnAction → Bool
  | .runHandler _ _ => true
  | .runDeadline => true
  | _ => false

def ConnState.runHandler (s : ConnState) (isUpgrade upgraded : Bool) : Option ConnState :=
  match s.stage with
  | .readDone ec => s.asyncRead ec isUpgrade upgraded
  | .writeDone ec => some (s.asyncWrite ec)
  | .posted => some { s with stage := .accept }
  | .acceptDone ec => some (s.wsAsyncAccept ec)
  | .wsReadDone ec => some (s.wsAsyncRead ec)
  | _ => none

/-- A connection under all orders of its completions. -/
def connMachine : Machine ConnState ConnAction where
  init := {}
  step s
    | .checkDeadline => if s.deadline = .unset then some { s with deadline := .waiting } else none
    | .complete ec =>
      if s.CanComplete ec then (s.stage.done ec).map fun stage => { s with stage := stage } else none
    | .expire ec =>
      if s.deadline = .waiting ∧ ec ≠ .operationAborted then some { s with deadline := .queued ec }
      else none
    | .runHandler isUpgrade upgraded => s.runHandler isUpgrade upgraded
    | .runDeadline =>
      match s.deadline with
      | .queued ec => some (s.asyncDeadline ec)
      | _ => none

/-! ## What is still to be notified -/

/-- The queued handler of the operation will invoke `on_close_`. -/
def Stage.notifies : Stage → Bool
  | .writeDone ec => ec = .success
  | .wsReadDone ec => ec = .closed
  | _ => false

/-- The queued handler of the deadline will invoke `on_close_`. -/
def Deadline.notifies : Deadline → Bool
  | .queued ec => ec ≠ .operationAborted
  | _ => false

/-- The deadline has expired, and was not cancelled before. -/
def Deadline.expired : Deadline → Bool
  | .unset => false
  | .waiting => false
  | .queued ec => ec ≠ .operationAborted
  | .ran ec => ec ≠ .operationAborted

/-- How often `on_close_` will have been invoked when the queued handlers have run. -/
def ConnState.notifications (s : ConnState) : ℕ :=
  s.closes + s.stage.notifies.toNat + s.deadline.notifies.toNat

/-- A completion that notifies is not queued after the deadline has expired, and the deadline does not
expire while such a completion is queued, nor when the last operation has ended without an error. -/
def Apart (s : ConnState) : ConnAction → Prop
  | .complete ec => ∀ stage, s.stage.done ec = some stage → stage.notifies = true →
    s.deadline.expired = false
  | .expire _ => s.stage.notifies = false ∧ (s.stage = .finished → 0 < s.errors)
  | _ => True

structure ConnInv (s : ConnState) : Prop where
  active : s.stage ≠ .finished → s.errors = 0 ∧ (s.deadline.expired = false → s.closes = 0)
  finished : s.stage = .finished → s.deadline.expired = false → s.closes + s.errors = 1
  ran : ∀ ec, s.deadline = .ran ec → ec ≠ .operationAborted → 1 ≤ s.closes

section

variable {s t : ConnState}

theorem connInv_init : ConnInv {} where
  active _ := ⟨rfl, fun _ => rfl⟩
  finished h := by cases h
  ran _ h := by cases h

/-! ### What the handlers do -/

theorem cancel_notifies (d : Deadline) : d.cancel.notifies = d.notifies := by
  cases d <;> rfl

theorem cancel_expired (d : Deadline) : d.cancel.expired = d.expired := by
  cases d <;> rfl

theorem cancel_ran {d : Deadline} {ec : ErrorCode} (h : d.cancel = .ran ec) : d = .ran ec := by
  cases d with
  | waiting => cases h
  | _ => exact h

/-- What the handler of an operation does, as far as notifications go. -/
structure HandlerStep (s t : ConnState) : Prop where
  active : s.stage ≠ .finished
  closes : t.closes = s.closes + s.stage.notifies.toNat
  stage : t.stage.notifies = false
  deadline : t.deadline = s.deadline ∨ t.deadline = s.deadline.cancel
  goesOn : t.stage ≠ .finished → s.stage.notifies = false ∧ t.errors = s.errors
  ends : t.stage = .finished → t.errors + s.stage.notifies.toNat = s.errors + 1

/-- A handler that goes on with another operation. -/
theorem HandlerStep.on (hactive : s.stage ≠ .finished) (hnot : s.stage.notifies = false)
    (hcloses : t.closes = s.closes) (herrors : t.errors = s.errors) (hstage : t.stage.notifies = false)
    (hgoes : t.stage ≠ .finished) (hdeadline : t.deadline = s.deadline ∨ t.deadline = s.deadline.cancel) :
    HandlerStep s t where
  active := hactive
  closes := by rw [hcloses, hnot]; rfl
  stage := hstage
  deadline := hdeadline
  goesOn _ := ⟨hnot, herrors⟩
  ends h := absurd h hgoes

/-- A handler that ends in `on_error_`. -/
theorem HandlerStep.failed (hactive : s.stage ≠ .finished) (hnot : s.stage.notifies = false) :
    HandlerStep s { s.onError with stage := .finished } where
  active := hactive
  closes := by rw [hnot]; rfl
  stage := rfl
  deadline := .inl rfl
  goesOn h := absurd rfl h
  ends _ := by rw [hnot]; rfl

/-- A handler that ends in `on_close_`. -/
theorem HandlerStep.closed (hactive : s.stage ≠ .finished) (hnot : s.stage.notifies = true)
    (hcloses : t.closes = s.closes + 1) (herrors : t.errors = s.errors) (hstage : t.stage = .finished)
    (hdeadline : t.deadline = s.deadline ∨ t.deadline = s.deadline.cancel) : HandlerStep s t where
  active := hactive
  closes := by rw [hcloses, hnot]; rfl
  stage := by rw [hstage]; rfl
  deadline := hdeadline
  goesOn h := absurd hstage h
  ends _ := by rw [herrors, hnot]; rfl

theorem handlerStep_processRequest {ec : ErrorCode} {isUpgrade upgraded : Bool}
    (hs : s.stage = .readDone ec) (h : s.processRequest isUpgrade upgraded = some t) :
    HandlerStep s t := by
  have hactive : s.stage ≠ .finished := by
    rw [hs]
    exact nofun
  have hnot : s.stage.notifies = false := by
    rw [hs]
    rfl
  unfold ConnState.processRequest at h
  cases isUpgrade with
  | true =>
    cases upgraded with
    | true =>
      obtain rfl := Option.some.inj h
      exact .on hactive hnot rfl rfl rfl nofun (.inr rfl)
    | false => cases h
  | false =>
    obtain rfl := Option.some.inj h
    cases upgraded with
    | true => exact .on hactive hnot rfl rfl rfl nofun (.inl rfl)
    | false => exact .on hactive hnot rfl rfl rfl nofun (.inl rfl)

theorem handlerStep_asyncRead {ec : ErrorCode} {isUpgrade upgraded : Bool}
    (hs : s.stage = .readDone ec) (h : s.asyncRead ec isUpgrade upgraded = some t) :
    HandlerStep s t := by
  unfold ConnState.asyncRead at h
  split_ifs at h
  · obtain rfl := Option.some.inj h
    refine .failed ?_ ?_
    · rw [hs]
      exact nofun
    · rw [hs]
      rfl
  · exact handlerStep_processRequest hs h

theorem handlerStep_asyncWrite {ec : ErrorCode} (hs : s.stage = .writeDone ec) :
    HandlerStep s (s.asyncWrite ec) := by
  have hactive : s.stage ≠ .finished := by
    rw [hs]
    exact nofun
  unfold ConnState.asyncWrite
  split_ifs with hec
  · refine .failed hactive ?_
    rw [hs]
    exact decide_eq_false hec
  · have hnot : s.stage.notifies = true := by
      rw [hs]
      exact decide_eq_true (not_not.mp hec)
    exact .closed hactive hnot rfl rfl rfl (.inr rfl)

theorem handlerStep_wsAsyncAccept {ec : ErrorCode} (hs : s.stage = .acceptDone ec) :
    HandlerStep s (s.wsAsyncAccept ec) := by
  have hactive : s.stage ≠ .finished := by
    rw [hs]
    exact nofun
  have hnot : s.stage.notifies = false := by
    rw [hs]
    rfl
  unfold ConnState.wsAsyncAccept
  split_ifs
  · exact .failed hactive hnot
  · exact .on hactive hnot rfl rfl rfl nofun (.inl rfl)

theorem handlerStep_wsAsyncRead {ec : ErrorCode} (hs : s.stage = .wsReadDone ec) :
    HandlerStep s (s.wsAsyncRead ec) := by
  have hactive : s.stage ≠ .finished := by
    rw [hs]
    exact nofun
  unfold ConnState.wsAsyncRead
  split_ifs with hclosed
  · have hnot : s.stage.notifies = true := by
      rw [hs]
      exact decide_eq_true hclosed
    exact .closed hactive hnot rfl rfl rfl (.inl rfl)
  · refine .failed hactive ?_
    rw [hs]
    exact decide_eq_false hclosed
  · refine .on hactive ?_ rfl rfl rfl nofun (.inl rfl)
    rw [hs]
    exact decide_eq_false hclosed

theorem handlerStep_of_run {isUpgrade upgraded : Bool} (h : s.runHandler isUpgrade upgraded = some t) :
    HandlerStep s t := by
  unfold ConnState.runHandler at h
  split at h
  · rename_i ec hs
    exact handlerStep_asyncRead hs h
  · rename_i ec hs
    obtain rfl := Option.some.inj h
    exact handlerStep_asyncWrite hs
  · rename_i hs
    obtain rfl := Option.some.inj h
    refine .on ?_ ?_ rfl rfl rfl nofun (.inl rfl)
    · rw [hs]
      exact nofun
    · rw [hs]
      rfl
  · rename_i ec hs
    obtain rfl := Option.some.inj h
    exact handlerStep_wsAsyncAccept hs
  · rename_i ec hs
    obtain rfl := Option.some.inj h
    exact handlerStep_wsAsyncRead hs
  · cases h

/-- The handler of the deadline notifies unless it was cancelled. -/
theorem deadlineStep_of_run (h : connMachine.step s .runDeadline = some t) :
    ∃ ec, s.deadline = .queued ec ∧ t.deadline = .ran ec ∧ t.stage = s.stage ∧
      t.closes = s.closes + s.deadline.notifies.toNat ∧ t.errors = s.errors := by
  simp only [connMachine] at h
  split at h
  · rename_i ec hd
    obtain rfl := Option.some.inj h
    refine ⟨ec, hd, ?_⟩
    unfold ConnState.asyncDeadline
    dsimp only
    split_ifs with hec
    · refine ⟨rfl, rfl, ?_, rfl⟩
      rw [hd, hec]
      rfl
    · refine ⟨rfl, rfl, ?_, rfl⟩
      have hnot : s.deadline.notifies = true := by
        rw [hd]
        exact decide_eq_true hec
      rw [hnot]
      rfl
  · cases h

theorem complete_cases {ec : ErrorCode} (h : connMachine.step s (.complete ec) = some t) :
    ∃ stage, s.stage.done ec = some stage ∧ t = { s with stage := stage } := by
  simp only [connMachine] at h
  split_ifs at h
  obtain ⟨stage, hstage, ht⟩ := Option.map_eq_some_iff.mp h
  exact ⟨stage, hstage, ht.symm⟩

theorem expire_cases {ec : ErrorCode} (h : connMachine.step s (.expire ec) = some t) :
    s.deadline = .waiting ∧ ec ≠ .operationAborted ∧ t = { s with deadline := .queued ec } := by
  simp only [connMachine] at h
  split_ifs at h with hc
  exact ⟨hc.1, hc.2, (Option.some.inj h).symm⟩

theorem checkDeadline_cases (h : connMachine.step s .checkDeadline = some t) :
    s.deadline = .unset ∧ t = { s with deadline := .waiting } := by
  simp only [connMachine] at h
  split_ifs at h with hd
  exact ⟨hd, (Option.some.inj h).symm⟩

/-- An operation that is waited for is not finished, and its handler notifies only once it is queued. -/
theorem done_cases {stage stage' : Stage} {ec : ErrorCode} (h : stage.done ec = some stage') :
    stage ≠ .finished ∧ stage.notifies = false ∧ stage' ≠ .finished := by
  cases stage with
  | read => cases h; exact ⟨nofun, rfl, nofun⟩
  | write => cases h; exact ⟨nofun, rfl, nofun⟩
  | accept => cases h; exact ⟨nofun, rfl, nofun⟩
  | wsRead => cases h; exact ⟨nofun, rfl, nofun⟩
  | _ => cases h

/-! ### The invariant -/

theorem connInv_handlerStep (h : ConnInv s) (hst : HandlerStep s t) : ConnInv t := by
  obtain ⟨herrors, hzero⟩ := h.active hst.active
  have hexp : t.deadline.expired = s.deadline.expired := by
    rcases hst.deadline with hd | hd
    · rw [hd]
    · rw [hd, cancel_expired]
  refine ⟨fun hgoes => ?_, fun hend hte => ?_, fun ec ht hec => ?_⟩
  · obtain ⟨hnot, hsame⟩ := hst.goesOn hgoes
    refine ⟨hsame.trans herrors, fun hte => ?_⟩
    rw [hst.closes, hnot, hzero (hexp ▸ hte)]
    rfl
  · have hsum := hst.ends hend
    rw [hst.closes, hzero (hexp ▸ hte)]
    omega
  · have hran : s.deadline = .ran ec := by
      rcases hst.deadline with hd | hd
      · exact hd.symm.trans ht
      · exact cancel_ran (hd.symm.trans ht)
    have hcloses := h.ran ec hran hec
    rw [hst.closes]
    exact Nat.le_trans hcloses (Nat.le_add_right _ _)

theorem connInv_step (h : ConnInv s) {a : ConnAction} (hst : connMachine.step s a = some t) :
    ConnInv t := by
  cases a with
  | checkDeadline =>
    obtain ⟨hd, rfl⟩ := checkDeadline_cases hst
    have hexp : s.deadline.expired = false := by
      rw [hd]
      rfl
    exact ⟨fun hactive => ⟨(h.active hactive).1, fun _ => (h.active hactive).2 hexp⟩,
      fun hend _ => h.finished hend hexp, nofun⟩
  | complete ec =>
    obtain ⟨stage, hdone, rfl⟩ := complete_cases hst
    obtain ⟨hactive, -, hgoes⟩ := done_cases hdone
    exact ⟨fun _ => h.active hactive, fun hend => absurd hend hgoes, h.ran⟩
  | expire ec =>
    obtain ⟨hwait, hec, rfl⟩ := expire_cases hst
    have hexp : (Deadline.queued ec).expired ≠ false := by
      intro hf
      exact of_decide_eq_false hf hec
    exact ⟨fun hactive => ⟨(h.active hactive).1, fun hf => absurd hf hexp⟩, fun _ hf => absurd hf hexp, nofun⟩
  | runHandler isUpgrade upgraded => exact connInv_handlerStep h (handlerStep_of_run hst)
  | runDeadline =>
    obtain ⟨ec, hd, ht, hstage, hcloses, herrors⟩ := deadlineStep_of_run hst
    -- as long as it has not expired, it was cancelled
    have hsame : t.deadline.expired = false → s.deadline.expired = false ∧ t.closes = s.closes := by
      intro hexp
      rw [ht] at hexp
      rw [hcloses, hd]
      refine ⟨hexp, ?_⟩
      rw [show (Deadline.queued ec).notifies = false from hexp]
      rfl
    refine ⟨fun hactive => ⟨?_, fun hexp => ?_⟩, fun hend hexp => ?_, fun ec' hr hec => ?_⟩
    · rw [herrors]
      exact (h.active (hstage ▸ hactive)).1
    · obtain ⟨hexp, hc⟩ := hsame hexp
      rw [hc]
      exact (h.active (hstage ▸ hactive)).2 hexp
    · obtain ⟨hexp, hc⟩ := hsame hexp
      rw [hc, herrors]
      exact h.finished (hstage ▸ hend) hexp
    · rw [ht] at hr
      cases hr
      have hnot : s.deadline.notifies = true := by
        rw [hd]
        exact decide_eq_true hec
      rw [hcloses, hnot]
      exact Nat.le_add_left _ _

/-! ### Notifications -/

/-- Running a queued handler does what was counted. -/
theorem notifications_run {a : ConnAction} (ha : a.isRun = true)
    (hst : connMachine.step s a = some t) : t.notifications = s.notifications := by
  unfold ConnState.notifications
  cases a with
  | checkDeadline => cases ha
  | complete ec => cases ha
  | expire ec => cases ha
  | runHandler isUpgrade upgraded =>
    have h := handlerStep_of_run hst
    have hdeadline : t.deadline.notifies = s.deadline.notifies := by
      rcases h.deadline with hd | hd
      · rw [hd]
      · rw [hd, cancel_notifies]
    rw [h.closes, h.stage, hdeadline]
    rfl
  | runDeadline =>
    obtain ⟨ec, hd, ht, hstage, hcloses, -⟩ := deadlineStep_of_run hst
    have hnone : t.deadline.notifies = false := by
      rw [ht]
      rfl
    rw [hcloses, hstage, hnone]
    show _ + _ + _ + 0 = _
    omega

/-- Until the deadline has expired nothing is notified while an operation is left. -/
theorem expired_iff (h : ConnInv s) (hactive : s.stage ≠ .finished) :
    s.deadline.expired = false ↔ s.closes + s.deadline.notifies.toNat = 0 := by
  constructor
  · intro hexp
    have hcloses : s.closes = 0 := (h.active hactive).2 hexp
    have hnot : s.deadline.notifies = false := by
      cases hd : s.deadline with
      | queued ec =>
        rw [hd] at hexp
        exact hexp
      | _ => rfl
    rw [hcloses, hnot]
    rfl
  · intro hzero
    have hcloses : s.closes = 0 := Nat.eq_zero_of_add_eq_zero_right hzero
    have hnot : s.deadline.notifies.toNat = 0 := Nat.eq_zero_of_add_eq_zero_left hzero
    cases hd : s.deadline with
    | unset => rfl
    | waiting => rfl
    | queued ec =>
      rw [hd] at hnot
      exact Bool.toNat_eq_zero.mp hnot
    | ran ec =>
      refine decide_eq_false fun hec => ?_
      have hpos := h.ran ec hd hec
      omega

/-- A step keeps the number of notifications below two exactly if it keeps apart what notifies. -/
theorem notifications_step_iff (h : ConnInv s) (hs : s.notifications ≤ 1) {a : ConnAction}
    (hst : connMachine.step s a = some t) : t.notifications ≤ 1 ↔ Apart s a := by
  cases a with
  | checkDeadline =>
    obtain ⟨hd, rfl⟩ := checkDeadline_cases hst
    refine iff_of_true ?_ trivial
    unfold ConnState.notifications at hs
    rw [hd] at hs
    exact hs
  | complete ec =>
    obtain ⟨stage, hdone, rfl⟩ := complete_cases hst
    obtain ⟨hactive, hnot, -⟩ := done_cases hdone
    have hapart : Apart s (.complete ec) ↔ (stage.notifies = true → s.deadline.expired = false) := by
      constructor
      · exact fun hap => hap stage hdone
      · intro hap stage' hdone'
        obtain rfl := Option.some.inj (hdone.symm.trans hdone')
        exact hap
    rw [hapart]
    unfold ConnState.notifications at hs ⊢
    rw [hnot] at hs
    dsimp only
    cases stage.notifies with
    | false => exact iff_of_true hs nofun
    | true =>
      rw [forall_prop_of_true rfl, expired_iff h hactive]
      simp only [Bool.toNat_true]
      omega
  | expire ec =>
    obtain ⟨hwait, hec, rfl⟩ := expire_cases hst
    have hnot : (Deadline.queued ec).notifies = true := decide_eq_true hec
    have hexp : s.deadline.expired = false := by
      rw [hwait]
      rfl
    -- `on_close_` has not been invoked unless the last operation has
    have hcloses : s.closes = 0 ↔ (s.stage = .finished → 0 < s.errors) := by
      by_cases hend : s.stage = .finished
      · have hsum := h.finished hend hexp
        rw [forall_prop_of_true hend]
        omega
      · exact iff_of_true ((h.active hend).2 hexp) fun he => absurd he hend
    unfold ConnState.notifications
    dsimp only
    rw [hnot]
    show _ ↔ s.stage.notifies = false ∧ _
    rw [← hcloses]
    cases s.stage.notifies with
    | false =>
      simp only [Bool.toNat_false, Bool.toNat_true, true_and]
      omega
    | true => exact iff_of_false (by simp) (by simp)
  | runHandler isUpgrade upgraded =>
    rw [notifications_run rfl hst]
    exact iff_of_true hs trivial
  | runDeadline =>
    rw [notifications_run rfl hst]
    exact iff_of_true hs trivial

theorem notifications_runs {ds : List ConnAction} (hds : ∀ d ∈ ds, d.isRun = true)
    (ht : connMachine.exec s ds = some t) : t.notifications = s.notifications := by
  induction ds generalizing s with
  | nil =>
    obtain rfl : s = t := by simpa using ht
    rfl
  | cons d ds ih =>
    obtain ⟨u, hu, hut⟩ := Machine.exec_cons_eq_some.mp ht
    rw [ih (fun d hd => hds d (List.mem_cons_of_mem _ hd)) hut,
      notifications_run (hds d List.mem_cons_self) hu]

/-- A queued handler of an operation that notifies can run. -/
theorem exists_runHandler (h : s.stage.notifies = true) :
    ∃ t, connMachine.step s (.runHandler false false) = some t ∧ t.stage.notifies = false := by
  have hrun : ∃ t, s.runHandler false false = some t := by
    unfold ConnState.runHandler
    cases hs : s.stage with
    | writeDone ec => exact ⟨_, rfl⟩
    | wsReadDone ec => exact ⟨_, rfl⟩
    | _ =>
      rw [hs] at h
      cases h
  obtain ⟨t, ht⟩ := hrun
  exact ⟨t, ht, (handlerStep_of_run ht).stage⟩

/-- So can that of an expired deadline. -/
theorem exists_runDeadline (h : s.deadline.notifies = true) :
    ∃ t, connMachine.step s .runDeadline = some t := by
  cases hd : s.deadline with
  | queued ec =>
    refine ⟨s.asyncDeadline ec, ?_⟩
    simp only [connMachine, hd]
  | _ =>
    rw [hd] at h
    cases h

/-- The queued handlers can run, and then all that was counted has been notified. -/
theorem exists_runs (s : ConnState) : ∃ ds t, (∀ d ∈ ds, d.isRun = true) ∧
    connMachine.exec s ds = some t ∧ t.closes = s.notifications := by
  have hoperation : ∃ ds t, (∀ d ∈ ds, d.isRun = true) ∧ connMachine.exec s ds = some t ∧
      t.stage.notifies = false := by
    cases hn : s.stage.notifies with
    | false => exact ⟨[], s, fun d hd => absurd hd List.not_mem_nil, rfl, hn⟩
    | true =>
      obtain ⟨t, ht, hstage⟩ := exists_runHandler hn
      refine ⟨[.runHandler false false], t, fun d hd => ?_, Machine.exec_single ht, hstage⟩
      rw [List.mem_singleton.mp hd]
      rfl
  obtain ⟨ds, t, hds, ht, hstage⟩ := hoperation
  have hsame := notifications_runs hds ht
  cases hn : t.deadline.notifies with
  | false =>
    refine ⟨ds, t, hds, ht, ?_⟩
    rw [← hsame]
    unfold ConnState.notifications
    rw [hstage, hn]
    rfl
  | true =>
    obtain ⟨u, hu⟩ := exists_runDeadline hn
    refine ⟨ds ++ [.runDeadline], u, fun d hd => ?_,
      Machine.exec_append_of_eq ht (Machine.exec_single hu), ?_⟩
    · rcases List.mem_append.mp hd with hd | hd
      · exact hds d hd
      · rw [List.mem_singleton.mp hd]
        rfl
    · obtain ⟨ec, -, -, -, hcloses, -⟩ := deadlineStep_of_run hu
      rw [hcloses, ← hsame]
      unfold ConnState.notifications
      rw [hstage]
      rfl

end

/-- **`on_close_` at most once.**  A run keeps apart what notifies if and only if, wherever it stops, the
handlers queued there invoke `on_close_` at most once altogether, in whatever order they run. -/
theorem onClose_once_iff (as : List ConnAction) :
    connMachine.Meets Apart connMachine.init as ↔
      ∀ bs cs s, as = bs ++ cs → connMachine.exec connMachine.init bs = some s →
        ∀ ds t, (∀ d ∈ ds, d.isRun = true) → connMachine.exec s ds = some t → t.closes ≤ 1 := by
  have hinv : connMachine.Invariant ConnInv := ⟨connInv_init, fun _ _ _ h hst => connInv_step h hst⟩
  have hiff : connMachine.Always (fun s => s.notifications ≤ 1) connMachine.init as ↔
      connMachine.Meets Apart connMachine.init as :=
    hinv.always_iff_meets (Nat.zero_le 1) (fun _ _ _ hs _ hone hst => notifications_step_iff hs hone hst) as
  rw [← hiff, Machine.always_iff]
  constructor
  · intro halways bs cs s hb hs ds t hds ht
    have hone : s.notifications ≤ 1 := halways bs cs s hb hs
    have hsame := notifications_runs hds ht
    unfold ConnState.notifications at hsame hone
    omega
  · intro hruns bs cs s hb hs
    obtain ⟨ds, t, hds, ht, hcloses⟩ := exists_runs s
    rw [← hcloses]
    exact hruns bs cs s hb hs ds t hds ht

/-- The response has been written, and the deadline expires before the handler of the write runs: its
`deadline_.cancel()` comes too late. -/
theorem onClose_twice : ∃ s, connMachine.exec connMachine.init
    [.checkDeadline, .complete .success, .runHandler false false, .complete .success, .expire .success,
      .runHandler false false, .runDeadline] = some s ∧ s.closes = 2 :=
  ⟨_, rfl, rfl⟩

end Webvirtd.Http
