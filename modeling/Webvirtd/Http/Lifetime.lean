import Webvirtd.Http.Closing

/-!
# Http.Lifetime — how a connection ends

`lifetime`: a connection with nothing left to wait for has invoked `on_close_` or `on_error_`.  One that is not
upgraded takes six steps at most after `start()`, in any order and with any errors: the read and the write, the
deadline, and the handler of each.  Until it is over one of them is possible, and then `on_close_` has been invoked:
what `on_error_` leaves open, the deadline closes.
-/

namespace Webvirtd.Http

open Lib

/-- No operation and no wait is left. -/
def ConnState.ended (s : ConnState) : Bool :=
  match s.stage, s.deadline with
  | .finished, .ran _ => true
  | _, _ => false

/-- The request does not ask for an upgrade, and its handler does not upgrade. -/
def ConnAction.Plain : ConnAction → Prop
  | .runHandler isUpgrade upgraded => isUpgrade = false ∧ upgraded = false
  | _ => True

/-- The websocket has been started. -/
def Stage.isWebsock : Stage → Bool
  | .posted => true
  | .accept => true
  | .acceptDone _ => true
  | .wsRead => true
  | .wsReadDone _ => true
  | _ => false

/-- What comes after `start()`: a completion, or a handler. -/
def ConnAction.counts : ConnAction → Bool
  | .checkDeadline => false
  | _ => true

/-- The steps that a connection which is not upgraded has before it at most. -/
def Stage.steps : Stage → ℕ
  | .read => 4
  | .readDone _ => 3
  | .write => 2
  | .writeDone _ => 1
  | _ => 0

def Deadline.steps : Deadline → ℕ
  | .unset => 2
  | .waiting => 2
  | .queued _ => 1
  | .ran _ => 0

def ConnState.steps (s : ConnState) : ℕ := s.stage.steps + s.deadline.steps

/-- `start()` has a step before it. -/
def Deadline.toStart : Deadline → ℕ
  | .unset => 1
  | _ => 0

/-- The wait was recalled. -/
def Deadline.cancelled : Deadline → Bool
  | .unset => false
  | .waiting => false
  | .queued ec => ec = .operationAborted
  | .ran ec => ec = .operationAborted

section

variable {s t : ConnState}

theorem cancel_steps (d : Deadline) : d.cancel.steps ≤ d.steps ∧ d.cancel.toStart = d.toStart := by
  cases d with
  | waiting => exact ⟨Nat.le_succ 1, rfl⟩
  | _ => exact ⟨Nat.le_refl _, rfl⟩

/-- The completion of a read or a write. -/
theorem steps_done {stage stage' : Stage} {ec : ErrorCode} (h : stage.done ec = some stage')
    (hplain : stage.isWebsock = false) : stage'.isWebsock = false ∧ stage'.steps + 1 ≤ stage.steps := by
  cases stage with
  | read =>
    obtain rfl := Option.some.inj h
    exact ⟨rfl, Nat.le_refl 4⟩
  | write =>
    obtain rfl := Option.some.inj h
    exact ⟨rfl, Nat.le_refl 2⟩
  | accept => cases hplain
  | wsRead => cases hplain
  | _ => cases h

/-! ## What a handler leaves -/

/-- The handler goes on with another operation, or it is the last one and notifies. -/
theorem run_cases {isUpgrade upgraded : Bool} (h : s.runHandler isUpgrade upgraded = some t) :
    (t.stage ≠ .finished ∧ t.closes = s.closes ∧ t.errors = s.errors) ∨
      t.stage = .finished ∧ (t.closes = s.closes + 1 ∧ t.errors = s.errors ∨
        t.closes = s.closes ∧ t.errors = s.errors + 1) := by
  unfold ConnState.runHandler at h
  split at h
  · unfold ConnState.asyncRead at h
    split_ifs at h
    · obtain rfl := Option.some.inj h
      exact .inr ⟨rfl, .inr ⟨rfl, rfl⟩⟩
    · unfold ConnState.processRequest at h
      cases isUpgrade with
      | true =>
        cases upgraded with
        | true =>
          obtain rfl := Option.some.inj h
          exact .inl ⟨nofun, rfl, rfl⟩
        | false => cases h
      | false =>
        obtain rfl := Option.some.inj h
        cases upgraded with
        | true => exact .inl ⟨nofun, rfl, rfl⟩
        | false => exact .inl ⟨nofun, rfl, rfl⟩
  · obtain rfl := Option.some.inj h
    unfold ConnState.asyncWrite
    split_ifs
    · exact .inr ⟨rfl, .inr ⟨rfl, rfl⟩⟩
    · exact .inr ⟨rfl, .inl ⟨rfl, rfl⟩⟩
  · obtain rfl := Option.some.inj h
    exact .inl ⟨nofun, rfl, rfl⟩
  · obtain rfl := Option.some.inj h
    unfold ConnState.wsAsyncAccept
    split_ifs
    · exact .inr ⟨rfl, .inr ⟨rfl, rfl⟩⟩
    · exact .inl ⟨nofun, rfl, rfl⟩
  · obtain rfl := Option.some.inj h
    unfold ConnState.wsAsyncRead
    split_ifs
    · exact .inr ⟨rfl, .inl ⟨rfl, rfl⟩⟩
    · exact .inr ⟨rfl, .inr ⟨rfl, rfl⟩⟩
    · exact .inl ⟨nofun, rfl, rfl⟩
  · cases h

/-- Without an upgrade the timer is only recalled by what notifies. -/
theorem run_plain (hplain : s.stage.isWebsock = false) (h : s.runHandler false false = some t) :
    t.stage.isWebsock = false ∧ t.stage.steps + 1 ≤ s.stage.steps ∧
      (t.deadline = s.deadline ∨ t.deadline = s.deadline.cancel ∧ 1 ≤ t.closes) := by
  unfold ConnState.runHandler at h
  split at h
  · rename_i ec hs
    rw [hs]
    unfold ConnState.asyncRead at h
    split_ifs at h
    · obtain rfl := Option.some.inj h
      exact ⟨rfl, show 0 + 1 ≤ 3 by decide, .inl rfl⟩
    · obtain rfl := Option.some.inj h
      exact ⟨rfl, show 2 + 1 ≤ 3 by decide, .inl rfl⟩
  · rename_i ec hs
    rw [hs]
    obtain rfl := Option.some.inj h
    unfold ConnState.asyncWrite
    split_ifs
    · exact ⟨rfl, Nat.le_refl 1, .inl rfl⟩
    · exact ⟨rfl, Nat.le_refl 1, .inr ⟨rfl, Nat.le_add_left 1 s.closes⟩⟩
  · rename_i hs
    rw [hs] at hplain
    cases hplain
  · rename_i ec hs
    rw [hs] at hplain
    cases hplain
  · rename_i ec hs
    rw [hs] at hplain
    cases hplain
  · cases h

theorem run_deadline {ec : ErrorCode} (hd : s.deadline = .queued ec) :
    connMachine.step s .runDeadline = some (s.asyncDeadline ec) := by
  simp only [connMachine, hd]

/-! ## A connection that is over -/

/-- The last handler has notified. -/
def Notified (s : ConnState) : Prop :=
  s.stage = .finished → 1 ≤ s.closes + s.errors

theorem notified : connMachine.Invariant Notified where
  init := nofun
  step s a t h hst := by
    cases a with
    | checkDeadline =>
      obtain ⟨-, rfl⟩ := checkDeadline_cases hst
      exact h
    | complete ec =>
      obtain ⟨stage, hdone, rfl⟩ := complete_cases hst
      intro hfinished
      obtain rfl : stage = .finished := hfinished
      cases hs : s.stage with
      | _ =>
        rw [hs] at hdone
        cases hdone
    | expire ec =>
      obtain ⟨-, -, rfl⟩ := expire_cases hst
      exact h
    | runHandler isUpgrade upgraded =>
      intro hfinished
      rcases run_cases hst with ⟨hactive, -, -⟩ | ⟨-, ⟨hc, -⟩ | ⟨-, he⟩⟩
      · exact absurd hfinished hactive
      · omega
      · omega
    | runDeadline =>
      obtain ⟨-, -, -, hstage, hcloses, herrors⟩ := deadlineStep_of_run hst
      intro hfinished
      have hnotified := h (hstage.symm.trans hfinished)
      omega

/-! ## A connection that is not upgraded -/

structure PlainInv (s : ConnState) : Prop where
  conn : ConnInv s
  plain : s.stage.isWebsock = false
  cancelled : s.deadline.cancelled = true → 1 ≤ s.closes

theorem plainInv_init : PlainInv {} := ⟨connInv_init, rfl, nofun⟩

/-- Each step is one of those that are left. -/
theorem plainInv_step (h : PlainInv s) {a : ConnAction} (ha : a.Plain) (hst : connMachine.step s a = some t) :
    PlainInv t ∧ t.steps + a.counts.toNat ≤ s.steps ∧
      t.steps + t.deadline.toStart + 1 ≤ s.steps + s.deadline.toStart := by
  have hconn := connInv_step h.conn hst
  unfold ConnState.steps
  cases a with
  | checkDeadline =>
    obtain ⟨hd, rfl⟩ := checkDeadline_cases hst
    refine ⟨⟨hconn, h.plain, nofun⟩, ?_⟩
    rw [hd]
    exact ⟨Nat.le_refl _, Nat.le_refl _⟩
  | complete ec =>
    obtain ⟨stage, hdone, rfl⟩ := complete_cases hst
    obtain ⟨hplain, hsteps⟩ := steps_done hdone h.plain
    refine ⟨⟨hconn, hplain, h.cancelled⟩, ?_⟩
    show stage.steps + s.deadline.steps + 1 ≤ _ ∧ stage.steps + s.deadline.steps + s.deadline.toStart + 1 ≤ _
    omega
  | expire ec =>
    obtain ⟨hwait, hec, rfl⟩ := expire_cases hst
    refine ⟨⟨hconn, h.plain, fun hc => absurd (of_decide_eq_true hc) hec⟩, ?_⟩
    rw [hwait]
    exact ⟨Nat.le_refl _, Nat.le_refl _⟩
  | runHandler isUpgrade upgraded =>
    obtain ⟨rfl, rfl⟩ := ha
    show _ ∧ t.stage.steps + t.deadline.steps + 1 ≤ _ ∧ _
    obtain ⟨hplain, hsteps, hdeadline⟩ := run_plain h.plain hst
    rcases hdeadline with hd | ⟨hd, hcloses⟩
    · refine ⟨⟨hconn, hplain, fun hc => ?_⟩, ?_⟩
      · rw [hd] at hc
        have hle := h.cancelled hc
        rcases run_cases hst with ⟨-, hc, -⟩ | ⟨-, ⟨hc, -⟩ | ⟨hc, -⟩⟩
        · omega
        · omega
        · omega
      · rw [hd]
        omega
    · refine ⟨⟨hconn, hplain, fun _ => hcloses⟩, ?_⟩
      obtain ⟨hle, hsame⟩ := cancel_steps s.deadline
      rw [hd, hsame]
      omega
  | runDeadline =>
    obtain ⟨ec, hd, ht, hstage, hcloses, -⟩ := deadlineStep_of_run hst
    refine ⟨⟨hconn, by rw [hstage]; exact h.plain, fun hc => ?_⟩, ?_⟩
    · rw [ht] at hc
      have hle := h.cancelled (by rw [hd]; exact hc)
      omega
    · rw [hstage, hd, ht]
      exact ⟨Nat.le_refl _, Nat.le_refl _⟩

/-- As long as the connection is not over, something can happen. -/
theorem PlainInv.goesOn (h : PlainInv s) (hover : s.ended = false) : ∃ a t, a.Plain ∧ connMachine.step s a = some t := by
  have hplain := h.plain
  have hcan : s.CanComplete .operationAborted := by
    rintro (hec | hec)
    · cases hec
    · cases hec
  cases hd : s.deadline with
  | unset => exact ⟨.checkDeadline, _, trivial, if_pos hd⟩
  | waiting => exact ⟨.expire .success, _, trivial, if_pos ⟨hd, by decide⟩⟩
  | queued ec => exact ⟨.runDeadline, _, trivial, run_deadline hd⟩
  | ran ec =>
    cases hs : s.stage with
    | read => exact ⟨.complete .operationAborted, _, trivial, by simp only [connMachine, if_pos hcan, hs]; rfl⟩
    | write => exact ⟨.complete .operationAborted, _, trivial, by simp only [connMachine, if_pos hcan, hs]; rfl⟩
    | readDone ec' =>
      obtain ⟨t, ht⟩ : ∃ t, s.asyncRead ec' false false = some t := by
        unfold ConnState.asyncRead
        by_cases hec : ec' ≠ .success
        · exact ⟨_, if_pos hec⟩
        · exact ⟨_, if_neg hec⟩
      refine ⟨.runHandler false false, t, ⟨rfl, rfl⟩, ?_⟩
      simp only [connMachine, ConnState.runHandler, hs]
      exact ht
    | writeDone ec' =>
      refine ⟨.runHandler false false, s.asyncWrite ec', ⟨rfl, rfl⟩, ?_⟩
      simp only [connMachine, ConnState.runHandler, hs]
    | finished =>
      unfold ConnState.ended at hover
      rw [hs, hd] at hover
      cases hover
    | _ =>
      rw [hs] at hplain
      cases hplain

end

/-- **Lifetime.**  A connection that is over has invoked `on_close_` or `on_error_`, in every order of its completions
and with any errors.  One that is not upgraded has only six of them and of their handlers; it can go on until it is
over, and has then invoked `on_close_`. -/
theorem lifetime {as : List ConnAction} {s : ConnState} (hs : connMachine.exec {} as = some s) :
    (s.ended = true → 1 ≤ s.closes + s.errors) ∧
      ((∀ a ∈ as, a.Plain) → as.countP ConnAction.counts ≤ 6 ∧ as.length ≤ 7 ∧ (s.ended = true → 1 ≤ s.closes) ∧
        (s.ended = false → ∃ a t, a.Plain ∧ connMachine.step s a = some t)) := by
  have hfinal : s.ended = true → s.stage = .finished ∧ ∃ ec, s.deadline = .ran ec := by
    intro hover
    unfold ConnState.ended at hover
    split at hover
    · rename_i ec hstage hd
      exact ⟨hstage, ec, hd⟩
    · cases hover
  refine ⟨fun hover => notified.exec notified.init hs (hfinal hover).1, fun hplain => ?_⟩
  have hstep : ∀ (s : ConnState) (a : ConnAction) t, a.Plain → PlainInv s → connMachine.step s a = some t →
      PlainInv t ∧ t.steps + a.counts.toNat ≤ s.steps :=
    fun s a t ha h hst => (plainInv_step h ha hst).imp_right And.left
  have hstep' : ∀ (s : ConnState) (a : ConnAction) t, a.Plain → PlainInv s → connMachine.step s a = some t →
      PlainInv t ∧ t.steps + t.deadline.toStart + true.toNat ≤ s.steps + s.deadline.toStart :=
    fun s a t ha h hst => (plainInv_step h ha hst).imp_right And.right
  obtain ⟨hinv, hcount⟩ := Machine.countP_le hstep hplain plainInv_init hs
  obtain ⟨-, hlength⟩ := Machine.countP_le hstep' hplain plainInv_init hs
  rw [List.countP_eq_length.mpr fun _ _ => rfl] at hlength
  have hsix : ({} : ConnState).steps = 6 := rfl
  have hone : ({} : ConnState).deadline.toStart = 1 := rfl
  refine ⟨by omega, by omega, fun hover => ?_, hinv.goesOn⟩
  obtain ⟨-, ec, hd⟩ := hfinal hover
  by_cases hec : ec = .operationAborted
  · exact hinv.cancelled (by rw [hd]; exact decide_eq_true hec)
  · exact hinv.conn.ran ec hd hec

/-- The client does not read its response, until the deadline closes the socket. -/
def slowClient : List ConnAction :=
  [.checkDeadline, .complete .success, .runHandler false false, .expire .success, .runDeadline,
    .complete .operationAborted, .runHandler false false]

theorem lifetime_slowClient : ∃ s, connMachine.exec {} slowClient = some s ∧ 1 ≤ s.closes := by
  obtain ⟨s, hs, hover⟩ : ∃ s, connMachine.exec {} slowClient = some s ∧ s.ended = true := ⟨_, rfl, rfl⟩
  have hplain : ∀ a ∈ slowClient, a.Plain := by simp [slowClient, ConnAction.Plain]
  exact ⟨s, hs, ((lifetime hs).2 hplain).2.2.1 hover⟩

end Webvirtd.Http
