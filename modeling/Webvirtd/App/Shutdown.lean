import Webvirtd.App.Upgrade
import Webvirtd.Views.Answers
import Webvirtd.Virt.Polling

/-!
# App.Shutdown — what `domain::shutdown` makes of its polls

`ShutdownContract`: the calls end in time, `true` means that a poll has seen the domain shut off, and the
view answers 504 only if none has.  `shutdownContract_iff` says when: the second loop polls again where the
first has seen the domain shut off, and must see it too.
-/

namespace Webvirtd.App

open Lib Virt Http

section

variable {σ : Type} (answer : σ → (o : Op) → Op.Res o × σ) (d : DomainPtr) (T : Timeouts)

/-- The first loop, after `virDomainShutdown` at `w`. -/
def FirstLoop (w : σ) (vs : List (Option ℤ)) (state : Option ℤ) (w' : σ) : Prop :=
  let begun := answer (answer w (.libvirt (.virDomainShutdown d))).2 .now
  Polling answer d [stateShutdown, stateShutoff] T.shutdown begun.1 0 begun.2 vs state w'

/-- The second loop, after the first has found `old`. -/
def SecondLoop (old : ℤ) (w : σ) (vs : List (Option ℤ)) (state : Option ℤ) (w' : σ) : Prop :=
  let begun := answer w .now
  Polling answer d [stateShutoff] T.shutoff begun.1 old begun.2 vs state w'

/-- Each timeout counts in sleeps of 20 milliseconds, of which fifty make a second. -/
structure ShutdownContract (L : Linked) (rc : ℤ) (r : Response) (w : σ) : Prop where
  few : (polls ((Domain.shutdown d T).events answer r w)).length ≤
    ⌊T.shutdown * 50⌋₊ + ⌊T.shutoff * 50⌋₊ + 4
  refused : ((Domain.shutdown d T).exec answer r w).1 = .ok false ↔ rc ≠ 0
  unpolled : rc ≠ 0 → polls ((Domain.shutdown d T).events answer r w) = []
  shutOff : rc = 0 → (((Domain.shutdown d T).exec answer r w).1 = .ok true ↔
    some stateShutoff ∈ polls ((Domain.shutdown d T).events answer r w))
  timedOut : rc = 0 → some stateShutoff ∉ polls ((Domain.shutdown d T).events answer r w) →
    ∃ what, ((Domain.shutdown d T).exec answer r w).1 = .error (.exn ⟨.outOfRange, what⟩)
  gatewayTimeout :
    ((Views.Domains.shutdown L T d).exec answer r w).2.1.result = .gatewayTimeout →
      some stateShutoff ∉ polls ((Domain.shutdown d T).events answer r w)

/-- How `shutdown` may end, with the answers to its polls. -/
inductive ShutdownEnd (rc : ℤ) (w : σ) : List (Option ℤ) → Except Failure Bool → Prop
  | refused (h : rc ≠ 0) : ShutdownEnd rc w [] (.ok false)
  | unfinished {vs : List (Option ℤ)} {w1 : σ} (what : String) (h : rc = 0)
      (hfirst : FirstLoop answer d T w vs none w1) :
      ShutdownEnd rc w vs (.error (.exn ⟨.outOfRange, what⟩))
  | unconfirmed {vs vs' : List (Option ℤ)} {state : ℤ} {w1 w2 : σ} (what : String) (h : rc = 0)
      (hfirst : FirstLoop answer d T w vs (some state) w1)
      (hsecond : SecondLoop answer d T state w1 vs' none w2) :
      ShutdownEnd rc w (vs ++ vs') (.error (.exn ⟨.outOfRange, what⟩))
  | finished {vs vs' : List (Option ℤ)} {state state' : ℤ} {w1 w2 : σ} (h : rc = 0)
      (hfirst : FirstLoop answer d T w vs (some state) w1)
      (hsecond : SecondLoop answer d T state w1 vs' (some state') w2) :
      ShutdownEnd rc w (vs ++ vs') (.ok true)

variable {answer d T} {time : σ → ℚ} {rc : ℤ} {w : σ} {r : Response}

/-- The clock is read where a loop starts. -/
theorem lt_time_add_pollBound (hc : Clock answer time) (w : σ) (timeout : ℚ) :
    (answer w .now).1 + timeout < time (answer w .now).2 + pollBound timeout / 50 := by
  have h1 := (hc.now w).2
  have h2 := lt_pollBound timeout
  linarith

theorem makes_shutdown_refused (hrc : (answer w (.libvirt (.virDomainShutdown d))).1 = .ok rc)
    (h0 : rc ≠ 0) :
    Eff.Makes answer (Domain.shutdown d T) r w [⟨.libvirt (.virDomainShutdown d), .ok rc⟩] (.ok false)
      r (answer w (.libvirt (.virDomainShutdown d))).2 := by
  refine (makes_perform hrc).bind_last ?_
  rw [if_pos (by simpa using h0)]
  exact .pure _ _ _

/-- The loops of a `shutdown` that libvirt accepts. -/
theorem makes_shutdown (hc : Clock answer time)
    (hrc : (answer w (.libvirt (.virDomainShutdown d))).1 = .ok (0 : ℤ))
    (hcalm : ∀ w, ∃ v, (answer w (.libvirt (.virDomainGetState d))).1 = .ok v) :
    (∃ vs w1 es what, FirstLoop answer d T w vs none w1 ∧ polls es = vs ∧
      Eff.Makes answer (Domain.shutdown d T) r w es (.error (.exn ⟨.outOfRange, what⟩)) r w1) ∨
    ∃ vs state w1 vs' state' w2 es what, FirstLoop answer d T w vs (some state) w1 ∧
      SecondLoop answer d T state w1 vs' state' w2 ∧ polls es = vs ++ vs' ∧
      Eff.Makes answer (Domain.shutdown d T) r w es ((pollResult what state').map fun _ => true) r
        w2 := by
  have hperform : Eff.Makes answer (perform (.virDomainShutdown d)) r w
      [⟨.libvirt (.virDomainShutdown d), .ok (0 : ℤ)⟩] (.ok (0 : ℤ)) r
      (answer w (.libvirt (.virDomainShutdown d))).2 := makes_perform hrc
  obtain ⟨vs, state, w1, es, hfirst, hes, hpoll⟩ : ∃ vs state w1 es,
      FirstLoop answer d T w vs state w1 ∧ polls es = vs ∧ Eff.Makes answer _ _ _ es _ _ _ :=
    makes_poll hc hcalm (toString T.shutdown ++ " second timeout exceeded") r
      (lt_time_add_pollBound hc _ _)
  cases state with
  | none =>
    refine .inl ⟨vs, w1, _, _, hfirst, ?_, hperform.bind (makes_now.bind hpoll.bind_error)⟩
    exact hes
  | some state =>
    obtain ⟨vs', state', w2, es', hsecond, hes', hpoll'⟩ : ∃ vs' state' w2 es',
        SecondLoop answer d T state w1 vs' state' w2 ∧ polls es' = vs' ∧
          Eff.Makes answer _ _ _ es' _ _ _ :=
      makes_poll hc hcalm "15 second shutdown timeout exceeded" r (lt_time_add_pollBound hc _ _)
    have hend : Eff.Makes answer (do
        let _ ← Domain.poll d [stateShutoff] T.shutoff (answer w1 .now).1
          "15 second shutdown timeout exceeded" (pollBound T.shutoff) state
        return true) r (answer w1 .now).2 es'
        ((pollResult "15 second shutdown timeout exceeded" state').map fun _ => true) r w2 := by
      cases state' with
      | none => exact hpoll'.bind_error
      | some x => exact hpoll'.bind_last (.pure _ _ _)
    refine .inr ⟨vs, state, w1, vs', state', w2, _, _, hfirst, hsecond, ?_,
      hperform.bind (makes_now.bind (hpoll.bind (makes_now.bind hend)))⟩
    simp only [polls_append, hes, hes']
    rfl

/-- `shutdown` ends in one of these ways. -/
theorem shutdownEnd (hc : Clock answer time)
    (hrc : (answer w (.libvirt (.virDomainShutdown d))).1 = .ok rc)
    (hcalm : ∀ w, ∃ v, (answer w (.libvirt (.virDomainGetState d))).1 = .ok v) :
    ShutdownEnd answer d T rc w (polls ((Domain.shutdown d T).events answer r w))
      ((Domain.shutdown d T).exec answer r w).1 := by
  by_cases h0 : rc = 0
  · subst h0
    rcases makes_shutdown (r := r) (T := T) hc hrc hcalm with ⟨vs, w1, es, what, hfirst, hes, hmakes⟩ |
      ⟨vs, state, w1, vs', state', w2, es, what, hfirst, hsecond, hes, hmakes⟩
    · rw [hmakes.events, hmakes.exec, hes]
      exact .unfinished what rfl hfirst
    · rw [hmakes.events, hmakes.exec, hes]
      cases state' with
      | none => exact .unconfirmed what rfl hfirst hsecond
      | some x => exact .finished rfl hfirst hsecond
  · have hmakes := makes_shutdown_refused (r := r) (T := T) hrc h0
    rw [hmakes.events, hmakes.exec]
    exact .refused h0

theorem FirstLoop.length_le (hc : Clock answer time) {vs : List (Option ℤ)} {state : Option ℤ} {w1 : σ}
    (h : FirstLoop answer d T w vs state w1) : vs.length ≤ ⌊T.shutdown * 50⌋₊ + 2 :=
  Polling.length_le hc h (lt_time_add_pollBound hc _ _)

theorem SecondLoop.length_le (hc : Clock answer time) {old : ℤ} {vs : List (Option ℤ)}
    {state : Option ℤ} {w1 : σ} (h : SecondLoop answer d T old w vs state w1) :
    vs.length ≤ ⌊T.shutoff * 50⌋₊ + 2 :=
  Polling.length_le hc h (lt_time_add_pollBound hc _ _)

/-- The first loop sees the domain shut off if and only if it ends on that. -/
theorem FirstLoop.shutOff_iff {vs : List (Option ℤ)} {state : Option ℤ} {w1 : σ}
    (h : FirstLoop answer d T w vs state w1) : some stateShutoff ∈ vs ↔ state = some stateShutoff := by
  constructor
  · exact fun hm => Polling.found_of_mem rfl h hm
  · rintro rfl
    exact Polling.mem_of_found rfl (by decide) h

theorem SecondLoop.eq_shutoff {old state : ℤ} {vs : List (Option ℤ)} {w1 : σ}
    (h : SecondLoop answer d T old w vs (some state) w1) : state = stateShutoff :=
  List.mem_singleton.mp (List.contains_iff_mem.mp (Polling.inTargets h))

/-- The second loop finds the domain shut off whenever it sees it so. -/
theorem SecondLoop.not_mem {old : ℤ} {vs : List (Option ℤ)} {w1 : σ}
    (h : SecondLoop answer d T old w vs none w1) : some stateShutoff ∉ vs := fun hm => by
  cases Polling.found_of_mem rfl h hm

/-- What holds of every `shutdown`. -/
theorem ShutdownEnd.length_le (hc : Clock answer time) {vs : List (Option ℤ)}
    {res : Except Failure Bool} (h : ShutdownEnd answer d T rc w vs res) :
    vs.length ≤ ⌊T.shutdown * 50⌋₊ + ⌊T.shutoff * 50⌋₊ + 4 := by
  cases h with
  | refused h => exact Nat.zero_le _
  | unfinished what h hfirst =>
    have h1 := hfirst.length_le hc
    omega
  | unconfirmed what h hfirst hsecond =>
    have h1 := hfirst.length_le hc
    have h2 := hsecond.length_le hc
    rw [List.length_append]
    omega
  | finished h hfirst hsecond =>
    have h1 := hfirst.length_le hc
    have h2 := hsecond.length_le hc
    rw [List.length_append]
    omega

theorem ShutdownEnd.refused_iff {vs : List (Option ℤ)} {res : Except Failure Bool}
    (h : ShutdownEnd answer d T rc w vs res) : res = .ok false ↔ rc ≠ 0 := by
  cases h with
  | refused h => exact iff_of_true rfl h
  | unfinished what h hfirst => exact iff_of_false nofun (not_not_intro h)
  | unconfirmed what h hfirst hsecond => exact iff_of_false nofun (not_not_intro h)
  | finished h hfirst hsecond => exact iff_of_false nofun (not_not_intro h)

theorem ShutdownEnd.seen {vs : List (Option ℤ)} (h : ShutdownEnd answer d T rc w vs (.ok true)) :
    some stateShutoff ∈ vs := by
  cases h with
  | @finished vs vs' state state' w1 w2 h hfirst hsecond =>
    obtain rfl := hsecond.eq_shutoff
    by_cases hstate : state = stateShutoff
    · subst hstate
      exact List.mem_append_left _ (hfirst.shutOff_iff.mpr rfl)
    · exact List.mem_append_right _ (Polling.mem_of_found rfl hstate hsecond)

theorem ShutdownEnd.unpolled (h0 : rc ≠ 0) {vs : List (Option ℤ)} {res : Except Failure Bool}
    (h : ShutdownEnd answer d T rc w vs res) : vs = [] := by
  cases h with
  | refused h => rfl
  | unfinished what h hfirst => exact absurd h h0
  | unconfirmed what h hfirst hsecond => exact absurd h h0
  | finished h hfirst hsecond => exact absurd h h0

theorem ShutdownEnd.throws (h0 : rc = 0) {vs : List (Option ℤ)} {res : Except Failure Bool}
    (h : ShutdownEnd answer d T rc w vs res) (hne : res ≠ .ok true) :
    ∃ what, res = .error (.exn ⟨.outOfRange, what⟩) := by
  cases h with
  | refused h => exact absurd h0 h
  | unfinished what h hfirst => exact ⟨what, rfl⟩
  | unconfirmed what h hfirst hsecond => exact ⟨what, rfl⟩
  | finished h hfirst hsecond => exact absurd rfl hne

/-- Of the three ways in which a domain that was seen shut off is left, one is not `true`. -/
theorem ShutdownEnd.shutOff_iff (h0 : rc = 0) {vs : List (Option ℤ)} {res : Except Failure Bool}
    (h : ShutdownEnd answer d T rc w vs res) :
    (some stateShutoff ∈ vs → res = .ok true) ↔
      ∀ vs1 w1, FirstLoop answer d T w vs1 (some stateShutoff) w1 →
        ∃ vs2 w2, SecondLoop answer d T stateShutoff w1 vs2 (some stateShutoff) w2 := by
  cases h with
  | refused h => exact absurd h0 h
  | unfinished what h hfirst =>
    refine iff_of_true (fun hm => ?_) fun vs1 w1 h1 => ?_
    · cases hfirst.shutOff_iff.mp hm
    · cases (Polling.unique hfirst h1).2.1
  | @unconfirmed vs vs' state w1 w2 what h hfirst hsecond =>
    constructor
    · intro himp vs1 w1' h1
      obtain ⟨rfl, hstate, rfl⟩ := Polling.unique hfirst h1
      cases himp (List.mem_append_left _ (h1.shutOff_iff.mpr rfl))
    · intro hagain hm
      rcases List.mem_append.mp hm with hm | hm
      · cases hfirst.shutOff_iff.mp hm
        obtain ⟨vs2, w2', h2⟩ := hagain _ _ hfirst
        cases (Polling.unique hsecond h2).2.1
      · exact absurd hm hsecond.not_mem
  | @finished vs vs' state state' w1 w2 h hfirst hsecond =>
    refine iff_of_true (fun _ => rfl) fun vs1 w1' h1 => ?_
    obtain ⟨rfl, hstate, rfl⟩ := Polling.unique hfirst h1
    cases hstate
    obtain rfl := hsecond.eq_shutoff
    exact ⟨_, _, hsecond⟩

/-- The view answers 504 only if `shutdown` throws. -/
theorem ok_ne_of_gatewayTimeout (L : Linked) (hr : r.result = .ok) (b : Bool)
    (h : ((Views.Domains.shutdown L T d).exec answer r w).2.1.result = .gatewayTimeout) :
    ((Domain.shutdown d T).exec answer r w).1 ≠ .ok b := by
  intro hb
  rcases hx : (Domain.shutdown d T).exec answer r w with ⟨res, r1, w1⟩
  rw [hx] at hb
  cases hb
  obtain rfl : r1 = r := (frames_shutdown d T r).of_exec_ok rfl hx
  have hok : (Eff.tryCatch (some <$> Domain.shutdown d T) fun e =>
      if e.caughtBy .outOfRange then pure none else Eff.throw e).exec answer r1 w =
      (.ok (some b), r1, w1) := by
    have hmap : (some <$> Domain.shutdown d T).exec answer r1 w = (.ok (some b), r1, w1) :=
      Eff.exec_bind_ok answer hx
    rw [Eff.exec_tryCatch, hmap]
  unfold Views.Domains.shutdown at h
  rw [Eff.exec_bind_ok answer hok] at h
  cases b with
  | false => cases h
  | true =>
    have hends : Eff.Ends (fun _ s => s = r1) (fun e s => Failure.IsExn e ∧ s = r1)
        (((Data.simpleDomain d).exec answer r1 w1).1, ((Data.simpleDomain d).exec answer r1 w1).2.1) :=
      (Data.fetches_simpleDomain d r1).exec rfl w1
    rcases hs : (Data.simpleDomain d).exec answer r1 w1 with ⟨e | j, r2, w2⟩
    · rw [hs] at hends
      obtain rfl : r2 = r1 := hends.2
      dsimp only at h
      rw [Eff.exec_bind_error answer hs, hr] at h
      cases h
    · dsimp only at h
      rw [Eff.exec_bind_ok answer hs] at h
      cases h

/-- The contract holds exactly when the second loop finds the domain shut off where the first has. -/
theorem shutdownContract_iff (L : Linked) (hc : Clock answer time) (hr : r.result = .ok)
    (hrc : (answer w (.libvirt (.virDomainShutdown d))).1 = .ok rc)
    (hcalm : ∀ w, ∃ v, (answer w (.libvirt (.virDomainGetState d))).1 = .ok v) :
    ShutdownContract answer d T L rc r w ↔
      (rc = 0 → ∀ vs w1, FirstLoop answer d T w vs (some stateShutoff) w1 →
        ∃ vs' w2, SecondLoop answer d T stateShutoff w1 vs' (some stateShutoff) w2) := by
  have hend := shutdownEnd (r := r) (T := T) hc hrc hcalm
  constructor
  · intro h h0
    exact (hend.shutOff_iff h0).mp (h.shutOff h0).mpr
  · intro hagain
    have hshutOff : rc = 0 → some stateShutoff ∈ polls ((Domain.shutdown d T).events answer r w) →
        ((Domain.shutdown d T).exec answer r w).1 = .ok true :=
      fun h0 => (hend.shutOff_iff h0).mpr (hagain h0)
    have hseen : ((Domain.shutdown d T).exec answer r w).1 = .ok true →
        some stateShutoff ∈ polls ((Domain.shutdown d T).events answer r w) := by
      intro h
      rw [h] at hend
      exact hend.seen
    refine ⟨hend.length_le hc, hend.refused_iff, fun h0 => hend.unpolled h0,
      fun h0 => ⟨hseen, hshutOff h0⟩, fun h0 hm => hend.throws h0 fun h => hm (hseen h),
      fun h504 hm => ?_⟩
    by_cases h0 : rc = 0
    · exact ok_ne_of_gatewayTimeout L hr true h504 (hshutOff h0 hm)
    · rw [hend.unpolled h0] at hm
      cases hm

end

/-- The polls are answered from a list, and fail when it has ended; the state is the time, and the rest
of the list. -/
def scriptedPolls (w : ℚ × List (Option ℤ)) : (o : Op) → Op.Res o × ℚ × List (Option ℤ)
  | .libvirt (.virDomainShutdown _) => (.ok (0 : ℤ), w)
  | .libvirt (.virDomainGetState _) => (.ok (w.2.headD none), w.1, w.2.tail)
  | o => ((emptySurroundings.answer w.1 (.op o)).1, (emptySurroundings.answer w.1 (.op o)).2, w.2)

theorem clock_scriptedPolls : Clock scriptedPolls Prod.fst where
  mono w o := by
    cases o with
    | libvirt c => cases c <;> exact le_refl w.1
    | sleepFor ms => exact emptySurroundings.clock.mono w.1 (.sleepFor ms)
    | _ => exact le_refl w.1
  now w := ⟨le_refl w.1, le_refl w.1⟩
  sleep w ms := le_refl _

/-- A domain that stays shut off. -/
theorem shutdownContract_stays :
    ShutdownContract scriptedPolls 0 ⟨60, 15⟩ plainLinked 0 {} (0, [some 5, some 5]) := by
  refine (shutdownContract_iff plainLinked clock_scriptedPolls rfl rfl fun w => ⟨_, rfl⟩).mpr
    fun _ vs w1 h => ?_
  have hfirst : FirstLoop scriptedPolls 0 ⟨60, 15⟩ (0, [some 5, some 5]) [some 5] (some 5)
      (0, [some 5]) := Polling.found rfl rfl
  obtain ⟨-, -, rfl⟩ := Polling.unique hfirst h
  have hsecond : SecondLoop scriptedPolls 0 ⟨60, 15⟩ 5 (0, [some 5]) [some 5] (some 5) (0, []) :=
    Polling.found rfl rfl
  exact ⟨_, _, hsecond⟩

/-- When the list has ended, a running domain goes on to run. -/
theorem eq_none_of_running {timeout start : ℚ} {old : ℤ} {w w' : ℚ × List (Option ℤ)}
    {vs : List (Option ℤ)} {state : Option ℤ}
    (h : Polling scriptedPolls 0 [stateShutoff] timeout start old w vs state w') (hold : old = 1)
    (hw : w.2 = []) : state = none := by
  have hstate : ∀ {w : ℚ × List (Option ℤ)} {v : Option ℤ} {old : ℤ}, old = 1 → w.2 = [] →
      (scriptedPolls w (.libvirt (.virDomainGetState 0))).1 = .ok v → v.getD old = 1 := by
    intro w v old hold hw hv
    have hnone : v = none := by
      have hhead : Except.ok (w.2.headD none) = (Except.ok v : Except Exn (Option ℤ)) := hv
      rw [hw] at hhead
      exact (Except.ok.inj hhead).symm
    rw [hnone, hold]
    rfl
  induction h with
  | found hv ht =>
    rw [hstate hold hw hv] at ht
    cases ht
  | expired hv ht hlate => rfl
  | @next old w w' v vs state hv ht hintime hrest ih =>
    refine ih (hstate hold hw hv) ?_
    show w.2.tail = []
    rw [hw]
    rfl

/-- A domain that is started again right after it has been seen shut off. -/
theorem shutdown_unseen :
    ¬ ShutdownContract scriptedPolls 0 ⟨60, 15⟩ plainLinked 0 {} (0, [some 5, some 1]) := by
  intro h
  have hend : ShutdownEnd scriptedPolls 0 ⟨60, 15⟩ 0 (0, [some 5, some 1]) _ _ :=
    shutdownEnd (r := {}) clock_scriptedPolls rfl fun w => ⟨_, rfl⟩
  have hfirst : FirstLoop scriptedPolls 0 ⟨60, 15⟩ (0, [some 5, some 1]) [some 5] (some 5)
      (0, [some 1]) := Polling.found rfl rfl
  obtain ⟨vs, w2, hsecond⟩ := (hend.shutOff_iff rfl).mp (h.shutOff rfl).mpr _ _ hfirst
  have hnone : ∀ {state : Option ℤ}, SecondLoop scriptedPolls 0 ⟨60, 15⟩ stateShutoff (0, [some 1]) vs
      state w2 → state = none := by
    intro state hsecond
    cases hsecond with
    | found hv ht =>
      cases Except.ok.inj hv
      cases ht
    | expired hv ht hlate => rfl
    | next hv ht hintime hrest =>
      cases Except.ok.inj hv
      exact eq_none_of_running hrest rfl rfl
  cases hnone hsecond

end Webvirtd.App
