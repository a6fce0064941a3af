import Webvirtd.Virt.History

/-!
# Virt.Polling — the two loops of `domain::shutdown`

`Polling` is what a loop does as libvirt and the clock answer it: the polls it makes, the state that it
ends on, if it ends on one of its targets, and where.  `makes_poll` says that `Domain.poll` does this,
`Polling.length_le` how many polls it takes.
-/

namespace Webvirtd.Virt

open Lib

section

variable {σ : Type} (answer : σ → (o : Op) → Op.Res o × σ) (d : DomainPtr) (targets : List ℤ)
  (timeout start : ℚ)

/-- Where a round that polls at `w` ends, before its look at the clock. -/
def polled (w : σ) : σ := (answer w (.libvirt (.virDomainGetState d))).2

/-- The rounds of a loop whose variable holds `old`: the answers to its polls, the state it found if it
did so before the timeout, and where it ends. -/
inductive Polling : ℤ → σ → List (Option ℤ) → Option ℤ → σ → Prop
  | found {old : ℤ} {w : σ} {v : Option ℤ}
      (hv : (answer w (.libvirt (.virDomainGetState d))).1 = .ok v)
      (ht : Domain.inTargets targets (v.getD old) = true) :
      Polling old w [v] (some (v.getD old)) (polled answer d w)
  | expired {old : ℤ} {w : σ} {v : Option ℤ}
      (hv : (answer w (.libvirt (.virDomainGetState d))).1 = .ok v)
      (ht : Domain.inTargets targets (v.getD old) = false)
      (hlate : (answer (polled answer d w) .now).1 - start > timeout) :
      Polling old w [v] none (answer (polled answer d w) .now).2
  | next {old : ℤ} {w w' : σ} {v : Option ℤ} {vs : List (Option ℤ)} {state : Option ℤ}
      (hv : (answer w (.libvirt (.virDomainGetState d))).1 = .ok v)
      (ht : Domain.inTargets targets (v.getD old) = false)
      (hintime : ¬ (answer (polled answer d w) .now).1 - start > timeout)
      (hrest : Polling (v.getD old)
        (answer (answer (polled answer d w) .now).2 (.sleepFor 20)).2 vs state w') :
      Polling old w (v :: vs) state w'

variable {answer d targets timeout start} {old : ℤ} {w w' : σ} {vs : List (Option ℤ)}
  {state : Option ℤ} {time : σ → ℚ}

/-- The answers determine the rounds. -/
theorem Polling.unique {vs' : List (Option ℤ)} {state' : Option ℤ} {w'' : σ}
    (h : Polling answer d targets timeout start old w vs state w')
    (h' : Polling answer d targets timeout start old w vs' state' w'') :
    vs' = vs ∧ state' = state ∧ w'' = w' := by
  induction h generalizing vs' with
  | found hv ht =>
    cases h' with
    | found hv' ht' => rw [hv] at hv'; cases hv'; exact ⟨rfl, rfl, rfl⟩
    | expired hv' ht' _ => rw [hv] at hv'; cases hv'; rw [ht] at ht'; cases ht'
    | next hv' ht' _ _ => rw [hv] at hv'; cases hv'; rw [ht] at ht'; cases ht'
  | expired hv ht hlate =>
    cases h' with
    | found hv' ht' => rw [hv] at hv'; cases hv'; rw [ht] at ht'; cases ht'
    | expired hv' ht' _ => rw [hv] at hv'; cases hv'; exact ⟨rfl, rfl, rfl⟩
    | next hv' ht' hintime _ => exact absurd hlate hintime
  | next hv ht hintime _ ih =>
    cases h' with
    | found hv' ht' => rw [hv] at hv'; cases hv'; rw [ht] at ht'; cases ht'
    | expired hv' ht' hlate => exact absurd hlate hintime
    | next hv' ht' _ hrest' =>
      rw [hv] at hv'
      cases hv'
      obtain ⟨rfl, h2, h3⟩ := ih hrest'
      exact ⟨rfl, h2, h3⟩

/-- A loop that finds a state finds one of its targets. -/
theorem Polling.inTargets {x : ℤ} (h : Polling answer d targets timeout start old w vs (some x) w') :
    Domain.inTargets targets x = true := by
  generalize hs : some x = state at h
  induction h with
  | found hv ht => cases hs; exact ht
  | expired hv ht hlate => cases hs
  | next hv ht hintime hrest ih => exact ih hs

/-- Each round takes the time of its sleep, so that there is one more than fit into the timeout. -/
theorem Polling.length_le (hc : Clock answer time)
    (h : Polling answer d targets timeout start old w vs state w') {k : ℕ}
    (hk : start + timeout < time w + k / 50) : vs.length ≤ k + 1 := by
  induction h generalizing k with
  | found => exact Nat.succ_le_succ (Nat.zero_le _)
  | expired => exact Nat.succ_le_succ (Nat.zero_le _)
  | @next old w w' v vs state hv ht hintime hrest ih =>
    have hpoll : time w ≤ time (polled answer d w) := hc.mono _ _
    obtain ⟨hnow, hafter⟩ := hc.now (polled answer d w)
    have hsleep := hc.sleep (answer (polled answer d w) .now).2 20
    cases k with
    | zero =>
      -- the timeout has passed already
      refine absurd ?_ hintime
      push_cast at hk
      linarith
    | succ k =>
      have hrec : vs.length ≤ k + 1 := by
        refine ih ?_
        push_cast at hk hsleep
        linarith
      exact Nat.succ_le_succ hrec

/-- A poll that answers a target is the last one. -/
theorem Polling.found_of_mem {x : ℤ} (hx : Domain.inTargets targets x = true)
    (h : Polling answer d targets timeout start old w vs state w') (hm : some x ∈ vs) :
    state = some x := by
  have hhead : ∀ {old : ℤ} {v : Option ℤ}, Domain.inTargets targets (v.getD old) = false →
      some x ≠ v := by
    intro old v ht hv
    subst hv
    rw [show (some x).getD old = x from rfl, hx] at ht
    cases ht
  induction h with
  | found hv ht =>
    rw [List.mem_singleton] at hm
    subst hm
    rfl
  | expired hv ht hlate =>
    rw [List.mem_singleton] at hm
    exact absurd hm (hhead ht)
  | next hv ht hintime hrest ih =>
    rcases List.mem_cons.mp hm with hm | hm
    · exact absurd hm (hhead ht)
    · exact ih hm

/-- A target that the variable does not hold at first is found by a poll. -/
theorem Polling.mem_of_found {x : ℤ} (hx : Domain.inTargets targets x = true) (hold : old ≠ x)
    (h : Polling answer d targets timeout start old w vs (some x) w') : some x ∈ vs := by
  generalize hs : some x = state at h
  induction h with
  | @found old w v hv ht =>
    cases v with
    | none => exact absurd (Option.some.inj hs).symm hold
    | some y => exact List.mem_singleton_self _
  | expired hv ht hlate => cases hs
  | next hv ht hintime hrest ih =>
    refine List.mem_cons_of_mem _ (ih (fun h => ?_) hs)
    rw [h, hx] at ht
    cases ht

/-- How `poll` ends. -/
def pollResult (what : String) : Option ℤ → Except Failure ℤ
  | some state => .ok state
  | none => .error (.exn ⟨.outOfRange, what⟩)

section

variable {v : Option ℤ} {what : String} {fuel : ℕ} {r : Http.Response} {es : List OpEvent}
  {res : Except Failure ℤ}

theorem makes_getState (hv : (answer w (.libvirt (.virDomainGetState d))).1 = .ok v) :
    Eff.Makes answer (Domain.getState d old) r w [⟨.libvirt (.virDomainGetState d), .ok v⟩]
      (.ok (v.getD old)) r (polled answer d w) :=
  (makes_perform hv).bind_last (.pure (v.getD old) r _)

theorem makes_now : Eff.Makes answer Virt.now r w [⟨.now, (answer w .now).1⟩] (.ok (answer w .now).1) r
    (answer w .now).2 := .call Op.now r w

theorem makes_poll_found (hv : (answer w (.libvirt (.virDomainGetState d))).1 = .ok v)
    (ht : Domain.inTargets targets (v.getD old) = true) :
    Eff.Makes answer (Domain.poll d targets timeout start what fuel old) r w
      [⟨.libvirt (.virDomainGetState d), .ok v⟩] (.ok (v.getD old)) r (polled answer d w) := by
  rw [Domain.poll_eq]
  refine (makes_getState hv).bind_last ?_
  rw [if_pos ht]
  exact .pure _ _ _

theorem makes_poll_expired (hv : (answer w (.libvirt (.virDomainGetState d))).1 = .ok v)
    (ht : Domain.inTargets targets (v.getD old) = false)
    (hlate : (answer (polled answer d w) .now).1 - start > timeout) :
    Eff.Makes answer (Domain.poll d targets timeout start what fuel old) r w
      [⟨.libvirt (.virDomainGetState d), .ok v⟩, ⟨.now, (answer (polled answer d w) .now).1⟩]
      (.error (.exn ⟨.outOfRange, what⟩)) r (answer (polled answer d w) .now).2 := by
  rw [Domain.poll_eq]
  refine (makes_getState hv).bind ?_
  rw [if_neg (by rw [ht]; exact Bool.false_ne_true)]
  refine makes_now.bind_last ?_
  rw [if_pos hlate]
  exact .throw _ _ _

theorem makes_poll_next (hv : (answer w (.libvirt (.virDomainGetState d))).1 = .ok v)
    (ht : Domain.inTargets targets (v.getD old) = false)
    (hintime : ¬ (answer (polled answer d w) .now).1 - start > timeout)
    (hrest : Eff.Makes answer (Domain.poll d targets timeout start what fuel (v.getD old)) r
      (answer (answer (polled answer d w) .now).2 (.sleepFor 20)).2 es res r w') :
    Eff.Makes answer (Domain.poll d targets timeout start what (fuel + 1) old) r w
      ([⟨.libvirt (.virDomainGetState d), .ok v⟩] ++ ([⟨.now, (answer (polled answer d w) .now).1⟩] ++
        ([⟨.sleepFor 20, ()⟩] ++ es))) res r w' := by
  rw [Domain.poll_eq]
  refine (makes_getState hv).bind ?_
  rw [if_neg (by rw [ht]; exact Bool.false_ne_true)]
  refine makes_now.bind ?_
  rw [if_neg hintime]
  exact (Eff.Makes.call (Op.sleepFor 20) r _).bind hrest

end

/-- With sleeps left to reach the timeout, the loop runs as libvirt and the clock say. -/
theorem makes_poll (hc : Clock answer time)
    (hcalm : ∀ w, ∃ v, (answer w (.libvirt (.virDomainGetState d))).1 = .ok v) (what : String)
    (r : Http.Response) {fuel : ℕ} (hfuel : start + timeout < time w + fuel / 50) :
    ∃ vs state w' es, Polling answer d targets timeout start old w vs state w' ∧ polls es = vs ∧
      Eff.Makes answer (Domain.poll d targets timeout start what fuel old) r w es
        (pollResult what state) r w' := by
  induction fuel generalizing old w with
  | zero =>
    obtain ⟨v, hv⟩ := hcalm w
    cases ht : Domain.inTargets targets (v.getD old) with
    | true => exact ⟨[v], _, _, _, .found hv ht, rfl, makes_poll_found hv ht⟩
    | false =>
      have hpoll : time w ≤ time (polled answer d w) := hc.mono _ _
      have hnow := (hc.now (polled answer d w)).1
      have hlate : (answer (polled answer d w) .now).1 - start > timeout := by
        push_cast at hfuel
        linarith
      exact ⟨[v], _, _, _, .expired hv ht hlate, rfl, makes_poll_expired hv ht hlate⟩
  | succ fuel ih =>
    obtain ⟨v, hv⟩ := hcalm w
    cases ht : Domain.inTargets targets (v.getD old) with
    | true => exact ⟨[v], _, _, _, .found hv ht, rfl, makes_poll_found hv ht⟩
    | false =>
      by_cases hlate : (answer (polled answer d w) .now).1 - start > timeout
      · exact ⟨[v], _, _, _, .expired hv ht hlate, rfl, makes_poll_expired hv ht hlate⟩
      · have hpoll : time w ≤ time (polled answer d w) := hc.mono _ _
        obtain ⟨hnow, hafter⟩ := hc.now (polled answer d w)
        have hsleep := hc.sleep (answer (polled answer d w) .now).2 20
        have hrec : start + timeout <
            time (answer (answer (polled answer d w) .now).2 (.sleepFor 20)).2 + fuel / 50 := by
          push_cast at hfuel hsleep
          linarith
        obtain ⟨vs, state, w', es, hpolling, hes, hmakes⟩ := @ih (v.getD old) _ hrec
        refine ⟨v :: vs, state, w', _, .next hv ht hlate hpolling, ?_,
          makes_poll_next hv ht hlate hmakes⟩
        rw [← hes]
        rfl

end

end Webvirtd.Virt
