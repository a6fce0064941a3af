import Webvirtd.Lib.Fault

/-!
# Lib.Faults — several interruptions, one after the other

`injectAll answer fault` is `inject` with a list of countdowns: when the first has run out and has interrupted its
call, the next one starts.  A computation that stops at an interruption uses up one countdown
(`exec_injectAll_of_lt`), and without countdowns it runs as it always does (`exec_injectAll_nil`).
-/

namespace Lib

variable {C : Type} {R : C → Type} {S E α σ : Type}

def injectAll (answer : σ → (c : C) → R c × σ) (fault : (c : C) → Option (R c)) (w : σ × List ℕ) (c : C) :
    R c × σ × List ℕ :=
  match fault c, w.2 with
  | some r, 0 :: ns => (r, w.1, ns)
  | some _, (n + 1) :: ns => ((answer w.1 c).1, (answer w.1 c).2, n :: ns)
  | _, ns => ((answer w.1 c).1, (answer w.1 c).2, ns)

variable {answer : σ → (c : C) → R c × σ} {fault : (c : C) → Option (R c)}

theorem injectAll_nil (w : σ) (c : C) :
    injectAll answer fault (w, []) c = ((answer w c).1, (answer w c).2, []) := by
  unfold injectAll
  cases fault c with
  | none => rfl
  | some r => rfl

theorem injectAll_of_none {c : C} (h : fault c = none) (w : σ) (ns : List ℕ) :
    injectAll answer fault (w, ns) c = ((answer w c).1, (answer w c).2, ns) := by
  unfold injectAll
  rw [h]

/-- An interruption stops the program, and the next countdown is ready. -/
theorem Prog.run_injectAll_of_lt {Q : α → Prop} {p : Prog C R α} (hp : p.Stops fault Q) {w : σ} {n : ℕ}
    (h : n < (p.trace answer fault w).length) (ns : List ℕ) :
    ∃ a, p.run (injectAll answer fault) (w, n :: ns) = (a, (p.trace answer fault w)[n], ns) ∧ Q a := by
  induction p generalizing w n with
  | ret a => exact absurd h (Nat.not_lt_zero n)
  | call c k ih =>
    cases hf : fault c with
    | none =>
      have ht : (Prog.call c k).trace answer fault w = (k (answer w c).1).trace answer fault (answer w c).2 := by
        rw [trace_call, hf]
        rfl
      rw [run_call, injectAll_of_none hf]
      simp only [ht] at h ⊢
      exact ih _ (hp.1 _) h
    | some r =>
      have ht : (Prog.call c k).trace answer fault w = w :: (k (answer w c).1).trace answer fault (answer w c).2 := by
        rw [trace_call, hf]
        rfl
      simp only [ht] at h ⊢
      cases n with
      | zero =>
        obtain ⟨a, hk, ha⟩ := hp.2 r hf
        have hc : injectAll answer fault (w, 0 :: ns) c = (r, w, ns) := by
          unfold injectAll
          rw [hf]
        rw [run_call, hc, hk]
        exact ⟨a, rfl, ha⟩
      | succ n =>
        have hc : injectAll answer fault (w, (n + 1) :: ns) c = ((answer w c).1, (answer w c).2, n :: ns) := by
          unfold injectAll
          rw [hf]
        rw [run_call, hc]
        exact ih _ (hp.1 _) (Nat.lt_of_succ_lt_succ h)

namespace Eff

variable {m : Eff C R S E α} {s : S} {w : σ} {e : E}

theorem exec_injectAll_nil (m : Eff C R S E α) (s : S) (w : σ) :
    m.exec (injectAll answer fault) s (w, []) =
      ((m.exec answer s w).1, (m.exec answer s w).2.1, (m.exec answer s w).2.2, []) :=
  exec_map (fun w => (w, [])) injectAll_nil m s w

theorem exec_injectAll_of_lt (hm : m.Stops fault e) {n : ℕ}
    (h : n < (m.trace answer fault s w).length) (ns : List ℕ) :
    ∃ s', m.exec (injectAll answer fault) s (w, n :: ns) =
      (.error e, s', (m.trace answer fault s w)[n], ns) := by
  obtain ⟨⟨r, s'⟩, hrun, hr⟩ := Prog.run_injectAll_of_lt (hm s) h ns
  refine ⟨s', ?_⟩
  unfold exec
  rw [hrun]
  exact congrArg (fun r => (r, s', (m.trace answer fault s w)[n], ns)) hr

end Eff

end Lib
