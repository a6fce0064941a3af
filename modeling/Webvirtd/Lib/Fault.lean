import Webvirtd.Lib.Prog

/-!
# Lib.Fault — programs whose calls may be interrupted

`fault c` is the answer to the call `c` when it is interrupted, if it can be.  `inject answer fault` is the
environment `answer` with a countdown beside its state: the interruptible call that finds it at 0 is
interrupted and does nothing to the state; afterwards, and without a countdown, nothing is.

* `trace`: the states in which the uninterrupted program makes its interruptible calls.
* `Stops`: after an interruption the program ends at once.
* `run_inject_of_lt`: a program that stops is interrupted in the state that the trace says.
* `MadeOf.stops`: computations stop if what they are made of does.
-/

namespace Lib

variable {C C' : Type} {R : C → Type} {R' : C' → Type} {S E α β σ : Type}

/-- `answer` with a countdown to the interruption of a call. -/
def inject (answer : σ → (c : C) → R c × σ) (fault : (c : C) → Option (R c)) (w : σ × Option ℕ)
    (c : C) : R c × σ × Option ℕ :=
  match fault c, w.2 with
  | some r, some 0 => (r, w.1, none)
  | some _, some (n + 1) => ((answer w.1 c).1, (answer w.1 c).2, some n)
  | _, n => ((answer w.1 c).1, (answer w.1 c).2, n)

namespace Prog

variable (answer : σ → (c : C) → R c × σ) (fault : (c : C) → Option (R c))

/-- The states in which the program makes its interruptible calls. -/
def trace : Prog C R α → σ → List σ
  | .ret _, _ => []
  | .call c k, w =>
    (if (fault c).isSome then [w] else []) ++ trace (k (answer w c).1) (answer w c).2

/-- An interruption ends the program, with a result that satisfies `Q`. -/
def Stops (Q : α → Prop) : Prog C R α → Prop
  | .ret _ => True
  | .call c k => (∀ r, (k r).Stops Q) ∧ ∀ r, fault c = some r → ∃ a, k r = .ret a ∧ Q a

variable {answer fault}

@[simp] theorem trace_ret (a : α) (w : σ) : (ret a : Prog C R α).trace answer fault w = [] := rfl

@[simp] theorem trace_call (c : C) (k : R c → Prog C R α) (w : σ) :
    (call c k).trace answer fault w =
      (if (fault c).isSome then [w] else []) ++
        (k (answer w c).1).trace answer fault (answer w c).2 := rfl

theorem trace_bind (p : Prog C R α) (f : α → Prog C R β) (w : σ) :
    (p.bind f).trace answer fault w =
      p.trace answer fault w ++
        (f (p.run answer w).1).trace answer fault (p.run answer w).2 := by
  induction p generalizing w with
  | ret a => rfl
  | call c k ih =>
    show _ ++ ((k (answer w c).1).bind f).trace answer fault _ = _
    rw [ih, ← List.append_assoc]
    rfl

theorem Stops.bind {Q : α → Prop} {Q' : β → Prop} {p : Prog C R α} {f : α → Prog C R β}
    (hp : p.Stops fault Q) (hf : ∀ a, (f a).Stops fault Q')
    (hQ : ∀ a, Q a → ∃ b, f a = .ret b ∧ Q' b) : (p.bind f).Stops fault Q' := by
  induction p with
  | ret a => exact hf a
  | call c k ih =>
    refine ⟨fun r => ih r (hp.1 r), fun r hr => ?_⟩
    obtain ⟨a, hk, ha⟩ := hp.2 r hr
    obtain ⟨b, hb, hQb⟩ := hQ a ha
    refine ⟨b, ?_, hQb⟩
    show (k r).bind f = _
    rw [hk]
    exact hb

theorem Stops.lift {fault' : (c : C') → Option (R' c)} {f : C → C'} {g : ∀ c, R' (f c) → R c}
    {Q : α → Prop} (hfault : ∀ c r, fault' (f c) = some r → fault c = some (g c r))
    {p : Prog C R α} (hp : p.Stops fault Q) : (p.lift f g).Stops fault' Q := by
  induction p with
  | ret a => trivial
  | call c k ih =>
    refine ⟨fun r => ih _ (hp.1 _), fun r hr => ?_⟩
    obtain ⟨a, hk, ha⟩ := hp.2 _ (hfault c r hr)
    exact ⟨a, congrArg (Prog.lift f g) hk, ha⟩

/-- A lifted program makes its calls in the states in which the program makes them. -/
theorem trace_lift {answer : σ → (c : C') → R' c × σ} {fault' : (c : C') → Option (R' c)} {f : C → C'}
    {g : ∀ c, R' (f c) → R c} (hfault : ∀ c, (fault' (f c)).isSome = (fault c).isSome)
    (p : Prog C R α) (w : σ) :
    (p.lift f g).trace answer fault' w =
      p.trace (fun w c => (g c (answer w (f c)).1, (answer w (f c)).2)) fault w := by
  induction p generalizing w with
  | ret a => rfl
  | call c k ih =>
    show (if (fault' (f c)).isSome then [w] else []) ++ _ = _
    rw [hfault, trace_call]
    congr 1
    exact ih _ _

/-- Without a countdown nothing is interrupted. -/
theorem inject_none (w : σ) (c : C) :
    inject answer fault (w, none) c = ((answer w c).1, (answer w c).2, none) := by
  unfold inject
  cases fault c with
  | none => rfl
  | some r => rfl

/-- An interruption stops the program in the state in which the interrupted call was made. -/
theorem run_inject_of_lt {Q : α → Prop} {p : Prog C R α} (hp : p.Stops fault Q) {w : σ} {n : ℕ}
    (h : n < (p.trace answer fault w).length) :
    ∃ a, p.run (inject answer fault) (w, some n) =
      (a, (p.trace answer fault w)[n], none) ∧ Q a := by
  induction p generalizing w n with
  | ret a => exact absurd h (Nat.not_lt_zero n)
  | call c k ih =>
    cases hf : fault c with
    | none =>
      have hc : inject answer fault (w, some n) c =
          ((answer w c).1, (answer w c).2, some n) := by
        unfold inject
        rw [hf]
      have ht : (call c k).trace answer fault w =
          (k (answer w c).1).trace answer fault (answer w c).2 := by
        rw [trace_call, hf]
        rfl
      rw [run_call, hc]
      simp only [ht] at h ⊢
      exact ih _ (hp.1 _) h
    | some r =>
      have ht : (call c k).trace answer fault w =
          w :: (k (answer w c).1).trace answer fault (answer w c).2 := by
        rw [trace_call, hf]
        rfl
      simp only [ht] at h ⊢
      cases n with
      | zero =>
        obtain ⟨a, hk, ha⟩ := hp.2 r hf
        have hc : inject answer fault (w, some 0) c = (r, w, none) := by
          unfold inject
          rw [hf]
        rw [run_call, hc, hk]
        exact ⟨a, rfl, ha⟩
      | succ n =>
        have hc : inject answer fault (w, some (n + 1)) c =
            ((answer w c).1, (answer w c).2, some n) := by
          unfold inject
          rw [hf]
        rw [run_call, hc]
        exact ih _ (hp.1 _) (Nat.lt_of_succ_lt_succ h)

/-- A program whose calls leave the state alone makes all of them in one state. -/
theorem Uses.trace {A : C → Prop} {Q : α → Prop} (hA : ∀ w c, A c → (answer w c).2 = w)
    {p : Prog C R α} (hp : p.Uses A Q) (w : σ) :
    (∀ w' ∈ p.trace answer fault w, w' = w) ∧ (p.run answer w).2 = w := by
  induction p generalizing w with
  | ret a => exact ⟨fun w' hw => absurd hw List.not_mem_nil, rfl⟩
  | call c k ih =>
    obtain ⟨h1, h2⟩ := ih (answer w c).1 (hp.2 _) (answer w c).2
    rw [hA w c hp.1] at h1 h2
    refine ⟨fun w' hw => ?_, ?_⟩
    · unfold Prog.trace at hw
      rcases List.mem_append.mp hw with hw | hw
      · split_ifs at hw
        · exact List.mem_singleton.mp hw
        · exact absurd hw List.not_mem_nil
      · rw [hA w c hp.1] at hw
        exact h1 w' hw
    · rw [run_call, hA w c hp.1]
      exact h2

end Prog

namespace Eff

variable (answer : σ → (c : C) → R c × σ) (fault : (c : C) → Option (R c))

def trace (m : Eff C R S E α) (s : S) (w : σ) : List σ := (m s).trace answer fault w

/-- An interruption ends the computation with the exception `e`. -/
def Stops (e : E) (m : Eff C R S E α) : Prop := ∀ s, (m s).Stops fault fun r => r.1 = .error e

variable {answer fault} {e : E} {m : Eff C R S E α} {s s' : S} {w w' : σ}

theorem run_eq_of_exec {r : Except E α} (h : m.exec answer s w = (r, s', w')) :
    (m s).run answer w = ((r, s'), w') := by
  unfold exec at h
  obtain ⟨h1, h⟩ := Prod.mk.inj h
  obtain ⟨h2, h3⟩ := Prod.mk.inj h
  rw [← h1, ← h2, ← h3]

theorem trace_bind_ok {f : α → Eff C R S E β} {a : α} (h : m.exec answer s w = (.ok a, s', w')) :
    (m >>= f).trace answer fault s w =
      m.trace answer fault s w ++ (f a).trace answer fault s' w' := by
  show ((m s).bind (andThen f)).trace answer fault w = _
  rw [Prog.trace_bind, run_eq_of_exec h]
  rfl

theorem trace_bind_error {f : α → Eff C R S E β} {e : E}
    (h : m.exec answer s w = (.error e, s', w')) :
    (m >>= f).trace answer fault s w = m.trace answer fault s w := by
  show ((m s).bind (andThen f)).trace answer fault w = _
  rw [Prog.trace_bind, run_eq_of_exec h]
  exact List.append_nil _

theorem exec_inject_none (m : Eff C R S E α) (s : S) (w : σ) :
    m.exec (inject answer fault) s (w, none) =
      ((m.exec answer s w).1, (m.exec answer s w).2.1, (m.exec answer s w).2.2, none) := by
  exact exec_map (fun w => (w, none)) Prog.inject_none m s w

theorem exec_inject_of_lt (hm : m.Stops fault e) {n : ℕ} (h : n < (m.trace answer fault s w).length) :
    ∃ s', m.exec (inject answer fault) s (w, some n) =
      (.error e, s', (m.trace answer fault s w)[n], none) := by
  obtain ⟨⟨r, s'⟩, hrun, hr⟩ := Prog.run_inject_of_lt (hm s) h
  refine ⟨s', ?_⟩
  unfold exec
  rw [hrun]
  exact congrArg (fun r => (r, s', (m.trace answer fault s w)[n], none)) hr

/-! ## Computations that stop -/

theorem Stops.pure (a : α) : Stops fault e (Pure.pure a : Eff C R S E α) := fun _ => trivial

theorem Stops.throw (e' : E) : Stops fault e (Eff.throw e' : Eff C R S E α) := fun _ => trivial

theorem Stops.get : Stops fault e (Eff.get : Eff C R S E S) := fun _ => trivial

theorem Stops.modify (f : S → S) : Stops fault e (Eff.modify f : Eff C R S E Unit) := fun _ => trivial

/-- A call that cannot be interrupted. -/
theorem Stops.call {c : C} (h : fault c = none) : Stops fault e (Eff.call c : Eff C R S E (R c)) :=
  fun _ => ⟨fun _ => trivial, fun r hr => by rw [h] at hr; cases hr⟩

theorem Stops.bind {f : α → Eff C R S E β} (hm : m.Stops fault e) (hf : ∀ a, (f a).Stops fault e) :
    (m >>= f).Stops fault e := fun s =>
  (hm s).bind
    (fun
      | (.ok a, s') => hf a s'
      | (.error _, _) => trivial)
    fun
      | (.error e', s'), h => by
        cases h
        exact ⟨_, rfl, rfl⟩

theorem Stops.tryCatch {handler : E → Eff C R S E α} (hm : m.Stops fault e)
    (hh : ∀ e', (handler e').Stops fault e) (hp : handler e = Eff.throw e) :
    (Eff.tryCatch m handler).Stops fault e := fun s =>
  (hm s).bind
    (fun
      | (.ok _, _) => trivial
      | (.error e', s') => hh e' s')
    fun
      | (.error e', s'), h => by
        cases h
        exact ⟨_, congrFun hp s', rfl⟩

theorem Stops.map (f : α → β) (hm : m.Stops fault e) : (f <$> m).Stops fault e :=
  hm.bind fun a => .pure (f a)

theorem Stops.ite {p : Prop} [Decidable p] {m' : Eff C R S E α} (hm : m.Stops fault e)
    (hm' : m'.Stops fault e) : (if p then m else m').Stops fault e := by
  split_ifs
  · exact hm
  · exact hm'

theorem Stops.lift {fault' : (c : C') → Option (R' c)} {f : C → C'} {g : ∀ c, R' (f c) → R c}
    (hfault : ∀ c r, fault' (f c) = some r → fault c = some (g c r)) (hm : m.Stops fault e) :
    (Eff.lift f g m).Stops fault' e := fun s => (hm s).lift hfault

/-- What is made of computations that stop, with handlers that pass the exception on, stops. -/
theorem MadeOf.stops {leaf : ∀ γ : Type, Eff C R S E γ → Prop} {F P : E → Prop}
    (hleaf : ∀ γ m, leaf γ m → Stops fault e m) (he : P e) (hm : MadeOf leaf F P m) :
    m.Stops fault e := by
  induction hm with
  | leaf h => exact hleaf _ _ h
  | pure a => exact .pure a
  | throw h => exact .throw _
  | get => exact .get
  | modify f => exact .modify f
  | bind _ _ ihm ihf => exact .bind ihm ihf
  | tryCatch _ _ hp ihm ihh => exact .tryCatch ihm ihh (hp e he)

/-! ## Traces -/

theorem trace_lift {answer : σ → (c : C') → R' c × σ} {fault' : (c : C') → Option (R' c)} {f : C → C'}
    {g : ∀ c, R' (f c) → R c} (hfault : ∀ c, (fault' (f c)).isSome = (fault c).isSome)
    (m : Eff C R S E α) (s : S) (w : σ) :
    (Eff.lift f g m).trace answer fault' s w =
      m.trace (fun w c => (g c (answer w (f c)).1, (answer w (f c)).2)) fault s w :=
  Prog.trace_lift hfault _ _

/-- `m` makes its interruptible calls in the states `ws` and ends with `r`, `s'` and `w'`. -/
structure Plays (answer : σ → (c : C) → R c × σ) (fault : (c : C) → Option (R c))
    (m : Eff C R S E α) (s : S) (w : σ) (ws : List σ) (r : Except E α) (s' : S) (w' : σ) : Prop where
  exec : m.exec answer s w = (r, s', w')
  trace : m.trace answer fault s w = ws

section

variable {ws ws' : List σ} {r : Except E α} {s'' : S} {w'' : σ}

theorem Plays.pure (a : α) (s : S) (w : σ) :
    Plays answer fault (Pure.pure a : Eff C R S E α) s w [] (.ok a) s w := ⟨rfl, rfl⟩

theorem Plays.throw (e : E) (s : S) (w : σ) :
    Plays answer fault (Eff.throw e : Eff C R S E α) s w [] (.error e) s w := ⟨rfl, rfl⟩

theorem Plays.get (s : S) (w : σ) :
    Plays answer fault (Eff.get : Eff C R S E S) s w [] (.ok s) s w := ⟨rfl, rfl⟩

theorem Plays.modify (f : S → S) (s : S) (w : σ) :
    Plays answer fault (Eff.modify f : Eff C R S E Unit) s w [] (.ok ()) (f s) w := ⟨rfl, rfl⟩

/-- A call that cannot be interrupted. -/
theorem Plays.call {c : C} (h : fault c = none) (s : S) (w : σ) :
    Plays answer fault (Eff.call c : Eff C R S E (R c)) s w [] (.ok (answer w c).1) s
      (answer w c).2 := by
  refine ⟨rfl, ?_⟩
  show (if (fault c).isSome then [w] else []) ++ [] = []
  rw [h]
  rfl

/-- A call that can. -/
theorem Plays.interruptible {c : C} {r : R c} (h : fault c = some r) (s : S) (w : σ) :
    Plays answer fault (Eff.call c : Eff C R S E (R c)) s w [w] (.ok (answer w c).1) s
      (answer w c).2 := by
  refine ⟨rfl, ?_⟩
  show (if (fault c).isSome then [w] else []) ++ [] = [w]
  rw [h]
  rfl

theorem Plays.bind {f : α → Eff C R S E β} {a : α} {r' : Except E β}
    (hm : Plays answer fault m s w ws (.ok a) s' w')
    (hf : Plays answer fault (f a) s' w' ws' r' s'' w'') :
    Plays answer fault (m >>= f) s w (ws ++ ws') r' s'' w'' :=
  ⟨(exec_bind_ok answer hm.exec).trans hf.exec,
    by rw [trace_bind_ok hm.exec, hm.trace, hf.trace]⟩

/-- A first part that calls nothing. -/
theorem Plays.bind_nil {f : α → Eff C R S E β} {a : α} {r' : Except E β}
    (hm : Plays answer fault m s w [] (.ok a) s' w')
    (hf : Plays answer fault (f a) s' w' ws' r' s'' w'') :
    Plays answer fault (m >>= f) s w ws' r' s'' w'' := hm.bind hf

/-- A second part that calls nothing. -/
theorem Plays.bind_last {f : α → Eff C R S E β} {a : α} {r' : Except E β}
    (hm : Plays answer fault m s w ws (.ok a) s' w')
    (hf : Plays answer fault (f a) s' w' [] r' s'' w'') :
    Plays answer fault (m >>= f) s w ws r' s'' w'' := by
  have h := hm.bind hf
  rwa [List.append_nil] at h

theorem Plays.bind_error {f : α → Eff C R S E β}
    (hm : Plays answer fault m s w ws (.error e) s' w') :
    Plays answer fault (m >>= f) s w ws (.error e) s' w' :=
  ⟨exec_bind_error answer hm.exec, by rw [trace_bind_error hm.exec, hm.trace]⟩

theorem Plays.map {a : α} (f : α → β) (hm : Plays answer fault m s w ws (.ok a) s' w') :
    Plays answer fault (f <$> m) s w ws (.ok (f a)) s' w' := hm.bind_last (.pure (f a) s' w')

theorem Plays.map_error (f : α → β) (hm : Plays answer fault m s w ws (.error e) s' w') :
    Plays answer fault (f <$> m) s w ws (.error e) s' w' := hm.bind_error

/-- The handler is not needed. -/
theorem Plays.tryCatch {handler : E → Eff C R S E α} {a : α}
    (hm : Plays answer fault m s w ws (.ok a) s' w') :
    Plays answer fault (Eff.tryCatch m handler) s w ws (.ok a) s' w' := by
  refine ⟨by rw [exec_tryCatch, hm.exec], ?_⟩
  show ((m s).bind (orElse handler)).trace answer fault w = _
  rw [Prog.trace_bind, run_eq_of_exec hm.exec]
  exact (List.append_nil _).trans hm.trace

/-- The handler takes over, and calls nothing. -/
theorem Plays.tryCatch_error {handler : E → Eff C R S E α} {r' : Except E α}
    (hm : Plays answer fault m s w ws (.error e) s' w')
    (hh : Plays answer fault (handler e) s' w' [] r' s'' w'') :
    Plays answer fault (Eff.tryCatch m handler) s w ws r' s'' w'' := by
  refine ⟨?_, ?_⟩
  · rw [exec_tryCatch, hm.exec]
    exact hh.exec
  · show ((m s).bind (orElse handler)).trace answer fault w = _
    rw [Prog.trace_bind, run_eq_of_exec hm.exec]
    have h : m.trace answer fault s w ++ (handler e).trace answer fault s' w' = ws := by
      rw [hm.trace, hh.trace, List.append_nil]
    exact h

theorem Plays.lift {answer : σ → (c : C') → R' c × σ} {fault' : (c : C') → Option (R' c)} {f : C → C'}
    {g : ∀ c, R' (f c) → R c} (hfault : ∀ c, (fault' (f c)).isSome = (fault c).isSome)
    (hm : Plays (fun w c => (g c (answer w (f c)).1, (answer w (f c)).2)) fault m s w ws r s' w') :
    Plays answer fault' (Eff.lift f g m) s w ws r s' w' :=
  ⟨(exec_lift f g m s w).trans hm.exec, (trace_lift hfault m s w).trans hm.trace⟩

end

/-- A computation whose calls leave the state alone makes all of them in one state. -/
theorem Uses.trace {A : C → Prop} {F : E → Prop} (hA : ∀ w c, A c → (answer w c).2 = w)
    (hm : Uses A F m) (s : S) (w : σ) :
    (∀ w' ∈ m.trace answer fault s w, w' = w) ∧ (m.exec answer s w).2.2 = w := (hm s).trace hA w

/-! ## Computations that can be started again -/

/-- An interruption or an exception leaves the environment as it was. -/
structure Restartable (answer : σ → (c : C) → R c × σ) (fault : (c : C) → Option (R c))
    (m : Eff C R S E α) : Prop where
  interrupted : ∀ s w, ∀ w' ∈ m.trace answer fault s w, w' = w
  thrown : ∀ s w e s' w', m.exec answer s w = (.error e, s', w') → w' = w

theorem Uses.restartable {A : C → Prop} {F : E → Prop} (hA : ∀ w c, A c → (answer w c).2 = w)
    (hm : Uses A F m) : Restartable answer fault m where
  interrupted s w := (hm.trace hA s w).1
  thrown s w e s' w' h := by
    have htrace : (∀ w' ∈ m.trace answer fault s w, w' = w) ∧ (m.exec answer s w).2.2 = w :=
      hm.trace hA s w
    rw [h] at htrace
    exact htrace.2

theorem Restartable.ite {p : Prop} [Decidable p] {m' : Eff C R S E α} (hm : Restartable answer fault m)
    (hm' : Restartable answer fault m') : Restartable answer fault (if p then m else m') := by
  split_ifs
  · exact hm
  · exact hm'

/-- A first part that leaves the environment alone. -/
theorem Restartable.bind {A : C → Prop} {F : E → Prop} (hA : ∀ w c, A c → (answer w c).2 = w)
    (hm : Uses A F m) {f : α → Eff C R S E β} (hf : ∀ a, Restartable answer fault (f a)) :
    Restartable answer fault (m >>= f) := by
  have hm : ∀ s w, (∀ w' ∈ m.trace answer fault s w, w' = w) ∧ (m.exec answer s w).2.2 = w :=
    fun s w => hm.trace hA s w
  refine ⟨fun s w => ?_, fun s w e s' w' h => ?_⟩
  · obtain ⟨htrace, hw⟩ := hm s w
    rcases hx : m.exec answer s w with ⟨e | a, s1, w1⟩
    · rw [trace_bind_error hx]
      exact htrace
    · rw [hx] at hw
      obtain rfl : w1 = w := hw
      rw [trace_bind_ok hx]
      intro w' hw'
      rcases List.mem_append.mp hw' with hw' | hw'
      · exact htrace w' hw'
      · exact (hf a).interrupted s1 w1 w' hw'
  · obtain ⟨-, hw⟩ := hm s w
    rcases hx : m.exec answer s w with ⟨e1 | a, s1, w1⟩
    · rw [exec_bind_error answer hx] at h
      rw [hx] at hw
      obtain ⟨-, h⟩ := Prod.mk.inj h
      exact (Prod.mk.inj h).2.symm.trans hw
    · rw [hx] at hw
      obtain rfl : w1 = w := hw
      rw [exec_bind_ok answer hx] at h
      exact (hf a).thrown s1 w1 e s' w' h

/-- A second part that neither calls nor throws. -/
theorem Restartable.andThen (hm : Restartable answer fault m) {f : α → Eff C R S E β}
    (hf : ∀ a s w, ∃ b s', Plays answer fault (f a) s w [] (.ok b) s' w) :
    Restartable answer fault (m >>= f) := by
  refine ⟨fun s w => ?_, fun s w e s' w' h => ?_⟩
  · have htrace := hm.interrupted s w
    rcases hx : m.exec answer s w with ⟨e | a, s1, w1⟩
    · rw [trace_bind_error hx]
      exact htrace
    · obtain ⟨b, s2, h2⟩ := hf a s1 w1
      rw [trace_bind_ok hx, h2.trace, List.append_nil]
      exact htrace
  · rcases hx : m.exec answer s w with ⟨e1 | a, s1, w1⟩
    · rw [exec_bind_error answer hx] at h
      obtain ⟨-, h⟩ := Prod.mk.inj h
      obtain rfl : w1 = w' := (Prod.mk.inj h).2
      exact hm.thrown s w e1 s1 w1 hx
    · obtain ⟨b, s2, h2⟩ := hf a s1 w1
      rw [exec_bind_ok answer hx, h2.exec] at h
      cases h

theorem Restartable.lift {answer : σ → (c : C') → R' c × σ} {fault' : (c : C') → Option (R' c)}
    {f : C → C'} {g : ∀ c, R' (f c) → R c} (hfault : ∀ c, (fault' (f c)).isSome = (fault c).isSome)
    (hm : Restartable (fun w c => (g c (answer w (f c)).1, (answer w (f c)).2)) fault m) :
    Restartable answer fault' (Eff.lift f g m) where
  interrupted s w := by
    rw [trace_lift hfault]
    exact hm.interrupted s w
  thrown s w e s' w' h := hm.thrown s w e s' w' ((exec_lift f g m s w).symm.trans h)

end Eff

end Lib
