import Webvirtd.Lib.Prog

/-!
# Lib.Record — what a computation calls, and what it is answered

`record answer` is the environment `answer` with a list of the calls made so far beside its state, each
with its answer.  `Makes answer m s w es r s' w'`: started on `s` and `w`, `m` makes the calls `es`, in
this order, and ends with `r`, `s'` and `w'`.  These are its `events` (`makes_events`); there is one rule
for each way to put computations together.
-/

namespace Lib

variable {C C' : Type} {R : C → Type} {R' : C' → Type} {S E α β σ : Type}

/-- A call and its answer. -/
abbrev Event (R : C → Type) : Type := (c : C) × R c

def record (answer : σ → (c : C) → R c × σ) (w : σ × List (Event R)) (c : C) :
    R c × σ × List (Event R) :=
  ((answer w.1 c).1, (answer w.1 c).2, w.2 ++ [⟨c, (answer w.1 c).1⟩])

namespace Prog

variable {answer : σ → (c : C) → R c × σ}

/-- What has been recorded before makes no difference. -/
theorem exists_run_record (p : Prog C R α) (w : σ) :
    ∃ es, ∀ log, p.run (record answer) (w, log) =
      ((p.run answer w).1, (p.run answer w).2, log ++ es) := by
  induction p generalizing w with
  | ret a => exact ⟨[], fun log => by rw [List.append_nil]; rfl⟩
  | call c k ih =>
    obtain ⟨es, hes⟩ := ih (answer w c).1 (answer w c).2
    refine ⟨⟨c, (answer w c).1⟩ :: es, fun log => ?_⟩
    have hlog := hes (log ++ [⟨c, (answer w c).1⟩])
    rw [List.append_assoc] at hlog
    exact hlog

end Prog

namespace Eff

/-- The calls that `m` makes. -/
def events (answer : σ → (c : C) → R c × σ) (m : Eff C R S E α) (s : S) (w : σ) : List (Event R) :=
  (m.exec (record answer) s (w, [])).2.2.2

/-- `m` makes the calls `es` and ends with `r`, `s'` and `w'`. -/
def Makes (answer : σ → (c : C) → R c × σ) (m : Eff C R S E α) (s : S) (w : σ)
    (es : List (Event R)) (r : Except E α) (s' : S) (w' : σ) : Prop :=
  ∀ log, m.exec (record answer) s (w, log) = (r, s', w', log ++ es)

section

variable {answer : σ → (c : C) → R c × σ} {m : Eff C R S E α} {s s' s'' : S} {w w' w'' : σ}
  {es es' : List (Event R)} {r : Except E α} {a : α} {e : E}

theorem Makes.exec (hm : Makes answer m s w es r s' w') : m.exec answer s w = (r, s', w') := by
  have hfst : ∀ (x : σ × List (Event R)) (c : C),
      answer x.1 c = ((record answer x c).1, (record answer x c).2.1) := fun _ _ => rfl
  have h := exec_map Prod.fst hfst m s (w, [])
  rw [hm []] at h
  exact h

theorem Makes.events (hm : Makes answer m s w es r s' w') : m.events answer s w = es := by
  unfold Eff.events
  rw [hm []]
  rfl

/-- There is one way to end. -/
theorem Makes.unique {r' : Except E α} (h : Makes answer m s w es r s' w') (h' : Makes answer m s w es' r' s'' w'') :
    es' = es ∧ r' = r ∧ s'' = s' ∧ w'' = w' := by
  cases h'.exec.symm.trans h.exec
  exact ⟨h'.events.symm.trans h.events, rfl, rfl, rfl⟩

/-- Every computation makes calls and ends. -/
theorem makes_events (m : Eff C R S E α) (s : S) (w : σ) :
    Makes answer m s w (m.events answer s w) (m.exec answer s w).1 (m.exec answer s w).2.1
      (m.exec answer s w).2.2 := by
  obtain ⟨es, hes⟩ : ∃ es, ∀ log, (m s).run (record answer) (w, log) =
      (((m s).run answer w).1, ((m s).run answer w).2, log ++ es) := Prog.exists_run_record (m s) w
  have hmakes : Makes answer m s w es (m.exec answer s w).1 (m.exec answer s w).2.1
      (m.exec answer s w).2.2 := by
    intro log
    unfold Eff.exec
    rw [hes]
  rwa [hmakes.events]

theorem Makes.pure (a : α) (s : S) (w : σ) :
    Makes answer (Pure.pure a : Eff C R S E α) s w [] (.ok a) s w :=
  fun log => by rw [List.append_nil]; rfl

theorem Makes.throw (e : E) (s : S) (w : σ) :
    Makes answer (Eff.throw e : Eff C R S E α) s w [] (.error e) s w :=
  fun log => by rw [List.append_nil]; rfl

theorem Makes.get (s : S) (w : σ) :
    Makes answer (Eff.get : Eff C R S E S) s w [] (.ok s) s w :=
  fun log => by rw [List.append_nil]; rfl

theorem Makes.modify (f : S → S) (s : S) (w : σ) :
    Makes answer (Eff.modify f : Eff C R S E Unit) s w [] (.ok ()) (f s) w :=
  fun log => by rw [List.append_nil]; rfl

theorem Makes.call (c : C) (s : S) (w : σ) :
    Makes answer (Eff.call c : Eff C R S E (R c)) s w [⟨c, (answer w c).1⟩] (.ok (answer w c).1) s
      (answer w c).2 := fun _ => rfl

theorem Makes.bind {f : α → Eff C R S E β} {r' : Except E β}
    (hm : Makes answer m s w es (.ok a) s' w') (hf : Makes answer (f a) s' w' es' r' s'' w'') :
    Makes answer (m >>= f) s w (es ++ es') r' s'' w'' := fun log => by
  rw [exec_bind_ok _ (hm log), hf, List.append_assoc]

/-- A first part that calls nothing. -/
theorem Makes.bind_nil {f : α → Eff C R S E β} {r' : Except E β}
    (hm : Makes answer m s w [] (.ok a) s' w') (hf : Makes answer (f a) s' w' es' r' s'' w'') :
    Makes answer (m >>= f) s w es' r' s'' w'' := hm.bind hf

/-- A second part that calls nothing. -/
theorem Makes.bind_last {f : α → Eff C R S E β} {r' : Except E β}
    (hm : Makes answer m s w es (.ok a) s' w') (hf : Makes answer (f a) s' w' [] r' s'' w'') :
    Makes answer (m >>= f) s w es r' s'' w'' := by
  have h := hm.bind hf
  rwa [List.append_nil] at h

theorem Makes.bind_error {f : α → Eff C R S E β} (hm : Makes answer m s w es (.error e) s' w') :
    Makes answer (m >>= f) s w es (.error e) s' w' := fun log => exec_bind_error _ (hm log)

theorem Makes.map (f : α → β) (hm : Makes answer m s w es (.ok a) s' w') :
    Makes answer (f <$> m) s w es (.ok (f a)) s' w' := hm.bind_last (.pure _ _ _)

/-- The handler is not needed. -/
theorem Makes.tryCatch {handler : E → Eff C R S E α} (hm : Makes answer m s w es (.ok a) s' w') :
    Makes answer (Eff.tryCatch m handler) s w es (.ok a) s' w' := fun log => by
  rw [exec_tryCatch, hm log]

/-- The handler takes over. -/
theorem Makes.tryCatch_error {handler : E → Eff C R S E α}
    (hm : Makes answer m s w es (.error e) s' w') (hh : Makes answer (handler e) s' w' es' r s'' w'') :
    Makes answer (Eff.tryCatch m handler) s w (es ++ es') r s'' w'' := fun log => by
  rw [exec_tryCatch, hm log]
  dsimp only
  rw [hh, List.append_assoc]

/-- A lifted computation makes the lifted calls. -/
theorem Makes.lift {answer : σ → (c : C') → R' c × σ} {f : C → C'} {m : Eff C (fun c => R' (f c)) S E α}
    {es : List (Event fun c => R' (f c))} (hm : Makes (fun w c => answer w (f c)) m s w es r s' w') :
    Makes answer (Eff.lift f (fun _ r => r) m) s w (es.map fun e => ⟨f e.1, e.2⟩) r s' w' := fun log => by
  rw [exec_lift]
  have hrecord : ∀ (x : σ × List (Event fun c => R' (f c))) (c : C),
      record answer (x.1, log ++ x.2.map fun e => ⟨f e.1, e.2⟩) (f c) =
        ((record (fun w c => answer w (f c)) x c).1, (record (fun w c => answer w (f c)) x c).2.1,
          log ++ (record (fun w c => answer w (f c)) x c).2.2.map fun e => ⟨f e.1, e.2⟩) :=
    fun x c => by simp [record]
  have h : m.exec (fun x c => record answer x (f c)) s (w, log ++ []) = _ :=
    exec_map (fun x : σ × List (Event fun c => R' (f c)) =>
      (x.1, log ++ x.2.map fun e => (⟨f e.1, e.2⟩ : Event R'))) hrecord m s (w, [])
  rw [hm []] at h
  simpa using h

/-! What a computation that returned was made of. -/

theorem Makes.bind_inv {f : α → Eff C R S E β} {b : β}
    (h : Makes answer (m >>= f) s w es (.ok b) s'' w'') :
    ∃ a s' w' es1 es2, es = es1 ++ es2 ∧ Makes answer m s w es1 (.ok a) s' w' ∧
      Makes answer (f a) s' w' es2 (.ok b) s'' w'' := by
  have hm : Makes answer m s w _ _ _ _ := makes_events m s w
  rcases hx : m.exec answer s w with ⟨e | a, s', w'⟩
  · rw [hx] at hm
    have heq := h.exec.symm.trans (hm.bind_error (f := f)).exec
    cases heq
  · rw [hx] at hm
    have hf : Makes answer (f a) s' w' _ _ _ _ := makes_events (f a) s' w'
    have hb := hm.bind hf
    have hexec : (.ok b, s'', w'') = (f a).exec answer s' w' := h.exec.symm.trans hb.exec
    rw [← hexec] at hf
    rw [← h.events, hb.events]
    exact ⟨a, s', w', _, _, rfl, hm, hf⟩

/-- After a first part that is known to return, what is left is the second part. -/
theorem Makes.after {f : α → Eff C R S E β} {r' : Except E β} (hm : Makes answer m s w es (.ok a) s' w')
    (h : Makes answer (m >>= f) s w es' r' s'' w'') :
    ∃ es2, es' = es ++ es2 ∧ Makes answer (f a) s' w' es2 r' s'' w'' := by
  have hf : Makes answer (f a) s' w' _ _ _ _ := makes_events (f a) s' w'
  have hexec : (r', s'', w'') = (f a).exec answer s' w' := h.exec.symm.trans (hm.bind hf).exec
  obtain ⟨hes, -⟩ := (hm.bind hf).unique h
  rw [← hexec] at hf
  exact ⟨_, hes, hf⟩

theorem Makes.pure_inv (h : Makes answer (Pure.pure a : Eff C R S E α) s w es r s' w') :
    es = [] ∧ r = .ok a ∧ s' = s ∧ w' = w := (Makes.pure a s w).unique h

/-- Nothing was thrown, or the handler took over. -/
theorem Makes.tryCatch_inv {handler : E → Eff C R S E α}
    (h : Makes answer (Eff.tryCatch m handler) s w es (.ok a) s'' w'') :
    Makes answer m s w es (.ok a) s'' w'' ∨
      ∃ e s' w' es1 es2, es = es1 ++ es2 ∧ Makes answer m s w es1 (.error e) s' w' ∧
        Makes answer (handler e) s' w' es2 (.ok a) s'' w'' := by
  have hm : Makes answer m s w _ _ _ _ := makes_events m s w
  rcases hx : m.exec answer s w with ⟨e | b, s', w'⟩
  · rw [hx] at hm
    have hh : Makes answer (handler e) s' w' _ _ _ _ := makes_events (handler e) s' w'
    have hall := hm.tryCatch_error hh
    have hexec : (.ok a, s'', w'') = (handler e).exec answer s' w' := h.exec.symm.trans hall.exec
    rw [← hexec] at hh
    exact .inr ⟨e, s', w', _, _, h.events.symm.trans hall.events, hm, hh⟩
  · rw [hx] at hm
    have hall : Makes answer (Eff.tryCatch m handler) s w _ _ _ _ := hm.tryCatch
    cases h.exec.symm.trans hall.exec
    rw [← h.events, hall.events]
    exact .inl hm

/-- All the calls are among those that `m` uses. -/
theorem Makes.of_uses {A : C → Prop} {F : E → Prop} (h : Makes answer m s w es r s' w') (hu : Uses A F m) :
    ∀ e ∈ es, A e.1 := by
  have hrecord : ∀ (x : σ × List (Event R)) (c : C), A c → (∀ e ∈ x.2, A e.1) →
      ∀ e ∈ (record answer x c).2.2, A e.1 := by
    intro x c hc hx e he
    rcases List.mem_append.mp he with he | he
    · exact hx e he
    · rw [List.mem_singleton.mp he]
      exact hc
  have hnil : ∀ e ∈ (w, ([] : List (Event R))).2, A e.1 := nofun
  rw [← h.events]
  exact ((hu s).run (record answer) hrecord hnil).1

end

end Eff

end Lib
