import Mathlib.Logic.Basic
import Webvirtd.Lib.Monitor
import Webvirtd.Lib.Threads

/-!
# Lib.Parties — threads of several parties that share a state

Every program and every event belongs to a party, and a party has a view of the shared state.  `Separate` says that a
call of a party is answered by its own view, changes its own view only, and is one that the party may make.

`purge p` takes the turns of the other parties out of a run: their threads are started and then never run.  What is
left is a run, and to `p` it is the same one (`purged`), in whatever order the turns came.
-/

namespace Lib

namespace Threads

variable {C : Type} {R : C → Type} {α σ ι ω ε π δ : Type}

/-- The programs that a run starts, in order. -/
def spawned : List (Action ι ω ε) → List ι
  | [] => []
  | .spawn x :: as => x :: spawned as
  | .call _ _ :: as => spawned as
  | .event _ :: as => spawned as

structure Parties (C : Type) (R : C → Type) (σ ι ε π δ : Type) where
  party : ι → π
  owner : ε → π
  view : σ → π → δ
  /-- The calls that a party may make. -/
  may : π → C → Prop
  /-- What it may then be answered. -/
  answers : π → (c : C) → R c → Prop

namespace Parties

variable (P : Parties C R σ ι ε π δ)

abbrev monitor (p : π) : Monitor R Prop := .assuming (P.may p) (P.answers p)

structure Separate (V : Server C R α σ ι ω ε) : Prop where
  confined : ∀ x, (V.program x).Guarded (P.monitor (P.party x)) (fun _ _ => True) True
  answered : ∀ w p c o, P.may p c → P.answers p c (V.serve w c o).1
  served : ∀ w v p c o, P.may p c → P.view w p = P.view v p →
    (V.serve w c o).1 = (V.serve v c o).1 ∧ P.view (V.serve w c o).2 p = P.view (V.serve v c o).2 p
  apart : ∀ w p q c o, P.may p c → q ≠ p → P.view (V.serve w c o).2 q = P.view w q
  happens : ∀ w v e w', V.event w e = some w' → P.view w (P.owner e) = P.view v (P.owner e) →
    ∃ v', V.event v e = some v' ∧ P.view w' (P.owner e) = P.view v' (P.owner e)
  happens_apart : ∀ w e w' q, V.event w e = some w' → q ≠ P.owner e → P.view w' q = P.view w q

/-- The run without the turns of other parties; `xs` are the programs that have been started. -/
def purge [DecidableEq π] (p : π) : List ι → List (Action ι ω ε) → List (Action ι ω ε)
  | _, [] => []
  | xs, .spawn x :: as => .spawn x :: purge p (xs ++ [x]) as
  | xs, .call i o :: as =>
    if (xs[i]?).any fun x => P.party x = p then .call i o :: purge p xs as else purge p xs as
  | xs, .event e :: as => if P.owner e = p then .event e :: purge p xs as else purge p xs as

/-- Two states that are the same to `p`, after the programs `xs` have been started in both. -/
structure Alike (p : π) (xs : List ι) (s t : Threads C R α σ) : Prop where
  length : s.threads.length = xs.length
  length' : t.threads.length = xs.length
  view : P.view s.shared p = P.view t.shared p
  confined : ∀ (i : ℕ) x (q : Prog C R α), xs[i]? = some x → s.threads[i]? = some q →
    q.Guarded (P.monitor (P.party x)) (fun _ _ => True) True
  same : ∀ (i : ℕ) x, xs[i]? = some x → P.party x = p → s.threads[i]? = t.threads[i]?

section

variable {P} {V : Server C R α σ ι ω ε} {p : π} {xs : List ι} {s s' t : Threads C R α σ}

theorem Alike.spawn (hP : P.Separate V) (h : P.Alike p xs s t) (x : ι) :
    P.Alike p (xs ++ [x]) { s with threads := s.threads ++ [V.program x] }
      { t with threads := t.threads ++ [V.program x] } := by
  have hs := h.length
  have ht := h.length'
  refine ⟨by simp [hs], by simp [ht], h.view, fun i y q hi hq => ?_, fun i y hi hy => ?_⟩
  · by_cases hlt : i < xs.length
    · rw [List.getElem?_append_left hlt] at hi
      rw [List.getElem?_append_left (by omega)] at hq
      exact h.confined i y q hi hq
    · have hle : xs.length ≤ i := by omega
      rw [List.getElem?_append_right hle] at hi
      rw [List.getElem?_append_right (by omega), hs] at hq
      have hzero : i - xs.length = 0 := by
        have hlen := (List.getElem?_eq_some_iff.mp hi).1
        simp at hlen
        omega
      rw [hzero] at hi hq
      obtain rfl : x = y := by simpa using hi
      obtain rfl : V.program x = q := by simpa using hq
      exact hP.confined x
  · by_cases hlt : i < xs.length
    · rw [List.getElem?_append_left hlt] at hi
      have hsame := h.same i y hi hy
      show (s.threads ++ _)[i]? = (t.threads ++ _)[i]?
      rw [List.getElem?_append_left (by omega), List.getElem?_append_left (by omega), hsame]
    · show (s.threads ++ _)[i]? = (t.threads ++ _)[i]?
      rw [List.getElem?_append_right (by omega), List.getElem?_append_right (by omega), hs, ht]

/-- The thread after its call, if the answer was one that its party may be given. -/
theorem Alike.continued (h : P.Alike p xs s t) {i : ℕ} {x : ι} {c : C} {k : R c → Prog C R α} {r : R c}
    (hx : xs[i]? = some x) (hget : s.threads[i]? = some (.call c k)) (hr : P.answers (P.party x) c r) :
    P.may (P.party x) c ∧ (k r).Guarded (P.monitor (P.party x)) (fun _ _ => True) True := by
  obtain ⟨hmay, hk⟩ := h.confined i x _ hx hget
  have hnext : (k r).Guarded (P.monitor (P.party x)) (fun _ _ => True) (True ∧ P.answers (P.party x) c r) := hk r
  rw [and_iff_right trivial, eq_true hr] at hnext
  exact ⟨hmay trivial, hnext⟩

/-- What stays of `confined` when one thread goes on. -/
theorem Alike.confined_set (h : P.Alike p xs s t) {i : ℕ} {x : ι} {q : Prog C R α} (hx : xs[i]? = some x)
    (hq : q.Guarded (P.monitor (P.party x)) (fun _ _ => True) True) :
    ∀ (j : ℕ) y (q' : Prog C R α), xs[j]? = some y → (s.threads.set i q)[j]? = some q' →
      q'.Guarded (P.monitor (P.party y)) (fun _ _ => True) True := by
  intro j y q' hj hq'
  by_cases hij : i = j
  · subst hij
    obtain rfl : x = y := Option.some.inj (hx.symm.trans hj)
    have hlt : i < s.threads.length := by
      have hlt := (List.getElem?_eq_some_iff.mp hx).1
      have hlen := h.length
      omega
    rw [List.getElem?_set_self hlt] at hq'
    obtain rfl := Option.some.inj hq'
    exact hq
  · rw [List.getElem?_set_ne hij] at hq'
    exact h.confined j y q' hj hq'

/-- A turn of `p` itself. -/
theorem Alike.turn (hP : P.Separate V) (h : P.Alike p xs s t) {i : ℕ} {x : ι} {o : ω} {c : C}
    {k : R c → Prog C R α} (hx : xs[i]? = some x) (hp : P.party x = p) (hget : s.threads[i]? = some (.call c k)) :
    ∃ t', step V t (.call i o) = some t' ∧
      P.Alike p xs ⟨(V.serve s.shared c o).2, s.threads.set i (k (V.serve s.shared c o).1)⟩ t' := by
  obtain ⟨hmay, hk⟩ := h.confined i x _ hx hget
  have hans := hP.answered s.shared (P.party x) c o (hmay trivial)
  obtain ⟨hmay, hnext⟩ := h.continued hx hget hans
  rw [hp] at hmay
  obtain ⟨heq, hview⟩ := hP.served _ _ p c o hmay h.view
  have hget' : t.threads[i]? = some (.call c k) := (h.same i x hx hp).symm.trans hget
  refine ⟨⟨(V.serve t.shared c o).2, t.threads.set i (k (V.serve t.shared c o).1)⟩, ?_, ?_⟩
  · unfold step
    simp only [hget']
  · refine ⟨by simp [h.length], by simp [h.length'], hview, h.confined_set hx hnext, fun j y hj hy => ?_⟩
    have hsame := h.same j y hj hy
    have hlen := h.length
    have hlen' := h.length'
    show (s.threads.set i _)[j]? = (t.threads.set i _)[j]?
    by_cases hij : i = j
    · have hlt := (List.getElem?_eq_some_iff.mp hx).1
      rw [← hij, List.getElem?_set_self (by omega), List.getElem?_set_self (by omega), heq]
    · rw [List.getElem?_set_ne hij, List.getElem?_set_ne hij, hsame]

/-- A turn of another party. -/
theorem Alike.apart (hP : P.Separate V) (h : P.Alike p xs s t) {i : ℕ} {x : ι} {o : ω} {c : C}
    {k : R c → Prog C R α} (hx : xs[i]? = some x) (hp : P.party x ≠ p) (hget : s.threads[i]? = some (.call c k)) :
    P.Alike p xs ⟨(V.serve s.shared c o).2, s.threads.set i (k (V.serve s.shared c o).1)⟩ t := by
  obtain ⟨hmay, hk⟩ := h.confined i x _ hx hget
  have hans := hP.answered s.shared (P.party x) c o (hmay trivial)
  obtain ⟨hmay, hnext⟩ := h.continued hx hget hans
  have hview := hP.apart s.shared (P.party x) p c o hmay (Ne.symm hp)
  refine ⟨by simp [h.length], h.length', hview.trans h.view, h.confined_set hx hnext, fun j y hj hy => ?_⟩
  have hij : i ≠ j := by
    rintro rfl
    obtain rfl : x = y := Option.some.inj (hx.symm.trans hj)
    exact hp hy
  show (s.threads.set i _)[j]? = t.threads[j]?
  rw [List.getElem?_set_ne hij]
  exact h.same j y hj hy

/-- **A run to `p`** is the run without the others, from any state that looks the same. -/
theorem Alike.exec [DecidableEq π] (hP : P.Separate V) {init init' : σ} (h : P.Alike p xs s t) {as : List (Action ι ω ε)}
    (hs : (machine V init).exec s as = some s') :
    ∃ t', (machine V init').exec t (P.purge p xs as) = some t' ∧ P.Alike p (xs ++ spawned as) s' t' := by
  induction as generalizing s t xs with
  | nil =>
    obtain rfl := Option.some.inj hs
    refine ⟨t, rfl, ?_⟩
    show P.Alike p (xs ++ []) s t
    rwa [List.append_nil]
  | cons a as ih =>
    obtain ⟨u, hu, hs⟩ := Machine.exec_cons_eq_some.mp hs
    cases a with
    | spawn x =>
      obtain rfl := Option.some.inj hu
      obtain ⟨t', ht', halike⟩ := ih (h.spawn hP x) hs
      rw [List.append_assoc] at halike
      exact ⟨t', Machine.exec_cons_eq_some.mpr ⟨_, rfl, ht'⟩, halike⟩
    | call i o =>
      obtain ⟨c, k, hget, rfl⟩ := step_call hu
      have hlt : i < xs.length := by
        have hlt := (List.getElem?_eq_some_iff.mp hget).1
        have hlen := h.length
        omega
      have hx : xs[i]? = some xs[i] := List.getElem?_eq_getElem hlt
      unfold purge
      by_cases hp : P.party xs[i] = p
      · rw [if_pos (by simp [hx, hp])]
        obtain ⟨v, hv, halike⟩ := h.turn hP (o := o) hx hp hget
        obtain ⟨t', ht', halike⟩ := ih halike hs
        exact ⟨t', Machine.exec_cons_eq_some.mpr ⟨v, hv, ht'⟩, halike⟩
      · rw [if_neg (by simp [hx, hp])]
        exact ih (h.apart hP hx hp hget) hs
    | event e =>
      obtain ⟨w, hw, rfl⟩ := step_event hu
      unfold purge
      by_cases hp : P.owner e = p
      · rw [if_pos hp]
        subst hp
        obtain ⟨v, hv, hview⟩ := hP.happens _ _ e w hw h.view
        have hstep : step V t (.event e) = some { t with shared := v } := by
          unfold step
          simp only [hv, Option.map_some]
        obtain ⟨t', ht', halike⟩ := ih (s := { s with shared := w }) (t := { t with shared := v })
          ⟨h.length, h.length', hview, h.confined, h.same⟩ hs
        exact ⟨t', Machine.exec_cons_eq_some.mpr ⟨_, hstep, ht'⟩, halike⟩
      · rw [if_neg hp]
        have hview := hP.happens_apart _ e w p hw (Ne.symm hp)
        exact ih (s := { s with shared := w })
          ⟨h.length, h.length', hview.trans h.view, h.confined, h.same⟩ hs

theorem purged [DecidableEq π] (hP : P.Separate V) {w v : σ} (hview : P.view w p = P.view v p) {as : List (Action ι ω ε)}
    (hs : (machine V w).exec (machine V w).init as = some s) :
    ∃ t, (machine V v).exec (machine V v).init (P.purge p [] as) = some t ∧
      P.view s.shared p = P.view t.shared p ∧
      ∀ (i : ℕ) x, (spawned as)[i]? = some x → P.party x = p → s.threads[i]? = t.threads[i]? := by
  have hinit : P.Alike p [] (machine V w).init (machine V v).init :=
    ⟨rfl, rfl, hview, fun i x q hi => absurd hi (by simp), fun i x hi => absurd hi (by simp)⟩
  obtain ⟨t, ht, halike⟩ : ∃ t, (machine V v).exec (machine V v).init (P.purge p [] as) = some t ∧
      P.Alike p (spawned as) s t := hinit.exec hP hs
  exact ⟨t, ht, halike.view, halike.same⟩

end

end Parties

end Threads

end Lib
