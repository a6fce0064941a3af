import Webvirtd.Lib.Machine
import Webvirtd.Lib.Prog

/-!
# Lib.Threads — programs on several threads that share a state

A step starts a program on a new thread, serves the next call of one thread, or is an event that changes
the shared state from outside.  What decides an answer beyond the shared state is part of the action.

* `Within A s`: what the threads still have to do only makes calls that `A` allows; every step keeps it.
* `Condition G H`: the calls are served where `G` holds, and the events happen where `H` does.
* `always_iff_meets`: a property of the shared state that a call keeps exactly where `G` holds, and an
  event exactly where `H` does, holds along the runs whose steps meet the condition, and no others.
-/

namespace Lib

structure Threads (C : Type) (R : C → Type) (α σ : Type) where
  shared : σ
  threads : List (Prog C R α)

namespace Threads

inductive Action (ι ω ε : Type)
  | spawn (x : ι)
  /-- The next call of the `i`-th thread is served. -/
  | call (i : ℕ) (o : ω)
  | event (e : ε)

/-- The programs that can be started, what serves their calls, and the events. -/
structure Server (C : Type) (R : C → Type) (α σ ι ω ε : Type) where
  program : ι → Prog C R α
  serve : σ → (c : C) → ω → R c × σ
  event : σ → ε → Option σ

variable {C : Type} {R : C → Type} {α σ ι ω ε : Type} (V : Server C R α σ ι ω ε)

def step (s : Threads C R α σ) : Action ι ω ε → Option (Threads C R α σ)
  | .spawn x => some { s with threads := s.threads ++ [V.program x] }
  | .call i o =>
    match s.threads[i]? with
    | some (.call c k) =>
      some ⟨(V.serve s.shared c o).2, s.threads.set i (k (V.serve s.shared c o).1)⟩
    | _ => none
  | .event e => (V.event s.shared e).map fun t => { s with shared := t }

def machine (init : σ) : Machine (Threads C R α σ) (Action ι ω ε) where
  init := ⟨init, []⟩
  step := step V

def Within (A : C → Prop) (s : Threads C R α σ) : Prop := ∀ p ∈ s.threads, p.Uses A fun _ => True

def Condition (G : σ → C → Prop) (H : σ → ε → Prop) (s : Threads C R α σ) : Action ι ω ε → Prop
  | .spawn _ => True
  | .call i _ => ∀ c k, s.threads[i]? = some (.call c k) → G s.shared c
  | .event e => H s.shared e

variable {V} {s t : Threads C R α σ} {A : C → Prop}

theorem step_call {i : ℕ} {o : ω} (h : step V s (.call i o) = some t) :
    ∃ c k, s.threads[i]? = some (.call c k) ∧
      t = ⟨(V.serve s.shared c o).2, s.threads.set i (k (V.serve s.shared c o).1)⟩ := by
  unfold step at h
  simp only at h
  split at h
  · rename_i c k hget
    exact ⟨c, k, hget, (Option.some.inj h).symm⟩
  · cases h

theorem step_event {e : ε} (h : step V s (.event e) = some t) :
    ∃ u, V.event s.shared e = some u ∧ t = { s with shared := u } := by
  obtain ⟨u, hu, ht⟩ := Option.map_eq_some_iff.mp h
  exact ⟨u, hu, ht.symm⟩

/-- The call of a thread is one that `A` allows, and so are those that follow. -/
theorem Within.call (hs : s.Within A) {i : ℕ} {c : C} {k : R c → Prog C R α}
    (h : s.threads[i]? = some (.call c k)) : A c ∧ ∀ r, (k r).Uses A fun _ => True :=
  hs _ (List.mem_of_getElem? h)

theorem Within.step (hprogram : ∀ x, (V.program x).Uses A fun _ => True) (hs : s.Within A)
    {a : Action ι ω ε} (h : step V s a = some t) : t.Within A := by
  intro p hp
  cases a with
  | spawn x =>
    obtain rfl := Option.some.inj h
    rcases List.mem_append.mp hp with hp | hp
    · exact hs p hp
    · rw [List.mem_singleton.mp hp]
      exact hprogram x
  | call i o =>
    obtain ⟨c, k, hget, rfl⟩ := step_call h
    rcases List.mem_or_eq_of_mem_set hp with hp | rfl
    · exact hs p hp
    · exact (hs.call hget).2 _
  | event e =>
    obtain ⟨u, -, rfl⟩ := step_event h
    exact hs p hp

/-- What the calls and the events keep, every step keeps. -/
theorem invariant_step {I : σ → Prop} (hserve : ∀ s c o, A c → I s → I (V.serve s c o).2)
    (hevent : ∀ s e t, I s → V.event s e = some t → I t) (hs : s.Within A) (hI : I s.shared)
    {a : Action ι ω ε} (h : step V s a = some t) : I t.shared := by
  cases a with
  | spawn x =>
    obtain rfl := Option.some.inj h
    exact hI
  | call i o =>
    obtain ⟨c, k, hget, rfl⟩ := step_call h
    exact hserve _ c o (hs.call hget).1 hI
  | event e =>
    obtain ⟨u, hu, rfl⟩ := step_event h
    exact hevent _ e u hI hu

/-- A step keeps the property exactly if it meets the condition. -/
theorem property_step {I P : σ → Prop} {G : σ → C → Prop} {H : σ → ε → Prop}
    (hcall : ∀ s c o, A c → I s → P s → (P (V.serve s c o).2 ↔ G s c))
    (hevent : ∀ s e t, I s → P s → V.event s e = some t → (P t ↔ H s e)) (hs : s.Within A)
    (hI : I s.shared) (hP : P s.shared) {a : Action ι ω ε} (h : step V s a = some t) :
    P t.shared ↔ Condition G H s a := by
  cases a with
  | spawn x =>
    obtain rfl := Option.some.inj h
    exact iff_of_true hP trivial
  | call i o =>
    obtain ⟨c, k, hget, rfl⟩ := step_call h
    rw [hcall _ c o (hs.call hget).1 hI hP]
    constructor
    · intro hG c' k' hget'
      rw [hget] at hget'
      cases hget'
      exact hG
    · exact fun hG => hG c k hget
  | event e =>
    obtain ⟨u, hu, rfl⟩ := step_event h
    exact hevent _ e u hI hP hu

/-- **Properties of the shared state** hold along exactly the runs whose steps meet the condition. -/
theorem always_iff_meets {I P : σ → Prop} {G : σ → C → Prop} {H : σ → ε → Prop} {init : σ}
    (hprogram : ∀ x, (V.program x).Uses A fun _ => True)
    (hserve : ∀ s c o, A c → I s → I (V.serve s c o).2)
    (hevent : ∀ s e t, I s → V.event s e = some t → I t)
    (hcall : ∀ s c o, A c → I s → P s → (P (V.serve s c o).2 ↔ G s c))
    (hPevent : ∀ s e t, I s → P s → V.event s e = some t → (P t ↔ H s e))
    (hI : I init) (hP : P init) (as : List (Action ι ω ε)) :
    (machine V init).Always (fun s => P s.shared) (machine V init).init as ↔
      (machine V init).Meets (Condition G H) (machine V init).init as := by
  have hinv : (machine V init).Invariant fun s => s.Within A ∧ I s.shared := by
    refine ⟨⟨fun p hp => absurd hp List.not_mem_nil, hI⟩, ?_⟩
    rintro s a t ⟨hs, hIs⟩ hst
    exact ⟨hs.step hprogram hst, invariant_step hserve hevent hs hIs hst⟩
  refine hinv.always_iff_meets hP ?_ as
  rintro s a t ⟨hs, hIs⟩ - hPs hst
  exact property_step hcall hPevent hs hIs hPs hst

end Threads

end Lib
