import Mathlib.Data.List.Nodup
import Mathlib.Logic.Function.Basic
import Webvirtd.Lib.Machine

/-!
# Lib.Locks — lock guards on any number of threads

A program is nested blocks with lock guards, and with exceptions: what leaves a block early releases its guards on
the way to the handler.  Any number of threads run such programs, one step at a time.

If every program takes the mutexes in the order of a rank (`Above`) and does what a mutex guards only while it
holds it (`Guarded`), then in every reachable state no mutex has two owners (`Inv.exclusive`), no two threads are at
accesses that one mutex guards (`Inv.race_free`), some thread that is not finished can go on (`Inv.live`), and the steps of
the threads there are come to an end in whatever order they are taken (`work_exec`).
-/

namespace Lib

/-- `act xs` takes no mutex and makes the accesses `xs` to what is shared; it may throw. -/
inductive Locking (μ ν : Type)
  | act (xs : List ν)
  | seq (a b : Locking μ ν)
  | choice (a b : Locking μ ν)
  | locked (m : μ) (body : Locking μ ν)
  | tryCatch (body handler : Locking μ ν)

inductive Frame (μ ν : Type)
  | run (c : Locking μ ν)
  | unlock (m : μ)
  | handler (c : Locking μ ν)

/-- What each thread has still to do, and who holds which mutex. -/
structure Locks (μ ν : Type) where
  threads : List (List (Frame μ ν)) := []
  owner : μ → Option ℕ := fun _ => none

inductive LockAct (ι : Type)
  /-- A thread starts a program. -/
  | start (x : ι)
  /-- Thread `t` goes on; `left` decides its choices. -/
  | step (t : ℕ) (left : Bool)
  /-- What thread `t` does next throws. -/
  | throw (t : ℕ)

namespace Locks

variable {μ ν ι : Type}

/-- The way to the handler. -/
def unwind : List (Frame μ ν) → List (Frame μ ν)
  | [] => []
  | .run _ :: k => unwind k
  | .unlock m :: k => .unlock m :: unwind k
  | .handler c :: k => .run c :: k

/-- What a thread has to do after its next step. -/
def next (left : Bool) : List (Frame μ ν) → List (Frame μ ν)
  | [] => []
  | .run (.act _) :: k => k
  | .run (.seq a b) :: k => .run a :: .run b :: k
  | .run (.choice a b) :: k => .run (if left then a else b) :: k
  | .run (.tryCatch a b) :: k => .run a :: .handler b :: k
  | .run (.locked m c) :: k => .run c :: .unlock m :: k
  | .unlock _ :: k => k
  | .handler _ :: k => k

section

variable [DecidableEq μ]

/-- Who holds which mutex after the next step of thread `t`, unless it has to wait or is finished. -/
def grant (t : ℕ) (owner : μ → Option ℕ) : List (Frame μ ν) → Option (μ → Option ℕ)
  | [] => none
  | .run (.locked m _) :: _ => if owner m = none then some (Function.update owner m (some t)) else none
  | .unlock m :: _ => some (Function.update owner m none)
  | _ :: _ => some owner

def advance (s : Locks μ ν) (t : ℕ) (left : Bool) (k : List (Frame μ ν)) : Option (Locks μ ν) :=
  (grant t s.owner k).map fun owner => ⟨s.threads.set t (next left k), owner⟩

def step (program : ι → Locking μ ν) (s : Locks μ ν) : LockAct ι → Option (Locks μ ν)
  | .start x => some { s with threads := s.threads ++ [[.run (program x)]] }
  | .step t left => s.threads[t]?.bind (s.advance t left)
  | .throw t =>
    match s.threads[t]? with
    | some (.run (.act _) :: k) => some { s with threads := s.threads.set t (unwind k) }
    | _ => none

def machine (program : ι → Locking μ ν) : Machine (Locks μ ν) (LockAct ι) where
  init := {}
  step := step program

end

/-! ## Held mutexes -/

/-- The mutexes that a thread holds. -/
def held : List (Frame μ ν) → List μ
  | [] => []
  | .run _ :: k => held k
  | .unlock m :: k => m :: held k
  | .handler _ :: k => held k

theorem held_unwind (k : List (Frame μ ν)) : held (unwind k) = held k := by
  induction k with
  | nil => rfl
  | cons f k ih =>
    cases f with
    | run c => exact ih
    | handler c => rfl
    | unlock m => exact congrArg (m :: ·) ih

/-- A step takes one mutex that is free, releases the last one taken, or leaves them all. -/
theorem grant_cases [DecidableEq μ] {t : ℕ} {owner owner' : μ → Option ℕ} {k : List (Frame μ ν)}
    (h : grant t owner k = some owner') (left : Bool) :
    (held (next left k) = held k ∧ owner' = owner) ∨
      (∃ m, owner m = none ∧ held (next left k) = m :: held k ∧ owner' = Function.update owner m (some t)) ∨
      ∃ m, held k = m :: held (next left k) ∧ owner' = Function.update owner m none := by
  cases k with
  | nil => cases h
  | cons f k =>
    cases f with
    | unlock m =>
      obtain rfl := Option.some.inj h
      exact .inr (.inr ⟨m, rfl, rfl⟩)
    | handler c =>
      obtain rfl := Option.some.inj h
      exact .inl ⟨rfl, rfl⟩
    | run c =>
      cases c with
      | locked m c =>
        by_cases hfree : owner m = none
        · simp only [grant, if_pos hfree] at h
          obtain rfl := Option.some.inj h
          exact .inr (.inl ⟨m, hfree, rfl, rfl⟩)
        · simp only [grant, if_neg hfree] at h
          cases h
      | act xs =>
        obtain rfl := Option.some.inj h
        exact .inl ⟨rfl, rfl⟩
      | seq a b =>
        obtain rfl := Option.some.inj h
        exact .inl ⟨rfl, rfl⟩
      | choice a b =>
        obtain rfl := Option.some.inj h
        exact .inl ⟨rfl, rfl⟩
      | tryCatch a b =>
        obtain rfl := Option.some.inj h
        exact .inl ⟨rfl, rfl⟩

/-! ## Ranks and guards -/

/-- The program takes mutexes of a rank of at least `n`, and inside a guard only higher ones. -/
def Above (rank : μ → ℕ) : ℕ → Locking μ ν → Prop
  | _, .act _ => True
  | n, .seq a b => Above rank n a ∧ Above rank n b
  | n, .choice a b => Above rank n a ∧ Above rank n b
  | n, .tryCatch a b => Above rank n a ∧ Above rank n b
  | n, .locked m c => n ≤ rank m ∧ Above rank (rank m + 1) c

/-- The program, started with the mutexes `ms`, holds the mutex of each access that it makes. -/
def Guarded (guard : ν → Option μ) : List μ → Locking μ ν → Prop
  | ms, .act xs => ∀ x ∈ xs, ∀ m, guard x = some m → m ∈ ms
  | ms, .seq a b => Guarded guard ms a ∧ Guarded guard ms b
  | ms, .choice a b => Guarded guard ms a ∧ Guarded guard ms b
  | ms, .tryCatch a b => Guarded guard ms a ∧ Guarded guard ms b
  | ms, .locked m c => Guarded guard (m :: ms) c

/-- All that a thread holds is below. -/
def bound (rank : μ → ℕ) : List (Frame μ ν) → ℕ
  | [] => 0
  | .run _ :: k => bound rank k
  | .unlock m :: _ => rank m + 1
  | .handler _ :: k => bound rank k

/-- What a thread has to do keeps to the ranks and the guards. -/
def Sound (rank : μ → ℕ) (guard : ν → Option μ) : List (Frame μ ν) → Prop
  | [] => True
  | .run c :: k => (Above rank (bound rank k) c ∧ Guarded guard (held k) c) ∧ Sound rank guard k
  | .unlock m :: k => bound rank k ≤ rank m ∧ Sound rank guard k
  | .handler c :: k => (Above rank (bound rank k) c ∧ Guarded guard (held k) c) ∧ Sound rank guard k

variable {rank : μ → ℕ} {guard : ν → Option μ} {k : List (Frame μ ν)}

theorem rank_lt_bound (h : Sound rank guard k) {m : μ} (hm : m ∈ held k) : rank m < bound rank k := by
  induction k with
  | nil => cases hm
  | cons f k ih =>
    cases f with
    | run c => exact ih h.2 hm
    | handler c => exact ih h.2 hm
    | unlock m' =>
      rcases List.mem_cons.mp hm with rfl | hm
      · exact Nat.lt_succ_self _
      · have hlt := ih h.2 hm
        have hle := h.1
        show rank m < rank m' + 1
        omega

theorem nodup_held (h : Sound rank guard k) : (held k).Nodup := by
  induction k with
  | nil => exact List.nodup_nil
  | cons f k ih =>
    cases f with
    | run c => exact ih h.2
    | handler c => exact ih h.2
    | unlock m =>
      refine List.nodup_cons.mpr ⟨fun hm => ?_, ih h.2⟩
      have hlt := rank_lt_bound h.2 hm
      have hle := h.1
      omega

theorem bound_unwind (k : List (Frame μ ν)) : bound rank (unwind k) = bound rank k := by
  induction k with
  | nil => rfl
  | cons f k ih =>
    cases f with
    | run c => exact ih
    | handler c => rfl
    | unlock m => rfl

theorem Sound.unwind (h : Sound rank guard k) : Sound rank guard (unwind k) := by
  induction k with
  | nil => trivial
  | cons f k ih =>
    cases f with
    | run c => exact ih h.2
    | handler c => exact h
    | unlock m =>
      refine ⟨?_, ih h.2⟩
      rw [bound_unwind]
      exact h.1

theorem Sound.next (h : Sound rank guard k) (left : Bool) : Sound rank guard (next left k) := by
  cases k with
  | nil => trivial
  | cons f k =>
    cases f with
    | unlock m => exact h.2
    | handler c => exact h.2
    | run c =>
      obtain ⟨⟨habove, hguarded⟩, hrest⟩ := h
      cases c with
      | act xs => exact hrest
      | seq a b => exact ⟨⟨habove.1, hguarded.1⟩, ⟨habove.2, hguarded.2⟩, hrest⟩
      | tryCatch a b => exact ⟨⟨habove.1, hguarded.1⟩, ⟨habove.2, hguarded.2⟩, hrest⟩
      | locked m c => exact ⟨⟨habove.2, hguarded⟩, habove.1, hrest⟩
      | choice a b =>
        refine ⟨?_, hrest⟩
        cases left with
        | true => exact ⟨habove.1, hguarded.1⟩
        | false => exact ⟨habove.2, hguarded.2⟩

/-! ## The invariant -/

structure Inv (rank : μ → ℕ) (guard : ν → Option μ) (s : Locks μ ν) : Prop where
  sound : ∀ k ∈ s.threads, Sound rank guard k
  owner : ∀ m t, s.owner m = some t ↔ ∃ k, s.threads[t]? = some k ∧ m ∈ held k

variable {s u : Locks μ ν} {t : ℕ}

theorem inv_init : Inv rank guard ({} : Locks μ ν) where
  sound k hk := absurd hk List.not_mem_nil
  owner m t := by simp

/-- Thread `t` goes from `k` to `k'`, and the owners follow. -/
theorem Inv.set (h : Inv rank guard s) {k' : List (Frame μ ν)} {owner' : μ → Option ℕ}
    (hk : s.threads[t]? = some k) (hsound : Sound rank guard k')
    (hself : ∀ m, owner' m = some t ↔ m ∈ held k') (hother : ∀ m t', t ≠ t' → (owner' m = some t' ↔ s.owner m = some t')) :
    Inv rank guard ⟨s.threads.set t k', owner'⟩ where
  sound j hj := by
    rcases List.mem_or_eq_of_mem_set hj with hj | rfl
    · exact h.sound j hj
    · exact hsound
  owner m t' := by
    have hlt : t < s.threads.length := (List.getElem?_eq_some_iff.mp hk).1
    show owner' m = some t' ↔ _
    by_cases ht : t = t'
    · subst ht
      rw [List.getElem?_set_self hlt, hself]
      simp
    · rw [List.getElem?_set_ne ht, hother m t' ht]
      exact h.owner m t'

theorem Inv.owner_self (h : Inv rank guard s) (hk : s.threads[t]? = some k) (m : μ) :
    s.owner m = some t ↔ m ∈ held k := by
  rw [h.owner m t, hk]
  simp

/-- A step of thread `t` that takes and releases nothing. -/
theorem Inv.keep (h : Inv rank guard s) {k' : List (Frame μ ν)} (hk : s.threads[t]? = some k)
    (hheld : held k' = held k) (hsound : Sound rank guard k') :
    Inv rank guard { s with threads := s.threads.set t k' } := by
  refine h.set hk hsound (fun m => ?_) (fun m t' _ => Iff.rfl)
  rw [hheld]
  exact h.owner_self hk m

theorem Inv.start (h : Inv rank guard s) {c : Locking μ ν} (hc : Above rank 0 c) (hguarded : Guarded guard [] c) :
    Inv rank guard { s with threads := s.threads ++ [[.run c]] } where
  sound j hj := by
    rcases List.mem_append.mp hj with hj | hj
    · exact h.sound j hj
    · rw [List.mem_singleton.mp hj]
      exact ⟨⟨hc, hguarded⟩, trivial⟩
  owner m t' := by
    show s.owner m = some t' ↔ _
    rw [h.owner m t']
    by_cases hlt : t' < s.threads.length
    · rw [List.getElem?_append_left hlt]
    · have hle : s.threads.length ≤ t' := Nat.le_of_not_lt hlt
      have hnone : s.threads[t']? = none := List.getElem?_eq_none hle
      rw [List.getElem?_append_right hle, hnone]
      refine iff_of_false (by simp) ?_
      rintro ⟨j, hj, hm⟩
      have hmem := List.mem_singleton.mp (List.mem_of_getElem? hj)
      rw [hmem] at hm
      cases hm

section

variable [DecidableEq μ]

theorem Inv.lock (h : Inv rank guard s) {k' : List (Frame μ ν)} {m : μ} (hk : s.threads[t]? = some k)
    (hsound : Sound rank guard k') (hfree : s.owner m = none) (hheld : held k' = m :: held k) :
    Inv rank guard ⟨s.threads.set t k', Function.update s.owner m (some t)⟩ := by
  refine h.set hk hsound (fun m' => ?_) (fun m' t' ht => ?_)
  · rw [hheld, List.mem_cons]
    by_cases hm : m' = m
    · subst hm
      simp
    · rw [Function.update_of_ne hm, h.owner_self hk]
      simp [hm]
  · by_cases hm : m' = m
    · subst hm
      rw [Function.update_self, hfree]
      simp [ht]
    · rw [Function.update_of_ne hm]

theorem Inv.unlock (h : Inv rank guard s) {k' : List (Frame μ ν)} {m : μ} (hk : s.threads[t]? = some k)
    (hsound : Sound rank guard k') (hheld : held k = m :: held k') :
    Inv rank guard ⟨s.threads.set t k', Function.update s.owner m none⟩ := by
  have hself := h.owner_self hk
  rw [hheld] at hself
  refine h.set hk hsound (fun m' => ?_) (fun m' t' ht => ?_)
  · by_cases hm : m' = m
    · subst hm
      have hnodup := nodup_held (h.sound k (List.mem_of_getElem? hk))
      rw [hheld] at hnodup
      rw [Function.update_self]
      exact iff_of_false nofun (List.nodup_cons.mp hnodup).1
    · rw [Function.update_of_ne hm, hself]
      simp [hm]
  · by_cases hm : m' = m
    · subst hm
      have howner : s.owner m' = some t := (hself m').mpr List.mem_cons_self
      rw [Function.update_self, howner]
      exact iff_of_false nofun (fun he => ht (Option.some.inj he))
    · rw [Function.update_of_ne hm]

theorem Inv.advance (h : Inv rank guard s) {left : Bool} (hk : s.threads[t]? = some k)
    (hs : s.advance t left k = some u) : Inv rank guard u := by
  obtain ⟨owner', hgrant, rfl⟩ := Option.map_eq_some_iff.mp hs
  have hsound := (h.sound k (List.mem_of_getElem? hk)).next left
  rcases grant_cases hgrant left with ⟨hheld, rfl⟩ | ⟨m, hfree, hheld, rfl⟩ | ⟨m, hheld, rfl⟩
  · exact h.keep hk hheld hsound
  · exact h.lock hk hsound hfree hheld
  · exact h.unlock hk hsound hheld

/-- The invariant holds in every reachable state. -/
theorem invariant {program : ι → Locking μ ν} (habove : ∀ x, Above rank 0 (program x))
    (hguarded : ∀ x, Guarded guard [] (program x)) : (machine program).Invariant (Inv rank guard) where
  init := inv_init
  step s a u h hs := by
    cases a with
    | start x =>
      obtain rfl := Option.some.inj hs
      exact h.start (habove x) (hguarded x)
    | step t left =>
      obtain ⟨k, hk, hs⟩ := Option.bind_eq_some_iff.mp hs
      exact h.advance hk hs
    | throw t =>
      simp only [machine, Locks.step] at hs
      split at hs
      · rename_i xs k hk
        obtain rfl := Option.some.inj hs
        exact h.keep hk (held_unwind k) (h.sound _ (List.mem_of_getElem? hk)).2.unwind
      · cases hs

end

/-! ## What follows -/

/-- No mutex is held twice. -/
theorem Inv.exclusive (h : Inv rank guard s) {t t' : ℕ} {k k' : List (Frame μ ν)} {m : μ}
    (hk : s.threads[t]? = some k) (hk' : s.threads[t']? = some k') (hm : m ∈ held k) (hm' : m ∈ held k') : t = t' := by
  have h1 := (h.owner m t).mpr ⟨k, hk, hm⟩
  have h2 := (h.owner m t').mpr ⟨k', hk', hm'⟩
  exact Option.some.inj (h1.symm.trans h2)

/-- The thread is about to make the access `x`. -/
def At (x : ν) (k : List (Frame μ ν)) : Prop :=
  ∃ xs rest, k = .run (.act xs) :: rest ∧ x ∈ xs

/-- **No race.**  No two threads are about to do what one mutex guards. -/
theorem Inv.race_free (h : Inv rank guard s) {t t' : ℕ} {k k' : List (Frame μ ν)} {x x' : ν} {m : μ}
    (hguard : guard x = some m) (hguard' : guard x' = some m) (hk : s.threads[t]? = some k)
    (hk' : s.threads[t']? = some k') (hx : At x k) (hx' : At x' k') : t = t' := by
  have hholds : ∀ {t : ℕ} {k : List (Frame μ ν)} {x : ν}, guard x = some m → s.threads[t]? = some k → At x k →
      m ∈ held k := by
    rintro t _ x hguard hk ⟨xs, rest, rfl, hmem⟩
    have hsound := h.sound _ (List.mem_of_getElem? hk)
    exact hsound.1.2 x hmem m hguard
  exact h.exclusive hk hk' (hholds hguard hk hx) (hholds hguard' hk' hx')

section

variable [DecidableEq μ]

/-- A thread that cannot go on waits for one that holds a mutex of a higher rank than any of its own. -/
theorem Inv.waits (h : Inv rank guard s) (hk : s.threads[t]? = some k) (hne : k ≠ []) (left : Bool) :
    (∃ u, s.advance t left k = some u) ∨
      ∃ (t' : ℕ) (k' : List (Frame μ ν)), s.threads[t']? = some k' ∧ k' ≠ [] ∧ bound rank k < bound rank k' := by
  cases k with
  | nil => exact absurd rfl hne
  | cons f k =>
    cases f with
    | unlock m => exact .inl ⟨_, rfl⟩
    | handler c => exact .inl ⟨_, rfl⟩
    | run c =>
      cases c with
      | act xs => exact .inl ⟨_, rfl⟩
      | seq a b => exact .inl ⟨_, rfl⟩
      | choice a b => exact .inl ⟨_, rfl⟩
      | tryCatch a b => exact .inl ⟨_, rfl⟩
      | locked m c =>
        cases howner : s.owner m with
        | none =>
          have hgrant : grant t s.owner (.run (.locked m c) :: k) = some (Function.update s.owner m (some t)) :=
            if_pos howner
          exact .inl ⟨_, congrArg (Option.map _) hgrant⟩
        | some t' =>
          obtain ⟨k', hk', hm⟩ := (h.owner m t').mp howner
          have hlt := rank_lt_bound (h.sound k' (List.mem_of_getElem? hk')) hm
          have hle : bound rank k ≤ rank m := (h.sound _ (List.mem_of_getElem? hk)).1.1.1
          refine .inr ⟨t', k', hk', ?_, Nat.lt_of_le_of_lt hle hlt⟩
          rintro rfl
          cases hm

omit [DecidableEq μ] in
theorem bound_le {N : ℕ} (hN : ∀ m, rank m < N) (k : List (Frame μ ν)) : bound rank k ≤ N := by
  induction k with
  | nil => exact Nat.zero_le N
  | cons f k ih =>
    cases f with
    | run c => exact ih
    | handler c => exact ih
    | unlock m => exact hN m

/-- **No deadlock.**  Of the threads that are not finished, one can go on. -/
theorem Inv.progress {N : ℕ} (hN : ∀ m, rank m < N) (h : Inv rank guard s) (hk : s.threads[t]? = some k)
    (hne : k ≠ []) (left : Bool) :
    ∃ (t' : ℕ) (k' : List (Frame μ ν)) (u : Locks μ ν), s.threads[t']? = some k' ∧ s.advance t' left k' = some u := by
  -- The bounds go up along the threads that wait for each other.
  induction hd : N - bound rank k using Nat.strongRecOn generalizing t k with
  | ind d ih =>
    rcases h.waits hk hne left with ⟨u, hu⟩ | ⟨t', k', hk', hne', hlt⟩
    · exact ⟨t, k, u, hk, hu⟩
    · have hle := bound_le hN k'
      exact ih (N - bound rank k') (by omega) hk' hne' rfl

end

/-! ## Finishing -/

def size : Locking μ ν → ℕ
  | .act _ => 1
  | .seq a b => size a + size b + 1
  | .choice a b => size a + size b + 1
  | .tryCatch a b => size a + size b + 2
  | .locked _ c => size c + 2

/-- How many steps a thread has before it at most. -/
def todo : List (Frame μ ν) → ℕ
  | [] => 0
  | .run c :: k => size c + todo k
  | .unlock _ :: k => todo k + 1
  | .handler c :: k => size c + 1 + todo k

theorem todo_next {k : List (Frame μ ν)} (hne : k ≠ []) (left : Bool) : todo (next left k) < todo k := by
  cases k with
  | nil => exact absurd rfl hne
  | cons f k =>
    cases f with
    | unlock m => exact Nat.lt_succ_self _
    | handler c =>
      show todo k < size c + 1 + todo k
      omega
    | run c =>
      cases c with
      | act xs =>
        show todo k < 1 + todo k
        omega
      | choice a b =>
        cases left with
        | true =>
          show size a + todo k < size a + size b + 1 + todo k
          omega
        | false =>
          show size b + todo k < size a + size b + 1 + todo k
          omega
      | seq a b =>
        simp only [next, todo, size]
        omega
      | tryCatch a b =>
        simp only [next, todo, size]
        omega
      | locked m c =>
        simp only [next, todo, size]
        omega

theorem todo_unwind (k : List (Frame μ ν)) : todo (unwind k) ≤ todo k := by
  induction k with
  | nil => exact Nat.le_refl _
  | cons f k ih =>
    cases f with
    | run c => exact Nat.le_trans ih (Nat.le_add_left _ _)
    | unlock m => exact Nat.add_le_add_right ih 1
    | handler c =>
      show size c + todo k ≤ size c + 1 + todo k
      omega

/-- How many steps all threads have before them at most. -/
def work (s : Locks μ ν) : ℕ := total todo s.threads

theorem work_set {k k' : List (Frame μ ν)} (hk : s.threads[t]? = some k) (hlt : todo k' < todo k)
    (hu : u.threads = s.threads.set t k') : u.work < s.work := by
  have htotal := total_set todo hk k'
  rw [work, work, hu]
  omega

/-- All programs have run to their ends. -/
def Finished (s : Locks μ ν) : Prop :=
  ∀ k ∈ s.threads, k = []

/-- Then every mutex is free. -/
theorem Inv.free (h : Inv rank guard s) (hs : s.Finished) (m : μ) : s.owner m = none := by
  cases howner : s.owner m with
  | none => rfl
  | some t =>
    obtain ⟨k, hk, hm⟩ := (h.owner m t).mp howner
    rw [hs k (List.mem_of_getElem? hk)] at hm
    cases hm

section

variable [DecidableEq μ] {program : ι → Locking μ ν}

/-- Whatever the threads there are do next, it leaves less to do. -/
theorem work_step {a : LockAct ι} (ha : ∀ x, a ≠ .start x) (hs : (machine program).step s a = some u) :
    u.work < s.work := by
  cases a with
  | start x => exact absurd rfl (ha x)
  | step t left =>
    obtain ⟨k, hk, hs⟩ := Option.bind_eq_some_iff.mp hs
    obtain ⟨owner', hgrant, rfl⟩ := Option.map_eq_some_iff.mp hs
    refine work_set hk (todo_next ?_ left) rfl
    rintro rfl
    cases hgrant
  | throw t =>
    simp only [machine, Locks.step] at hs
    split at hs
    · rename_i xs k hk
      obtain rfl := Option.some.inj hs
      have hlt : todo (unwind k) < 1 + todo k := by
        have hle := todo_unwind k
        omega
      exact work_set hk hlt rfl
    · cases hs

/-- However the steps of the threads there are interleave, there are at most `work` of them. -/
theorem work_exec {as : List (LockAct ι)} (has : ∀ x, .start x ∉ as) (hs : (machine program).exec s as = some u) :
    as.length + u.work ≤ s.work := by
  have hstep : ∀ (s : Locks μ ν) (a : LockAct ι) u, (∀ x, a ≠ .start x) → True → (machine program).step s a = some u →
      True ∧ u.work + true.toNat ≤ s.work := fun s a u ha _ hs => ⟨trivial, work_step ha hs⟩
  obtain ⟨-, hcount⟩ := Machine.countP_le hstep (fun a ha x hx => has x (hx ▸ ha)) trivial hs
  rw [List.countP_eq_length.mpr fun _ _ => rfl] at hcount
  exact hcount

/-- **No thread is stuck.**  The threads are all finished, or one of them can go on. -/
theorem Inv.live {N : ℕ} (hN : ∀ m, rank m < N) (h : Inv rank guard s) :
    s.Finished ∨ ∃ t u, (machine program).step s (.step t true) = some u := by
  by_cases hdone : s.Finished
  · exact .inl hdone
  · unfold Finished at hdone
    push Not at hdone
    obtain ⟨k, hmem, hne⟩ := hdone
    obtain ⟨t, hk⟩ := List.mem_iff_getElem?.mp hmem
    obtain ⟨t', k', u, hk', hu⟩ := h.progress hN hk hne true
    exact .inr ⟨t', u, Option.bind_eq_some_iff.mpr ⟨k', hk', hu⟩⟩

end

end Locks

end Lib
