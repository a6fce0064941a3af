import Mathlib.Data.Nat.Notation
import Mathlib.Data.Option.Basic

/-!
# Lib.Machine — labelled machines, their runs and the invariant rules

A machine has one initial state and a partial step function: `step s a = none` means that the
action `a` cannot happen in `s`.  Nondeterminism (schedules, answers of an environment) lives in the
actions, so that a run is a list of actions and statements about all runs quantify over lists.

* `Always P s as`: `P` holds in every state that the run `as` from `s` passes through.
* `Meets C s as`: every step of that run is taken in a state where the condition `C` holds.
* `Invariant`: kept by every step; `always_of_meets`: kept by the steps that meet a condition;
  `meets_of_always`: the other way round, when each step outside the condition breaks `P`;
  `Invariant.always_iff_meets`: both.
* `Coarsens`: every step of a coarser machine on the same states is a run of the finer one.
-/

namespace Lib

def total {α : Type} (f : α → ℕ) : List α → ℕ
  | [] => 0
  | a :: as => f a + total f as

theorem total_append {α : Type} (f : α → ℕ) (as bs : List α) : total f (as ++ bs) = total f as + total f bs := by
  induction as with
  | nil => simp [total]
  | cons a as ih =>
    rw [List.cons_append, total, total, ih]
    omega

/-- One of them is replaced. -/
theorem total_set {α : Type} (f : α → ℕ) {as : List α} {i : ℕ} {a : α} (h : as[i]? = some a) (b : α) :
    total f (as.set i b) + f a = total f as + f b := by
  induction as generalizing i with
  | nil => simp at h
  | cons x as ih =>
    cases i with
    | zero =>
      obtain rfl : x = a := by simpa using h
      simp only [List.set_cons_zero, total]
      omega
    | succ i =>
      have hrest := ih (i := i) (by simpa using h)
      simp only [List.set_cons_succ, total]
      omega

structure Machine (σ α : Type) where
  init : σ
  step : σ → α → Option σ

namespace Machine

variable {σ α β : Type} (M : Machine σ α)

/-! ## Runs -/

/-- The state that the actions `as` lead to from `s`. -/
def exec : σ → List α → Option σ
  | s, [] => some s
  | s, a :: as => (M.step s a).bind fun t => exec t as

def Always (P : σ → Prop) : σ → List α → Prop
  | s, [] => P s
  | s, a :: as => P s ∧ ∀ t, M.step s a = some t → Always P t as

def Meets (C : σ → α → Prop) : σ → List α → Prop
  | _, [] => True
  | s, a :: as => ∀ t, M.step s a = some t → C s a ∧ Meets C t as

variable {M}

@[simp] theorem exec_nil (s : σ) : M.exec s [] = some s := rfl

theorem exec_cons (s : σ) (a : α) (as : List α) :
    M.exec s (a :: as) = (M.step s a).bind fun t => M.exec t as := rfl

theorem exec_cons_eq_some {s u : σ} {a : α} {as : List α} :
    M.exec s (a :: as) = some u ↔ ∃ t, M.step s a = some t ∧ M.exec t as = some u := by
  rw [exec_cons, Option.bind_eq_some_iff]

theorem exec_append (s : σ) (as bs : List α) :
    M.exec s (as ++ bs) = (M.exec s as).bind fun t => M.exec t bs := by
  induction as generalizing s with
  | nil => simp
  | cons a as ih =>
    rw [List.cons_append, exec_cons, exec_cons, Option.bind_assoc]
    congr 1
    funext t
    exact ih t

theorem exec_append_of_eq {s t u : σ} {as bs : List α} (h1 : M.exec s as = some t)
    (h2 : M.exec t bs = some u) : M.exec s (as ++ bs) = some u := by
  rw [exec_append, h1]
  exact h2

theorem exec_single {s t : σ} {a : α} (h : M.step s a = some t) : M.exec s [a] = some t := by
  simp [exec_cons, h]

theorem Always.head {P : σ → Prop} {s : σ} {as : List α} (h : M.Always P s as) : P s := by
  cases as with
  | nil => exact h
  | cons a as => exact h.1

theorem Meets.cons {C : σ → α → Prop} {s t : σ} {a : α} {as : List α} (h : M.step s a = some t)
    (hC : C s a) (hrest : M.Meets C t as) : M.Meets C s (a :: as) := by
  intro t' ht'
  rw [h] at ht'
  obtain rfl := Option.some.inj ht'
  exact ⟨hC, hrest⟩

/-- `Always` speaks about the states after each prefix of the run. -/
theorem always_iff {P : σ → Prop} {s : σ} {as : List α} :
    M.Always P s as ↔ ∀ bs cs t, as = bs ++ cs → M.exec s bs = some t → P t := by
  induction as generalizing s with
  | nil =>
    constructor
    · intro h bs cs t hb ht
      obtain ⟨rfl, rfl⟩ := List.append_eq_nil_iff.mp hb.symm
      obtain rfl : s = t := by simpa using ht
      exact h
    · exact fun h => h [] [] s rfl rfl
  | cons a as ih =>
    constructor
    · rintro ⟨h0, h1⟩ bs cs t hb ht
      cases bs with
      | nil =>
        obtain rfl : s = t := by simpa using ht
        exact h0
      | cons b bs =>
        obtain ⟨rfl, rfl⟩ := List.cons_eq_cons.mp hb
        obtain ⟨u, hu, hut⟩ := exec_cons_eq_some.mp ht
        exact ih.mp (h1 u hu) bs cs t rfl hut
    · intro h
      refine ⟨h [] (a :: as) s rfl rfl, fun t ht => ih.mpr fun bs cs u hb hu => ?_⟩
      exact h (a :: bs) cs u (by rw [hb]; rfl) (exec_cons_eq_some.mpr ⟨t, ht, hu⟩)

/-- A run of possible steps that always satisfies `P` ends in a state satisfying `P`. -/
theorem Always.last {P : σ → Prop} {s t : σ} {as : List α} (h : M.Always P s as)
    (ht : M.exec s as = some t) : P t :=
  always_iff.mp h as [] t (by simp) ht

/-! ## Invariants -/

variable (M) in
/-- `I` holds initially and every step keeps it. -/
structure Invariant (I : σ → Prop) : Prop where
  init : I M.init
  step : ∀ s a t, I s → M.step s a = some t → I t

theorem Invariant.exec {I : σ → Prop} (h : M.Invariant I) {s t : σ} {as : List α} (hs : I s)
    (ht : M.exec s as = some t) : I t := by
  induction as generalizing s with
  | nil =>
    obtain rfl : s = t := by simpa using ht
    exact hs
  | cons a as ih =>
    obtain ⟨u, hu, hut⟩ := exec_cons_eq_some.mp ht
    exact ih (h.step s a u hs hu) hut

/-- Invariants may be proved on top of others: the step of `J` may assume `I` before and after. -/
theorem Invariant.and {I J : σ → Prop} (h : M.Invariant I) (h0 : J M.init)
    (h1 : ∀ s a t, I s → J s → M.step s a = some t → I t → J t) :
    M.Invariant fun s => I s ∧ J s where
  init := ⟨h.init, h0⟩
  step s a t hs ht := ⟨h.step s a t hs.1 ht, h1 s a t hs.1 hs.2 ht (h.step s a t hs.1 ht)⟩

/-- **Runs that meet a condition.**  If the steps meeting `C` keep `I`, and `I` gives `P`, then
`P` holds all along the runs whose steps meet `C`. -/
theorem always_of_meets {I P : σ → Prop} {C : σ → α → Prop} (hP : ∀ s, I s → P s)
    (hstep : ∀ s a t, I s → C s a → M.step s a = some t → I t) {s : σ} {as : List α} (hs : I s)
    (h : M.Meets C s as) : M.Always P s as := by
  induction as generalizing s with
  | nil => exact hP s hs
  | cons a as ih =>
    refine ⟨hP s hs, fun t ht => ?_⟩
    obtain ⟨hC, hrest⟩ := h t ht
    exact ih (hstep s a t hs hC ht) hrest

/-- If a step that does not meet `C` leads out of `P`, runs along which `P` holds meet `C`.  `I` is
any invariant that the argument needs. -/
theorem meets_of_always {I P : σ → Prop} {C : σ → α → Prop}
    (hstep : ∀ s a t, I s → P s → M.step s a = some t → I t)
    (hbad : ∀ s a t, I s → P s → M.step s a = some t → P t → C s a) {s : σ} {as : List α} (hs : I s)
    (h : M.Always P s as) : M.Meets C s as := by
  induction as generalizing s with
  | nil => trivial
  | cons a as ih =>
    intro t ht
    have hrest := h.2 t ht
    exact ⟨hbad s a t hs h.1 ht hrest.head, ih (hstep s a t hs h.1 ht) hrest⟩

/-- **Properties that hold along exactly the runs meeting a condition.**  A step from a state that
satisfies `P` leads to one that does if and only if it meets `C`. -/
theorem Invariant.always_iff_meets {I P : σ → Prop} {C : σ → α → Prop} (hI : M.Invariant I)
    (h0 : P M.init)
    (hstep : ∀ s a t, I s → I t → P s → M.step s a = some t → (P t ↔ C s a)) (as : List α) :
    M.Always P M.init as ↔ M.Meets C M.init as := by
  constructor
  · refine meets_of_always (I := I) (fun s a t hs _ ht => hI.step s a t hs ht) ?_ hI.init
    intro s a t hs hP ht hPt
    exact (hstep s a t hs (hI.step s a t hs ht) hP ht).mp hPt
  · refine always_of_meets (I := fun s => I s ∧ P s) (fun s hs => hs.2) ?_ ⟨hI.init, h0⟩
    intro s a t hs hC ht
    have hIt : I t := hI.step s a t hs.1 ht
    exact ⟨hIt, (hstep s a t hs.1 hIt hs.2 ht).mpr hC⟩

/-! ## Actions that can only be taken so often -/

/-- A rank that drops with each counted action, and that the others do not raise, bounds how many are taken. -/
theorem countP_le {A : α → Prop} {I : σ → Prop} {rank : σ → ℕ} {counts : α → Bool}
    (hstep : ∀ s a t, A a → I s → M.step s a = some t → I t ∧ rank t + (counts a).toNat ≤ rank s) {s t : σ}
    {as : List α} (has : ∀ a ∈ as, A a) (hs : I s) (h : M.exec s as = some t) :
    I t ∧ as.countP counts + rank t ≤ rank s := by
  induction as generalizing s with
  | nil =>
    obtain rfl := Option.some.inj h
    exact ⟨hs, by simp⟩
  | cons a as ih =>
    obtain ⟨u, hu, h⟩ := exec_cons_eq_some.mp h
    obtain ⟨hI, hle⟩ := hstep s a u (has a List.mem_cons_self) hs hu
    obtain ⟨hIt, hrest⟩ := ih (fun b hb => has b (List.mem_cons_of_mem a hb)) hI h
    refine ⟨hIt, ?_⟩
    rw [List.countP_cons]
    by_cases hc : counts a = true
    · rw [if_pos hc]
      rw [hc, Bool.toNat_true] at hle
      omega
    · rw [if_neg hc]
      omega

/-! ## Actions that happen once -/

/-- The action occurs at most once in the run. -/
def AtMostOnce (a : α) (as : List α) : Prop := ∀ bs cs, as = bs ++ a :: cs → a ∉ cs

/-- An action that leads into `D` and cannot be taken there is not taken in runs from `D`. -/
theorem not_mem_of_blocked {I D : σ → Prop} {a : α} (hI : ∀ s b t, I s → M.step s b = some t → I t)
    (hkeep : ∀ s b t, I s → D s → M.step s b = some t → D t)
    (hnot : ∀ s t, I s → D s → M.step s a ≠ some t) {s t : σ} {as : List α} (hs : I s) (hd : D s)
    (ht : M.exec s as = some t) : a ∉ as := by
  induction as generalizing s with
  | nil => exact List.not_mem_nil
  | cons b as ih =>
    obtain ⟨u, hu, hut⟩ := exec_cons_eq_some.mp ht
    intro hmem
    rcases List.mem_cons.mp hmem with rfl | hmem
    · exact hnot s u hs hd hu
    · exact ih (hI s b u hs hu) (hkeep s b u hs hd hu) hut hmem

/-- **Actions that block themselves** occur at most once. -/
theorem atMostOnce_of_blocks {I D : σ → Prop} {a : α} (hI : M.Invariant I)
    (hafter : ∀ s t, I s → M.step s a = some t → D t)
    (hkeep : ∀ s b t, I s → D s → M.step s b = some t → D t)
    (hnot : ∀ s t, I s → D s → M.step s a ≠ some t) {t : σ} {as : List α}
    (ht : M.exec M.init as = some t) : AtMostOnce a as := by
  rintro bs cs rfl
  rw [exec_append, Option.bind_eq_some_iff] at ht
  obtain ⟨s, hs, ht⟩ := ht
  obtain ⟨u, hu, hut⟩ := exec_cons_eq_some.mp ht
  have hIs : I s := hI.exec hI.init hs
  exact not_mem_of_blocked hI.step hkeep hnot (hI.step s a u hIs hu) (hafter s u hIs hu) hut

/-! ## Coarser machines -/

/-- Every step of `N` is a run of `M`. -/
def Coarsens (N : Machine σ β) (M : Machine σ α) : Prop :=
  N.init = M.init ∧ ∀ s b t, N.step s b = some t → ∃ as, M.exec s as = some t

/-- What a coarse step does to an invariant of the finer machine. -/
theorem Invariant.of_coarse {N : Machine σ β} (h : Coarsens N M) {I : σ → Prop}
    (hI : M.Invariant I) : N.Invariant I where
  init := h.1 ▸ hI.init
  step s b t hs ht := by
    obtain ⟨as, has⟩ := h.2 s b t ht
    exact hI.exec hs has

end Machine

end Lib
