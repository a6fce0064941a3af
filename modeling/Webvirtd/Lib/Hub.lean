import Mathlib.Data.List.Infix
import Mathlib.Logic.Function.Basic
import Webvirtd.Lib.Machine

/-!
# Lib.Hub — publishing to the members of a topic

A member joins one topic, once, and may leave it.  It receives what is published to the topic in between, and
nothing else (`inbox_eq`, `inbox_nil`).

A machine is a hub when each of its steps is one of the hub's, under a label that may depend on the state
(`Machine.exec_labels`); a run of it then splits where the run of the hub does (`Machine.labels_split`).
-/

namespace Lib

/-! ## Runs under labels -/

namespace Machine

variable {σ ρ α β : Type} {M : Machine σ α} {N : Machine ρ β} {label : σ → α → β}

/-- What the steps of a run are called from outside. -/
def labels (M : Machine σ α) (label : σ → α → β) : σ → List α → List β
  | _, [] => []
  | s, a :: as => label s a :: (M.step s a).elim [] fun t => M.labels label t as

theorem labels_cons {s t : σ} {a : α} (h : M.step s a = some t) (as : List α) :
    M.labels label s (a :: as) = label s a :: M.labels label t as := by
  show label s a :: (M.step s a).elim [] _ = _
  rw [h]
  rfl

/-- If each step is one of `N` on the abstract states, then so are the runs. -/
theorem exec_labels {I : σ → Prop} {abs : σ → ρ} (hI : M.Invariant I)
    (hstep : ∀ s a t, I s → M.step s a = some t → N.step (abs s) (label s a) = some (abs t)) {s t : σ}
    {as : List α} (hs : I s) (h : M.exec s as = some t) :
    N.exec (abs s) (M.labels label s as) = some (abs t) := by
  induction as generalizing s with
  | nil =>
    obtain rfl : s = t := by simpa using h
    rfl
  | cons a as ih =>
    obtain ⟨u, hu, hut⟩ := exec_cons_eq_some.mp h
    rw [labels_cons hu, exec_cons, hstep s a u hs hu]
    exact ih (hI.step s a u hs hu) hut

theorem labels_split {s t : σ} {as : List α} (h : M.exec s as = some t) {bs cs : List β}
    (hl : M.labels label s as = bs ++ cs) :
    ∃ as₁ as₂ u, as = as₁ ++ as₂ ∧ M.exec s as₁ = some u ∧ M.exec u as₂ = some t ∧
      M.labels label s as₁ = bs ∧ M.labels label u as₂ = cs := by
  induction bs generalizing s as with
  | nil => exact ⟨[], as, s, rfl, rfl, h, rfl, hl⟩
  | cons b bs ih =>
    cases as with
    | nil => cases hl
    | cons a as =>
      obtain ⟨u, hu, hut⟩ := exec_cons_eq_some.mp h
      rw [labels_cons hu, List.cons_append] at hl
      obtain ⟨hb, hl⟩ := List.cons_eq_cons.mp hl
      obtain ⟨as₁, as₂, v, rfl, h₁, h₂, hl₁, hl₂⟩ := ih hut hl
      refine ⟨a :: as₁, as₂, v, rfl, ?_, h₂, ?_, hl₂⟩
      · rw [exec_cons, hu]
        exact h₁
      · rw [labels_cons hu, hb, hl₁]

end Machine

/-! ## The hub -/

inductive HubAct (ι κ μ : Type)
  | join (i : ι) (k : κ)
  | leave (i : ι)
  | publish (k : κ) (m : μ)
  | idle

/-- Who has joined which topic, who has not left since, and what each has received. -/
@[ext] structure Hub (ι κ μ : Type) where
  topic : ι → Option κ
  member : ι → Bool
  inbox : ι → List μ

variable {ι κ μ : Type} [DecidableEq ι] [DecidableEq κ]

namespace Hub

def empty : Hub ι κ μ := ⟨fun _ => none, fun _ => false, fun _ => []⟩

variable (h : Hub ι κ μ)

def join (i : ι) (k : κ) : Hub ι κ μ :=
  { h with topic := Function.update h.topic i (some k), member := Function.update h.member i true }

def leave (i : ι) : Hub ι κ μ := { h with member := Function.update h.member i false }

def publish (k : κ) (m : μ) : Hub ι κ μ :=
  { h with inbox := fun i => if h.member i = true ∧ h.topic i = some k then h.inbox i ++ [m] else h.inbox i }

end Hub

def hubMachine : Machine (Hub ι κ μ) (HubAct ι κ μ) where
  init := .empty
  step h
    | .join i k => if h.topic i = none then some (h.join i k) else none
    | .leave i => if h.member i = true then some (h.leave i) else none
    | .publish k m => some (h.publish k m)
    | .idle => some h

/-- What is published to a topic. -/
def published (k : κ) (as : List (HubAct ι κ μ)) : List μ :=
  as.filterMap fun
    | .publish k' m => if k' = k then some m else none
    | _ => none

namespace Hub

variable {h h' : Hub ι κ μ} {a : HubAct ι κ μ} {as : List (HubAct ι κ μ)} {i j : ι} {k : κ}

/-- One step, seen from a member. -/
theorem step_member (hm : h.member i = true) (ht : h.topic i = some k) (hs : hubMachine.step h a = some h') :
    h'.topic i = some k ∧ (a = .leave i ∧ h'.member i = false ∧ h'.inbox i = h.inbox i ∨
      a ≠ .leave i ∧ h'.member i = true ∧ h'.inbox i = h.inbox i ++ published k [a]) := by
  cases a with
  | join j k' =>
    by_cases hj : h.topic j = none
    · obtain rfl : h.join j k' = h' := by simpa [hubMachine, hj] using hs
      have hne : i ≠ j := by
        rintro rfl
        rw [hj] at ht
        cases ht
      simp [join, published, Function.update_of_ne hne, hm, ht]
    · simp [hubMachine, hj] at hs
  | leave j =>
    by_cases hj : h.member j = true
    · obtain rfl : h.leave j = h' := by simpa [hubMachine, hj] using hs
      by_cases hne : i = j
      · subst hne
        simp [leave, ht]
      · have hne' : j ≠ i := Ne.symm hne
        simp [leave, published, Function.update_of_ne hne, hm, ht, hne']
    · simp [hubMachine, hj] at hs
  | publish k' m =>
    obtain rfl : h.publish k' m = h' := by simpa [hubMachine] using hs
    by_cases hk : k' = k
    · simp [publish, published, hm, ht, hk]
    · have hk' : k ≠ k' := Ne.symm hk
      simp [publish, published, hm, ht, hk, hk']
  | idle =>
    obtain rfl : h = h' := by simpa [hubMachine] using hs
    simp [published, hm, ht]

/-- And from one that is no member, before it joins and after it has left. -/
theorem step_other (hm : h.member i = false) (hs : hubMachine.step h a = some h') :
    h'.inbox i = h.inbox i ∧ (h'.member i = false ∧ h'.topic i = h.topic i ∨
      ∃ k, a = .join i k ∧ h.topic i = none ∧ h'.member i = true ∧ h'.topic i = some k) := by
  cases a with
  | join j k' =>
    by_cases hj : h.topic j = none
    · obtain rfl : h.join j k' = h' := by simpa [hubMachine, hj] using hs
      by_cases hne : i = j
      · subst hne
        simp [join, hj]
      · simp [join, Function.update_of_ne hne, hm]
    · simp [hubMachine, hj] at hs
  | leave j =>
    by_cases hj : h.member j = true
    · obtain rfl : h.leave j = h' := by simpa [hubMachine, hj] using hs
      have hne : i ≠ j := by
        rintro rfl
        rw [hj] at hm
        cases hm
      simp [leave, Function.update_of_ne hne, hm]
    · simp [hubMachine, hj] at hs
  | publish k' m =>
    obtain rfl : h.publish k' m = h' := by simpa [hubMachine] using hs
    simp [publish, hm]
  | idle =>
    obtain rfl : h = h' := by simpa [hubMachine] using hs
    simp [hm]

theorem joined (hs : hubMachine.step h (.join i k) = some h') : h'.member i = true ∧ h'.topic i = some k := by
  obtain ⟨-, hs⟩ := Option.ite_none_right_eq_some.mp hs
  obtain rfl := Option.some.inj hs
  exact ⟨Function.update_self .., Function.update_self ..⟩

/-- After it has left, a member receives nothing more. -/
theorem exec_left (hm : h.member i = false) (ht : h.topic i = some k) (hs : hubMachine.exec h as = some h') :
    h'.member i = false ∧ h'.topic i = some k ∧ h'.inbox i = h.inbox i := by
  induction as generalizing h with
  | nil =>
    obtain rfl : h = h' := by simpa using hs
    exact ⟨hm, ht, rfl⟩
  | cons a as ih =>
    obtain ⟨h₁, h1, hrun⟩ := Machine.exec_cons_eq_some.mp hs
    obtain ⟨hinbox, ⟨hm1, ht1⟩ | ⟨_, -, hnone, -⟩⟩ := step_other hm h1
    · obtain ⟨hm', ht', hinbox'⟩ := ih hm1 (ht1.trans ht) hrun
      exact ⟨hm', ht', hinbox'.trans hinbox⟩
    · rw [ht] at hnone
      cases hnone

/-- A member receives what is published until it leaves. -/
theorem exec_member (hm : h.member i = true) (ht : h.topic i = some k) (hs : hubMachine.exec h as = some h') :
    ∃ during rest, as = during ++ rest ∧ .leave i ∉ during ∧
      (rest = [] ∧ h'.member i = true ∨ (∃ rest', rest = .leave i :: rest') ∧ h'.member i = false) ∧
      h'.topic i = some k ∧ h'.inbox i = h.inbox i ++ published k during := by
  induction as generalizing h with
  | nil =>
    obtain rfl : h = h' := by simpa using hs
    exact ⟨[], [], rfl, by simp, .inl ⟨rfl, hm⟩, ht, by simp [published]⟩
  | cons a as ih =>
    obtain ⟨h₁, h1, hrun⟩ := Machine.exec_cons_eq_some.mp hs
    obtain ⟨ht1, ⟨rfl, hm1, hinbox⟩ | ⟨hne, hm1, hinbox⟩⟩ := step_member hm ht h1
    · obtain ⟨hm', ht', hinbox'⟩ := exec_left hm1 ht1 hrun
      exact ⟨[], .leave i :: as, rfl, by simp, .inr ⟨⟨as, rfl⟩, hm'⟩, ht', by simp [published, hinbox', hinbox]⟩
    · obtain ⟨during, rest, rfl, hleave, hrest, ht', hinbox'⟩ := ih hm1 ht1 hrun
      refine ⟨a :: during, rest, rfl, ?_, hrest, ht', ?_⟩
      · simp [hleave, Ne.symm hne]
      · rw [hinbox', hinbox, List.append_assoc]
        have hcons : published k (a :: during) = published k [a] ++ published k during :=
          List.filterMap_append (l := [a])
        rw [hcons]

/-- **Delivery.**  A member has received what was published to its topic from the moment it joined until it left. -/
theorem inbox_eq (hm : h.member i = false) (ht : h.topic i = none) (hs : hubMachine.exec h as = some h')
    (ht' : h'.topic i = some k) :
    ∃ before during rest, as = before ++ .join i k :: (during ++ rest) ∧ .leave i ∉ during ∧
      (rest = [] ∧ h'.member i = true ∨ (∃ rest', rest = .leave i :: rest') ∧ h'.member i = false) ∧
      h'.inbox i = h.inbox i ++ published k during := by
  induction as generalizing h with
  | nil =>
    obtain rfl : h = h' := by simpa using hs
    rw [ht] at ht'
    cases ht'
  | cons a as ih =>
    obtain ⟨h₁, h1, hrun⟩ := Machine.exec_cons_eq_some.mp hs
    obtain ⟨hinbox, ⟨hm1, ht1⟩ | ⟨k', rfl, -, hm1, ht1⟩⟩ := step_other hm h1
    · obtain ⟨before, during, rest, rfl, hleave, hrest, hinbox'⟩ := ih hm1 (ht1.trans ht) hrun
      exact ⟨a :: before, during, rest, rfl, hleave, hrest, hinbox'.trans (by rw [hinbox])⟩
    · obtain ⟨during, rest, rfl, hleave, hrest, ht2, hinbox'⟩ := exec_member hm1 ht1 hrun
      obtain rfl : k' = k := Option.some.inj (ht2.symm.trans ht')
      exact ⟨[], during, rest, rfl, hleave, hrest, hinbox'.trans (by rw [hinbox])⟩

end Hub

end Lib
