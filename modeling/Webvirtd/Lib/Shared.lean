import Mathlib.Data.List.Nodup
import Mathlib.Logic.Function.Basic

/-!
# Lib.Shared — shared pointers and their deleters

`Shared` is what the control blocks say: how many pointers refer to each object, which objects have been put under a
control block, and for which the deleter has run, newest first.  As long as each object is made once, and only
pointers that exist are copied or dropped (`Shared.Ok`), the deleter runs once for each object, when the last pointer
to it goes.
-/

namespace Lib

structure Shared (η : Type) where
  useCount : η → ℕ
  made : List η
  freed : List η

namespace Shared

variable {η : Type}

def empty : Shared η := ⟨fun _ => 0, [], []⟩

structure Ok (s : Shared η) : Prop where
  made : s.made.Nodup
  live : ∀ h, 0 < s.useCount h → h ∈ s.made
  nodup : s.freed.Nodup
  freed : ∀ h, h ∈ s.freed ↔ h ∈ s.made ∧ s.useCount h = 0

theorem ok_empty : (empty : Shared η).Ok where
  made := List.nodup_nil
  live _ h := absurd h (Nat.lt_irrefl 0)
  nodup := List.nodup_nil
  freed h := by simp [empty]

variable [DecidableEq η] (s : Shared η)

/-- The first pointer to `h`. -/
def make (h : η) : Shared η := { s with useCount := Function.update s.useCount h 1, made := h :: s.made }

def copy (h : η) : Shared η := { s with useCount := Function.update s.useCount h (s.useCount h + 1) }

/-- A pointer goes; the last one runs the deleter. -/
def drop (h : η) : Shared η :=
  { s with
    useCount := Function.update s.useCount h (s.useCount h - 1)
    freed := if s.useCount h = 1 then h :: s.freed else s.freed }

/-- A pointer that may be null goes. -/
def dropOpt (h : Option η) : Shared η := h.elim s s.drop

variable {s} {h : η}

theorem Ok.make (hs : s.Ok) (hnew : h ∉ s.made) : (s.make h).Ok where
  made := List.nodup_cons.mpr ⟨hnew, hs.made⟩
  live g hg := by
    by_cases hgh : g = h
    · exact hgh ▸ List.mem_cons_self
    · simp only [Shared.make, Function.update_of_ne hgh] at hg
      exact List.mem_cons_of_mem _ (hs.live g hg)
  nodup := hs.nodup
  freed g := by
    by_cases hgh : g = h
    · subst hgh
      have hfreed : g ∉ s.freed := fun hm => hnew ((hs.freed g).mp hm).1
      simp [Shared.make, hfreed]
    · simp [Shared.make, hgh, hs.freed g]

theorem Ok.copy (hs : s.Ok) (hlive : 0 < s.useCount h) : (s.copy h).Ok where
  made := hs.made
  live g hg := by
    by_cases hgh : g = h
    · exact hgh ▸ hs.live h hlive
    · simp only [Shared.copy, Function.update_of_ne hgh] at hg
      exact hs.live g hg
  nodup := hs.nodup
  freed g := by
    show g ∈ s.freed ↔ _
    rw [hs.freed g]
    by_cases hgh : g = h
    · subst hgh
      simp [Shared.copy]
      omega
    · simp [Shared.copy, hgh]

theorem Ok.drop (hs : s.Ok) (hlive : 0 < s.useCount h) : (s.drop h).Ok where
  made := hs.made
  live g hg := by
    by_cases hgh : g = h
    · exact hgh ▸ hs.live h hlive
    · simp only [Shared.drop, Function.update_of_ne hgh] at hg
      exact hs.live g hg
  nodup := by
    show (if s.useCount h = 1 then h :: s.freed else s.freed).Nodup
    by_cases hone : s.useCount h = 1
    · have hfreed : h ∉ s.freed := by
        intro hm
        have hzero := ((hs.freed h).mp hm).2
        omega
      rw [if_pos hone]
      exact List.nodup_cons.mpr ⟨hfreed, hs.nodup⟩
    · rw [if_neg hone]
      exact hs.nodup
  freed g := by
    show g ∈ (if s.useCount h = 1 then h :: s.freed else s.freed) ↔ _
    have hmade := hs.live h hlive
    by_cases hgh : g = h
    · subst hgh
      by_cases hone : s.useCount g = 1
      · simp [Shared.drop, hone, hmade]
      · have hne : ¬ s.useCount g - 1 = 0 := by omega
        have hne' : ¬ s.useCount g = 0 := by omega
        simp [Shared.drop, hone, hs.freed g, hne, hne']
    · by_cases hone : s.useCount h = 1
      · simp [Shared.drop, hone, hgh, hs.freed g]
      · simp [Shared.drop, hone, hgh, hs.freed g]

/-- A copy that goes again leaves nothing behind. -/
theorem drop_copy (hlive : 0 < s.useCount h) : (s.copy h).drop h = s := by
  obtain ⟨useCount, made, freed⟩ := s
  have hne : useCount h ≠ 0 := Nat.ne_of_gt hlive
  simp [Shared.copy, Shared.drop, hne]

end Shared

end Lib
