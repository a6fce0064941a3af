import Mathlib.Algebra.Group.Nat.Defs
import Mathlib.Tactic.Common

/-!
# Lib.BasicString — the searches of `std::basic_string`

A string is the list of its characters, and a position is a `size_t`, so that `npos` is a position like any
other in arithmetic.

* `find_append_cons`, `rfind_append`: a search gives the occurrence that is shown to be the first or the last.
* `rfind_cases`: whatever is searched, `npos` or the position of an occurrence.
* `substr_append`: a slice.
-/

namespace Lib.BasicString

variable {α : Type}

/-- The largest `size_t`. -/
def npos : UInt64 := 0xFFFFFFFFFFFFFFFF

/-- `substr(pos, n)`; `none` is `std::out_of_range`. -/
def substr (s : List α) (pos n : UInt64) : Option (List α) :=
  if s.length < pos.toNat then none else some ((s.drop pos.toNat).take n.toNat)

variable [DecidableEq α]

/-- `find(c)`. -/
def find (s : List α) (c : α) : UInt64 :=
  match s.findIdx? (· == c) with
  | some i => UInt64.ofNat i
  | none => npos

/-- The last occurrence of `pat` at `n` or before. -/
def rfindFrom (s pat : List α) : ℕ → UInt64
  | 0 => if pat.isPrefixOf s then 0 else npos
  | n + 1 => if pat.isPrefixOf (s.drop (n + 1)) then UInt64.ofNat (n + 1) else rfindFrom s pat n

/-- `rfind(pat, pos)`. -/
def rfind (s pat : List α) (pos : UInt64) : UInt64 :=
  if pat.length ≤ s.length then rfindFrom s pat (min (s.length - pat.length) pos.toNat) else npos

/-! ## Positions and slices -/

theorem toNat_ofNat_of_lt {n : ℕ} (h : n < 2 ^ 64) : (UInt64.ofNat n).toNat = n := by
  rw [UInt64.toNat_ofNat']
  exact Nat.mod_eq_of_lt h

theorem ofNat_sub_ofNat {a b : ℕ} (h : b ≤ a) (ha : a < 2 ^ 64) :
    UInt64.ofNat a - UInt64.ofNat b = UInt64.ofNat (a - b) := by
  have hb : b < 2 ^ 64 := by omega
  have hab : a - b < 2 ^ 64 := by omega
  apply UInt64.toNat_inj.mp
  rw [UInt64.toNat_sub, toNat_ofNat_of_lt ha, toNat_ofNat_of_lt hb, toNat_ofNat_of_lt hab]
  omega

theorem ofNat_sub_one {a : ℕ} (h : 0 < a) (ha : a < 2 ^ 64) :
    UInt64.ofNat a - 1 = UInt64.ofNat (a - 1) :=
  ofNat_sub_ofNat (b := 1) h ha

theorem ofNat_add_ofNat (a b : ℕ) : UInt64.ofNat a + UInt64.ofNat b = UInt64.ofNat (a + b) := by
  apply UInt64.toNat_inj.mp
  simp [UInt64.toNat_add]

section

variable {α : Type} {s u v w : List α} {pos : UInt64}

theorem substr_append (h : (u ++ (v ++ w)).length < 2 ^ 64) :
    substr (u ++ (v ++ w)) (UInt64.ofNat u.length) (UInt64.ofNat v.length) = some v := by
  rw [List.length_append, List.length_append] at h
  have hu : (UInt64.ofNat u.length).toNat = u.length := toNat_ofNat_of_lt (by omega)
  have hv : (UInt64.ofNat v.length).toNat = v.length := toNat_ofNat_of_lt (by omega)
  rw [substr, hu, hv, if_neg (by simp), List.drop_left, List.take_left]

theorem substr_of_le (h : pos.toNat ≤ s.length) (len : UInt64) :
    substr s pos len = some ((s.drop pos.toNat).take len.toNat) :=
  if_neg (by omega)

end

/-! ## Searches -/

variable {s pat u v : List α} {c : α} {n : ℕ} {pos : UInt64}

theorem find_append_cons (h : c ∉ u) : find (u ++ c :: v) c = UInt64.ofNat u.length := by
  have hidx : (u ++ c :: v).findIdx? (· == c) = some u.length := by
    induction u with
    | nil => simp [List.findIdx?_cons]
    | cons a u ih =>
      have hac : ¬ a = c := fun heq => h (heq ▸ List.mem_cons_self)
      have hu : c ∉ u := fun hc => h (List.mem_cons_of_mem _ hc)
      simp [List.findIdx?_cons, hac, ih hu]
  rw [find, hidx]

theorem rfindFrom_cases (s pat : List α) (n : ℕ) :
    rfindFrom s pat n = npos ∨
      ∃ t ≤ n, pat <+: s.drop t ∧ rfindFrom s pat n = UInt64.ofNat t := by
  induction n with
  | zero =>
    rw [rfindFrom]
    split_ifs with h
    · exact .inr ⟨0, Nat.le_refl _, List.isPrefixOf_iff_prefix.mp h, rfl⟩
    · exact .inl rfl
  | succ n ih =>
    rw [rfindFrom]
    split_ifs with h
    · exact .inr ⟨n + 1, Nat.le_refl _, List.isPrefixOf_iff_prefix.mp h, rfl⟩
    · rcases ih with hnone | ⟨t, ht, hpre, heq⟩
      · exact .inl hnone
      · exact .inr ⟨t, by omega, hpre, heq⟩

theorem rfindFrom_of_last {t : ℕ} (ht : t ≤ n) (hpre : pat <+: s.drop t)
    (hlast : ∀ j, t < j → j ≤ n → ¬ pat <+: s.drop j) :
    rfindFrom s pat n = UInt64.ofNat t := by
  induction n with
  | zero =>
    obtain rfl : t = 0 := by omega
    rw [rfindFrom, if_pos (List.isPrefixOf_iff_prefix.mpr (List.drop_zero (l := s) ▸ hpre))]
    rfl
  | succ n ih =>
    rw [rfindFrom]
    by_cases heq : t = n + 1
    · rw [if_pos (List.isPrefixOf_iff_prefix.mpr (heq ▸ hpre)), heq]
    · have hn : ¬ pat.isPrefixOf (s.drop (n + 1)) = true := fun h =>
        hlast (n + 1) (by omega) (Nat.le_refl _) (List.isPrefixOf_iff_prefix.mp h)
      rw [if_neg hn]
      exact ih (by omega) fun j hj hjn => hlast j hj (by omega)

theorem rfind_cases (s pat : List α) (pos : UInt64) :
    rfind s pat pos = npos ∨
      ∃ t ≤ pos.toNat, pat <+: s.drop t ∧ rfind s pat pos = UInt64.ofNat t := by
  rw [rfind]
  split_ifs with h
  · rcases rfindFrom_cases s pat (min (s.length - pat.length) pos.toNat) with hnone | ⟨t, ht, hpre, heq⟩
    · exact .inl hnone
    · exact .inr ⟨t, Nat.le_trans ht (Nat.min_le_right _ _), hpre, heq⟩
  · exact .inl rfl

theorem rfind_append (hpos : u.length ≤ pos.toNat)
    (hlast : ∀ j, u.length < j → j ≤ pos.toNat → ¬ pat <+: (u ++ (pat ++ v)).drop j) :
    rfind (u ++ (pat ++ v)) pat pos = UInt64.ofNat u.length := by
  have hlen : (u ++ (pat ++ v)).length = u.length + (pat.length + v.length) := by
    rw [List.length_append, List.length_append]
  rw [rfind, if_pos (by omega)]
  refine rfindFrom_of_last (by omega) ?_ fun j hj hjn => hlast j hj (by omega)
  rw [List.drop_left]
  exact List.prefix_append pat v

end Lib.BasicString
