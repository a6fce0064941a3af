import Mathlib.Data.String.Basic
import Webvirtd.Util.Json

/-!
# Util.Members — the members of a JSON object as a sorted map

`lookup` after each of the ways to put members together, and `Sorted`, which they keep: sorted members are
equal when they have the same lookups (`eq_of_lookup`).  `at?` reads along a path without creating it, for what
`path` and `assign` do.
-/

namespace Webvirtd

theorem lessChars_iff {as bs : List Char} : lessChars as bs = true ↔ as < bs := by
  induction as generalizing bs with
  | nil =>
    cases bs with
    | nil => simp [lessChars]
    | cons b bs => simp [lessChars]
  | cons a as ih =>
    cases bs with
    | nil => simp [lessChars]
    | cons b bs =>
      rw [lessChars, List.cons_lt_cons_iff]
      split_ifs with hab
      · subst hab
        simp [ih]
      · have hlt : a.toNat.blt b.toNat = true ↔ a < b := by
          rw [Nat.blt_eq]
          exact Iff.rfl
        rw [hlt]
        simp [hab]

theorem stringLess_iff {a b : String} : stringLess a b = true ↔ a < b :=
  lessChars_iff.trans String.lt_iff_toList_lt.symm

namespace Json

/-! ## Lookups -/

theorem lookup_insert (k k' : String) (v : Json) (ms : Members) :
    lookup k (insert k' v ms) = if k' = k then some v else lookup k ms := by
  induction ms with
  | nil => rfl
  | cons m ms ih =>
    obtain ⟨l, x⟩ := m
    unfold insert
    by_cases hl : k' = l
    · subst hl
      rw [if_pos rfl]
      by_cases hk : k' = k
      · simp [lookup, hk]
      · simp [lookup, hk]
    · rw [if_neg hl]
      split_ifs with hless hk hk
      · simp [lookup, hk]
      · simp [lookup, hk]
      · rw [lookup, ih, if_pos hk, if_neg (fun h => hl (hk.trans h.symm))]
      · rw [lookup, ih, if_neg hk, lookup]

@[simp] theorem lookup_insert_self (k : String) (v : Json) (ms : Members) :
    lookup k (insert k v ms) = some v := by
  rw [lookup_insert, if_pos rfl]

theorem lookup_insert_of_ne {k k' : String} (h : k' ≠ k) (v : Json) (ms : Members) :
    lookup k (insert k' v ms) = lookup k ms := by
  rw [lookup_insert, if_neg h]

theorem mem_of_lookup {k : String} {v : Json} {ms : Members} (h : lookup k ms = some v) :
    (k, v) ∈ ms := by
  induction ms with
  | nil => cases h
  | cons m ms ih =>
    obtain ⟨l, x⟩ := m
    unfold lookup at h
    split_ifs at h with hl
    · subst hl
      cases h
      exact List.mem_cons_self
    · exact List.mem_cons_of_mem _ (ih h)

/-! ## Sorted members -/

/-- No key twice, and smaller keys first. -/
def Sorted (ms : Members) : Prop := ms.Pairwise fun m m' => m.1 < m'.1

theorem sorted_nil : Sorted [] := List.Pairwise.nil

theorem mem_keys_insert {k : String} {v : Json} {ms : Members} {m : String × Json}
    (h : m ∈ insert k v ms) : m.1 = k ∨ m ∈ ms := by
  induction ms with
  | nil => exact .inl (congrArg Prod.fst (List.mem_singleton.mp h))
  | cons m' ms ih =>
    obtain ⟨l, x⟩ := m'
    unfold insert at h
    split_ifs at h with hl hless
    · rcases List.mem_cons.mp h with rfl | h
      · exact .inl rfl
      · exact .inr (List.mem_cons_of_mem _ h)
    · rcases List.mem_cons.mp h with rfl | h
      · exact .inl rfl
      · exact .inr h
    · rcases List.mem_cons.mp h with rfl | h
      · exact .inr List.mem_cons_self
      · exact (ih h).imp_right (List.mem_cons_of_mem _)

theorem Sorted.insert {ms : Members} (h : Sorted ms) (k : String) (v : Json) :
    Sorted (Json.insert k v ms) := by
  induction ms with
  | nil => exact List.pairwise_singleton _ _
  | cons m ms ih =>
    obtain ⟨l, x⟩ := m
    obtain ⟨hhead, htail⟩ := List.pairwise_cons.mp h
    unfold Json.insert
    split_ifs with hl hless
    · subst hl
      exact List.pairwise_cons.mpr ⟨hhead, htail⟩
    · have hkl : k < l := stringLess_iff.mp hless
      refine List.pairwise_cons.mpr ⟨fun m hm => ?_, h⟩
      rcases List.mem_cons.mp hm with rfl | hm
      · exact hkl
      · exact hkl.trans (hhead m hm)
    · have hlk : l < k := lt_of_le_of_ne (not_lt.mp fun h => hless (stringLess_iff.mpr h)) (Ne.symm hl)
      refine List.pairwise_cons.mpr ⟨fun m hm => ?_, ih htail⟩
      rcases mem_keys_insert hm with hm | hm
      · rw [hm]
        exact hlk
      · exact hhead m hm

theorem Sorted.lookup_eq_none {k : String} {m : String × Json} {ms : Members} (h : Sorted (m :: ms))
    (hk : k ≤ m.1) : lookup k ms = none := by
  cases hl : lookup k ms with
  | none => rfl
  | some v =>
    have hlt := (List.pairwise_cons.mp h).1 _ (mem_of_lookup hl)
    exact absurd (lt_of_lt_of_le hlt hk) (lt_irrefl _)

theorem Sorted.lookup_eq_some_iff {ms : Members} (h : Sorted ms) {k : String} {v : Json} :
    lookup k ms = some v ↔ (k, v) ∈ ms := by
  refine ⟨mem_of_lookup, fun hmem => ?_⟩
  induction ms with
  | nil => cases hmem
  | cons m ms ih =>
    obtain ⟨hhead, htail⟩ := List.pairwise_cons.mp h
    rcases List.mem_cons.mp hmem with rfl | hmem
    · rw [lookup, if_pos rfl]
    · have hlt := hhead _ hmem
      rw [show m = (m.1, m.2) from rfl, lookup, if_neg hlt.ne]
      exact ih htail hmem

/-- Members are determined by their lookups. -/
theorem eq_of_lookup {ms ms' : Members} (h : Sorted ms) (h' : Sorted ms')
    (hl : ∀ k, lookup k ms = lookup k ms') : ms = ms' := by
  induction ms generalizing ms' with
  | nil =>
    cases ms' with
    | nil => rfl
    | cons m ms' =>
      have hnone := hl m.1
      rw [show m = (m.1, m.2) from rfl] at hnone
      simp [lookup] at hnone
  | cons m ms ih =>
    cases ms' with
    | nil =>
      have hnone := hl m.1
      rw [show m = (m.1, m.2) from rfl] at hnone
      simp [lookup] at hnone
    | cons m' ms' =>
      obtain ⟨k, v⟩ := m
      obtain ⟨k', v'⟩ := m'
      -- the smaller of two different first keys would be missing on the other side
      have hkk : k = k' := by
        rcases lt_trichotomy k k' with hlt | heq | hgt
        · have hk := hl k
          rw [lookup, if_pos rfl, lookup, if_neg hlt.ne', h'.lookup_eq_none hlt.le] at hk
          cases hk
        · exact heq
        · have hk := hl k'
          rw [lookup, lookup, if_pos rfl, if_neg hgt.ne', h.lookup_eq_none hgt.le] at hk
          cases hk
      subst hkk
      have hv : v = v' := by
        have hk := hl k
        rw [lookup, lookup, if_pos rfl, if_pos rfl] at hk
        exact Option.some.inj hk
      subst hv
      refine congrArg _ (ih (List.pairwise_cons.mp h).2 (List.pairwise_cons.mp h').2 fun j => ?_)
      by_cases hj : k = j
      · subst hj
        rw [h.lookup_eq_none le_rfl, h'.lookup_eq_none le_rfl]
      · have hk := hl j
        rwa [lookup, lookup, if_neg hj, if_neg hj] at hk

/-- Storing what a key already holds changes nothing. -/
theorem Sorted.insert_eq_self {ms : Members} (h : Sorted ms) {k : String} {v : Json} (hl : lookup k ms = some v) :
    Json.insert k v ms = ms := by
  refine eq_of_lookup (h.insert k v) h fun l => ?_
  rw [lookup_insert]
  split_ifs with hk
  · rw [← hk, hl]
  · rfl

/-- The later of two values of a key stays. -/
theorem Sorted.insert_insert {ms : Members} (h : Sorted ms) (k : String) (v v' : Json) :
    Json.insert k v' (Json.insert k v ms) = Json.insert k v' ms := by
  refine eq_of_lookup ((h.insert k v).insert k v') (h.insert k v') fun l => ?_
  rw [lookup_insert, lookup_insert, lookup_insert]
  split_ifs <;> rfl

/-! ## Paths -/

/-- The value at the end of a path, where all of the path exists. -/
def at? : Json → List String → Option Json
  | j, [] => some j
  | .obj ms, k :: ks => (lookup k ms).bind fun v => at? v ks
  | _, _ :: _ => none

theorem at?_obj (ms : Members) (k : String) (ks : List String) :
    at? (.obj ms) (k :: ks) = (lookup k ms).bind fun v => at? v ks := by
  rw [at?]

theorem at?_cons {j v : Json} {k : String} (h : at? j [k] = some v) (ks : List String) :
    at? j (k :: ks) = at? v ks := by
  cases j with
  | obj ms =>
    rw [at?_obj] at h ⊢
    obtain ⟨u, hu, hv⟩ := Option.bind_eq_some_iff.mp h
    cases hv
    rw [hu, Option.bind_some]
  | _ => cases h

theorem index_of_lookup {ms : Members} {k : String} {v : Json} (h : lookup k ms = some v) :
    index (.obj ms) k = .ok (.obj ms, v) := by
  unfold index
  simp only [h]

theorem index_of_not_lookup {ms : Members} {k : String} (h : lookup k ms = none) :
    index (.obj ms) k = .ok (.obj (Json.insert k .null ms), .null) := by
  unfold index
  simp only [h]

/-- `value[k]` leaves an object that holds the member it returns, and the other members of the value. -/
theorem index_eq_ok {j j' v : Json} {k : String} (h : j.index k = .ok (j', v)) :
    ∃ ms, j' = .obj ms ∧ lookup k ms = some v ∧ ∀ l ≠ k, ∀ ls, at? j' (l :: ls) = at? j (l :: ls) := by
  cases j with
  | null =>
    cases h
    refine ⟨_, rfl, by simp [lookup], fun l hl ls => ?_⟩
    rw [at?_obj, lookup, if_neg hl.symm]
    rfl
  | obj ms =>
    cases hl : lookup k ms with
    | some u =>
      rw [index_of_lookup hl] at h
      cases h
      exact ⟨ms, rfl, hl, fun l _ ls => rfl⟩
    | none =>
      rw [index_of_not_lookup hl] at h
      cases h
      refine ⟨_, rfl, lookup_insert_self .., fun l hne ls => ?_⟩
      rw [at?_obj, at?_obj, lookup_insert_of_ne hne.symm]
  | _ => cases h

theorem at?_set {ms : Members} {k : String} (v : Json) (ks : List String) :
    at? (Json.set (.obj ms) k v) (k :: ks) = at? v ks := by
  rw [set, at?_obj, lookup_insert_self]
  rfl

theorem at?_set_of_ne {j : Json} {k l : String} (h : l ≠ k) (v : Json) (ls : List String) :
    at? (j.set k v) (l :: ls) = at? j (l :: ls) := by
  cases j with
  | obj ms => rw [set, at?_obj, at?_obj, lookup_insert_of_ne h.symm]
  | _ => rfl

theorem bind_eq_ok {ε α β : Type} {x : Except ε α} {f : α → Except ε β} {b : β}
    (h : x >>= f = .ok b) : ∃ a, x = .ok a ∧ f a = .ok b := by
  cases x with
  | error e => cases h
  | ok a => exact ⟨a, rfl, h⟩

/-- After `value[k1][k2]..` the path ends in the value it returned. -/
theorem at?_path {ks : List String} {j j' v : Json} (h : path j ks = .ok (j', v)) : at? j' ks = some v := by
  induction ks generalizing j j' with
  | nil =>
    cases h
    rfl
  | cons k ks ih =>
    unfold path at h
    obtain ⟨⟨j1, u⟩, hindex, h⟩ := bind_eq_ok h
    obtain ⟨⟨u', x⟩, hpath, h⟩ := bind_eq_ok h
    cases h
    obtain ⟨ms, rfl, -, -⟩ := index_eq_ok hindex
    rw [at?_set]
    exact ih hpath

/-- It creates nothing outside of the path's first member. -/
theorem at?_path_of_ne {k l : String} {ks : List String} {j j' v : Json} (h : path j (k :: ks) = .ok (j', v))
    (hl : l ≠ k) (ls : List String) : at? j' (l :: ls) = at? j (l :: ls) := by
  unfold path at h
  obtain ⟨⟨j1, u⟩, hindex, h⟩ := bind_eq_ok h
  obtain ⟨⟨u', x⟩, hpath, h⟩ := bind_eq_ok h
  cases h
  obtain ⟨-, -, -, hframe⟩ := index_eq_ok hindex
  rw [at?_set_of_ne hl, hframe l hl]

theorem at?_assign {ks : List String} {j j' x : Json} (h : assign j ks x = .ok j') : at? j' ks = some x := by
  induction ks generalizing j j' with
  | nil =>
    cases h
    rfl
  | cons k ks ih =>
    unfold assign at h
    obtain ⟨⟨j1, u⟩, hindex, h⟩ := bind_eq_ok h
    obtain ⟨u', hassign, h⟩ := bind_eq_ok h
    cases h
    obtain ⟨ms, rfl, -, -⟩ := index_eq_ok hindex
    rw [at?_set]
    exact ih hassign

theorem at?_assign_of_ne {k l : String} {ks : List String} {j j' x : Json} (h : assign j (k :: ks) x = .ok j')
    (hl : l ≠ k) (ls : List String) : at? j' (l :: ls) = at? j (l :: ls) := by
  unfold assign at h
  obtain ⟨⟨j1, u⟩, hindex, h⟩ := bind_eq_ok h
  obtain ⟨u', hassign, h⟩ := bind_eq_ok h
  cases h
  obtain ⟨-, -, -, hframe⟩ := index_eq_ok hindex
  rw [at?_set_of_ne hl, hframe l hl]

/-- A member that `isMember` finds is the one that `value[k]` returns. -/
theorem at?_of_isMember {j j' v : Json} {k : String} (hm : j.isMember k = .ok true)
    (h : j.index k = .ok (j', v)) : j' = j ∧ at? j [k] = some v := by
  cases j with
  | null => cases hm
  | obj ms =>
    have hsome := Except.ok.inj hm
    cases hl : lookup k ms with
    | some u =>
      rw [index_of_lookup hl] at h
      cases h
      exact ⟨rfl, by rw [at?_obj, hl]; rfl⟩
    | none =>
      rw [hl] at hsome
      cases hsome
  | _ => cases hm

theorem at?_of_not_isMember {j : Json} {k : String} (hm : j.isMember k = .ok false) (ks : List String) :
    at? j (k :: ks) = none := by
  cases j with
  | null => rfl
  | obj ms =>
    rw [at?_obj]
    cases hl : lookup k ms with
    | none => rfl
    | some u =>
      rw [isMember, hl] at hm
      cases hm
  | _ => cases hm

/-- A path that exists in sorted objects is left as it is. -/
theorem Sorted.path_eq {ms : Members} (h : Sorted ms) {k : String} {ks : List String} {v x : Json}
    (hl : lookup k ms = some v) (hv : path v ks = .ok (v, x)) : path (.obj ms) (k :: ks) = .ok (.obj ms, x) := by
  unfold path
  rw [index_of_lookup hl]
  show path v ks >>= _ = _
  rw [hv]
  show Except.ok (Json.obj (Json.insert k v ms), x) = _
  rw [h.insert_eq_self hl]

/-- Storing a member, whether it exists or not. -/
theorem Sorted.assign_eq {ms : Members} (h : Sorted ms) (k : String) (x : Json) :
    assign (.obj ms) [k] x = .ok (.obj (Json.insert k x ms)) := by
  unfold assign
  cases hl : lookup k ms with
  | some v =>
    rw [index_of_lookup hl]
    rfl
  | none =>
    rw [index_of_not_lookup hl]
    show Except.ok (Json.obj (Json.insert k x (Json.insert k .null ms))) = _
    rw [h.insert_insert]

/-- Members stored one after the other into an object go before the ones that it had. -/
theorem lookup_foldl_insert {ms : Members} (h : Sorted ms) (base : Members) (k : String) :
    lookup k (ms.foldl (fun out m => Json.insert m.1 m.2 out) base) = (lookup k ms).or (lookup k base) := by
  induction ms generalizing base with
  | nil => rfl
  | cons m ms ih =>
    obtain ⟨l, v⟩ := m
    rw [List.foldl_cons, ih (List.pairwise_cons.mp h).2, lookup_insert, lookup]
    by_cases hl : l = k
    · subst hl
      rw [if_pos rfl, if_pos rfl, h.lookup_eq_none le_rfl]
      rfl
    · rw [if_neg hl, if_neg hl]

end Json

end Webvirtd
