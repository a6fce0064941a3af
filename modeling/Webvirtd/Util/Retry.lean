import Mathlib.Data.ENat.Lattice

/-!
# Util.Retry — `retry<exception, fatal_exception>`

`Retry.call` is the `operator()`: the function, and in the handler of its exception the same call again with the
counter of the object moved on.

* `call_other`, `call_spent`: a call ends at the first outcome that is not the retried exception, or with the
  `fatal_exception` when the budget is used up before.  Both are inductions on what is left of the budget.
* `retry_budget`: the number of runs, and which outcomes end the call in which way.
-/

namespace Webvirtd

/-- An exception in flight: one that the function threw, or the `fatal_exception` made of a message. -/
inductive Thrown (ε : Type)
  | own (e : ε)
  | fatal (what : String)

/-- What the template arguments decide: which exceptions `catch (const exception &)` takes, and their `what`. -/
structure Retried (ε : Type) where
  catches : Thrown ε → Bool
  what : ε → String

def Retried.message {ε : Type} (T : Retried ε) : Thrown ε → String
  | .own e => T.what e
  | .fatal m => m

/-- The members of `retry`.  A run of `func_` in the state `s` returns or throws, and leaves a state; `none` is
a run that does not end. -/
structure Retry (ε σ : Type) where
  retries_ : UInt32 := 1
  retry_ : UInt32 := 0
  func_ : σ → Option (Except ε Unit × σ)

namespace Retry

variable {ε σ : Type}

/-- `retry::retries`. -/
def retries (r : Retry ε σ) (n : UInt32) : Retry ε σ := { r with retries_ := n }

/-- `try { func_(); } catch (const exception &exc) { handler }`.  The handler is outside of the block: what it
throws leaves the statement. -/
def tryCatch (T : Retried ε)
    (handler : Thrown ε → σ → Option (Except (Thrown ε) Unit × Retry ε σ × σ)) (r : Retry ε σ) :
    Option (Except ε Unit × σ) → Option (Except (Thrown ε) Unit × Retry ε σ × σ)
  | none => none
  | some (.ok (), s) => some (.ok (), r, s)
  | some (.error e, s) =>
    if T.catches (.own e) then handler (.own e) s else some (.error (.own e), r, s)

/-- The counter does not wrap around below the budget. -/
theorem toNat_succ {a b : UInt32} (h : a < b) : (a + 1).toNat = a.toNat + 1 := by
  have hlt : a.toNat < b.toNat := UInt32.lt_iff_toNat_lt.mp h
  have hmax := b.toNat_lt
  rw [UInt32.toNat_add, UInt32.toNat_one]
  omega

/-- `retry::operator()`. -/
def call (T : Retried ε) (r : Retry ε σ) (s : σ) :
    Option (Except (Thrown ε) Unit × Retry ε σ × σ) :=
  tryCatch T
    (fun exc s' =>
      -- `retry_++ < retries_`: the counter is moved on whether the comparison holds or not
      let moved := { r with retry_ := r.retry_ + 1 }
      if r.retry_ < r.retries_ then call T moved s'
      else some (.error (.fatal (T.message exc)), moved, s'))
    r (r.func_ s)
termination_by r.retries_.toNat - r.retry_.toNat
decreasing_by
  have hlt : r.retry_.toNat < r.retries_.toNat := UInt32.lt_iff_toNat_lt.mp ‹_›
  have hone := toNat_succ ‹r.retry_ < r.retries_›
  show r.retries_.toNat - (r.retry_ + 1).toNat < _
  omega

variable {T : Retried ε} {r : Retry ε σ} {s s' : σ}

/-! ## One run of the function -/

theorem call_of_none (h : r.func_ s = none) : call T r s = none := by
  rw [call, h, tryCatch]

theorem call_of_ok (h : r.func_ s = some (.ok (), s')) : call T r s = some (.ok (), r, s') := by
  rw [call, h, tryCatch]

theorem call_of_other {e : ε} (h : r.func_ s = some (.error e, s'))
    (he : T.catches (.own e) = false) : call T r s = some (.error (.own e), r, s') := by
  rw [call, h, tryCatch, he]
  rfl

theorem call_of_retried {e : ε} (h : r.func_ s = some (.error e, s'))
    (he : T.catches (.own e) = true) (hlt : r.retry_ < r.retries_) :
    call T r s = call T { r with retry_ := r.retry_ + 1 } s' := by
  rw [call, h, tryCatch, if_pos he]
  exact if_pos hlt

theorem call_of_spent {e : ε} (h : r.func_ s = some (.error e, s'))
    (he : T.catches (.own e) = true) (hlt : ¬ r.retry_ < r.retries_) :
    call T r s = some (.error (.fatal (T.what e)), { r with retry_ := r.retry_ + 1 }, s') := by
  rw [call, h, tryCatch, if_pos he]
  exact if_neg hlt

/-- An object that calls `f` with `d` retries left. -/
structure Left (f : σ → Option (Except ε Unit × σ)) (r : Retry ε σ) (d : ℕ) : Prop where
  func : r.func_ = f
  left : r.retry_.toNat + d = r.retries_.toNat

section

variable {f : σ → Option (Except ε Unit × σ)} {d : ℕ}

theorem Left.fresh (r : Retry ε σ) (h : r.retry_ = 0) : Left r.func_ r r.retries_.toNat where
  func := rfl
  left := by
    rw [h]
    exact Nat.zero_add _

theorem Left.run (h : Left f r d) (s : σ) : r.func_ s = f s := congrFun h.func s

theorem Left.lt (h : Left f r (d + 1)) : r.retry_ < r.retries_ := by
  have := h.left
  exact UInt32.lt_iff_toNat_lt.mpr (by omega)

theorem Left.not_lt (h : Left f r 0) : ¬ r.retry_ < r.retries_ := by
  have := h.left
  rw [UInt32.lt_iff_toNat_lt]
  omega

theorem Left.next (h : Left f r (d + 1)) : Left f { r with retry_ := r.retry_ + 1 } d where
  func := h.func
  left := by
    have := h.left
    have hone := toNat_succ h.lt
    show (r.retry_ + 1).toNat + d = r.retries_.toNat
    omega

end

/-! ## A sequence of outcomes -/

/-- The function whose runs have the outcomes of a sequence, counting them; past the end of a finite sequence
a run has none. -/
def scripted (outcome : ℕ → Option (Except ε Unit)) : Retry ε ℕ where
  func_ i := (outcome i).map fun o => (o, i + 1)

/-- Run `i` throws the retried exception. -/
def IsRetried (T : Retried ε) (outcome : ℕ → Option (Except ε Unit)) (i : ℕ) : Prop :=
  ∃ e, outcome i = some (.error e) ∧ T.catches (.own e) = true

/-- How a call ends with an outcome that is not retried. -/
def ending : Except ε Unit → Except (Thrown ε) Unit
  | .ok () => .ok ()
  | .error e => .error (.own e)

variable {outcome : ℕ → Option (Except ε Unit)} {i k : ℕ}

theorem scripted_some {o : Except ε Unit} (h : outcome i = some o) :
    (scripted outcome).func_ i = some (o, i + 1) := by
  show (outcome i).map _ = _
  rw [h]
  rfl

theorem scripted_none (h : outcome i = none) : (scripted outcome).func_ i = none := by
  show (outcome i).map _ = none
  rw [h]
  rfl

variable {r : Retry ε ℕ}

/-- A retried run with budget left: the call goes on with the next run. -/
theorem Left.call_succ (h : Left (scripted outcome).func_ r (d + 1)) (hi : IsRetried T outcome i) :
    call T r i = call T { r with retry_ := r.retry_ + 1 } (i + 1) := by
  obtain ⟨e, ho, he⟩ := hi
  exact call_of_retried ((h.run i).trans (scripted_some ho)) he h.lt

theorem Left.call_first (h : Left (scripted outcome).func_ r d) (hi : ¬ IsRetried T outcome i) :
    call T r i = (outcome i).map fun o => (ending o, r, i + 1) := by
  cases ho : outcome i with
  | none =>
    exact call_of_none ((h.run i).trans (scripted_none ho))
  | some o =>
    have hf := (h.run i).trans (scripted_some ho)
    cases o with
    | ok u => exact call_of_ok hf
    | error e =>
      have he : T.catches (.own e) = false := by
        by_contra hne
        exact hi ⟨e, ho, by simpa using hne⟩
      exact call_of_other hf he

/-- The first outcome that is not retried ends the call, if the budget reaches it. -/
theorem Left.call_other (h : Left (scripted outcome).func_ r d) (hk : k ≤ d)
    (hbefore : ∀ j < k, IsRetried T outcome (i + j)) (hother : ¬ IsRetried T outcome (i + k)) :
    ∃ r', call T r i = (outcome (i + k)).map fun o => (ending o, r', i + k + 1) := by
  induction k generalizing r i d with
  | zero => exact ⟨r, h.call_first hother⟩
  | succ k ih =>
    obtain ⟨d, rfl⟩ : ∃ d', d = d' + 1 := ⟨d - 1, by omega⟩
    have hi : IsRetried T outcome i := hbefore 0 (by omega)
    rw [h.call_succ hi]
    have hshift : i + 1 + k = i + (k + 1) := by omega
    rw [← hshift] at hother ⊢
    refine ih h.next (by omega) (fun j hj => ?_) hother
    have := hbefore (j + 1) (by omega)
    rwa [show i + (j + 1) = i + 1 + j by omega] at this

/-- When the budget is used up the exception of the last run becomes the message of the `fatal_exception`. -/
theorem Left.call_spent (h : Left (scripted outcome).func_ r d)
    (hall : ∀ j ≤ d, IsRetried T outcome (i + j)) :
    ∃ e r', outcome (i + d) = some (.error e) ∧
      call T r i = some (.error (.fatal (T.what e)), r', i + d + 1) := by
  induction d generalizing r i with
  | zero =>
    obtain ⟨e, ho, he⟩ := hall 0 (by omega)
    exact ⟨e, _, ho, call_of_spent ((h.run i).trans (scripted_some ho)) he h.not_lt⟩
  | succ d ih =>
    have hi : IsRetried T outcome i := hall 0 (by omega)
    rw [h.call_succ hi]
    have hshift : i + 1 + d = i + (d + 1) := by omega
    rw [← hshift]
    refine ih h.next fun j hj => ?_
    have := hall (j + 1) (by omega)
    rwa [show i + (j + 1) = i + 1 + j by omega] at this

/-! ## The budget -/

/-- Run `k` is the first that does not throw the retried exception. -/
def FirstOther (T : Retried ε) (outcome : ℕ → Option (Except ε Unit)) (k : ℕ) : Prop :=
  (∀ i < k, IsRetried T outcome i) ∧ ¬ IsRetried T outcome k

/-- The number of that run, counted from 1; `⊤` if there is none. -/
noncomputable def firstOther (T : Retried ε) (outcome : ℕ → Option (Except ε Unit)) : ℕ∞ :=
  ⨅ (i : ℕ) (_ : ¬ IsRetried T outcome i), ((i + 1 : ℕ) : ℕ∞)

theorem firstOther_eq (h : FirstOther T outcome k) : firstOther T outcome = (k + 1 : ℕ) := by
  refine le_antisymm (iInf₂_le k h.2) (le_iInf₂ fun i hi => ?_)
  have hki : k ≤ i := by
    by_contra hlt
    exact hi (h.1 i (by omega))
  exact_mod_cast Nat.succ_le_succ hki

theorem le_firstOther {n : ℕ} (h : ∀ i ≤ n, IsRetried T outcome i) :
    ((n + 1 : ℕ) : ℕ∞) ≤ firstOther T outcome := by
  refine le_iInf₂ fun i hi => ?_
  have hni : n < i := by
    by_contra hle
    exact hi (h i (by omega))
  exact_mod_cast Nat.succ_le_succ hni.le

theorem FirstOther.unique {k' : ℕ} (h : FirstOther T outcome k) (h' : FirstOther T outcome k') :
    k = k' := by
  rcases lt_trichotomy k k' with hlt | heq | hlt
  · exact absurd (h'.1 k hlt) h.2
  · exact heq
  · exact absurd (h.1 k' hlt) h'.2

/-- Either the budget is used up, or it reaches an outcome that is not retried. -/
theorem spent_or_other (T : Retried ε) (outcome : ℕ → Option (Except ε Unit)) (n : ℕ) :
    (∀ i ≤ n, IsRetried T outcome i) ∨ ∃ k ≤ n, FirstOther T outcome k := by
  classical
  by_cases h : ∃ k, ¬ IsRetried T outcome k
  · by_cases hk : Nat.find h ≤ n
    · exact .inr ⟨Nat.find h, hk, fun i hi => not_not.mp (Nat.find_min h hi), Nat.find_spec h⟩
    · exact .inl fun i hi => not_not.mp (Nat.find_min h (by omega))
  · exact .inl fun i _ => not_not.mp (not_exists.mp h i)

section

variable {n : UInt32}

theorem run_other (h : FirstOther T outcome k) (hk : k ≤ n.toNat) :
    ∃ r', call T ((scripted outcome).retries n) 0 =
      (outcome k).map fun o => (ending o, r', k + 1) := by
  have hfresh : Left (scripted outcome).func_ ((scripted outcome).retries n) n.toNat :=
    .fresh ((scripted outcome).retries n) rfl
  have hrun := hfresh.call_other (i := 0) hk (fun j hj => by simpa using h.1 j hj) (by simpa using h.2)
  simpa using hrun

theorem run_spent (h : ∀ i ≤ n.toNat, IsRetried T outcome i) :
    ∃ e r', outcome n.toNat = some (.error e) ∧
      call T ((scripted outcome).retries n) 0 =
        some (.error (.fatal (T.what e)), r', n.toNat + 1) := by
  have hfresh : Left (scripted outcome).func_ ((scripted outcome).retries n) n.toNat :=
    .fresh ((scripted outcome).retries n) rfl
  have hrun := hfresh.call_spent (i := 0) fun j hj => by simpa using h j hj
  simpa using hrun

theorem runs_iff {calls : ℕ} :
    (∃ o r', call T ((scripted outcome).retries n) 0 = some (o, r', calls)) ↔
      (calls : ℕ∞) = min (firstOther T outcome) (n.toNat + 1 : ℕ) ∧
        ∀ i < calls, outcome i ≠ none := by
  rcases spent_or_other T outcome n.toNat with hall | ⟨k, hk, hother⟩
  · obtain ⟨e, r', _, hrun⟩ := run_spent hall
    rw [hrun, min_eq_right (le_firstOther hall), Nat.cast_inj]
    constructor
    · rintro ⟨o, r'', heq⟩
      cases heq
      refine ⟨rfl, fun i hi => ?_⟩
      obtain ⟨e', ho, _⟩ := hall i (by omega)
      rw [ho]
      exact Option.some_ne_none _
    · rintro ⟨rfl, _⟩
      exact ⟨_, _, rfl⟩
  · obtain ⟨r', hrun⟩ := run_other hother hk
    have hmin : min (firstOther T outcome) (n.toNat + 1 : ℕ) = (k + 1 : ℕ) := by
      rw [firstOther_eq hother]
      exact min_eq_left (by exact_mod_cast Nat.succ_le_succ hk)
    rw [hrun, hmin, Nat.cast_inj]
    cases ho : outcome k with
    | none =>
      constructor
      · rintro ⟨o, r'', heq⟩
        cases heq
      · rintro ⟨rfl, hsome⟩
        exact absurd ho (hsome k (by omega))
    | some o =>
      constructor
      · rintro ⟨o', r'', heq⟩
        cases heq
        refine ⟨rfl, fun i hi => ?_⟩
        rcases Nat.lt_succ_iff_lt_or_eq.mp hi with hlt | rfl
        · obtain ⟨e', ho', _⟩ := hother.1 i hlt
          rw [ho']
          exact Option.some_ne_none _
        · rw [ho]
          exact Option.some_ne_none _
      · rintro ⟨rfl, _⟩
        exact ⟨_, _, rfl⟩

theorem ending_injective : Function.Injective (ending : Except ε Unit → _) := by
  intro o o' h
  cases o with
  | ok u =>
    cases o' with
    | ok u' => rfl
    | error e' => cases h
  | error e =>
    cases o' with
    | ok u' => cases h
    | error e' =>
      cases h
      rfl

theorem ends_iff {o : Except ε Unit} :
    (∃ r' calls, call T ((scripted outcome).retries n) 0 = some (ending o, r', calls)) ↔
      ∃ k ≤ n.toNat, FirstOther T outcome k ∧ outcome k = some o := by
  rcases spent_or_other T outcome n.toNat with hall | ⟨k, hk, hother⟩
  · obtain ⟨e, r', _, hrun⟩ := run_spent hall
    rw [hrun]
    constructor
    · rintro ⟨r'', calls, heq⟩
      -- an ending is never the `fatal_exception`
      cases o with
      | ok u => cases heq
      | error e' => cases heq
    · rintro ⟨k, hk, hother, _⟩
      exact absurd (hall k hk) hother.2
  · obtain ⟨r', hrun⟩ := run_other hother hk
    rw [hrun]
    constructor
    · rintro ⟨r'', calls, heq⟩
      obtain ⟨o', ho, heq⟩ := Option.map_eq_some_iff.mp heq
      have hoo : o' = o := ending_injective (Prod.mk.inj heq).1
      exact ⟨k, hk, hother, hoo ▸ ho⟩
    · rintro ⟨k', hk', hother', ho⟩
      cases hother.unique hother'
      rw [ho]
      exact ⟨_, _, rfl⟩

theorem fatal_iff {m : String} :
    (∃ r' calls, call T ((scripted outcome).retries n) 0 = some (.error (.fatal m), r', calls)) ↔
      (∀ i ≤ n.toNat, IsRetried T outcome i) ∧
        ∃ e, outcome n.toNat = some (.error e) ∧ T.what e = m := by
  rcases spent_or_other T outcome n.toNat with hall | ⟨k, hk, hother⟩
  · obtain ⟨e, r', ho, hrun⟩ := run_spent hall
    rw [hrun]
    constructor
    · rintro ⟨r'', calls, heq⟩
      cases heq
      exact ⟨hall, e, ho, rfl⟩
    · rintro ⟨_, e', ho', rfl⟩
      rw [ho] at ho'
      cases ho'
      exact ⟨_, _, rfl⟩
  · obtain ⟨r', hrun⟩ := run_other hother hk
    rw [hrun]
    constructor
    · rintro ⟨r'', calls, heq⟩
      obtain ⟨o, ho, heq⟩ := Option.map_eq_some_iff.mp heq
      cases o with
      | ok u => cases heq
      | error e => cases heq
    · rintro ⟨hall, _⟩
      exact absurd (hall k hk) hother.2

end

/-- A fresh `retry` with the budget `n`: the function runs up to its first other outcome, at most `n + 1` times
(and the call ends unless one of these runs does not).  That outcome decides how the call ends if the budget
reaches it, and otherwise it is the `fatal_exception` with the message of the last run, whether or not
`exception` would catch that one too. -/
theorem retry_budget (T : Retried ε) (outcome : ℕ → Option (Except ε Unit)) (n : UInt32) :
    (∀ calls : ℕ, (∃ o r', call T ((scripted outcome).retries n) 0 = some (o, r', calls)) ↔
      (calls : ℕ∞) = min (firstOther T outcome) (n.toNat + 1 : ℕ) ∧
        ∀ i < calls, outcome i ≠ none) ∧
    ((∃ r' calls, call T ((scripted outcome).retries n) 0 = some (.ok (), r', calls)) ↔
      ∃ k ≤ n.toNat, FirstOther T outcome k ∧ outcome k = some (.ok ())) ∧
    (∀ e, (∃ r' calls, call T ((scripted outcome).retries n) 0 =
        some (.error (.own e), r', calls)) ↔
      ∃ k ≤ n.toNat, FirstOther T outcome k ∧ outcome k = some (.error e)) ∧
    ∀ m, (∃ r' calls, call T ((scripted outcome).retries n) 0 =
        some (.error (.fatal m), r', calls)) ↔
      (∀ i ≤ n.toNat, IsRetried T outcome i) ∧
        ∃ e, outcome n.toNat = some (.error e) ∧ T.what e = m :=
  ⟨fun _ => runs_iff, ends_iff (o := .ok ()), fun _ => ends_iff (o := .error _), fun _ => fatal_iff⟩

end Retry

end Webvirtd
