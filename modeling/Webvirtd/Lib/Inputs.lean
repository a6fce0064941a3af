import Mathlib.Data.Stream.Init
import Webvirtd.Lib.Prog

/-!
# Lib.Inputs — calls that are answered from a stream, and computations that do not show what they take

`withInputs input answer` is the environment `answer` in which the calls that `input` maps are not passed on:
each takes the next element of a stream beside the state.

* `EndsWith m s w r s' w'`: on all inputs `m` ends with `r`, `s'` and `w'`, as it does without any
  (`EndsWith.of_uses`); there is one rule for each way to put computations together.
* `Unseen m s w`: the result and the local state are the same on any two inputs.
-/

namespace Lib

variable {C : Type} {R : C → Type} {S E α β σ ι : Type}

/-- Inputs are taken from the stream; every other call is answered as before. -/
def withInputs (input : (c : C) → Option (ι → R c)) (answer : σ → (c : C) → R c × σ) (w : σ × Stream' ι) (c : C) :
    R c × σ × Stream' ι :=
  match input c with
  | some read => (read w.2.head, w.1, w.2.tail)
  | none => ((answer w.1 c).1, (answer w.1 c).2, w.2)

section

variable {input : (c : C) → Option (ι → R c)} {answer : σ → (c : C) → R c × σ} {w : σ} {us : Stream' ι} {c : C}

theorem withInputs_none (h : input c = none) :
    withInputs input answer (w, us) c = ((answer w c).1, (answer w c).2, us) := by
  unfold withInputs
  rw [h]

/-- A program without inputs leaves the stream alone. -/
theorem Prog.run_withInputs {Q : α → Prop} {p : Prog C R α} (hp : p.Uses (fun c => input c = none) Q) (w : σ)
    (us : Stream' ι) :
    p.run (withInputs input answer) (w, us) = ((p.run answer w).1, (p.run answer w).2, us) := by
  induction p generalizing w with
  | ret a => rfl
  | call c k ih =>
    rw [Prog.run_call, Prog.run_call, withInputs_none hp.1]
    exact ih _ (hp.2 _) _

end

namespace Eff

variable (input : (c : C) → Option (ι → R c)) (answer : σ → (c : C) → R c × σ)

/-- `m` ends with `r`, `s'` and `w'` on all inputs, and leaves any inputs over. -/
structure EndsWith (m : Eff C R S E α) (s : S) (w : σ) (r : Except E α) (s' : S) (w' : σ) : Prop where
  always : ∀ us, ∃ us', m.exec (withInputs input answer) s (w, us) = (r, s', w', us')
  onto : ∀ us', ∃ us, m.exec (withInputs input answer) s (w, us) = (r, s', w', us')

/-- The result and the local state are the same on any two inputs. -/
def Unseen (m : Eff C R S E α) (s : S) (w : σ) : Prop :=
  ∀ us us', (m.exec (withInputs input answer) s (w, us)).1 = (m.exec (withInputs input answer) s (w, us')).1 ∧
    (m.exec (withInputs input answer) s (w, us)).2.1 = (m.exec (withInputs input answer) s (w, us')).2.1

variable {input answer} {m : Eff C R S E α} {f : α → Eff C R S E β} {s s' s'' : S} {w w' w'' : σ} {F : E → Prop}
  {r : Except E α} {a : α}

theorem exec_withInputs (hm : Uses (fun c => input c = none) F m) (s : S) (w : σ) (us : Stream' ι) :
    m.exec (withInputs input answer) s (w, us) =
      ((m.exec answer s w).1, (m.exec answer s w).2.1, (m.exec answer s w).2.2, us) := by
  unfold exec
  rw [Prog.run_withInputs (hm s)]

theorem EndsWith.of_uses (hm : Uses (fun c => input c = none) F m) (h : m.exec answer s w = (r, s', w')) :
    EndsWith input answer m s w r s' w' := by
  have hexec : ∀ us, m.exec (withInputs input answer) s (w, us) = (r, s', w', us) := by
    intro us
    rw [exec_withInputs hm, h]
  exact ⟨fun us => ⟨us, hexec us⟩, fun us => ⟨us, hexec us⟩⟩

theorem EndsWith.pure (a : α) (s : S) (w : σ) :
    EndsWith input answer (Pure.pure a : Eff C R S E α) s w (.ok a) s w :=
  ⟨fun us => ⟨us, rfl⟩, fun us => ⟨us, rfl⟩⟩

theorem EndsWith.throw (e : E) (s : S) (w : σ) :
    EndsWith input answer (Eff.throw e : Eff C R S E α) s w (.error e) s w :=
  ⟨fun us => ⟨us, rfl⟩, fun us => ⟨us, rfl⟩⟩

theorem EndsWith.bind {q : Except E β} (hm : EndsWith input answer m s w (.ok a) s' w')
    (hf : EndsWith input answer (f a) s' w' q s'' w'') : EndsWith input answer (m >>= f) s w q s'' w'' := by
  constructor
  · intro us
    obtain ⟨us1, h1⟩ := hm.always us
    obtain ⟨us2, h2⟩ := hf.always us1
    exact ⟨us2, (exec_bind_ok _ h1).trans h2⟩
  · intro us
    obtain ⟨us1, h1⟩ := hf.onto us
    obtain ⟨us2, h2⟩ := hm.onto us1
    exact ⟨us2, (exec_bind_ok _ h2).trans h1⟩

theorem EndsWith.bind_error {e : E} (hm : EndsWith input answer m s w (.error e) s' w') :
    EndsWith input answer (m >>= f) s w (.error e) s' w' := by
  constructor
  · intro us
    obtain ⟨us1, h1⟩ := hm.always us
    exact ⟨us1, exec_bind_error _ h1⟩
  · intro us
    obtain ⟨us1, h1⟩ := hm.onto us
    exact ⟨us1, exec_bind_error _ h1⟩

theorem EndsWith.unseen (hm : EndsWith input answer m s w r s' w') : Unseen input answer m s w := by
  intro us us'
  obtain ⟨us1, h1⟩ := hm.always us
  obtain ⟨us2, h2⟩ := hm.always us'
  rw [h1, h2]
  exact ⟨rfl, rfl⟩

theorem EndsWith.unseen_bind (hm : EndsWith input answer m s w (.ok a) s' w') :
    Unseen input answer (m >>= f) s w ↔ Unseen input answer (f a) s' w' := by
  constructor
  · intro h us us'
    obtain ⟨us1, h1⟩ := hm.onto us
    obtain ⟨us2, h2⟩ := hm.onto us'
    have hsame := h us1 us2
    rwa [exec_bind_ok _ h1, exec_bind_ok _ h2] at hsame
  · intro h us us'
    obtain ⟨us1, h1⟩ := hm.always us
    obtain ⟨us2, h2⟩ := hm.always us'
    rw [exec_bind_ok _ h1, exec_bind_ok _ h2]
    exact h us1 us2

/-- A first part without inputs. -/
theorem unseen_bind_iff (hm : Uses (fun c => input c = none) F m) :
    Unseen input answer (m >>= f) s w ↔
      ∀ a s' w', m.exec answer s w = (.ok a, s', w') → Unseen input answer (f a) s' w' := by
  rcases hx : m.exec answer s w with ⟨e | a, s', w'⟩
  · refine iff_of_true (EndsWith.of_uses hm hx).bind_error.unseen fun a s'' w'' h => ?_
    cases h
  · rw [(EndsWith.of_uses hm hx).unseen_bind]
    constructor
    · intro hseen b s'' w'' h
      cases h
      exact hseen
    · exact fun hseen => hseen a s' w' rfl

end Eff

end Lib
