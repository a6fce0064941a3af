import Webvirtd.Lib.Prog

/-!
# Lib.Ensures — what computations do whatever the answers are

`Eff.Ensures A P m Q F` is a Hoare triple about the local state: started where `P` holds, `m` makes only
calls that `A` allows, returns with `Q` and throws with `F`, for all answers to its calls.  There is one
rule for each way to put computations together.  `Ensures.exec` and `Ensures.of_exec_ok` read it back in
an environment.

`Eff.Frames A F m`: the local state is left alone, on every way out.
-/

namespace Lib

namespace Eff

variable {C C' : Type} {R : C → Type} {R' : C' → Type} {S E α β σ : Type}

/-- The outcome satisfies `Q` or, if it is a throw, `F`. -/
def Ends (Q : α → S → Prop) (F : E → S → Prop) : Except E α × S → Prop
  | (.ok a, s) => Q a s
  | (.error e, s) => F e s

def Ensures (A : C → Prop) (P : S → Prop) (m : Eff C R S E α) (Q : α → S → Prop)
    (F : E → S → Prop) : Prop := ∀ s, P s → (m s).Uses A (Ends Q F)

/-- `m` leaves the local state alone, and throws only what `F` allows. -/
def Frames (A : C → Prop) (F : E → Prop) (m : Eff C R S E α) : Prop :=
  ∀ s₀, Ensures A (· = s₀) m (fun _ s => s = s₀) fun e s => F e ∧ s = s₀

section

variable {A B : C → Prop} {P P' : S → Prop} {m m' : Eff C R S E α} {Q Q' : α → S → Prop}
  {F G : E → S → Prop}

theorem Ends.mono {r : Except E α × S} (h : Ends Q F r) (hQ : ∀ a s, Q a s → Q' a s)
    (hF : ∀ e s, F e s → G e s) : Ends Q' G r := by
  obtain ⟨e | a, s⟩ := r
  · exact hF e s h
  · exact hQ a s h

theorem Ensures.conseq (hm : Ensures A P m Q F) (hA : ∀ c, A c → B c) (hP : ∀ s, P' s → P s)
    (hQ : ∀ a s, Q a s → Q' a s) (hF : ∀ e s, F e s → G e s) : Ensures B P' m Q' G :=
  fun s hs => (hm s (hP s hs)).mono hA fun _ h => h.mono hQ hF

theorem Ensures.pure {a : α} (h : ∀ s, P s → Q a s) :
    Ensures A P (Pure.pure a : Eff C R S E α) Q F := fun s hs => h s hs

theorem Ensures.throw {e : E} (h : ∀ s, P s → F e s) :
    Ensures A P (Eff.throw e : Eff C R S E α) Q F := fun s hs => h s hs

theorem Ensures.get {Q : S → S → Prop} (h : ∀ s, P s → Q s s) :
    Ensures A P (Eff.get : Eff C R S E S) Q F := fun s hs => h s hs

theorem Ensures.modify {f : S → S} {Q : Unit → S → Prop} (h : ∀ s, P s → Q () (f s)) :
    Ensures A P (Eff.modify f : Eff C R S E Unit) Q F := fun s hs => h s hs

theorem Ensures.call {c : C} {Q : R c → S → Prop} (hc : A c) (h : ∀ r s, P s → Q r s) :
    Ensures A P (Eff.call c : Eff C R S E (R c)) Q F := fun s hs => ⟨hc, fun r => h r s hs⟩

theorem Ensures.bind {f : α → Eff C R S E β} {Q' : β → S → Prop} (hm : Ensures A P m Q F)
    (hf : ∀ a, Ensures A (Q a) (f a) Q' F) : Ensures A P (m >>= f) Q' F := fun s hs =>
  (hm s hs).bind fun
    | (.ok a, s'), h => hf a s' h
    | (.error _, _), h => h

theorem Ensures.tryCatch {handler : E → Eff C R S E α} (hm : Ensures A P m Q F)
    (hh : ∀ e, Ensures A (F e) (handler e) Q G) : Ensures A P (Eff.tryCatch m handler) Q G :=
  fun s hs => (hm s hs).bind fun
    | (.ok _, _), h => h
    | (.error e, s'), h => hh e s' h

theorem Ensures.ite {p : Prop} [Decidable p] (hm : p → Ensures A P m Q F)
    (hm' : ¬ p → Ensures A P m' Q F) : Ensures A P (if p then m else m') Q F := by
  split_ifs with hp
  · exact hm hp
  · exact hm' hp

theorem Ensures.lift {f : C' → C} {g : ∀ c, R (f c) → R' c} {B : C' → Prop}
    {m : Eff C' R' S E α} (hf : ∀ c, B c → A (f c)) (hm : Ensures B P m Q F) :
    Ensures A P (Eff.lift f g m) Q F := fun s hs => (hm s hs).lift hf

/-- A fact about the start may be used. -/
theorem Ensures.of_forall (hm : ∀ s₀, P s₀ → Ensures A (· = s₀) m Q F) : Ensures A P m Q F :=
  fun s hs => hm s hs s rfl

/-- What a computation ensures holds in every environment. -/
theorem Ensures.exec {answer : σ → (c : C) → R c × σ} (hm : Ensures A P m Q F) {s : S} (hs : P s)
    (w : σ) : Ends Q F ((m.exec answer s w).1, (m.exec answer s w).2.1) :=
  ((hm s hs).run answer (I := fun _ => True) (fun _ _ _ _ => trivial) trivial).2

theorem Ensures.of_exec_ok {answer : σ → (c : C) → R c × σ} (hm : Ensures A P m Q F) {s s' : S}
    (hs : P s) {w w' : σ} {a : α} (h : m.exec answer s w = (.ok a, s', w')) : Q a s' := by
  have hends : Ends Q F ((m.exec answer s w).1, (m.exec answer s w).2.1) := hm.exec hs w
  rw [h] at hends
  exact hends

end

section

variable {A B : C → Prop} {F G : E → Prop} {m m' : Eff C R S E α}

/-- What holds of the local state goes on to hold. -/
theorem Frames.ensures (hm : Frames A F m) (P : S → Prop) :
    Ensures A P m (fun _ => P) fun e s => F e ∧ P s :=
  .of_forall fun s₀ hs => (hm s₀).conseq (fun _ h => h) (fun _ h => h) (fun _ _ h => h ▸ hs)
    fun _ _ h => ⟨h.1, h.2 ▸ hs⟩

theorem Frames.mono (hA : ∀ c, A c → B c) (hF : ∀ e, F e → G e) (hm : Frames A F m) : Frames B G m :=
  fun s₀ => (hm s₀).conseq hA (fun _ h => h) (fun _ _ h => h) fun e _ h => ⟨hF e h.1, h.2⟩

theorem Frames.pure (a : α) : Frames A F (Pure.pure a : Eff C R S E α) :=
  fun _ => .pure fun _ h => h

theorem Frames.throw {e : E} (h : F e) : Frames A F (Eff.throw e : Eff C R S E α) :=
  fun _ => .throw fun _ hs => ⟨h, hs⟩

theorem Frames.call {c : C} (h : A c) : Frames A F (Eff.call c : Eff C R S E (R c)) :=
  fun _ => .call h fun _ _ hs => hs

theorem Frames.bind {f : α → Eff C R S E β} (hm : Frames A F m) (hf : ∀ a, Frames A F (f a)) :
    Frames A F (m >>= f) := fun s₀ => (hm s₀).bind fun a => hf a s₀

theorem Frames.map (f : α → β) (hm : Frames A F m) : Frames A F (f <$> m) :=
  hm.bind fun a => .pure (f a)

theorem Frames.tryCatch {handler : E → Eff C R S E α} (hm : Frames A F m)
    (hh : ∀ e, F e → Frames A G (handler e)) : Frames A G (Eff.tryCatch m handler) := fun s₀ =>
  (hm s₀).tryCatch fun e => .of_forall fun s h => by
    obtain ⟨he, rfl⟩ := h
    exact hh e he s

theorem Frames.ite {p : Prop} [Decidable p] (hm : Frames A F m) (hm' : Frames A F m') :
    Frames A F (if p then m else m') := by
  split_ifs
  · exact hm
  · exact hm'

theorem Frames.lift {f : C' → C} {g : ∀ c, R (f c) → R' c} {B : C' → Prop} {m : Eff C' R' S E α}
    (hf : ∀ c, B c → A (f c)) (hm : Frames B F m) : Frames A F (Eff.lift f g m) :=
  fun s₀ => (hm s₀).lift hf

end

end Eff

end Lib
