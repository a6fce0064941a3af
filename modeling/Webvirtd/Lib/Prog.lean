import Mathlib.Data.Nat.Notation
import Mathlib.Tactic.Common

/-!
# Lib.Prog — programs that call an environment

`Prog C R α` is a tree of calls `c : C`, each continued on its answer in `R c`.  The environment is a
function `answer : σ → (c : C) → R c × σ`, and `Prog.run` plays a program against it.

`Eff C R S E α` adds what imperative code has around its calls: a local state `S` and exceptions `E`.
A throw keeps the changes made to the local state before it.  `Eff.exec` runs an `Eff` against an
environment; its `@[simp]` equations replace unfolding, and `Eff.Returns` says that it does not throw.

* `Prog.Uses A Q`, `Eff.Uses A F`: what a program calls and how it ends, whatever the answers are.
* `Eff.MadeOf leaf`: computations put together from given ones, for proofs by induction over them.
* `Eff.Triple answer P m Q F`: a Hoare triple about the environment, with a postcondition for throws.
* `Eff.Keeps answer I F`: an invariant of the environment that a computation keeps, and the exceptions
  it may throw.  `Eff.Uses.keeps` gives it from the calls alone.
* `lift`: a program over a smaller signature, as one over a larger one.
-/

namespace Lib

inductive Prog (C : Type) (R : C → Type) (α : Type)
  | ret (a : α)
  | call (c : C) (k : R c → Prog C R α)

namespace Prog

variable {C C' : Type} {R : C → Type} {R' : C' → Type} {α β σ : Type}

def bind : Prog C R α → (α → Prog C R β) → Prog C R β
  | .ret a, f => f a
  | .call c k, f => .call c fun r => (k r).bind f

instance : Monad (Prog C R) where
  pure := .ret
  bind := bind

/-- The answer to each call comes from the environment, whose state it may change. -/
def run (answer : σ → (c : C) → R c × σ) : Prog C R α → σ → α × σ
  | .ret a, w => (a, w)
  | .call c k, w => run answer (k (answer w c).1) (answer w c).2

/-- Every call satisfies `A`, every result `Q`. -/
def Uses (A : C → Prop) (Q : α → Prop) : Prog C R α → Prop
  | .ret a => Q a
  | .call c k => A c ∧ ∀ r, (k r).Uses A Q

/-- Calls renamed by `f`; `g` reads an answer of the larger signature back. -/
def lift (f : C → C') (g : ∀ c, R' (f c) → R c) : Prog C R α → Prog C' R' α
  | .ret a => .ret a
  | .call c k => .call (f c) fun r => (k (g c r)).lift f g

variable (answer : σ → (c : C) → R c × σ)

@[simp] theorem run_ret (a : α) (w : σ) : (ret a : Prog C R α).run answer w = (a, w) := rfl

@[simp] theorem run_call (c : C) (k : R c → Prog C R α) (w : σ) :
    (call c k).run answer w = (k (answer w c).1).run answer (answer w c).2 := rfl

theorem run_bind (p : Prog C R α) (f : α → Prog C R β) (w : σ) :
    (p.bind f).run answer w = (f (p.run answer w).1).run answer (p.run answer w).2 := by
  induction p generalizing w with
  | ret a => rfl
  | call c k ih => exact ih _ _

theorem Uses.bind {A : C → Prop} {P : α → Prop} {Q : β → Prop} {p : Prog C R α}
    {f : α → Prog C R β} (hp : p.Uses A P) (hf : ∀ a, P a → (f a).Uses A Q) :
    (p.bind f).Uses A Q := by
  induction p with
  | ret a => exact hf a hp
  | call c k ih => exact ⟨hp.1, fun r => ih r (hp.2 r)⟩

theorem Uses.mono {A B : C → Prop} {P Q : α → Prop} (hA : ∀ c, A c → B c) (hP : ∀ a, P a → Q a)
    {p : Prog C R α} (hp : p.Uses A P) : p.Uses B Q := by
  induction p with
  | ret a => exact hP a hp
  | call c k ih => exact ⟨hA c hp.1, fun r => ih r (hp.2 r)⟩

/-- A lifted program makes the calls of the program, lifted. -/
theorem Uses.lift {A : C → Prop} {B : C' → Prop} {Q : α → Prop} {f : C → C'}
    {g : ∀ c, R' (f c) → R c} (h : ∀ c, A c → B (f c)) {p : Prog C R α} (hp : p.Uses A Q) :
    (p.lift f g).Uses B Q := by
  induction p with
  | ret a => exact hp
  | call c k ih => exact ⟨h c hp.1, fun r => ih (g c r) (hp.2 _)⟩

/-- A program whose calls keep `I` keeps `I`, and its result satisfies `Q`. -/
theorem Uses.run {A : C → Prop} {Q : α → Prop} {I : σ → Prop}
    (hI : ∀ w c, A c → I w → I (answer w c).2) {p : Prog C R α} (hp : p.Uses A Q) {w : σ}
    (hw : I w) : I (p.run answer w).2 ∧ Q (p.run answer w).1 := by
  induction p generalizing w with
  | ret a => exact ⟨hw, hp⟩
  | call c k ih => exact ih _ (hp.2 _) (hI w c hp.1 hw)

theorem bind_assoc {γ : Type} (p : Prog C R α) (f : α → Prog C R β) (g : β → Prog C R γ) :
    (p.bind f).bind g = p.bind fun a => (f a).bind g := by
  induction p with
  | ret a => rfl
  | call c k ih => exact congrArg (call c) (funext ih)

theorem bind_ret (p : Prog C R α) : p.bind ret = p := by
  induction p with
  | ret a => rfl
  | call c k ih => exact congrArg (call c) (funext ih)

/-- An environment that is seen through `φ` runs programs alike. -/
theorem run_map {answer : σ → (c : C) → R c × σ} {τ : Type} {answer' : τ → (c : C) → R c × τ}
    (φ : σ → τ) (h : ∀ w c, answer' (φ w) c = ((answer w c).1, φ (answer w c).2))
    (p : Prog C R α) (w : σ) :
    p.run answer' (φ w) = ((p.run answer w).1, φ (p.run answer w).2) := by
  induction p generalizing w with
  | ret a => rfl
  | call c k ih =>
    rw [run_call, h]
    exact ih _ _

/-- Running a lifted program is running it against the restricted environment. -/
theorem run_lift {answer : σ → (c : C') → R' c × σ} (f : C → C') (g : ∀ c, R' (f c) → R c)
    (p : Prog C R α) (w : σ) :
    (p.lift f g).run answer w =
      p.run (fun w c => (g c (answer w (f c)).1, (answer w (f c)).2)) w := by
  induction p generalizing w with
  | ret a => rfl
  | call c k ih => exact ih _ _

end Prog

/-- Programs with a local state `S` and exceptions `E`. -/
def Eff (C : Type) (R : C → Type) (S E α : Type) : Type := S → Prog C R (Except E α × S)

namespace Eff

variable {C C' : Type} {R : C → Type} {R' : C' → Type} {S E α β σ : Type}

/-- How `f` goes on after an outcome: a throw is passed on. -/
def andThen (f : α → Eff C R S E β) : Except E α × S → Prog C R (Except E β × S)
  | (.ok a, s) => f a s
  | (.error e, s) => .ret (.error e, s)

/-- How `handler` goes on after an outcome: a returned value is passed on. -/
def orElse (handler : E → Eff C R S E α) : Except E α × S → Prog C R (Except E α × S)
  | (.ok a, s) => .ret (.ok a, s)
  | (.error e, s) => handler e s

def bind (m : Eff C R S E α) (f : α → Eff C R S E β) : Eff C R S E β := fun s =>
  (m s).bind (andThen f)

instance : Monad (Eff C R S E) where
  pure a := fun s => .ret (.ok a, s)
  bind := bind

def throw (e : E) : Eff C R S E α := fun s => .ret (.error e, s)

/-- `handler` takes over when `m` throws, on the local state that `m` left. -/
def tryCatch (m : Eff C R S E α) (handler : E → Eff C R S E α) : Eff C R S E α := fun s =>
  (m s).bind (orElse handler)

instance : MonadExceptOf E (Eff C R S E) where
  throw := throw
  tryCatch := tryCatch

def call (c : C) : Eff C R S E (R c) := fun s => .call c fun r => .ret (.ok r, s)

def get : Eff C R S E S := fun s => .ret (.ok s, s)

def modify (f : S → S) : Eff C R S E Unit := fun s => .ret (.ok (), f s)

def lift (f : C → C') (g : ∀ c, R' (f c) → R c) (m : Eff C R S E α) : Eff C' R' S E α :=
  fun s => (m s).lift f g

/-! ## The monad laws -/

theorem map_id (m : Eff C R S E α) : id <$> m = m := by
  have hret : (andThen fun a => (pure (id a) : Eff C R S E α)) = Prog.ret := by
    funext x
    rcases x with ⟨e | a, s⟩ <;> rfl
  exact funext fun s => (congrArg (m s).bind hret).trans (Prog.bind_ret _)

theorem bind_bind {γ : Type} (m : Eff C R S E α) (f : α → Eff C R S E β) (g : β → Eff C R S E γ) :
    m >>= f >>= g = m >>= fun a => f a >>= g := by
  refine funext fun s => (Prog.bind_assoc (m s) _ _).trans (congrArg (m s).bind (funext fun x => ?_))
  rcases x with ⟨e | a, s'⟩ <;> rfl

instance : LawfulMonad (Eff C R S E) := LawfulMonad.mk' _ map_id (fun _ _ => rfl) bind_bind

/-- Outcome, local state and environment after `m`. -/
def exec (answer : σ → (c : C) → R c × σ) (m : Eff C R S E α) (s : S) (w : σ) :
    Except E α × S × σ :=
  let r := (m s).run answer w
  (r.1.1, r.1.2, r.2)

variable (answer : σ → (c : C) → R c × σ)

@[simp] theorem exec_pure (a : α) (s : S) (w : σ) :
    (pure a : Eff C R S E α).exec answer s w = (.ok a, s, w) := rfl

theorem exec_bind (m : Eff C R S E α) (f : α → Eff C R S E β) (s : S) (w : σ) :
    (m >>= f).exec answer s w =
      match m.exec answer s w with
      | (.ok a, s', w') => (f a).exec answer s' w'
      | (.error e, s', w') => (.error e, s', w') := by
  have h := Prog.run_bind answer (m s) (andThen f) w
  unfold exec
  show ((((m s).bind (andThen f)).run answer w).1.1, (((m s).bind (andThen f)).run answer w).1.2,
    (((m s).bind (andThen f)).run answer w).2) = _
  rw [h]
  rcases (m s).run answer w with ⟨⟨_ | _, _⟩, _⟩ <;> rfl

@[simp] theorem exec_throw (e : E) (s : S) (w : σ) :
    (throw e : Eff C R S E α).exec answer s w = (.error e, s, w) := rfl

theorem exec_tryCatch (m : Eff C R S E α) (handler : E → Eff C R S E α) (s : S) (w : σ) :
    (tryCatch m handler).exec answer s w =
      match m.exec answer s w with
      | (.ok a, s', w') => (.ok a, s', w')
      | (.error e, s', w') => (handler e).exec answer s' w' := by
  have h := Prog.run_bind answer (m s) (orElse handler) w
  unfold exec tryCatch
  rw [h]
  rcases (m s).run answer w with ⟨⟨_ | _, _⟩, _⟩ <;> rfl

@[simp] theorem exec_call (c : C) (s : S) (w : σ) :
    (call c : Eff C R S E (R c)).exec answer s w = (.ok (answer w c).1, s, (answer w c).2) := rfl

@[simp] theorem exec_modify (f : S → S) (s : S) (w : σ) :
    (modify f : Eff C R S E Unit).exec answer s w = (.ok (), f s, w) := rfl

/-- `exec_bind` when the first part is known to return. -/
theorem exec_bind_ok {m : Eff C R S E α} {f : α → Eff C R S E β} {s s' : S} {w w' : σ} {a : α}
    (h : m.exec answer s w = (.ok a, s', w')) :
    (m >>= f).exec answer s w = (f a).exec answer s' w' := by
  rw [exec_bind, h]

theorem exec_bind_error {m : Eff C R S E α} {f : α → Eff C R S E β} {s s' : S} {w w' : σ} {e : E}
    (h : m.exec answer s w = (.error e, s', w')) :
    (m >>= f).exec answer s w = (.error e, s', w') := by
  rw [exec_bind, h]

/-- Running a lifted computation is running it against the restricted environment. -/
theorem exec_lift {answer : σ → (c : C') → R' c × σ} (f : C → C') (g : ∀ c, R' (f c) → R c)
    (m : Eff C R S E α) (s : S) (w : σ) :
    (lift f g m).exec answer s w =
      m.exec (fun w c => (g c (answer w (f c)).1, (answer w (f c)).2)) s w := by
  unfold exec lift
  rw [Prog.run_lift]

theorem exec_map {answer : σ → (c : C) → R c × σ} {τ : Type} {answer' : τ → (c : C) → R c × τ}
    (φ : σ → τ) (h : ∀ w c, answer' (φ w) c = ((answer w c).1, φ (answer w c).2))
    (m : Eff C R S E α) (s : S) (w : σ) :
    m.exec answer' s (φ w) =
      ((m.exec answer s w).1, (m.exec answer s w).2.1, φ (m.exec answer s w).2.2) := by
  unfold exec
  rw [Prog.run_map φ h]

/-! ## Computations that return -/

/-- `m` does not throw. -/
def Returns (m : Eff C R S E α) (s : S) (w : σ) : Prop := ∃ a, (m.exec answer s w).1 = .ok a

/-- Both parts return, the second where the first ends. -/
theorem returns_bind {m : Eff C R S E α} {f : α → Eff C R S E β} {s : S} {w : σ} :
    (m >>= f).Returns answer s w ↔ ∃ a, (m.exec answer s w).1 = .ok a ∧
      (f a).Returns answer (m.exec answer s w).2.1 (m.exec answer s w).2.2 := by
  unfold Returns
  rw [exec_bind]
  rcases m.exec answer s w with ⟨e | a, s', w'⟩
  · constructor
    · rintro ⟨b, hb⟩
      cases hb
    · rintro ⟨a, ha, -⟩
      cases ha
  · constructor
    · exact fun h => ⟨a, rfl, h⟩
    · rintro ⟨a', ha, h⟩
      cases ha
      exact h

theorem returns_bind_of_ok {m : Eff C R S E α} {f : α → Eff C R S E β} {s s' : S} {w w' : σ} {a : α}
    (h : m.exec answer s w = (.ok a, s', w')) :
    (m >>= f).Returns answer s w ↔ (f a).Returns answer s' w' := by
  unfold Returns
  rw [exec_bind_ok answer h]

theorem returns_bind_assoc {γ : Type} {m : Eff C R S E α} {f : α → Eff C R S E β}
    {g : β → Eff C R S E γ} {s : S} {w : σ} :
    ((m >>= f) >>= g).Returns answer s w ↔ (m >>= fun a => f a >>= g).Returns answer s w := by
  unfold Returns
  rw [exec_bind, exec_bind, exec_bind]
  rcases m.exec answer s w with ⟨e | a, s', w'⟩
  · rfl
  · simp only [exec_bind]

/-! ## The calls a computation makes, and the exceptions it throws -/

/-- The exceptions among the outcomes satisfy `F`. -/
def Throws (F : E → Prop) (r : Except E α × S) : Prop := ∀ e, r.1 = .error e → F e

theorem throws_ok {F : E → Prop} (a : α) (s : S) : Throws F ((.ok a, s) : Except E α × S) := by
  intro e h
  cases h

theorem throws_error {F : E → Prop} {e : E} (h : F e) (s : S) :
    Throws F ((.error e, s) : Except E α × S) := by
  intro e' h'
  cases h'
  exact h

def Uses (A : C → Prop) (F : E → Prop) (m : Eff C R S E α) : Prop := ∀ s, (m s).Uses A (Throws F)

section

variable {A B : C → Prop} {F G : E → Prop} {m : Eff C R S E α}

theorem Uses.pure (a : α) : Uses A F (Pure.pure a : Eff C R S E α) := fun s => throws_ok a s

theorem Uses.throw {e : E} (h : F e) : Uses A F (Eff.throw e : Eff C R S E α) :=
  fun s => throws_error h s

theorem Uses.modify (f : S → S) : Uses A F (Eff.modify f : Eff C R S E Unit) :=
  fun s => throws_ok () (f s)

theorem Uses.get : Uses A F (Eff.get : Eff C R S E S) := fun s => throws_ok s s

theorem Uses.call {c : C} (h : A c) : Uses A F (Eff.call c : Eff C R S E (R c)) :=
  fun s => ⟨h, fun r => throws_ok r s⟩

theorem Uses.bind {f : α → Eff C R S E β} (hm : Uses A F m) (hf : ∀ a, Uses A F (f a)) :
    Uses A F (m >>= f) := fun s =>
  (hm s).bind fun
    | (.ok a, s'), _ => hf a s'
    | (.error e, s'), h => throws_error (h e rfl) s'

theorem Uses.tryCatch {handler : E → Eff C R S E α} (hm : Uses A F m)
    (hh : ∀ e, F e → Uses A G (handler e)) : Uses A G (Eff.tryCatch m handler) := fun s =>
  (hm s).bind fun
    | (.ok a, s'), _ => throws_ok a s'
    | (.error e, s'), h => hh e (h e rfl) s'

theorem Uses.map (f : α → β) (hm : Uses A F m) : Uses A F (f <$> m) :=
  hm.bind fun a => .pure (f a)

theorem Uses.ite {p : Prop} [Decidable p] {m' : Eff C R S E α} (hm : Uses A F m)
    (hm' : Uses A F m') : Uses A F (if p then m else m') := by
  split_ifs
  · exact hm
  · exact hm'

theorem Uses.lift {B : C' → Prop} {f : C → C'} {g : ∀ c, R' (f c) → R c}
    (h : ∀ c, A c → B (f c)) (hm : Uses A F m) : Uses B F (Eff.lift f g m) :=
  fun s => (hm s).lift h

end

/-- Computations put together from those that `leaf` allows.  What they throw themselves satisfies `F`, and
their handlers pass on what satisfies `P`. -/
inductive MadeOf (leaf : ∀ γ : Type, Eff C R S E γ → Prop) (F P : E → Prop) :
    ∀ {γ : Type}, Eff C R S E γ → Prop
  | leaf {γ : Type} {m : Eff C R S E γ} (h : leaf γ m) : MadeOf leaf F P m
  | pure {γ : Type} (a : γ) : MadeOf leaf F P (Pure.pure a : Eff C R S E γ)
  | throw {γ : Type} {e : E} (h : F e) : MadeOf leaf F P (Eff.throw e : Eff C R S E γ)
  | get : MadeOf leaf F P (Eff.get : Eff C R S E S)
  | modify (f : S → S) : MadeOf leaf F P (Eff.modify f : Eff C R S E Unit)
  | bind {γ δ : Type} {m : Eff C R S E γ} {f : γ → Eff C R S E δ} (hm : MadeOf leaf F P m)
      (hf : ∀ a, MadeOf leaf F P (f a)) : MadeOf leaf F P (m >>= f)
  | tryCatch {γ : Type} {m : Eff C R S E γ} {handler : E → Eff C R S E γ} (hm : MadeOf leaf F P m)
      (hh : ∀ e, MadeOf leaf F P (handler e)) (hp : ∀ e, P e → handler e = Eff.throw e) :
      MadeOf leaf F P (Eff.tryCatch m handler)

section

variable {leaf leaf' : ∀ γ : Type, Eff C R S E γ → Prop} {A : C → Prop} {F G P : E → Prop}
  {m : Eff C R S E α}

theorem MadeOf.map (f : α → β) (hm : MadeOf leaf F P m) : MadeOf leaf F P (f <$> m) :=
  hm.bind fun a => .pure (f a)

theorem MadeOf.ite {p : Prop} [Decidable p] {m' : Eff C R S E α} (hm : MadeOf leaf F P m)
    (hm' : MadeOf leaf F P m') : MadeOf leaf F P (if p then m else m') := by
  split_ifs
  · exact hm
  · exact hm'

theorem MadeOf.mono (hleaf : ∀ γ m, leaf γ m → leaf' γ m) (hF : ∀ e, F e → G e)
    (hm : MadeOf leaf F P m) : MadeOf leaf' G P m := by
  induction hm with
  | leaf h => exact .leaf (hleaf _ _ h)
  | pure a => exact .pure a
  | throw h => exact .throw (hF _ h)
  | get => exact .get
  | modify f => exact .modify f
  | bind _ _ ihm ihf => exact .bind ihm ihf
  | tryCatch _ _ hp ihm ihh => exact .tryCatch ihm ihh hp

theorem MadeOf.uses (hleaf : ∀ γ m, leaf γ m → Uses A F m) (hm : MadeOf leaf F P m) :
    Uses A F m := by
  induction hm with
  | leaf h => exact hleaf _ _ h
  | pure a => exact .pure a
  | throw h => exact .throw h
  | get => exact .get
  | modify f => exact .modify f
  | bind _ _ ihm ihf => exact .bind ihm ihf
  | tryCatch _ _ _ ihm ihh => exact .tryCatch ihm fun e _ => ihh e

end

/-! ## Triples about the environment -/

/-- Started where `P` holds, `m` returns with `Q` and throws with `F`. -/
def Triple (P : σ → Prop) (m : Eff C R S E α) (Q : α → σ → Prop) (F : E → σ → Prop) : Prop :=
  ∀ s w, P w → (∀ a, (m.exec answer s w).1 = .ok a → Q a (m.exec answer s w).2.2) ∧
    ∀ e, (m.exec answer s w).1 = .error e → F e (m.exec answer s w).2.2

/-- `m` keeps `I`, and throws only what `F` allows. -/
def Keeps (I : σ → Prop) (F : E → Prop) (m : Eff C R S E α) : Prop :=
  Triple answer I m (fun _ => I) fun e w => F e ∧ I w

section

variable {answer} {P P' : σ → Prop} {m : Eff C R S E α} {Q Q' : α → σ → Prop}
  {F G : E → σ → Prop}

theorem Triple.pure {a : α} (h : ∀ w, P w → Q a w) :
    Triple answer P (Pure.pure a : Eff C R S E α) Q F :=
  fun _ w hw => ⟨fun _ h' => (by cases h'; exact h w hw), nofun⟩

theorem Triple.throw {e : E} (h : ∀ w, P w → F e w) :
    Triple answer P (Eff.throw e : Eff C R S E α) Q F :=
  fun _ w hw => ⟨nofun, fun _ h' => (by cases h'; exact h w hw)⟩

theorem Triple.modify {f : S → S} {Q : Unit → σ → Prop} (h : ∀ w, P w → Q () w) :
    Triple answer P (Eff.modify f : Eff C R S E Unit) Q F :=
  fun _ w hw => ⟨fun _ h' => (by cases h'; exact h w hw), nofun⟩

theorem Triple.call {c : C} {Q : R c → σ → Prop} (h : ∀ w, P w → Q (answer w c).1 (answer w c).2) :
    Triple answer P (Eff.call c : Eff C R S E (R c)) Q F :=
  fun _ w hw => ⟨fun _ h' => (by cases h'; exact h w hw), nofun⟩

theorem Triple.bind {f : α → Eff C R S E β} {Q' : β → σ → Prop} (hm : Triple answer P m Q F)
    (hf : ∀ a, Triple answer (Q a) (f a) Q' F) : Triple answer P (m >>= f) Q' F := by
  intro s w hw
  obtain ⟨h1, h2⟩ := hm s w hw
  rw [exec_bind]
  rcases hx : m.exec answer s w with ⟨e | a, s', w'⟩
  · rw [hx] at h2
    exact ⟨fun a h' => (by cases h'), fun e' he => (by cases he; exact h2 e rfl)⟩
  · rw [hx] at h1
    exact hf a s' w' (h1 a rfl)

theorem Triple.tryCatch {handler : E → Eff C R S E α} (hm : Triple answer P m Q F)
    (hh : ∀ e, Triple answer (F e) (handler e) Q G) :
    Triple answer P (Eff.tryCatch m handler) Q G := by
  intro s w hw
  obtain ⟨h1, h2⟩ := hm s w hw
  rw [exec_tryCatch]
  rcases hx : m.exec answer s w with ⟨e | a, s', w'⟩
  · rw [hx] at h2
    exact hh e s' w' (h2 e rfl)
  · rw [hx] at h1
    exact ⟨fun a' h' => (by cases h'; exact h1 a rfl), fun e h' => (by cases h')⟩

theorem Triple.conseq (hm : Triple answer P m Q F) (hP : ∀ w, P' w → P w)
    (hQ : ∀ a w, Q a w → Q' a w) (hF : ∀ e w, F e w → G e w) : Triple answer P' m Q' G :=
  fun s w hw => ⟨fun a h => hQ a _ ((hm s w (hP w hw)).1 a h),
    fun e h => hF e _ ((hm s w (hP w hw)).2 e h)⟩

theorem Triple.ite {p : Prop} [Decidable p] {m' : Eff C R S E α} (hm : p → Triple answer P m Q F)
    (hm' : ¬ p → Triple answer P m' Q F) : Triple answer P (if p then m else m') Q F := by
  split_ifs with hp
  · exact hm hp
  · exact hm' hp

/-- A triple about a lifted computation is one about the restricted environment. -/
theorem Triple.lift {answer : σ → (c : C') → R' c × σ} {f : C → C'} {g : ∀ c, R' (f c) → R c}
    (hm : Triple (fun w c => (g c (answer w (f c)).1, (answer w (f c)).2)) P m Q F) :
    Triple answer P (Eff.lift f g m) Q F := by
  intro s w hw
  rw [exec_lift]
  exact hm s w hw

end

section

variable {answer} {I : σ → Prop} {A : C → Prop} {F G : E → Prop} {m : Eff C R S E α}

theorem Uses.keeps (hI : ∀ w c, A c → I w → I (answer w c).2) (hm : Uses A F m) :
    Keeps answer I F m := by
  intro s w hw
  obtain ⟨h1, h2⟩ := (hm s).run answer hI hw
  exact ⟨fun _ _ => h1, fun e he => ⟨h2 e he, h1⟩⟩

/-- The invariant from the calls, the exceptions from a triple. -/
theorem Uses.keeps_of_triple (hI : ∀ w c, A c → I w → I (answer w c).2)
    (hm : Uses A (fun _ => True) m) {P : σ → Prop} {Q : α → σ → Prop}
    (ht : Triple answer P m Q fun e _ => F e) (hP : ∀ w, I w → P w) : Keeps answer I F m := by
  intro s w hw
  obtain ⟨h1, -⟩ := (hm s).run answer hI hw
  exact ⟨fun _ _ => h1, fun e he => ⟨(ht s w (hP w hw)).2 e he, h1⟩⟩

theorem Keeps.pure (a : α) : Keeps answer I F (Pure.pure a : Eff C R S E α) :=
  Triple.pure fun _ hw => hw

theorem Keeps.throw {e : E} (h : F e) : Keeps answer I F (Eff.throw e : Eff C R S E α) :=
  Triple.throw fun _ hw => ⟨h, hw⟩

theorem Keeps.modify (f : S → S) : Keeps answer I F (Eff.modify f : Eff C R S E Unit) :=
  Triple.modify fun _ hw => hw

theorem Keeps.call {c : C} (h : ∀ w, I w → I (answer w c).2) :
    Keeps answer I F (Eff.call c : Eff C R S E (R c)) := Triple.call h

theorem Keeps.bind {f : α → Eff C R S E β} (hm : Keeps answer I F m)
    (hf : ∀ a, Keeps answer I F (f a)) : Keeps answer I F (m >>= f) := Triple.bind hm hf

theorem Keeps.map (f : α → β) (hm : Keeps answer I F m) : Keeps answer I F (f <$> m) :=
  hm.bind fun a => .pure (f a)

theorem Keeps.tryCatch {handler : E → Eff C R S E α} (hm : Keeps answer I F m)
    (hh : ∀ e, F e → Keeps answer I G (handler e)) : Keeps answer I G (Eff.tryCatch m handler) :=
  Triple.tryCatch hm fun e s w hw => hh e hw.1 s w hw.2

end

end Eff

end Lib
