import Webvirtd.Lib.Record

/-!
# Lib.Monitor — calls that are allowed by what came before them

A monitor watches a computation from outside: it sees each call with its answer, and says which calls are allowed
in its present state.  `Guarded M P m Q F` is a triple about the monitor: started in a state that satisfies `P`,
`m` makes only calls that are allowed then, and ends in a state that satisfies `Q` or, with an exception, `F`.
It holds in every environment (`Guarded.accepts`), so the answers are arbitrary in its rules; what may be assumed of
them is part of the monitor (`Monitor.assuming`).
-/

namespace Lib

variable {C C' : Type} {R : C → Type} {R' : C' → Type} {S E α β σ μ : Type}

structure Monitor (R : C → Type) (μ : Type) where
  allows : μ → C → Prop
  next : μ → Event R → μ

namespace Monitor

/-- Every call is allowed in the state that the events before it lead to. -/
def Accepts (M : Monitor R μ) : μ → List (Event R) → Prop
  | _, [] => True
  | m, e :: es => M.allows m e.1 ∧ M.Accepts (M.next m e) es

def after (M : Monitor R μ) (m : μ) (es : List (Event R)) : μ := es.foldl M.next m

/-- The monitor of the calls that are renamed by `f`. -/
def comap (M : Monitor R' μ) (f : C → C') : Monitor (fun c => R' (f c)) μ where
  allows m c := M.allows m (f c)
  next m e := M.next m ⟨f e.1, e.2⟩

/-- The monitor of calls of which `A` holds as long as the answers are as `B` says; its state is whether they are. -/
def assuming (A : C → Prop) (B : (c : C) → R c → Prop) : Monitor R Prop where
  allows t c := t → A c
  next t e := t ∧ B e.1 e.2

/-- The monitor that remembers all events; `ok` is the policy. -/
def history (ok : List (Event R) → C → Prop) : Monitor R (List (Event R)) where
  allows := ok
  next es e := es ++ [e]

variable {M : Monitor R μ}

theorem Accepts.split {m : μ} {es es' : List (Event R)} {e : Event R} (h : M.Accepts m (es ++ e :: es')) :
    M.allows (M.after m es) e.1 := by
  induction es generalizing m with
  | nil => exact h.1
  | cons e' es ih => exact ih h.2

theorem after_history (ok : List (Event R) → C → Prop) (es es' : List (Event R)) :
    (history ok).after es es' = es ++ es' := by
  induction es' generalizing es with
  | nil => exact (List.append_nil es).symm
  | cons e es' ih =>
    show (history ok).after (es ++ [e]) es' = _
    rw [ih, List.append_assoc]
    rfl

end Monitor

/-! ## Programs -/

namespace Prog

/-- The calls of the program are allowed, whatever they are answered, and `Q` holds at the end. -/
def Guarded (M : Monitor R μ) (Q : μ → α → Prop) : μ → Prog C R α → Prop
  | m, .ret a => Q m a
  | m, .call c k => M.allows m c ∧ ∀ r, (k r).Guarded M Q (M.next m ⟨c, r⟩)

variable {M : Monitor R μ}

theorem Guarded.bind {Q : μ → α → Prop} {Q' : μ → β → Prop} {p : Prog C R α} {f : α → Prog C R β} {m : μ}
    (hp : p.Guarded M Q m) (hf : ∀ m a, Q m a → (f a).Guarded M Q' m) : (p.bind f).Guarded M Q' m := by
  induction p generalizing m with
  | ret a => exact hf m a hp
  | call c k ih => exact ⟨hp.1, fun r => ih r (hp.2 r)⟩

theorem Guarded.mono {Q Q' : μ → α → Prop} {p : Prog C R α} {m : μ} (hp : p.Guarded M Q m)
    (h : ∀ m a, Q m a → Q' m a) : p.Guarded M Q' m := by
  induction p generalizing m with
  | ret a => exact h m a hp
  | call c k ih => exact ⟨hp.1, fun r => ih r (hp.2 r)⟩

theorem Guarded.lift {M : Monitor R' μ} {f : C → C'} {Q : μ → α → Prop} {p : Prog C (fun c => R' (f c)) α} {m : μ}
    (hp : p.Guarded (M.comap f) Q m) : (p.lift f fun _ r => r).Guarded M Q m := by
  induction p generalizing m with
  | ret a => exact hp
  | call c k ih => exact ⟨hp.1, fun r => ih r (hp.2 r)⟩

/-- A program that only makes calls of one kind, which are allowed and keep `P`. -/
theorem Uses.guarded {A : C → Prop} {Q : α → Prop} {P : μ → Prop} (hA : ∀ m c, A c → P m → M.allows m c)
    (hP : ∀ m c r, A c → P m → P (M.next m ⟨c, r⟩)) {p : Prog C R α} (hp : p.Uses A Q) {m : μ} (hm : P m) :
    p.Guarded M (fun m a => P m ∧ Q a) m := by
  induction p generalizing m with
  | ret a => exact ⟨hm, hp⟩
  | call c k ih => exact ⟨hA m c hp.1 hm, fun r => ih r (hp.2 r) (hP m c r hp.1 hm)⟩

/-- Once an answer was not as assumed, everything is allowed. -/
theorem guarded_assuming_of_not {A : C → Prop} {B : (c : C) → R c → Prop} {t : Prop} (ht : ¬ t) (p : Prog C R α) :
    p.Guarded (Monitor.assuming A B) (fun t _ => ¬ t) t := by
  induction p generalizing t with
  | ret a => exact ht
  | call c k ih => exact ⟨fun h => absurd h ht, fun r => ih r fun h => ht h.1⟩

/-- What a guarded program calls, in any environment, is accepted. -/
theorem Guarded.run {Q : μ → α → Prop} {p : Prog C R α} {m : μ} (hp : p.Guarded M Q m)
    (answer : σ → (c : C) → R c × σ) (w : σ) :
    ∃ es, (∀ log, (p.run (record answer) (w, log)).2.2 = log ++ es) ∧ M.Accepts m es ∧
      Q (M.after m es) (p.run answer w).1 := by
  induction p generalizing m w with
  | ret a => exact ⟨[], fun log => (List.append_nil log).symm, trivial, hp⟩
  | call c k ih =>
    obtain ⟨es, hes, hacc, hQ⟩ := ih (answer w c).1 (hp.2 _) (answer w c).2
    refine ⟨⟨c, (answer w c).1⟩ :: es, fun log => ?_, ⟨hp.1, hacc⟩, hQ⟩
    have hlog := hes (log ++ [⟨c, (answer w c).1⟩])
    rw [List.append_assoc] at hlog
    exact hlog

end Prog

/-! ## The rules -/

namespace Eff

def Guarded (M : Monitor R μ) (P : μ → Prop) (m : Eff C R S E α) (Q : α → μ → Prop) (F : E → μ → Prop) : Prop :=
  ∀ s t, P t → (m s).Guarded M (fun t r => match r.1 with
    | .ok a => Q a t
    | .error e => F e t) t

variable {M : Monitor R μ} {P P' : μ → Prop} {m m' : Eff C R S E α} {Q Q' : α → μ → Prop} {F G : E → μ → Prop}

theorem Guarded.conseq (hm : Guarded M P m Q F) (hP : ∀ t, P' t → P t) (hQ : ∀ a t, Q a t → Q' a t)
    (hF : ∀ e t, F e t → G e t) : Guarded M P' m Q' G := by
  intro s t ht
  refine (hm s t (hP t ht)).mono fun t r hr => ?_
  obtain ⟨r, s'⟩ := r
  cases r with
  | ok a => exact hQ a t hr
  | error e => exact hF e t hr

theorem Guarded.pure {a : α} (h : ∀ t, P t → Q a t) : Guarded M P (Pure.pure a : Eff C R S E α) Q F :=
  fun _ t ht => h t ht

theorem Guarded.throw {e : E} (h : ∀ t, P t → F e t) : Guarded M P (Eff.throw e : Eff C R S E α) Q F :=
  fun _ t ht => h t ht

theorem Guarded.modify {f : S → S} {Q : Unit → μ → Prop} (h : ∀ t, P t → Q () t) :
    Guarded M P (Eff.modify f : Eff C R S E Unit) Q F := fun _ t ht => h t ht

theorem Guarded.call {c : C} {Q : R c → μ → Prop} (ha : ∀ t, P t → M.allows t c)
    (h : ∀ t r, P t → Q r (M.next t ⟨c, r⟩)) : Guarded M P (Eff.call c : Eff C R S E (R c)) Q F :=
  fun _ t ht => ⟨ha t ht, fun r => h t r ht⟩

theorem Guarded.bind {f : α → Eff C R S E β} {Q' : β → μ → Prop} (hm : Guarded M P m Q F)
    (hf : ∀ a, Guarded M (Q a) (f a) Q' F) : Guarded M P (m >>= f) Q' F := by
  intro s t ht
  refine (hm s t ht).bind fun t r hr => ?_
  obtain ⟨r, s'⟩ := r
  cases r with
  | ok a => exact hf a s' t hr
  | error e => exact hr

theorem Guarded.tryCatch {handler : E → Eff C R S E α} (hm : Guarded M P m Q F)
    (hh : ∀ e, Guarded M (F e) (handler e) Q G) : Guarded M P (Eff.tryCatch m handler) Q G := by
  intro s t ht
  refine (hm s t ht).bind fun t r hr => ?_
  obtain ⟨r, s'⟩ := r
  cases r with
  | ok a => exact hr
  | error e => exact hh e s' t hr

theorem Guarded.map {f : α → β} {Q' : β → μ → Prop} (hm : Guarded M P m (fun a => Q' (f a)) F) :
    Guarded M P (f <$> m) Q' F := hm.bind fun _ => .pure fun _ h => h

theorem Guarded.ite {p : Prop} [Decidable p] (hm : p → Guarded M P m Q F) (hm' : ¬ p → Guarded M P m' Q F) :
    Guarded M P (if p then m else m') Q F := by
  split_ifs with hp
  · exact hm hp
  · exact hm' hp

theorem Guarded.lift {M : Monitor R' μ} {f : C → C'} {m : Eff C (fun c => R' (f c)) S E α}
    (hm : Guarded (M.comap f) P m Q F) : Guarded M P (Eff.lift f (fun _ r => r) m) Q F :=
  fun s t ht => (hm s t ht).lift

/-- Calls of one kind that are allowed and keep `P`. -/
theorem Uses.guarded {A : C → Prop} {B : E → Prop} (hA : ∀ t c, A c → P t → M.allows t c)
    (hP : ∀ t c r, A c → P t → P (M.next t ⟨c, r⟩)) (hm : Uses A B m) :
    Guarded M P m (fun _ => P) fun _ => P := by
  intro s t ht
  refine ((hm s).guarded hA hP ht).mono fun t r hr => ?_
  obtain ⟨r, s'⟩ := r
  cases r with
  | ok a => exact hr.1
  | error e => exact hr.1

section

variable {A : C → Prop} {B : (c : C) → R c → Prop}

theorem Uses.assuming (hm : Uses A (fun _ => True) m) :
    Guarded (Monitor.assuming A B) (fun _ => True) m (fun _ _ => True) fun _ _ => True :=
  hm.guarded (fun _ _ hc _ _ => hc) fun _ _ _ _ _ => trivial

/-- What follows from the answers so far may be used. -/
theorem Guarded.assume {K : Prop} {Q : α → Prop}
    (hm : K → Guarded (Monitor.assuming A B) (fun _ => True) m (fun a t => t → Q a) fun _ _ => True) :
    Guarded (Monitor.assuming A B) (fun t => t → K) m (fun a t => t → Q a) fun _ _ => True := by
  by_cases hK : K
  · exact (hm hK).conseq (fun _ _ => trivial) (fun _ _ h => h) fun _ _ h => h
  · intro s t ht
    refine (Prog.guarded_assuming_of_not (fun h => hK (ht h)) (m s)).mono fun t r hr => ?_
    obtain ⟨r, s'⟩ := r
    cases r with
    | ok a => exact fun h => absurd h hr
    | error e => trivial

end

/-- **Soundness.**  In every environment the events are accepted. -/
theorem Guarded.accepts (hm : Guarded M P m Q F) (answer : σ → (c : C) → R c × σ) (s : S) (w : σ) {t : μ}
    (ht : P t) : M.Accepts t (m.events answer s w) := by
  obtain ⟨es, hes, hacc, -⟩ := (hm s t ht).run answer w
  have hevents : m.events answer s w = es := hes []
  rw [hevents]
  exact hacc

/-- A policy about the history. -/
theorem Guarded.policy {ok : List (Event R) → C → Prop} {P : List (Event R) → Prop}
    {Q : α → List (Event R) → Prop} {F : E → List (Event R) → Prop}
    (hm : Guarded (Monitor.history ok) P m Q F) (hP : P []) {answer : σ → (c : C) → R c × σ} {s : S} {w : σ}
    {es es' : List (Event R)} {e : Event R} (h : m.events answer s w = es ++ e :: es') : ok es e.1 := by
  have hacc := hm.accepts answer s w hP
  rw [h] at hacc
  have hok := hacc.split
  rwa [Monitor.after_history, List.nil_append] at hok

end Eff

end Lib
