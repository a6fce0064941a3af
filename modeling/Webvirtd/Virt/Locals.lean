import Webvirtd.Lib.Inputs
import Webvirtd.Virt.Libvirt

/-!
# Virt.Locals — what `domain::state` and `domain::autostart` find in their locals

The locals are not initialised, so what they hold is an input: `contents` makes it explicit.  A computation
that is `Plain` reads no such local.  `exec_state` and `exec_autostart`: the contents are returned when
libvirt fails and leaves the output parameter as it was.
-/

namespace Webvirtd.Virt

open Lib

/-- An `int` that was not initialised holds anything. -/
def contents : (o : Op) → Option (Int32 → Op.Res o)
  | .uninitialised => some Int32.toInt
  | _ => none

/-- The parts that read no uninitialised local. -/
inductive Initialised : ∀ γ : Type, ViewM γ → Prop
  | perform (c : Call) : Initialised c.Val (perform c)
  | now : Initialised ℚ Virt.now
  | sleepFor (milliseconds : ℕ) : Initialised Unit (Virt.sleepFor milliseconds)

/-- Put together from these, with exceptions of its own that satisfy `F`. -/
abbrev Plain (F : Failure → Prop) {α : Type} (m : ViewM α) : Prop := Eff.MadeOf Initialised F (fun _ => False) m

/-- It is not what `std::map::at` throws. -/
def NotRange (e : Failure) : Prop := e.caughtBy .outOfRange = false

/-- libvirt as documented: a state that it gives is one of `virDomainState`.  What is thrown out of its calls is
thrown by the close callback. -/
structure Documented {σ : Type} (answer : σ → (o : Op) → Op.Res o × σ) : Prop where
  raises : ∀ w c e, (answer w (.libvirt c)).1 = .error e → e.cls = .retryError
  states : ∀ w d (s : ℤ), (answer w (.libvirt (.virDomainGetState d))).1 = .ok (some s) → 0 ≤ s ∧ s ≤ 7

/-- All locals hold zero from now on. -/
def Zeros {σ : Type} (w : σ × Stream' Int32) : Prop := w.2 = Stream'.const 0

variable {σ : Type} {answer : σ → (o : Op) → Op.Res o × σ} {F : Failure → Prop} {α β : Type} {m : ViewM α}
  {r : Http.Response} {w : σ} {us : Stream' Int32} {d : DomainPtr}

theorem Plain.uses (hm : Plain F m) : Eff.Uses (fun o => contents o = none) (fun _ => True) m := by
  refine Eff.MadeOf.uses (fun γ m h => ?_) (hm.mono (fun _ _ h => h) fun _ _ => trivial)
  cases h with
  | perform c =>
    refine .bind (.call rfl) fun x => ?_
    cases x with
    | ok v => exact .pure v
    | error e => exact .throw trivial
  | now => exact .call rfl
  | sleepFor milliseconds => exact .call rfl

theorem notRange_of_raised {e : Exn} (h : e.cls = .retryError) : NotRange (.exn e) := by
  show ExnClass.outOfRange.catches e.cls = false
  rw [h]
  rfl

/-- While all contents are zero, a documented libvirt makes nothing throw `out_of_range`. -/
theorem Plain.keeps (hdoc : Documented answer) (hm : Plain NotRange m) :
    Eff.Keeps (withInputs contents answer) Zeros NotRange m := by
  induction hm with
  | leaf h =>
    cases h with
    | perform c =>
      refine Eff.Triple.bind (Q := fun x w => Zeros w ∧ ∀ e, x = .error e → e.cls = .retryError)
        (.call fun w hw => ⟨hw, hdoc.raises w.1 c⟩) fun x => ?_
      cases x with
      | ok v => exact .pure fun _ hw => hw.1
      | error e => exact .throw fun _ hw => ⟨notRange_of_raised (hw.2 e rfl), hw.1⟩
    | now => exact .call fun _ hw => hw
    | sleepFor milliseconds => exact .call fun _ hw => hw
  | pure a => exact .pure a
  | throw h => exact .throw h
  | get => exact fun s w hw => ⟨fun _ _ => hw, nofun⟩
  | modify f => exact .modify f
  | bind _ _ ihm ihf => exact .bind ihm ihf
  | tryCatch _ _ _ ihm ihh => exact .tryCatch ihm fun e _ => ihh e

/-! ## The parts of the views -/

theorem plain_perform (c : Call) : Plain F (perform c) := .leaf (.perform c)

theorem plain_ofExcept {x : Except Exn α} (h : ∀ e, x = .error e → e.cls ≠ .outOfRange) :
    Plain NotRange (ofExcept x) := by
  cases x with
  | ok a => exact .pure a
  | error e =>
    refine .throw ?_
    obtain ⟨cls, what⟩ := e
    cases cls with
    | outOfRange => exact absurd rfl (h _ rfl)
    | _ => rfl

theorem plain_fromCString (s : Option String) : Plain NotRange (fromCString s) := by
  cases s with
  | some s => exact .pure s
  | none => exact .throw rfl

theorem plain_xmlDocument (L : Linked) (d : DomainPtr) : Plain NotRange (Domain.xmlDocument d L) :=
  .bind (.bind (plain_perform _) plain_fromCString) fun _ => .pure _

/-- `domain::shutdown` initialises its local. -/
theorem plain_poll (d : DomainPtr) (targets : List ℤ) (timeout start : ℚ) (what : String) (fuel : ℕ) (old : ℤ) :
    Plain (fun _ => True) (Domain.poll d targets timeout start what fuel old) := by
  have hstate : ∀ old, Plain (fun _ => True) (Domain.getState d old) :=
    fun old => .bind (plain_perform _) fun _ => .pure _
  induction fuel generalizing old with
  | zero =>
    rw [Domain.poll_eq]
    refine .bind (hstate old) fun _ => .ite (.pure _) (.bind (.leaf .now) fun _ => ?_)
    exact .ite (.throw trivial) (.bind (.leaf (.sleepFor 20)) fun _ => .throw trivial)
  | succ fuel ih =>
    rw [Domain.poll_eq]
    refine .bind (hstate old) fun _ => .ite (.pure _) (.bind (.leaf .now) fun _ => ?_)
    exact .ite (.throw trivial) (.bind (.leaf (.sleepFor 20)) fun _ => ih _)

theorem plain_shutdown (d : DomainPtr) (T : Timeouts) : Plain (fun _ => True) (Domain.shutdown d T) := by
  refine .bind (plain_perform _) fun rc => .ite (.pure _) (.bind (.leaf .now) fun start => ?_)
  refine .bind (plain_poll _ _ _ _ _ _ _) fun state => .bind (.leaf .now) fun start => ?_
  exact .bind (plain_poll _ _ _ _ _ _ _) fun _ => .pure _

theorem endsWith_ofExcept (x : Except Exn α) (r : Http.Response) (w : σ) :
    Eff.EndsWith contents answer (ofExcept x) r w (x.mapError .exn) r w := by
  cases x with
  | ok a => exact .pure a r w
  | error e => exact .throw _ r w

/-! ## The two locals -/

/-- A call with an output parameter, which holds the contents before. -/
def readLocal (c : Call) (g : ℤ → c.Val → α) : ViewM α := do
  let old ← uninitialised
  return g old (← perform c)

theorem state_eq (d : DomainPtr) : Domain.state d = readLocal (.virDomainGetState d) fun old s => s.getD old := rfl

theorem autostart_eq (d : DomainPtr) :
    Domain.autostart d = readLocal (.virDomainGetAutostart d) fun old a => a.getD old != (0 : ℤ) := rfl

theorem exec_readLocal (c : Call) (g : ℤ → c.Val → α) :
    (readLocal c g).exec (withInputs contents answer) r (w, us) =
      (((answer w (.libvirt c)).1.mapError .exn).map (g us.head.toInt), r, (answer w (.libvirt c)).2, us.tail) := by
  have hlocal : uninitialised.exec (withInputs contents answer) r (w, us) = (.ok us.head.toInt, r, w, us.tail) := rfl
  have hcall : withInputs contents answer (w, us.tail) (.libvirt c) =
    ((answer w (.libvirt c)).1, (answer w (.libvirt c)).2, us.tail) := rfl
  unfold readLocal perform
  rw [Eff.exec_bind_ok _ hlocal, bind_assoc, Eff.exec_bind_ok _ (Eff.exec_call _ (Op.libvirt c) r _), hcall]
  cases (answer w (.libvirt c)).1 with
  | ok v => rfl
  | error e => rfl

theorem endsWith_readLocal {c : Call} {g : ℤ → c.Val → α} {x : Except Failure α}
    (h : ∀ old, ((answer w (.libvirt c)).1.mapError .exn).map (g old) = x) :
    Eff.EndsWith contents answer (readLocal c g) r w x r (answer w (.libvirt c)).2 := by
  refine ⟨fun us => ⟨us.tail, ?_⟩, fun us => ⟨.cons 0 us, ?_⟩⟩
  · rw [exec_readLocal, h]
  · rw [exec_readLocal, h]
    rfl

theorem keeps_readLocal (hdoc : Documented answer) (c : Call) (g : ℤ → c.Val → α) :
    Eff.Keeps (withInputs contents answer) Zeros NotRange (readLocal c g) := by
  refine .bind (.call fun w hw => ?_) fun old => .bind ((plain_perform c).keeps hdoc) fun v => .pure _
  show w.2.tail = Stream'.const 0
  rw [show w.2 = Stream'.const 0 from hw, Stream'.tail_const]

/-- The contents are not read. -/
theorem endsWith_readLocal_error {c : Call} {g : ℤ → c.Val → α} {e : Exn}
    (h : (answer w (.libvirt c)).1 = .error e) :
    Eff.EndsWith contents answer (readLocal c g) r w (.error (.exn e)) r (answer w (.libvirt c)).2 := by
  refine endsWith_readLocal fun old => ?_
  rw [h]
  rfl

/-- The contents are overwritten. -/
theorem endsWith_readLocal_ok {c : Call} {g : ℤ → c.Val → α} {v : c.Val} {a : α}
    (h : (answer w (.libvirt c)).1 = .ok v) (hg : ∀ old, g old v = a) :
    Eff.EndsWith contents answer (readLocal c g) r w (.ok a) r (answer w (.libvirt c)).2 := by
  refine endsWith_readLocal fun old => ?_
  rw [h, ← hg old]
  rfl

theorem exec_state_none (h : (answer w (.libvirt (.virDomainGetState d))).1 = .ok none) :
    (Domain.state d).exec (withInputs contents answer) r (w, us) =
      (.ok us.head.toInt, r, (answer w (.libvirt (.virDomainGetState d))).2, us.tail) := by
  rw [state_eq, exec_readLocal, h]
  rfl

theorem exec_autostart_none (h : (answer w (.libvirt (.virDomainGetAutostart d))).1 = .ok none) :
    (Domain.autostart d).exec (withInputs contents answer) r (w, us) =
      (.ok (us.head.toInt != 0), r, (answer w (.libvirt (.virDomainGetAutostart d))).2, us.tail) := by
  rw [autostart_eq, exec_readLocal, h]
  rfl

end Webvirtd.Virt
