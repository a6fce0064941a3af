import Webvirtd.Lib.Record
import Webvirtd.Virt.Libvirt

/-!
# Virt.History — the libvirt calls that the views have made
-/

namespace Webvirtd.Virt

open Lib

abbrev OpEvent : Type := Event Op.Res

/-- The call is among the events. -/
def Called (es : List OpEvent) (c : Call) : Prop := ∃ e ∈ es, e.1 = .libvirt c

variable {σ : Type} {answer : σ → (o : Op) → Op.Res o × σ} {r : Http.Response} {w : σ} {α : Type}

theorem makes_ofExcept {x : Except Exn α} {a : α} (h : x = .ok a) :
    Eff.Makes answer (ofExcept x) r w [] (.ok a) r w := by
  subst h
  exact .pure a r w

theorem makes_ofExcept_error {x : Except Exn α} {e : Exn} (h : x = .error e) :
    Eff.Makes answer (ofExcept x) r w [] (.error (.exn e)) r w := by
  subst h
  exact .throw _ r w

/-- A call that is not interrupted. -/
theorem makes_perform {c : Call} {v : c.Val} (h : (answer w (.libvirt c)).1 = .ok v) :
    Eff.Makes answer (perform c) r w [⟨.libvirt c, .ok v⟩] (.ok v) r (answer w (.libvirt c)).2 := by
  have hcall : Eff.Makes answer (Eff.call (Op.libvirt c) : ViewM _) r w _ _ r _ := .call _ r w
  rw [h] at hcall
  exact hcall.bind_last (makes_ofExcept rfl)

theorem makes_perform_error {c : Call} {e : Exn} (h : (answer w (.libvirt c)).1 = .error e) :
    Eff.Makes answer (perform c) r w [⟨.libvirt c, .error e⟩] (.error (.exn e)) r
      (answer w (.libvirt c)).2 := by
  have hcall : Eff.Makes answer (Eff.call (Op.libvirt c) : ViewM _) r w _ _ r _ := .call _ r w
  rw [h] at hcall
  exact hcall.bind_last (makes_ofExcept_error rfl)

theorem makes_ofExcept_inv {x : Except Exn α} {a : α} {es : List OpEvent} {r' : Http.Response} {w' : σ}
    (h : Eff.Makes answer (ofExcept x) r w es (.ok a) r' w') : x = .ok a ∧ es = [] ∧ r' = r ∧ w' = w := by
  cases x with
  | error e => exact absurd h.exec (by simp [ofExcept])
  | ok b =>
    obtain ⟨hes, hr, hs, hw⟩ := h.pure_inv
    exact ⟨by rw [Except.ok.inj hr], hes, hs, hw⟩

theorem makes_perform_inv {c : Call} {v : c.Val} {es : List OpEvent} {r' : Http.Response} {w' : σ}
    (h : Eff.Makes answer (perform c) r w es (.ok v) r' w') :
    (answer w (.libvirt c)).1 = .ok v ∧ es = [⟨.libvirt c, .ok v⟩] ∧ r' = r ∧
      w' = (answer w (.libvirt c)).2 := by
  cases hc : (answer w (.libvirt c)).1 with
  | error e => cases h.exec.symm.trans (makes_perform_error hc).exec
  | ok u =>
    have hu := makes_perform (r := r) hc
    cases h.exec.symm.trans hu.exec
    exact ⟨rfl, h.events.symm.trans hu.events, rfl, rfl⟩

/-- The answers of the polls of a state, newest last. -/
def polls (es : List OpEvent) : List (Option ℤ) :=
  es.filterMap fun
    | ⟨.libvirt (.virDomainGetState _), .ok state⟩ => some state
    | _ => none

theorem polls_append (es es' : List OpEvent) : polls (es ++ es') = polls es ++ polls es' :=
  List.filterMap_append

end Webvirtd.Virt
