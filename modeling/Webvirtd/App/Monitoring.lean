import Webvirtd.App.Grammar
import Webvirtd.Lib.Monitor

/-!
# App.Monitoring — the handler of the app under a monitor

The rules of `Lib.Monitor` for the wrappers around a route function, for `retry` and for `router::run`.  What a wrapper
asks is for the monitor to allow; what the monitor knows from the answers holds where the route function is called.
-/

namespace Webvirtd.App

open Lib Virt Http Http.Middleware

/-- Every call of `m` is allowed, however it ends; `Q` is what the monitor knows when it returns. -/
abbrev Monitored {μ : Type} (M : Monitor Cmd.Res μ) (P : μ → Prop) {α : Type} (m : RouteM α) (Q : α → μ → Prop) : Prop :=
  Eff.Guarded M P m Q fun _ _ => True

section

variable {μ : Type} {M : Monitor Cmd.Res μ} {P P₁ P₂ : μ → Prop} {L : Linked} {T : Timeouts} {request : Request}
  {location : List String} {httpConn : Bool}

theorem monitored_setResponse (data : Json) (status : Status) :
    Monitored M P (setResponse L data status) fun _ _ => True := .modify fun _ _ => trivial

theorem monitored_withMethods {methods : List Verb} {routeFn : RouteFunction}
    (h : request.method ∈ methods → Monitored M P (routeFn httpConn location request) fun _ _ => True) :
    Monitored M P (withMethods methods routeFn httpConn location request) fun _ _ => True := by
  refine .bind (Q := fun _ => P) (.modify fun _ ht => ht) fun _ => .ite (fun _ => .pure fun _ _ => trivial) fun _ => ?_
  exact .ite h fun _ => .modify fun _ _ => trivial

theorem monitored_withLibvirt {routeFn : User → RouteFunction}
    (huser : Monitored M P (getpwnam (capture location 1)) fun found t => found = true → P₁ t)
    (hpool : Monitored M P₁ (poolGet (capture location 1)) fun entry t => entry = .ok () → P₂ t)
    (h : Monitored M P₂ (routeFn (capture location 1) httpConn location request) fun _ _ => True) :
    Monitored M P (withLibvirt L routeFn httpConn location request) fun _ _ => True := by
  refine huser.bind fun found => .ite (fun _ => monitored_setResponse _ _) fun hfound => ?_
  have hfound : found = true := by simpa using hfound
  refine (hpool.conseq (fun t ht => ht hfound) (fun _ _ h => h) fun _ _ h => h).bind fun entry => ?_
  cases entry with
  | ok u => exact h.conseq (fun t ht => ht rfl) (fun _ _ h => h) fun _ _ h => h
  | error e => exact .ite (fun _ => monitored_setResponse _ _) fun _ => .throw fun _ _ => trivial

/-- `conn.domain(name)` is one call, and returns the domain that was found. -/
theorem monitored_domain {conn : User} {name : String} {Q : DomainPtr → μ → Prop}
    (hallows : ∀ t, P t → M.allows t (.op (.libvirt (.virDomainLookupByName conn (cStr name)))))
    (hnext : ∀ t d, P t → Q d (M.next t ⟨.op (.libvirt (.virDomainLookupByName conn (cStr name))), .ok (some d)⟩)) :
    Monitored M P (.ofView (Conn.domain conn name)) Q := by
  have hcall : Eff.Guarded (M.comap Cmd.op) P
      (Eff.call (Op.libvirt (.virDomainLookupByName conn (cStr name))) : ViewM _)
      (fun found t => ∀ d, found = .ok (some d) → Q d t) fun _ _ => True := by
    refine .call hallows fun t found ht d hd => ?_
    subst hd
    exact hnext t d ht
  have hperform : Eff.Guarded (M.comap Cmd.op) P (perform (.virDomainLookupByName conn (cStr name)))
      (fun found t => ∀ d, found = some d → Q d t) fun _ _ => True := hcall.bind fun found => by
    cases found with
    | ok found => exact .pure fun t ht d hd => ht d (by rw [hd])
    | error e => exact .throw fun _ _ => trivial
  refine Eff.Guarded.lift (hperform.bind fun found => ?_)
  cases found with
  | some d => exact .pure fun t ht => ht d rfl
  | none => exact .throw fun _ _ => trivial

theorem monitored_withLibvirtDomain {Q : DomainPtr → μ → Prop} {routeFn : User → DomainPtr → RouteFunction}
    (huser : Monitored M P (getpwnam (capture location 1)) fun found t => found = true → P₁ t)
    (hpool : Monitored M P₁ (poolGet (capture location 1)) fun entry t => entry = .ok () → P₂ t)
    (hdomain : Monitored M P₂ (.ofView (Conn.domain (capture location 1) (capture location 2))) Q)
    (h : ∀ d, Monitored M (Q d) (routeFn (capture location 1) d httpConn location request) fun _ _ => True) :
    Monitored M P (withLibvirtDomain L routeFn httpConn location request) fun _ _ => True := by
  refine monitored_withLibvirt huser hpool ?_
  have hfind : Monitored M P₂
      (Eff.tryCatch (some <$> RouteM.ofView (Conn.domain (capture location 1) (capture location 2)))
        fun e => if e.caughtBy .domainError then pure none else Eff.throw e)
      fun found t => ∀ d, found = some d → Q d t := by
    refine .tryCatch (F := fun _ _ => True) (.map (hdomain.conseq (fun _ h => h) ?_ fun _ _ h => h)) fun e => ?_
    · rintro d t ht d' hd
      obtain rfl := Option.some.inj hd
      exact ht
    · exact .ite (fun _ => .pure fun _ _ => nofun) fun _ => .throw fun _ _ => trivial
  refine hfind.bind fun found => ?_
  cases found with
  | none => exact monitored_setResponse _ _
  | some d => exact (h d).conseq (fun t ht => ht d rfl) (fun _ _ h => h) fun _ _ h => h

end

section

variable {μ : Type} {L : Linked} {T : Timeouts} {request : Request}

theorem guarded_retry {C : Type} {R : C → Type} {S α : Type} {M : Monitor R μ} {func : ℕ → Eff C R S Failure α}
    (h : ∀ n, Eff.Guarded M (fun _ => True) (func n) (fun _ _ => True) fun _ _ => True) (budget n : ℕ) :
    Eff.Guarded M (fun _ => True) (retry func budget n) (fun _ _ => True) fun _ _ => True := by
  induction budget generalizing n with
  | zero =>
    refine .tryCatch (h n) fun e => ?_
    cases e with
    | exn e => exact .ite (fun _ => .throw fun _ _ => trivial) fun _ => .throw fun _ _ => trivial
    | nullDeref => exact .throw fun _ _ => trivial
    | outOfFuel => exact .throw fun _ _ => trivial
  | succ budget ih =>
    exact .tryCatch (h n) fun e => .ite (fun _ => ih (n + 1)) fun _ => .throw fun _ _ => trivial

/-- A request makes the calls of its endpoint, up to six times. -/
theorem monitored_onRequest {M : Monitor Cmd.Res μ}
    (h : ∀ (e : Endpoint) captures, e.Accepts request.target captures →
      Router.find request.target (router L T).routes = some (request.target :: captures, e.handler L T) →
      ∀ httpConn, Monitored M (fun _ => True) (e.handler L T httpConn (request.target :: captures) request)
        fun _ _ => True) :
    Monitored M (fun _ => True) (onRequest L T request) fun _ _ => True := by
  refine .bind (Q := fun _ _ => True) (.modify fun _ h => h) fun _ => ?_
  cases hf : Router.find request.target (router L T).routes with
  | none => exact .modify fun _ h => h
  | some found =>
    obtain ⟨location, fn⟩ := found
    obtain ⟨r, hmem, hfn, hl⟩ := Router.exists_of_find hf
    rw [routes_endpoints] at hmem
    obtain ⟨e, -, rfl⟩ := List.mem_map.mp hmem
    obtain ⟨captures, hacc, rfl⟩ := accepts_of_location e hl
    obtain rfl : e.handler L T = fn := hfn
    refine .tryCatch (F := fun _ _ => True) (guarded_retry (fun n => ?_) 5 0) fun e => ?_
    · exact .bind (Q := fun _ _ => True) (.modify fun _ h => h) fun _ => h e captures hacc hf _
    · cases e with
      | exn e => exact monitored_setResponse _ _
      | nullDeref => exact .throw fun _ _ => trivial
      | outOfFuel => exact .throw fun _ _ => trivial

end

end Webvirtd.App
