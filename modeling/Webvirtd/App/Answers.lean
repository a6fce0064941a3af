import Webvirtd.App.Routes
import Webvirtd.Views.Answers

/-!
# App.Answers — one answer for each request

The wrappers and the router around the views keep to `Answering` as well: `answers_route` for every
route of the app, and `answers_run` for `router::run`, whatever the outcome of the attempts.  On the way
a route only uses the connection and the pool entry of the user in its target.
-/

namespace Webvirtd

open Lib Virt Http

/-- No pool entry and no connection but those of `user` are used. -/
def Http.Cmd.Via (user : User) : Cmd → Prop
  | .poolGet u => u = user
  | .websocketsAdd conn _ => conn = user
  | .op o => o.Via user
  | _ => True

section

variable {C : Type} {R : C → Type} {S α : Type} {A : C → Prop} {Q : α → S → Prop} {P P' : S → Prop}
  {func : ℕ → Eff C R S Failure α}

/-- What each invocation ensures, the whole loop ensures. -/
theorem ensures_retry (hP : ∀ s, P' s → P s) (h : ∀ n, Eff.Ensures A P (func n) Q fun _ => P')
    (budget n : ℕ) : Eff.Ensures A P (retry func budget n) Q fun _ => P' := by
  induction budget generalizing n with
  | zero =>
    refine .tryCatch (h n) fun e => ?_
    cases e with
    | exn e => exact .ite (fun _ => .throw fun _ hs => hs) fun _ => .throw fun _ hs => hs
    | nullDeref => exact .throw fun _ hs => hs
    | outOfFuel => exact .throw fun _ hs => hs
  | succ budget ih =>
    refine .tryCatch (h n) fun e => .ite (fun _ => ?_) fun _ => .throw fun _ hs => hs
    exact (ih (n + 1)).conseq (fun _ h => h) hP (fun _ _ h => h) fun _ _ h => h

end

namespace Http

open Views

/-- Started on a response that is not answered, the route answers it with what it learns through the
connection of `user`; if it throws, it has not answered. -/
abbrev RouteAnswers (user : User) (P Q : Response → Prop) (m : RouteM Unit) : Prop :=
  Eff.Ensures (Cmd.Via user) P m (fun _ => Q) fun _ => P

variable {L : Linked} {P Q : Response → Prop}

theorem answers_ofView {user : User} {m : ViewM Unit} (hm : Answers (Op.Via user) P Q m) :
    RouteAnswers user P Q (RouteM.ofView m) := .lift (fun _ h => h) hm

theorem answers_setResponse (h : Answering L P Q) (user : User) (text : String) (st : Status) :
    RouteAnswers user P Q (setResponse L (Json.error text) st) :=
  answers_ofView (answers_error h text st)

/-- Questions come before the answer. -/
theorem routeAnswers_bind {user : User} {α : Type} {F : Failure → Prop} {m : RouteM α}
    {f : α → RouteM Unit} (hm : Eff.Frames (Cmd.Via user) F m)
    (hf : ∀ a, RouteAnswers user P Q (f a)) : RouteAnswers user P Q (m >>= f) :=
  .bind ((hm.ensures P).conseq (fun _ h => h) (fun _ h => h) (fun _ _ h => h) fun _ _ h => h.2) hf

namespace Middleware

variable {user : User} {httpConn : Bool} {location : List String} {request : Request}

theorem answers_withMethods (h : Answering L P Q) (methods : List Verb) {routeFn : RouteFunction}
    (hf : RouteAnswers user P Q (routeFn httpConn location request)) :
    RouteAnswers user P Q (withMethods methods routeFn httpConn location request) := by
  refine .bind (Q := fun _ => P) (.modify fun r hr => h.allow r _ hr) fun _ => .ite (fun _ => ?_) fun _ => ?_
  · exact .pure h.unanswered
  · exact .ite (fun _ => hf) fun _ => .modify h.refuse

theorem answers_withUser (h : Answering L P Q) {routeFn : RouteFunction}
    (hf : RouteAnswers user P Q (routeFn httpConn location request)) :
    RouteAnswers user P Q (withUser L routeFn httpConn location request) := by
  have hpasswd : Eff.Frames (Cmd.Via user) (fun _ => True) (getpwnam (capture location 1)) :=
    .call (c := Cmd.getpwnam (cStr (capture location 1))) trivial
  exact routeAnswers_bind hpasswd fun passwd =>
    .ite (fun _ => answers_setResponse h user _ _) fun _ => hf

theorem answers_withLibvirt (h : Answering L P Q) {routeFn : User → RouteFunction}
    (hf : RouteAnswers (capture location 1) P Q
      (routeFn (capture location 1) httpConn location request)) :
    RouteAnswers (capture location 1) P Q (withLibvirt L routeFn httpConn location request) := by
  have hget : Eff.Frames (Cmd.Via (capture location 1)) (fun _ => True)
      (poolGet (capture location 1)) :=
    .call (c := Cmd.poolGet (capture location 1)) rfl
  refine answers_withUser h (routeAnswers_bind hget fun res => ?_)
  cases res with
  | ok u => exact hf
  | error e =>
    refine .ite (fun _ => answers_setResponse h _ _ _) fun _ => ?_
    exact .throw fun _ hr => hr

theorem answers_withLibvirtDomain (h : Answering L P Q) {routeFn : User → DomainPtr → RouteFunction}
    (hf : ∀ d, RouteAnswers (capture location 1) P Q
      (routeFn (capture location 1) d httpConn location request)) :
    RouteAnswers (capture location 1) P Q
      (withLibvirtDomain L routeFn httpConn location request) := by
  refine answers_withLibvirt h ?_
  have hlookup : Eff.Frames (Cmd.Via (capture location 1)) Failure.IsExn
      (RouteM.ofView (Conn.domain (capture location 1) (capture location 2))) :=
    .lift (fun _ h => h) (fetches_domain _ _)
  refine routeAnswers_bind (F := fun _ => True)
    (.tryCatch (.map _ hlookup) fun e _ => .ite (.pure _) (.throw trivial)) fun domain => ?_
  cases domain with
  | none => exact answers_setResponse h _ _ _
  | some d => exact hf d

end Middleware

namespace Router

variable {router : Router} {httpConn : Bool} {request : Request} {A : Cmd → Prop}

/-- Every attempt at a route starts from a fresh response, so what was there before does not matter. -/
theorem answers_run_of_find (h : Answering L P Q) {location : List String} {fn : RouteFunction}
    (hf : find request.target router.routes = some (location, fn))
    (hroute : ∀ b, Eff.Ensures A P (fn b location request) (fun _ => Q) fun _ => P) :
    Eff.Ensures A (fun _ => True) (run L router httpConn request) (fun _ => Q) fun _ => P := by
  have hattempt : ∀ n, Eff.Ensures A (fun _ => True) (attempt httpConn location fn request n)
      (fun _ => Q) fun _ => P := fun n =>
    .bind (Q := fun _ => P) (.modify fun _ _ => h.fresh) fun _ => hroute _
  refine .bind (Q := fun _ _ => True) (.modify fun _ _ => trivial) fun _ => ?_
  rw [hf]
  show Eff.Ensures A _ (Eff.tryCatch (retry (attempt httpConn location fn request) 5 0) _) _ _
  refine .tryCatch (F := fun _ => P) ?_ fun e => ?_
  · exact ensures_retry (fun _ _ => trivial) hattempt 5 0
  · cases e with
    | exn e => exact .modify fun r hr => h.error r _ _ hr
    | nullDeref => exact .throw fun _ hr => hr
    | outOfFuel => exact .throw fun _ hr => hr

/-- What `router::run` does: it answers, or ends in undefined behaviour without an answer. -/
theorem answers_run (h : Answering L P Q) (hblank : ∀ r, P r → Q (r.setResponse "" .notFound))
    (hroute : ∀ location fn, find request.target router.routes = some (location, fn) →
      ∀ b, Eff.Ensures A P (fn b location request) (fun _ => Q) fun _ => P) :
    Eff.Ensures A (fun r => P { r.set .contentType "application/json" with result := .ok })
      (run L router httpConn request) (fun _ => Q) fun _ => P := by
  cases hf : find request.target router.routes with
  | none =>
    refine .bind (Q := fun _ => P) (.modify fun r hr => hr) fun _ => ?_
    rw [hf]
    show Eff.Ensures A P (notFound L request) _ _
    unfold notFound
    refine .modify fun r hr => ?_
    split_ifs
    · exact h.error r _ _ hr
    · exact hblank r hr
  | some found =>
    obtain ⟨location, fn⟩ := found
    exact (answers_run_of_find h hf (hroute location fn hf)).conseq (fun _ h => h)
      (fun _ _ => trivial) (fun _ _ h => h) fun _ _ h => h

end Router

end Http

namespace App

open Http.Middleware Views

variable {L : Linked} {T : Timeouts} {P Q : Response → Prop}

theorem answers_appendTrailingSlash (h : Answering L P Q) (user : User) (httpConn : Bool)
    (location : List String) (request : Request) :
    RouteAnswers user P Q (appendTrailingSlash httpConn location request) := by
  refine .bind (Q := fun _ => P) (.modify fun r hr => h.location r _ hr) fun _ => .modify fun r hr => ?_
  exact h.unanswered _ (h.status r .temporaryRedirect (by decide) hr)

theorem answers_websocket (h : Answering L P Q) (conn : User) (httpConn : Bool)
    (location : List String) (request : Request) :
    RouteAnswers conn P Q (websocket conn httpConn location request) := by
  have huser : Eff.Frames (Cmd.Via conn) Failure.IsExn (RouteM.ofView (Virt.user conn)) :=
    .lift (fun _ h => h) (fetches_user conn)
  have hupgrade : Eff.Frames (Cmd.Via conn) (fun _ => True) (upgrade httpConn) :=
    .ite (.call (c := Cmd.upgrade) trivial) (.throw trivial)
  refine routeAnswers_bind huser fun user => routeAnswers_bind hupgrade fun _ => ?_
  have hadd : Eff.Frames (Cmd.Via conn) (fun _ => True)
      (Eff.call (Cmd.websocketsAdd conn user) : RouteM Unit) :=
    .call (c := Cmd.websocketsAdd conn user) rfl
  refine routeAnswers_bind hadd fun _ => .modify fun r hr => ?_
  exact h.unanswered _ (h.status r .switchingProtocols (by decide) hr)

/-- Every route of the app answers, with what it learns through the connection of the user in its
target. -/
theorem answers_route (h : Answering L P Q) :
    ∀ r ∈ (router L T).routes, ∀ httpConn location request,
      RouteAnswers (capture location 1) P Q (r.2 httpConn location request) := by
  have hlibvirt : ∀ (view : User → ViewM Unit) methods httpConn location request,
      (∀ conn, Answers (Op.Via conn) P Q (view conn)) →
      RouteAnswers (capture location 1) P Q (withMethods methods (withLibvirt L fun conn _ _ _ =>
        .ofView (view conn)) httpConn location request) :=
    fun _ _ _ _ _ hview =>
      answers_withMethods h _ (answers_withLibvirt h (answers_ofView (hview _)))
  have hdomain : ∀ (view : User → DomainPtr → Request → ViewM Unit) methods httpConn location request,
      (∀ conn d, Answers (Op.Via conn) P Q (view conn d request)) →
      RouteAnswers (capture location 1) P Q (withMethods methods
        (withLibvirtDomain L fun conn d _ _ request => .ofView (view conn d request))
        httpConn location request) :=
    fun _ _ _ _ _ hview =>
      answers_withMethods h _ (answers_withLibvirtDomain h fun d => answers_ofView (hview _ d))
  rw [router_routes]
  simp only [List.forall_mem_cons]
  refine ⟨?_, ?_, ?_, ?_, ?_, ?_, ?_, ?_, ?_, ?_, ?_, fun r hr => absurd hr List.not_mem_nil⟩
  · exact fun _ location _ => answers_appendTrailingSlash h (capture location 1) _ _ _
  · exact fun _ _ _ => hlibvirt _ _ _ _ _ fun conn => Domains.answers_index h conn
  · exact fun _ _ _ => hdomain _ _ _ _ _ fun conn d => (Domains.answers_show h d).via conn
  · exact fun _ _ request => hdomain _ _ _ _ _ fun conn d =>
      (Domains.answers_autostart h d request).via conn
  · exact fun _ _ request => hdomain _ _ _ _ _ fun conn d => Domains.answers_bootmenu h conn d request
  · exact fun _ _ request => hdomain _ _ _ _ _ fun conn d =>
      (Domains.answers_metadata h d request).via conn
  · exact fun _ _ _ => hdomain _ _ _ _ _ fun conn d => (Domains.answers_shutdown h T d).via conn
  · exact fun _ _ _ => hdomain _ _ _ _ _ fun conn d => (Domains.answers_start h d).via conn
  · exact fun _ _ _ => hlibvirt _ _ _ _ _ fun conn => Host.answers_show h conn
  · exact fun _ _ _ => hlibvirt _ _ _ _ _ fun conn => Host.answers_networks h conn
  · exact fun _ location _ => answers_withMethods h _ (answers_withLibvirt h
      (answers_websocket h (capture location 1) _ _ _))

end App

end Webvirtd
