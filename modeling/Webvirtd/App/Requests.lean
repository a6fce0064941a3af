import Webvirtd.App.Routes
import Webvirtd.Virt.History

/-!
# App.Requests — a request that reaches the view of a domain

`Reaches` says that the user, the connection and the domain of a request are found.  The route of a domain view then
calls libvirt as the view does (`makes_domainRoute`), and `router::run` answers as the view answers, or with what it
threw (`makes_run`, `makes_run_exn`).
-/

namespace Webvirtd.App

open Lib Virt Http Http.Middleware

abbrev CmdEvent : Type := Event Cmd.Res

/-- A libvirt call of a view, as a command of its route. -/
def ofOp (e : OpEvent) : CmdEvent := ⟨.op e.1, e.2⟩

/-- What the surroundings answer to the operations of the views. -/
def ops {σ : Type} (answer : σ → (c : Cmd) → Cmd.Res c × σ) (w : σ) (o : Op) : Op.Res o × σ := answer w (.op o)

section

variable {σ : Type} {answer : σ → (c : Cmd) → Cmd.Res c × σ} {location : List String} {d : DomainPtr} {w w' w'' : σ}
  {r r' : Response} {L : Linked} {request : Request} {httpConn : Bool} {methods : List Verb}

/-- The calls of `with_libvirt_domain`. -/
def domainCalls (location : List String) (d : DomainPtr) : List CmdEvent :=
  [⟨.getpwnam (cStr (capture location 1)), true⟩, ⟨.poolGet (capture location 1), .ok ()⟩,
    ⟨.op (.libvirt (.virDomainLookupByName (capture location 1) (cStr (capture location 2)))), .ok (some d)⟩]

/-- `with_libvirt_domain` finds the domain `d`, in surroundings that are `w'` then. -/
structure Reaches (answer : σ → (c : Cmd) → Cmd.Res c × σ) (location : List String) (d : DomainPtr) (w w' : σ) :
    Prop where
  user : (answer w (.getpwnam (cStr (capture location 1)))).1 = true
  pool : (answer (answer w (.getpwnam (cStr (capture location 1)))).2 (.poolGet (capture location 1))).1 = .ok ()
  domain : answer (answer (answer w (.getpwnam (cStr (capture location 1)))).2 (.poolGet (capture location 1))).2
    (.op (.libvirt (.virDomainLookupByName (capture location 1) (cStr (capture location 2))))) =
      ((.ok (some d) : Except Exn (Option DomainPtr)), w')

theorem makes_ofView {α : Type} {m : ViewM α} {es : List OpEvent} {x : Except Failure α}
    (h : Eff.Makes (ops answer) m r w es x r' w') : Eff.Makes answer (RouteM.ofView m) r w (es.map ofOp) x r' w' :=
  Eff.Makes.lift h

theorem makes_domain (conn : User) (name : String)
    (h : answer w (.op (.libvirt (.virDomainLookupByName conn (cStr name)))) =
      ((.ok (some d) : Except Exn (Option DomainPtr)), w')) :
    Eff.Makes (ops answer) (Conn.domain conn name) r w
      [⟨.libvirt (.virDomainLookupByName conn (cStr name)), .ok (some d)⟩] (.ok d) r w' := by
  have hcall : Eff.Makes (ops answer) (perform (.virDomainLookupByName conn (cStr name))) r w _ _ r _ :=
    makes_perform (congrArg Prod.fst h)
  rw [show (ops answer w (.libvirt (.virDomainLookupByName conn (cStr name)))).2 = w' from congrArg Prod.snd h]
    at hcall
  exact hcall.bind_last (.pure d r w')

/-- A request that reaches the view calls libvirt as the view does, after the calls that find the domain. -/
theorem makes_domainRoute (view : User → DomainPtr → Request → ViewM Unit) (hne : request.method ≠ .options)
    (hmem : request.method ∈ methods) (hreach : Reaches answer location d w w') {es : List OpEvent}
    {x : Except Failure Unit}
    (h : Eff.Makes (ops answer) (view (capture location 1) d request) (r.set .allow (allow methods)) w' es x r' w'') :
    Eff.Makes answer (withMethods methods (withLibvirtDomain L fun conn d _ _ request => .ofView (view conn d request))
      httpConn location request) r w (domainCalls location d ++ es.map ofOp) x r' w'' := by
  have huser : Eff.Makes answer (getpwnam (capture location 1)) (r.set .allow (allow methods)) w _ _ _ _ := .call _ _ _
  rw [hreach.user] at huser
  have hpool : Eff.Makes answer (poolGet (capture location 1)) (r.set .allow (allow methods))
      (answer w (.getpwnam (cStr (capture location 1)))).2 _ _ _ _ := .call _ _ _
  rw [hreach.pool] at hpool
  have hdomain := (makes_ofView (makes_domain (r := r.set .allow (allow methods)) _ _ hreach.domain)).map some
  have hview := makes_ofView h
  refine .bind_nil (.modify _ r w) ?_
  rw [if_neg hne, if_pos hmem]
  change Eff.Makes answer _ _ _ ([_] ++ ([_] ++ ([_] ++ es.map ofOp))) _ _ _
  exact huser.bind (hpool.bind (hdomain.tryCatch.bind hview))

variable {router : Router} {fn : RouteFunction} {es : List CmdEvent}

theorem makes_run (hf : Router.find request.target router.routes = some (location, fn))
    (h : Eff.Makes answer (fn httpConn location request) {} w es (.ok ()) r' w') :
    Eff.Makes answer (Router.run L router httpConn request) r w es (.ok ()) r' w' :=
  fun log => Router.run_of_ok hf (h log)

/-- What a view throws is answered with an internal server error. -/
theorem makes_run_exn (hf : Router.find request.target router.routes = some (location, fn)) {e : Exn}
    (he : e.cls ≠ .retryError)
    (h : Eff.Makes answer (fn httpConn location request) {} w es (.error (.exn e)) r' w') :
    Eff.Makes answer (Router.run L router httpConn request) r w es (.ok ())
      (r'.setResponse (L.stringify (Json.error e.what)) .internalServerError) w' :=
  fun log => Router.run_of_exn hf he (h log)

end

end Webvirtd.App
