import Webvirtd.Http.Router
import Webvirtd.Virt.LibvirtState

/-!
# Http.Interruption — interrupted route functions, and what `router::run` makes of them

An interrupted attempt is followed by one on the state that it left (`run_interrupted`).  The checks of
the wrappers do not depend on that state: a request that is `Admitted` once is admitted again.
-/

namespace Webvirtd

open Lib Virt Http

/-- The environment of the route functions.  The pool opens a closed connection again, so that its
answer is the same each time. -/
def Virt.Libvirt.serve (H : Libvirt) (w : LibvirtState) : (c : Cmd) → Cmd.Res c × LibvirtState
  | .getpwnam user => (H.getpwnam user, w)
  | .poolGet user => (H.poolGet user, w)
  | .upgrade => ((), w)
  | .websocketsAdd _ _ => ((), w)
  | .op o => H.answer w o

namespace Http

def cmdFault : (c : Cmd) → Option (Cmd.Res c)
  | .op o => opFault o
  | _ => none

/-- Nothing that changes a domain. -/
def Cmd.ReadOnly : Cmd → Prop
  | .op o => o.ReadOnly
  | _ => True

abbrev RouteM.Stops {α : Type} (m : RouteM α) : Prop := Eff.Stops cmdFault (.exn interrupted) m

abbrev RouteM.Restartable (H : Libvirt) {α : Type} (m : RouteM α) : Prop :=
  Eff.Restartable H.serve cmdFault m

/-- `m` makes its libvirt calls in the states `ws`. -/
abbrev RouteM.Plays (H : Libvirt) {α : Type} (m : RouteM α) (r : Response) (w : LibvirtState)
    (ws : List LibvirtState) (res : Except Failure α) (r' : Response) (w' : LibvirtState) : Prop :=
  Eff.Plays H.serve cmdFault m r w ws res r' w'

section

variable {H : Libvirt} {L : Linked} {α : Type} {m : ViewM α} {r r' : Response} {w w' : LibvirtState}
  {ws : List LibvirtState} {res : Except Failure α}

theorem serve_of_readOnly {c : Cmd} (h : c.ReadOnly) (w : LibvirtState) : (H.serve w c).2 = w := by
  cases c with
  | op o => exact answer_of_readOnly h w
  | _ => rfl

theorem isSome_cmdFault (o : Op) : (cmdFault (.op o)).isSome = (opFault o).isSome := rfl

theorem plays_ofView (h : ViewM.Plays H m r w ws res r' w') :
    RouteM.Plays H (.ofView m) r w ws res r' w' :=
  Eff.Plays.lift (f := Cmd.op) isSome_cmdFault h

theorem plays_setResponse (data : Json) (status : Status) :
    RouteM.Plays H (setResponse L data status) r w [] (.ok ())
      (r.setResponse (L.stringify data) status) w :=
  plays_ofView (Eff.Plays.modify _ r w)

theorem restartable_ofView (h : Eff.Restartable H.answer opFault m) :
    RouteM.Restartable H (.ofView m) :=
  Eff.Restartable.lift (f := Cmd.op) isSome_cmdFault h

theorem uses_ofView (h : Reads m) : Eff.Uses Cmd.ReadOnly Failure.IsExn (RouteM.ofView m) :=
  h.uses.lift (f := Cmd.op) fun _ ho => ho

theorem stops_ofView {A : Call → Prop} {F : Failure → Prop} (h : ViewM.MadeOf A F m) :
    RouteM.Stops (.ofView m) :=
  Eff.Stops.lift (f := Cmd.op) (fun _ _ hr => hr) h.stops

theorem stops_setResponse (data : Json) (status : Status) :
    RouteM.Stops (setResponse L data status) := fun _ => trivial

end

/-! ## Through the wrappers -/

namespace Middleware

section

variable {H : Libvirt} {L : Linked} {methods : List Verb} {httpConn : Bool} {location : List String}
  {request : Request} {r r' : Response} {w w' : LibvirtState} {ws : List LibvirtState}
  {res : Except Failure Unit}

theorem stops_withMethods {routeFn : RouteFunction}
    (h : RouteM.Stops (routeFn httpConn location request)) :
    RouteM.Stops (withMethods methods routeFn httpConn location request) :=
  .bind (.modify _) fun _ => .ite (.pure _) (.ite h (.modify _))

theorem stops_withUser {routeFn : RouteFunction}
    (h : RouteM.Stops (routeFn httpConn location request)) :
    RouteM.Stops (withUser L routeFn httpConn location request) :=
  .bind (.call rfl) fun _ => .ite (stops_setResponse _ _) h

theorem stops_withLibvirt {routeFn : User → RouteFunction}
    (h : ∀ conn, RouteM.Stops (routeFn conn httpConn location request)) :
    RouteM.Stops (withLibvirt L routeFn httpConn location request) := by
  refine stops_withUser (.bind (.call rfl) fun entry => ?_)
  cases entry with
  | ok u => exact h _
  | error e => exact .ite (stops_setResponse _ _) (.throw _)

theorem stops_withLibvirtDomain {routeFn : User → DomainPtr → RouteFunction}
    (h : ∀ conn d, RouteM.Stops (routeFn conn d httpConn location request)) :
    RouteM.Stops (withLibvirtDomain L routeFn httpConn location request) := by
  refine stops_withLibvirt fun conn => .bind (.tryCatch ?_ (fun e => ?_) rfl) fun domain => ?_
  · exact .map _ (stops_ofView (reads_domain conn _))
  · exact .ite (.pure _) (.throw _)
  · cases domain with
    | none => exact stops_setResponse _ _
    | some d => exact h conn d

/-! Restartable route functions stay so. -/

theorem restartable_setResponse (data : Json) (status : Status) :
    RouteM.Restartable H (setResponse L data status) :=
  restartable_ofView (Eff.Uses.restartable (A := Op.ReadOnly) (F := Failure.IsExn)
    (fun w _ ho => answer_of_readOnly ho w) (.modify _))

theorem restartable_withMethods {routeFn : RouteFunction}
    (h : RouteM.Restartable H (routeFn httpConn location request)) :
    RouteM.Restartable H (withMethods methods routeFn httpConn location request) := by
  have hA : ∀ w c, Cmd.ReadOnly c → (H.serve w c).2 = w := fun w _ hc => serve_of_readOnly hc w
  refine .bind (F := Failure.IsExn) hA (.modify _) fun _ => .ite ?_ (.ite h ?_)
  · exact Eff.Uses.restartable (F := Failure.IsExn) hA (.pure _)
  · exact Eff.Uses.restartable (F := Failure.IsExn) hA (.modify _)

theorem restartable_withUser {routeFn : RouteFunction}
    (h : RouteM.Restartable H (routeFn httpConn location request)) :
    RouteM.Restartable H (withUser L routeFn httpConn location request) :=
  .bind (A := Cmd.ReadOnly) (F := Failure.IsExn) (fun w _ hc => serve_of_readOnly hc w)
    (.call (c := Cmd.getpwnam _) trivial) fun _ => .ite (restartable_setResponse _ _) h

theorem restartable_withLibvirt {routeFn : User → RouteFunction}
    (h : ∀ conn, RouteM.Restartable H (routeFn conn httpConn location request)) :
    RouteM.Restartable H (withLibvirt L routeFn httpConn location request) := by
  have hA : ∀ w c, Cmd.ReadOnly c → (H.serve w c).2 = w := fun w _ hc => serve_of_readOnly hc w
  refine restartable_withUser (.bind (F := Failure.IsExn) hA
    (.call (c := Cmd.poolGet _) trivial) fun entry => ?_)
  cases entry with
  | ok u => exact h _
  | error e =>
    refine .ite (restartable_setResponse _ _) ?_
    exact Eff.Uses.restartable (F := Failure.IsExn) hA (.throw trivial)

theorem restartable_withLibvirtDomain {routeFn : User → DomainPtr → RouteFunction}
    (h : ∀ conn d, RouteM.Restartable H (routeFn conn d httpConn location request)) :
    RouteM.Restartable H (withLibvirtDomain L routeFn httpConn location request) := by
  have hA : ∀ w c, Cmd.ReadOnly c → (H.serve w c).2 = w := fun w _ hc => serve_of_readOnly hc w
  refine restartable_withLibvirt fun conn => .bind (F := Failure.IsExn) hA ?_ fun domain => ?_
  · refine .tryCatch (F := Failure.IsExn) (.map _ (uses_ofView (reads_domain conn _))) fun e he => ?_
    exact .ite (.pure _) (.throw he)
  · cases domain with
    | none => exact restartable_setResponse _ _
    | some d => exact h conn d

/-! ## Admission -/

/-- The request passes the checks before the domain is looked up. -/
structure Admitted (H : Libvirt) (methods : List Verb) (location : List String) (request : Request) :
    Prop where
  ne : request.method ≠ .options
  mem : request.method ∈ methods
  user : H.getpwnam (cStr (capture location 1)) = true
  pool : H.poolGet (capture location 1) = .ok ()

theorem plays_allow :
    RouteM.Plays H (Eff.modify fun r => r.set .allow (allow methods)) r w [] (.ok ())
      (r.set .allow (allow methods)) w := Eff.Plays.modify _ r w

theorem plays_withMethods {routeFn : RouteFunction} (hne : request.method ≠ .options)
    (hmem : request.method ∈ methods)
    (h : RouteM.Plays H (routeFn httpConn location request) (r.set .allow (allow methods)) w ws res r'
      w') :
    RouteM.Plays H (withMethods methods routeFn httpConn location request) r w ws res r' w' := by
  refine Eff.Plays.bind_nil plays_allow ?_
  rw [if_neg hne, if_pos hmem]
  exact h

theorem exists_plays_withMethods (routeFn : RouteFunction)
    (h : request.method = .options ∨ request.method ∉ methods) :
    ∃ res r', RouteM.Plays H (withMethods methods routeFn httpConn location request) r w [] res r' w := by
  by_cases hne : request.method = .options
  · have hend : RouteM.Plays H (if request.method = .options then pure ()
        else if request.method ∈ methods then routeFn httpConn location request
        else Eff.modify fun r => { r with result := .methodNotAllowed })
        (r.set .allow (allow methods)) w [] (.ok ()) (r.set .allow (allow methods)) w := by
      rw [if_pos hne]
      exact Eff.Plays.pure _ _ _
    exact ⟨_, _, Eff.Plays.bind_nil plays_allow hend⟩
  · have hend : RouteM.Plays H (if request.method = .options then pure ()
        else if request.method ∈ methods then routeFn httpConn location request
        else Eff.modify fun r => { r with result := .methodNotAllowed })
        (r.set .allow (allow methods)) w [] (.ok ())
        { r.set .allow (allow methods) with result := .methodNotAllowed } w := by
      rw [if_neg hne, if_neg (h.resolve_left hne)]
      exact Eff.Plays.modify _ _ _
    exact ⟨_, _, Eff.Plays.bind_nil plays_allow hend⟩

theorem plays_getpwnam (user : String) :
    RouteM.Plays H (getpwnam user) r w [] (.ok (H.getpwnam (cStr user))) r w :=
  Eff.Plays.call (c := Cmd.getpwnam (cStr user)) rfl r w

theorem plays_withUser {routeFn : RouteFunction} (hu : H.getpwnam (cStr (capture location 1)) = true)
    (h : RouteM.Plays H (routeFn httpConn location request) r w ws res r' w') :
    RouteM.Plays H (withUser L routeFn httpConn location request) r w ws res r' w' := by
  have hcall := plays_getpwnam (H := H) (r := r) (w := w) (capture location 1)
  rw [hu] at hcall
  exact Eff.Plays.bind_nil hcall h

theorem plays_withUser_none (routeFn : RouteFunction)
    (hu : H.getpwnam (cStr (capture location 1)) = false) :
    RouteM.Plays H (withUser L routeFn httpConn location request) r w [] (.ok ())
      (r.setResponse (L.stringify (Json.error "Unable to locate user")) .notFound) w := by
  have hcall := plays_getpwnam (H := H) (r := r) (w := w) (capture location 1)
  rw [hu] at hcall
  exact Eff.Plays.bind_nil hcall (plays_setResponse _ _)

theorem plays_poolGet (user : User) :
    RouteM.Plays H (poolGet user) r w [] (.ok (H.poolGet user)) r w :=
  Eff.Plays.call (c := Cmd.poolGet user) rfl r w

theorem plays_withLibvirt {routeFn : User → RouteFunction} (ha : Admitted H methods location request)
    (h : RouteM.Plays H (routeFn (capture location 1) httpConn location request)
      (r.set .allow (allow methods)) w ws res r' w') :
    RouteM.Plays H (withMethods methods (withLibvirt L routeFn) httpConn location request) r w ws res
      r' w' := by
  refine plays_withMethods ha.ne ha.mem (plays_withUser ha.user ?_)
  have hpool := plays_poolGet (H := H) (r := r.set .allow (allow methods)) (w := w) (capture location 1)
  rw [ha.pool] at hpool
  exact Eff.Plays.bind_nil hpool h

theorem exists_plays_withLibvirt_error (routeFn : User → RouteFunction) {e : Exn}
    (hu : H.getpwnam (cStr (capture location 1)) = true)
    (hp : H.poolGet (capture location 1) = .error e) :
    ∃ res r', RouteM.Plays H (withLibvirt L routeFn httpConn location request) r w [] res r' w := by
  have hpool := plays_poolGet (H := H) (r := r) (w := w) (capture location 1)
  rw [hp] at hpool
  have hend : ∃ res r', RouteM.Plays H (if ExnClass.runtimeError.catches e.cls then
      setResponse L (Json.error "Unable to connect to libvirt") .internalServerError
      else Eff.throw (.exn e)) r w [] res r' w := by
    split_ifs
    · exact ⟨_, _, plays_setResponse _ _⟩
    · exact ⟨_, _, Eff.Plays.throw _ r w⟩
  obtain ⟨res, r', hend⟩ := hend
  exact ⟨res, r', plays_withUser hu (Eff.Plays.bind_nil hpool hend)⟩

/-- A request that is not admitted makes no call. -/
theorem exists_plays_of_not_admitted (routeFn : User → RouteFunction)
    (ha : ¬ Admitted H methods location request) :
    ∃ res r', RouteM.Plays H (withMethods methods (withLibvirt L routeFn) httpConn location request) r w
      [] res r' w := by
  by_cases hne : request.method = .options
  · exact exists_plays_withMethods _ (.inl hne)
  by_cases hmem : request.method ∈ methods
  swap
  · exact exists_plays_withMethods _ (.inr hmem)
  cases hu : H.getpwnam (cStr (capture location 1)) with
  | false => exact ⟨_, _, plays_withMethods hne hmem (plays_withUser_none _ hu)⟩
  | true =>
    cases hp : H.poolGet (capture location 1) with
    | ok u => exact absurd ⟨hne, hmem, hu, hp⟩ ha
    | error e =>
      have hend : ∃ res r', RouteM.Plays H (withLibvirt L routeFn httpConn location request)
          (r.set .allow (allow methods)) w [] res r' w := exists_plays_withLibvirt_error routeFn hu hp
      obtain ⟨res, r', h⟩ := hend
      exact ⟨res, r', plays_withMethods hne hmem h⟩

theorem plays_lookup (conn : User) (name : String) :
    ViewM.Plays H (perform (.virDomainLookupByName conn (cStr name))) r w [w]
      (.ok (w.lookup conn (cStr name))) r w :=
  plays_perform (.virDomainLookupByName conn (cStr name))

/-- One call before the view. -/
theorem plays_withLibvirtDomain {routeFn : User → DomainPtr → RouteFunction} {d : DomainPtr}
    (ha : Admitted H methods location request)
    (hd : w.lookup (capture location 1) (cStr (capture location 2)) = some d)
    (h : RouteM.Plays H (routeFn (capture location 1) d httpConn location request)
      (r.set .allow (allow methods)) w ws res r' w') :
    RouteM.Plays H (withMethods methods (withLibvirtDomain L routeFn) httpConn location request) r w
      (w :: ws) res r' w' := by
  have hlookup := plays_lookup (H := H) (r := r.set .allow (allow methods)) (w := w)
    (capture location 1) (capture location 2)
  rw [hd] at hlookup
  have hdomain : ViewM.Plays H (Conn.domain (capture location 1) (capture location 2))
      (r.set .allow (allow methods)) w [w] (.ok d) (r.set .allow (allow methods)) w :=
    Eff.Plays.bind_last hlookup (Eff.Plays.pure d _ w)
  exact plays_withLibvirt ha
    (Eff.Plays.bind (Eff.Plays.tryCatch (Eff.Plays.map some (plays_ofView hdomain))) h)

/-- A domain that does not exist. -/
theorem plays_withLibvirtDomain_none {routeFn : User → DomainPtr → RouteFunction}
    (ha : Admitted H methods location request)
    (hd : w.lookup (capture location 1) (cStr (capture location 2)) = none) :
    RouteM.Plays H (withMethods methods (withLibvirtDomain L routeFn) httpConn location request) r w
      [w] (.ok ()) ((r.set .allow (allow methods)).setResponse
        (L.stringify (Json.error "Domain not found")) .notFound) w := by
  have hlookup := plays_lookup (H := H) (r := r.set .allow (allow methods)) (w := w)
    (capture location 1) (capture location 2)
  rw [hd] at hlookup
  have hdomain : ViewM.Plays H (Conn.domain (capture location 1) (capture location 2))
      (r.set .allow (allow methods)) w [w]
      (.error (.exn ⟨.domainError, "virDomainLookupByName error"⟩)) (r.set .allow (allow methods)) w :=
    Eff.Plays.bind_last hlookup (Eff.Plays.throw _ _ w)
  have hcaught : RouteM.Plays H
      (Eff.tryCatch (some <$> RouteM.ofView (Conn.domain (capture location 1) (capture location 2)))
        fun e => if e.caughtBy .domainError then pure none else Eff.throw e)
      (r.set .allow (allow methods)) w [w] (.ok none) (r.set .allow (allow methods)) w :=
    Eff.Plays.tryCatch_error (Eff.Plays.map_error some (plays_ofView hdomain))
      (Eff.Plays.pure none _ w)
  exact plays_withLibvirt ha (Eff.Plays.bind_last hcaught (plays_setResponse _ _))

end

end Middleware

/-! ## What `run` makes of it -/

namespace Router

/-- The pattern of the first route that matches the target, with the match. -/
def routed (target : String) : List (String × RouteFunction) → Option (String × List String)
  | [] => none
  | (pattern, _) :: rs =>
    match location pattern target with
    | some m => some (pattern, m)
    | none => routed target rs

theorem find_cases (target : String) (rs : List (String × RouteFunction)) :
    find target rs = none ∨
      ∃ r ∈ rs, ∃ m, find target rs = some (m, r.2) ∧ routed target rs = some (r.1, m) := by
  induction rs with
  | nil => exact .inl rfl
  | cons r rs ih =>
    obtain ⟨pattern, fn⟩ := r
    cases hl : location pattern target with
    | some m => exact .inr ⟨_, List.mem_cons_self, m, by simp [find, hl], by simp [routed, hl]⟩
    | none =>
      have hfind : find target ((pattern, fn) :: rs) = find target rs := by rw [find, hl]
      have hrouted : routed target ((pattern, fn) :: rs) = routed target rs := by rw [routed, hl]
      rw [hfind, hrouted]
      rcases ih with h | ⟨r, hr, m, h⟩
      · exact .inl h
      · exact .inr ⟨r, List.mem_cons_of_mem _ hr, m, h⟩

/-- The `catch` in `run`. -/
def conclude (L : Linked) : Except Failure Unit × Response → Except Failure Unit × Response
  | (.error (.exn e), r) =>
    (.ok (), r.setResponse (L.stringify (Json.error e.what)) .internalServerError)
  | res => res

variable {L : Linked} {router : Router} {request : Request} {location : List String}
  {fn : RouteFunction} {σ : Type} {answer : σ → (c : Cmd) → Cmd.Res c × σ}

/-- However often the function is retried, it ends as it would end at once: another attempt only
follows one that left the surroundings alone. -/
theorem exec_retry (hfn : ∀ b b', fn b location request = fn b' location request) {httpConn : Bool}
    {w w' : σ} {res : Except Failure Unit} {r' : Response}
    (h : (fn false location request).exec answer {} w = (res, r', w'))
    (hsame : ∀ e, res = .error e → e.caughtBy .retryError = true → w' = w) (budget n : ℕ)
    (r : Response) :
    ∃ res', (retry (attempt httpConn location fn request) budget n).exec answer r w = (res', r', w') ∧
      conclude L (res', r') = conclude L (res, r') := by
  have hattempt : ∀ n r, (attempt httpConn location fn request n).exec answer r w = (res, r', w') := by
    intro n r
    rw [exec_attempt, hfn _ false]
    exact h
  cases res with
  | ok u => exact ⟨_, retry_of_ok (hattempt n r), rfl⟩
  | error e =>
    cases he : e.caughtBy .retryError with
    | false => exact ⟨_, retry_of_error he (hattempt n r), rfl⟩
    | true =>
      obtain rfl : w' = w := hsame e rfl he
      have hfinal : ∀ e : Failure, e.caughtBy .retryError = true →
          ∃ cls what, e = .exn ⟨cls, what⟩ ∧ ExnClass.retryError.catches cls = true := by
        intro e he
        cases e with
        | exn e => exact ⟨e.cls, e.what, rfl, he⟩
        | nullDeref => cases he
        | outOfFuel => cases he
      obtain ⟨cls, what, rfl, hc⟩ := hfinal e he
      induction budget generalizing n r with
      | zero =>
        refine ⟨.error (.exn ⟨.domainError, what⟩), ?_, rfl⟩
        rw [retry, Eff.exec_tryCatch, hattempt n r]
        simp [hc]
      | succ budget ih =>
        have hcls : cls = .retryError := by
          cases cls with
          | retryError => rfl
          | _ => cases hc
        rw [retry_of_retryError hcls (hattempt n r)]
        exact ih (n + 1) r'

/-- The end of `run`, from any attempt on. -/
theorem exec_catch (httpConn : Bool) (hfn : ∀ b b', fn b location request = fn b' location request)
    {w w' : σ} {res : Except Failure Unit} {r' : Response}
    (h : (fn false location request).exec answer {} w = (res, r', w'))
    (hsame : ∀ e, res = .error e → e.caughtBy .retryError = true → w' = w) (budget n : ℕ)
    (r : Response) :
    (Eff.tryCatch (retry (attempt httpConn location fn request) budget n) fun
      | .exn exc => setResponse L (Json.error exc.what) .internalServerError
      | e => Eff.throw e).exec answer r w =
      ((conclude L (res, r')).1, (conclude L (res, r')).2, w') := by
  obtain ⟨res', hretry, hres⟩ := exec_retry (L := L) hfn h hsame budget n r
  rw [Eff.exec_tryCatch, hretry, ← hres]
  cases res' with
  | ok u => rfl
  | error e =>
    cases e with
    | exn e => rfl
    | nullDeref => rfl
    | outOfFuel => rfl

end Router

section

variable {H : Libvirt} {L : Linked} {router : Router} {request : Request} {location : List String}
  {fn : RouteFunction} {w w' : LibvirtState} {r r' : Response} {res : Except Failure Unit}
  {ws : List LibvirtState} {n : ℕ}

/-- `run` without an interruption. -/
theorem run_uninterrupted (hf : Router.find request.target router.routes = some (location, fn))
    (hfn : ∀ b b', fn b location request = fn b' location request)
    (h : (fn false location request).exec H.serve {} w = (res, r', w'))
    (hsame : ∀ e, res = .error e → e.caughtBy .retryError = true → w' = w) :
    (Router.run L router true request).exec (inject H.serve cmdFault) r (w, none) =
      ((Router.conclude L (res, r')).1, (Router.conclude L (res, r')).2, w', none) := by
  rw [Eff.exec_inject_none]
  unfold Router.run
  rw [Eff.exec_bind_ok H.serve (Eff.exec_modify H.serve _ r w), hf]
  exact congrArg (fun x => (x.1, x.2.1, x.2.2, none)) (Router.exec_catch true hfn h hsame 5 0 _)

/-- An interrupted first attempt is followed by one from the state that it left. -/
theorem run_interrupted (hf : Router.find request.target router.routes = some (location, fn))
    (hfn : ∀ b b', fn b location request = fn b' location request)
    (hstops : RouteM.Stops (fn false location request))
    (hws : (fn false location request).trace H.serve cmdFault {} w = ws) (hn : n < ws.length)
    (h : (fn false location request).exec H.serve {} ws[n] = (res, r', w'))
    (hsame : ∀ e, res = .error e → e.caughtBy .retryError = true → w' = ws[n]) :
    (Router.run L router true request).exec (inject H.serve cmdFault) r (w, some n) =
      ((Router.conclude L (res, r')).1, (Router.conclude L (res, r')).2, w', none) := by
  subst hws
  obtain ⟨r1, hfirst⟩ := Eff.exec_inject_of_lt hstops hn
  have hattempt : ∀ r, (Router.attempt true location fn request 0).exec (inject H.serve cmdFault) r
      (w, some n) = (.error (.exn interrupted), r1,
        ((fn false location request).trace H.serve cmdFault {} w)[n], none) := by
    intro r
    rw [Router.exec_attempt, hfn _ false]
    exact hfirst
  have hretry : ∀ r, (retry (Router.attempt true location fn request) 5 0).exec
      (inject H.serve cmdFault) r (w, some n) =
      (retry (Router.attempt true location fn request) 4 1).exec (inject H.serve cmdFault) r1
        (((fn false location request).trace H.serve cmdFault {} w)[n], none) :=
    fun r => retry_of_retryError rfl (hattempt r)
  unfold Router.run
  rw [Eff.exec_bind_ok _ (Eff.exec_modify _ _ r (w, some n)), hf]
  show Eff.exec _ (Eff.tryCatch _ _) _ _ = _
  rw [Eff.exec_tryCatch, hretry, ← Eff.exec_tryCatch, Eff.exec_inject_none]
  exact congrArg (fun x => (x.1, x.2.1, x.2.2, none)) (Router.exec_catch true hfn h hsame 4 1 r1)

end

end Http

end Webvirtd
