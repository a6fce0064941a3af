import Webvirtd.App.Answers
import Webvirtd.Virt.ConnectionPool

/-!
# App.Gate — what comes before a view

`with_methods`, `with_user`, `with_libvirt` and `with_libvirt_domain` each may answer in place of the view.
The surroundings here are a password database, the pool, and a libvirt whose calls may fail but raise no
exception; they record what they are asked.

`Stopped`: the attempt was answered without the view.  `Passed`: it is the view, with what it is given.
`gate_order`: the order of the checks, and what each of them has asked for by then.
-/

namespace Webvirtd.App

open Lib Virt Http Http.Middleware

/-- What answers an attempt; a view may ask for the `rest`. -/
structure GateHost (σ : Type) where
  /-- `getpwnam` finds the user. -/
  passwd : σ → String → Bool
  /-- What `virConnectOpen` returns, if it is called. -/
  opened : σ → OpenResult
  /-- `virDomainLookupByName` -/
  lookup : σ → Virt.Connection → String → Option DomainPtr
  rest : σ → (c : Cmd) → Cmd.Res c × σ

structure GateWorld (σ : Type) where
  pool : PoolState
  /-- What has been asked for, newest first. -/
  asked : List Cmd
  state : σ

def GateWorld.ask {σ : Type} (w : GateWorld σ) (c : Cmd) : GateWorld σ :=
  { w with asked := c :: w.asked }

variable {σ : Type} (strerror : ℤ → String) (E : GateHost σ)

def GateHost.serve (w : GateWorld σ) : (c : Cmd) → Cmd.Res c × GateWorld σ
  | .getpwnam user => (E.passwd w.state user, w.ask (.getpwnam user))
  | .poolGet user =>
    ((w.pool.get strerror user (E.opened w.state)).1.map fun _ => (),
      { w.ask (.poolGet user) with pool := (w.pool.get strerror user (E.opened w.state)).2 })
  | .op (.libvirt (.virDomainLookupByName conn name)) =>
    (.ok (E.lookup w.state (w.pool.entry conn) name),
      w.ask (.op (.libvirt (.virDomainLookupByName conn name))))
  | c => ((E.rest w.state c).1, { w.ask c with state := (E.rest w.state c).2 })

/-! ## How an attempt may end -/

/-- The outcome of an attempt. -/
abbrev GateEnd (σ : Type) : Type := Except Failure Unit × Response × GateWorld σ

/-- Answered with `status` after `asked`, by the gate: `Allow` names the methods, and no pool entry but
that of `user` has changed. -/
structure Stopped (methods : List Verb) (user : User) (w : GateWorld σ) (status : Status)
    (asked : List Cmd) (x : GateEnd σ) : Prop where
  returns : x.1 = .ok ()
  status : x.2.1.result = status
  allow : x.2.1.field .allow = some (", ".intercalate (methods.map Verb.text ++ ["OPTIONS"]))
  asked : x.2.2.asked = asked ++ w.asked
  pool : ∀ u, u ≠ user → x.2.2.pool.connections u = w.pool.connections u
  state : x.2.2.state = w.state

/-- The view leaves `Allow` alone, and uses no connection but that of `user`. -/
def Modest (user : User) (view : RouteM Unit) : Prop :=
  ∀ allow, Eff.Ensures (Cmd.Via user) (fun r => r.field .allow = allow) view
    (fun _ r => r.field .allow = allow) fun _ r => r.field .allow = allow

/-- The attempt goes on as `view`, called once, on the response and in the world that the gate leaves: the
pool's entry for `user` is `c` there. -/
def Passed (methods : List Verb) (user : User) (w : GateWorld σ) (c : Virt.Connection)
    (asked : List Cmd) (view : RouteM Unit) (x : GateEnd σ) : Prop :=
  ∃ r w', Stopped methods user w .ok asked (.ok (), r, w') ∧ w'.pool.entry user = c ∧
    x = view.exec (E.serve strerror) r w' ∧
    (Modest user view →
      x.2.1.field .allow = some (", ".intercalate (methods.map Verb.text ++ ["OPTIONS"])) ∧
        ∀ u, u ≠ user → x.2.2.pool.connections u = w.pool.connections u)

section

variable {strerror} {E} {methods : List Verb} {user : User} {w : GateWorld σ} {asked : List Cmd}
  {view : RouteM Unit} {r : Response} {w' : GateWorld σ}

/-- The header lists the methods, and `OPTIONS`. -/
theorem allow_eq (methods : List Verb) :
    allow methods = ", ".intercalate (methods.map Verb.text ++ ["OPTIONS"]) := by
  have hfold : ∀ (methods : List Verb) (acc : String),
      methods.foldl (fun allow method => allow ++ (method.text ++ ", ")) acc ++ "OPTIONS" =
        acc ++ ", ".intercalate (methods.map Verb.text ++ ["OPTIONS"]) := by
    intro methods
    induction methods with
    | nil => exact fun acc => rfl
    | cons method methods ih =>
      intro acc
      rw [List.foldl_cons, ih, List.map_cons, List.cons_append,
        String.intercalate_cons_of_ne_nil (by simp)]
      simp only [String.append_assoc]
  unfold allow
  rw [hfold, String.empty_append]

/-- A command about `user` changes no other entry of the pool. -/
theorem connections_serve {c : Cmd} (hc : c.Via user) {u : User} (hu : u ≠ user) :
    (E.serve strerror w c).2.pool.connections u = w.pool.connections u := by
  cases c with
  | getpwnam name => rfl
  | poolGet name =>
    obtain rfl : name = user := hc
    exact get_connections_other w.pool hu _
  | upgrade => rfl
  | websocketsAdd conn name => rfl
  | op o =>
    cases o with
    | libvirt c => cases c <;> rfl
    | _ => rfl

/-- A view that asks libvirt about `user` and answers with a document is modest. -/
theorem modest_ofView {L : Linked} {α : Type} {m : ViewM α} (hm : Fetches (Op.Via user) m)
    (data : α → Json) (st : Status) :
    Modest user (.ofView (m >>= fun a => Views.respond L (data a) st)) := by
  intro allow
  refine .lift (fun _ h => h) (.bind (Q := fun _ r => r.field .allow = allow) ?_ fun a =>
    .modify fun r hr => ?_)
  · exact (hm.ensures fun r => r.field .allow = allow).conseq (fun _ h => h) (fun _ h => h)
      (fun _ _ h => h) fun _ _ h => h.2
  · exact (Response.field_setResponse (by decide) _ _ _).trans hr

example (L : Linked) : Modest user (.ofView (Views.Host.show L user)) :=
  modest_ofView (Data.fetches_host L user) id .ok

/-- What the gate leaves, a modest view keeps. -/
theorem passed_of_stopped {c : Virt.Connection} (h : Stopped methods user w .ok asked (.ok (), r, w'))
    (hc : w'.pool.entry user = c) :
    Passed strerror E methods user w c asked view (view.exec (E.serve strerror) r w') := by
  refine ⟨r, w', h, hc, rfl, fun hmodest => ?_⟩
  obtain ⟨hpool, hends⟩ := (hmodest _ r h.allow).run (E.serve strerror)
    (I := fun x => ∀ u, u ≠ user → x.pool.connections u = w.pool.connections u)
    (fun x c hc hx u hu => (connections_serve hc hu).trans (hx u hu)) h.pool
  refine ⟨?_, hpool⟩
  show ((view r).run (E.serve strerror) w').1.2.field .allow = _
  rcases hx : ((view r).run (E.serve strerror) w').1 with ⟨e | u, r'⟩
  · rw [hx] at hends
    exact hends
  · rw [hx] at hends
    exact hends

end

/-! ## The order of the checks -/

/-- The checks before `connected`, in their order: each is made only if those before it let the request
pass, and a request that does not pass has asked for no more. -/
structure GateOrder (methods : List Verb) (user : User) (request : Request) (w : GateWorld σ)
    (connected : Virt.Connection → Prop) (x : GateEnd σ) : Prop where
  options : request.method = .options → Stopped methods user w .ok [] x
  refused : request.method ≠ .options → request.method ∉ methods →
    Stopped methods user w .methodNotAllowed [] x
  unknown : request.method ≠ .options → request.method ∈ methods →
    E.passwd w.state (cStr user) = false →
    Stopped methods user w .notFound [.getpwnam (cStr user)] x
  unconnected : request.method ≠ .options → request.method ∈ methods →
    E.passwd w.state (cStr user) = true →
    ∀ e, (w.pool.get strerror user (E.opened w.state)).1 = .error e →
    Stopped methods user w .internalServerError [.poolGet user, .getpwnam (cStr user)] x
  connected : request.method ≠ .options → request.method ∈ methods →
    E.passwd w.state (cStr user) = true →
    ∀ c, (w.pool.get strerror user (E.opened w.state)).1 = .ok c → connected c

/-- The response that a route function inside `with_methods` starts from. -/
def permitted (methods : List Verb) : Response := ({} : Response).set .allow (allow methods)

/-- The world after the two questions of `with_libvirt`. -/
def GateHost.connectedWorld (w : GateWorld σ) (user : User) : GateWorld σ :=
  (E.serve strerror (E.serve strerror w (.getpwnam (cStr user))).2 (.poolGet user)).2

section

variable {strerror} {E} {methods : List Verb} {user : User} {w w' : GateWorld σ} {asked : List Cmd}

/-- The gate answers with a document or none. -/
theorem stopped_permitted {st : Status} {r : Response} (hr : r.result = st)
    (hallow : r.field .allow = (permitted methods).field .allow)
    (hasked : w'.asked = asked ++ w.asked)
    (hpool : ∀ u, u ≠ user → w'.pool.connections u = w.pool.connections u)
    (hstate : w'.state = w.state) : Stopped methods user w st asked (.ok (), r, w') where
  returns := rfl
  status := hr
  allow := by
    rw [hallow, ← allow_eq]
    exact Response.field_set_self _ _ _
  asked := hasked
  pool := hpool
  state := hstate

theorem stopped_setResponse {st : Status} {text : String} (hasked : w'.asked = asked ++ w.asked)
    (hpool : ∀ u, u ≠ user → w'.pool.connections u = w.pool.connections u)
    (hstate : w'.state = w.state) :
    Stopped methods user w st asked (.ok (), (permitted methods).setResponse text st, w') :=
  stopped_permitted rfl (Response.field_setResponse (by decide) _ _ _) hasked hpool hstate

theorem stopped_connected {st : Status} {r : Response} (hr : r.result = st)
    (hallow : r.field .allow = (permitted methods).field .allow) :
    Stopped methods user w st [.poolGet user, .getpwnam (cStr user)]
      (.ok (), r, E.connectedWorld strerror w user) :=
  stopped_permitted hr hallow rfl (fun _ hu => get_connections_other w.pool hu _) rfl

end

theorem exec_withLibvirt_serve (L : Linked) (view : User → RouteFunction) (httpConn : Bool)
    (location : List String) (request : Request) (r : Response) (w : GateWorld σ) :
    (withLibvirt L view httpConn location request).exec (E.serve strerror) r w =
      let user := capture location 1
      if E.passwd w.state (cStr user) then
        match (w.pool.get strerror user (E.opened w.state)).1 with
        | .ok _ => (view user httpConn location request).exec (E.serve strerror) r
            (E.connectedWorld strerror w user)
        | .error _ => (.ok (), r.setResponse (L.stringify (Json.error "Unable to connect to libvirt"))
            .internalServerError, E.connectedWorld strerror w user)
      else (.ok (), r.setResponse (L.stringify (Json.error "Unable to locate user")) .notFound,
        w.ask (.getpwnam (cStr user))) := by
  rw [exec_withLibvirt]
  refine if_congr Iff.rfl ?_ rfl
  have hget : (E.serve strerror (E.serve strerror w (.getpwnam (cStr (capture location 1)))).2
      (.poolGet (capture location 1))).1 =
      (w.pool.get strerror (capture location 1) (E.opened w.state)).1.map fun _ => () := rfl
  cases hc : (w.pool.get strerror (capture location 1) (E.opened w.state)).1 with
  | ok c =>
    rw [hc] at hget
    simp only [hget, Except.map]
    rfl
  | error e =>
    rw [hc] at hget
    have hcls : e.cls = .runtimeError := get_throws _ hc
    simp only [hget, Except.map, hcls, ExnClass.catches_self, if_true]
    rfl

/-- The wrappers up to `with_libvirt`, around any route function. -/
theorem gateOrder_withLibvirt (L : Linked) (methods : List Verb) (view : User → RouteFunction)
    (httpConn : Bool) (location : List String) (request : Request) (w : GateWorld σ) :
    let user := capture location 1
    let x := (withMethods methods (withLibvirt L view) httpConn location request).exec
      (E.serve strerror) {} w
    GateOrder strerror E methods user request w
      (fun _ => x = (view user httpConn location request).exec (E.serve strerror)
        (permitted methods) (E.connectedWorld strerror w user)) x := by
  intro user x
  have hx : x = (withMethods methods (withLibvirt L view) httpConn location request).exec
      (E.serve strerror) {} w := rfl
  rw [exec_withMethods] at hx
  rw [hx]
  clear_value x
  subst hx
  refine ⟨fun h => ?_, fun h h' => ?_, fun h h' hp => ?_, fun h h' hp e he => ?_,
    fun h h' hp c hc => ?_⟩
  · rw [if_pos h]
    exact stopped_permitted rfl rfl rfl (fun _ _ => rfl) rfl
  · rw [if_neg h, if_neg h']
    exact stopped_permitted rfl rfl rfl (fun _ _ => rfl) rfl
  · rw [if_neg h, if_pos h', exec_withLibvirt_serve, if_neg (by simp [user, hp])]
    exact stopped_setResponse rfl (fun _ _ => rfl) rfl
  · rw [if_neg h, if_pos h', exec_withLibvirt_serve]
    simp only [user] at hp he
    simp only [hp, he, if_true]
    exact stopped_connected rfl (Response.field_setResponse (by decide) _ _ _)
  · rw [if_neg h, if_pos h', exec_withLibvirt_serve]
    simp only [user] at hp hc
    simp only [hp, hc, if_true]
    rfl

theorem exec_domain (user : User) (name : String) (r : Response) (w : GateWorld σ) :
    (RouteM.ofView (Conn.domain user name)).exec (E.serve strerror) r w =
      (match E.lookup w.state (w.pool.entry user) (cStr name) with
        | some d => .ok d
        | none => .error (.exn ⟨.domainError, "virDomainLookupByName error"⟩), r,
        w.ask (.op (.libvirt (.virDomainLookupByName user (cStr name))))) := by
  have hperform : (perform (.virDomainLookupByName user (cStr name))).exec
      (fun w o => E.serve strerror w (.op o)) r w =
      (.ok (E.lookup w.state (w.pool.entry user) (cStr name)), r,
        w.ask (.op (.libvirt (.virDomainLookupByName user (cStr name))))) := rfl
  unfold RouteM.ofView Conn.domain
  rw [Eff.exec_lift, Eff.exec_bind_ok _ hperform]
  cases E.lookup w.state (w.pool.entry user) (cStr name) with
  | some d => rfl
  | none => rfl

/-- The handler around it makes a missing domain a value. -/
theorem exec_domain_handled (user : User) (name : String) (r : Response) (w : GateWorld σ) :
    (Eff.tryCatch (some <$> RouteM.ofView (Conn.domain user name)) fun e =>
        if e.caughtBy .domainError then pure none else Eff.throw e).exec (E.serve strerror) r w =
      (.ok (E.lookup w.state (w.pool.entry user) (cStr name)), r,
        w.ask (.op (.libvirt (.virDomainLookupByName user (cStr name))))) := by
  rw [Eff.exec_tryCatch]
  have hexec := exec_domain strerror E user name r w
  cases hd : E.lookup w.state (w.pool.entry user) (cStr name) with
  | some d =>
    rw [hd] at hexec
    have hmap : (some <$> RouteM.ofView (Conn.domain user name)).exec (E.serve strerror) r w =
        (.ok (some d), r, w.ask (.op (.libvirt (.virDomainLookupByName user (cStr name))))) :=
      Eff.exec_bind_ok _ hexec
    rw [hmap]
  | none =>
    rw [hd] at hexec
    have hmap : (some <$> RouteM.ofView (Conn.domain user name)).exec (E.serve strerror) r w =
        (.error (.exn ⟨.domainError, "virDomainLookupByName error"⟩), r,
          w.ask (.op (.libvirt (.virDomainLookupByName user (cStr name))))) :=
      Eff.exec_bind_error _ hexec
    rw [hmap]
    rfl

/-- `with_libvirt_domain` is `with_libvirt` around the lookup. -/
theorem exists_withLibvirtDomain (L : Linked) (view : User → DomainPtr → RouteFunction) :
    ∃ inner, withLibvirtDomain L view = withLibvirt L inner ∧
      ∀ user httpConn location request r (w : GateWorld σ),
        let name := cStr (capture location 2)
        let w' := w.ask (.op (.libvirt (.virDomainLookupByName user name)))
        (inner user httpConn location request).exec (E.serve strerror) r w =
          match E.lookup w.state (w.pool.entry user) name with
          | none => (.ok (), r.setResponse (L.stringify (Json.error "Domain not found")) .notFound, w')
          | some d => (view user d httpConn location request).exec (E.serve strerror) r w' := by
  refine ⟨_, rfl, fun user httpConn location request r w => ?_⟩
  show Eff.exec _ (Eff.tryCatch _ _ >>= _) r w = _
  rw [Eff.exec_bind_ok _ (exec_domain_handled strerror E _ _ _ _)]
  cases E.lookup w.state (w.pool.entry user) (cStr (capture location 2)) with
  | none => rfl
  | some d => rfl

/-- A view inside `with_libvirt`. -/
theorem gateOrder_libvirt (L : Linked) (methods : List Verb) (view : User → RouteFunction)
    (httpConn : Bool) (location : List String) (request : Request) (w : GateWorld σ) :
    let user := capture location 1
    let x := (withMethods methods (withLibvirt L view) httpConn location request).exec
      (E.serve strerror) {} w
    GateOrder strerror E methods user request w
      (fun c => Passed strerror E methods user w c [.poolGet user, .getpwnam (cStr user)]
        (view user httpConn location request) x) x := by
  intro user x
  have h := gateOrder_withLibvirt strerror E L methods view httpConn location request w
  refine ⟨h.options, h.refused, h.unknown, h.unconnected, fun ho hm hp c hc => ?_⟩
  have hx : x = (view user httpConn location request).exec (E.serve strerror) (permitted methods)
      (E.connectedWorld strerror w user) := h.connected ho hm hp c hc
  rw [hx]
  exact passed_of_stopped (stopped_connected rfl rfl) (get_returns _ hc)

/-- A view inside `with_libvirt_domain`. -/
theorem gateOrder_libvirtDomain (L : Linked) (methods : List Verb)
    (view : User → DomainPtr → RouteFunction) (httpConn : Bool) (location : List String)
    (request : Request) (w : GateWorld σ) :
    let user := capture location 1
    let name := cStr (capture location 2)
    let x := (withMethods methods (withLibvirtDomain L view) httpConn location request).exec
      (E.serve strerror) {} w
    let asked := [.op (.libvirt (.virDomainLookupByName user name)), .poolGet user,
      .getpwnam (cStr user)]
    GateOrder strerror E methods user request w
      (fun c => (E.lookup w.state c name = none → Stopped methods user w .notFound asked x) ∧
        ∀ d, E.lookup w.state c name = some d →
          Passed strerror E methods user w c asked (view user d httpConn location request) x) x := by
  intro user name x asked
  obtain ⟨inner, hinner, hexec⟩ := exists_withLibvirtDomain strerror E L view
  have h := gateOrder_withLibvirt strerror E L methods inner httpConn location request w
  rw [← hinner] at h
  refine ⟨h.options, h.refused, h.unknown, h.unconnected, fun ho hm hp c hc => ?_⟩
  have hentry : (E.connectedWorld strerror w user).pool.entry user = c := get_returns _ hc
  have hstate : (E.connectedWorld strerror w user).state = w.state := rfl
  have hx : x = (inner user httpConn location request).exec (E.serve strerror) (permitted methods)
      (E.connectedWorld strerror w user) := h.connected ho hm hp c hc
  rw [hx, hexec, hentry, hstate]
  have hstopped : ∀ {st : Status} {r : Response}, r.result = st →
      r.field .allow = (permitted methods).field .allow →
      Stopped methods user w st asked (.ok (), r, (E.connectedWorld strerror w user).ask
        (.op (.libvirt (.virDomainLookupByName user name)))) := fun hr hallow =>
    stopped_permitted hr hallow rfl (fun _ hu => get_connections_other w.pool hu _) rfl
  refine ⟨fun hd => ?_, fun d hd => ?_⟩
  · rw [hd]
    exact hstopped rfl (Response.field_setResponse (by decide) _ _ _)
  · rw [hd]
    exact passed_of_stopped (hstopped rfl rfl) hentry

/-- Every attempt at a view inside the wrappers, whatever the methods, the request, the password database,
the pool, and the answers of libvirt. -/
theorem gate_order (L : Linked) (methods : List Verb) (httpConn : Bool) (location : List String)
    (request : Request) (n : ℕ) (r : Response) (w : GateWorld σ) :
    let user := capture location 1
    let name := cStr (capture location 2)
    let gate := fun fn => (Router.attempt httpConn location (withMethods methods fn) request n).exec
      (E.serve strerror) r w
    (∀ view : User → RouteFunction,
      let x := gate (withLibvirt L view)
      GateOrder strerror E methods user request w
        (fun c => Passed strerror E methods user w c [.poolGet user, .getpwnam (cStr user)]
          (view user (httpConn && n == 0) location request) x) x) ∧
    ∀ view : User → DomainPtr → RouteFunction,
      let x := gate (withLibvirtDomain L view)
      let asked := [.op (.libvirt (.virDomainLookupByName user name)), .poolGet user,
        .getpwnam (cStr user)]
      GateOrder strerror E methods user request w
        (fun c => (E.lookup w.state c name = none → Stopped methods user w .notFound asked x) ∧
          ∀ d, E.lookup w.state c name = some d →
            Passed strerror E methods user w c asked
              (view user d (httpConn && n == 0) location request) x) x := by
  intro user name gate
  have hgate : ∀ fn, gate fn = (withMethods methods fn (httpConn && n == 0) location request).exec
      (E.serve strerror) {} w := fun fn => Router.exec_attempt httpConn n r w
  refine ⟨fun view => ?_, fun view => ?_⟩
  · rw [hgate]
    exact gateOrder_libvirt strerror E L methods view _ location request w
  · rw [hgate]
    exact gateOrder_libvirtDomain strerror E L methods view _ location request w

end Webvirtd.App
