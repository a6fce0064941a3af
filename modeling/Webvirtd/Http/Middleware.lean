import Webvirtd.Views

/-!
# Http.Middleware — route functions, and the wrappers that check a request before they run

A route function receives the connection (`httpConn` tells whether the pointer is non-null), the
captures of its pattern (`location`, the whole target first) and the request.  Besides what the views
do, it may look up a system user, ask the pool for a connection, and upgrade the connection.
-/

namespace Webvirtd.Http

open Lib Virt

inductive Cmd
  | getpwnam (user : String)
  | poolGet (user : User)
  /-- `http_conn->upgrade()`. -/
  | upgrade
  /-- `websockets_.add(user, ws_conn)`; the handlers of `ws_conn` keep a reference to `conn`. -/
  | websocketsAdd (conn user : User)
  | op (o : Op)
  deriving DecidableEq

/-- `getpwnam` answers whether it found the user. -/
@[reducible] def Cmd.Res : Cmd → Type
  | .getpwnam _ => Bool
  | .poolGet _ => Except Exn Unit
  | .upgrade => Unit
  | .websocketsAdd _ _ => Unit
  | .op o => o.Res

abbrev RouteM (α : Type) : Type := Eff Cmd Cmd.Res Response Failure α

def RouteM.ofView {α : Type} (m : ViewM α) : RouteM α := Eff.lift Cmd.op (fun _ r => r) m

abbrev RouteFunction : Type := (httpConn : Bool) → (location : List String) → Request → RouteM Unit

def getpwnam (user : String) : RouteM Bool := Eff.call (Cmd.getpwnam (cStr user))

/-- `pool.get(user)`: what it throws is an answer, for the caller to catch. -/
def poolGet (user : User) : RouteM (Except Exn Unit) :=
  Eff.call (Cmd.poolGet user)

/-- `location[i]`: a group that does not exist is empty. -/
def capture (location : List String) (i : ℕ) : String := location.getD i ""

def setResponse (L : Linked) (data : Json) (status : Status) : RouteM Unit :=
  .ofView (Views.respond L data status)

namespace Middleware

variable (L : Linked)

/-- The `Allow` header. -/
def allow (methods : List Verb) : String :=
  methods.foldl (fun allow method => allow ++ (method.text ++ ", ")) "" ++ "OPTIONS"

def withMethods (methods : List Verb) (routeFn : RouteFunction) : RouteFunction :=
  fun httpConn location request => do
    Eff.modify fun r => r.set .allow (allow methods)
    if request.method = .options then pure ()
    else if request.method ∈ methods then routeFn httpConn location request
    else Eff.modify fun r => { r with result := .methodNotAllowed }

def withUser (routeFn : RouteFunction) : RouteFunction := fun httpConn location request => do
  let passwd ← getpwnam (capture location 1)
  if !passwd then setResponse L (Json.error "Unable to locate user") .notFound
  else routeFn httpConn location request

/-- `with_libvirt`.  The connection that `route_fn` receives is the pool's entry for the user. -/
def withLibvirt (routeFn : User → RouteFunction) : RouteFunction :=
  withUser L fun httpConn location request => do
    let user := capture location 1
    match ← poolGet user with
    | .ok () => routeFn user httpConn location request
    | .error e =>
      if ExnClass.runtimeError.catches e.cls then
        setResponse L (Json.error "Unable to connect to libvirt") .internalServerError
      else Eff.throw (.exn e)

/-- `with_libvirt_domain`. -/
def withLibvirtDomain (routeFn : User → DomainPtr → RouteFunction) : RouteFunction :=
  withLibvirt L fun conn httpConn location request => do
    let name := capture location 2
    let domain ← Eff.tryCatch (some <$> RouteM.ofView (Conn.domain conn name)) fun e =>
      if e.caughtBy .domainError then pure none else Eff.throw e
    match domain with
    | none => setResponse L (Json.error "Domain not found") .notFound
    | some d => routeFn conn d httpConn location request

end Middleware

/-! ## What the wrappers do -/

section

variable {σ : Type} (answer : σ → (c : Cmd) → Cmd.Res c × σ)

@[simp] theorem exec_setResponse (L : Linked) (data : Json) (status : Status) (r : Response) (w : σ) :
    (setResponse L data status).exec answer r w =
      (.ok (), r.setResponse (L.stringify data) status, w) := rfl

namespace Middleware

variable (L : Linked) (httpConn : Bool) (location : List String) (request : Request) (r : Response)
  (w : σ)

theorem exec_withMethods (methods : List Verb) (routeFn : RouteFunction) :
    (withMethods methods routeFn httpConn location request).exec answer r w =
      if request.method = .options then (.ok (), r.set .allow (allow methods), w)
      else if request.method ∈ methods then
        (routeFn httpConn location request).exec answer (r.set .allow (allow methods)) w
      else (.ok (), { r.set .allow (allow methods) with result := .methodNotAllowed }, w) := by
  unfold withMethods
  rw [Eff.exec_bind_ok answer (Eff.exec_modify answer _ r w)]
  split_ifs
  · rfl
  · rfl
  · rfl

theorem exec_withUser (routeFn : RouteFunction) :
    (withUser L routeFn httpConn location request).exec answer r w =
      let found := answer w (.getpwnam (cStr (capture location 1)))
      if found.1 then (routeFn httpConn location request).exec answer r found.2
      else (.ok (), r.setResponse (L.stringify (Json.error "Unable to locate user")) .notFound,
        found.2) := by
  unfold withUser getpwnam
  rw [Eff.exec_bind_ok answer (Eff.exec_call answer _ r w)]
  cases hf : (answer w (.getpwnam (cStr (capture location 1)))).1 with
  | false => simp [hf]
  | true => simp [hf]

theorem exec_withLibvirt (routeFn : User → RouteFunction) :
    (withLibvirt L routeFn httpConn location request).exec answer r w =
      let user := capture location 1
      let found := answer w (.getpwnam (cStr user))
      if found.1 then
        let entry := answer found.2 (.poolGet user)
        match entry.1 with
        | .ok () => (routeFn user httpConn location request).exec answer r entry.2
        | .error e =>
          if ExnClass.runtimeError.catches e.cls then
            (.ok (), r.setResponse (L.stringify (Json.error "Unable to connect to libvirt"))
              .internalServerError, entry.2)
          else (.error (.exn e), r, entry.2)
      else (.ok (), r.setResponse (L.stringify (Json.error "Unable to locate user")) .notFound,
        found.2) := by
  unfold withLibvirt
  rw [exec_withUser]
  refine if_congr Iff.rfl ?_ rfl
  unfold poolGet
  rw [Eff.exec_bind_ok answer (Eff.exec_call answer _ r _)]
  cases he : (answer (answer w (.getpwnam (cStr (capture location 1)))).2
    (.poolGet (capture location 1))).1 with
  | ok u => simp only [he]
  | error e =>
    simp only [he]
    split_ifs
    · rfl
    · rfl

end Middleware

end

/-! ## What the wrappers keep

Commands other than an upgrade may keep an invariant of the surroundings.  A view then keeps it, and
a wrapper keeps it when the route function inside does. -/

def NoUpgrade (c : Cmd) : Prop := c ≠ .upgrade

section

variable {σ : Type} {answer : σ → (c : Cmd) → Cmd.Res c × σ} {I : σ → Prop} {F : Failure → Prop}

theorem keeps_getpwnam (hI : ∀ w c, NoUpgrade c → I w → I (answer w c).2) (user : String) :
    Eff.Keeps answer I F (getpwnam user) :=
  Eff.Keeps.call (c := Cmd.getpwnam (cStr user)) fun w => hI w _ fun h => by cases h

theorem keeps_poolGet (hI : ∀ w c, NoUpgrade c → I w → I (answer w c).2) (user : User) :
    Eff.Keeps answer I F (poolGet user) :=
  Eff.Keeps.call (c := Cmd.poolGet user) fun w => hI w _ fun h => by cases h

theorem keeps_ofView (hI : ∀ w c, NoUpgrade c → I w → I (answer w c).2) {α : Type} {m : ViewM α}
    (hm : Eff.Uses (fun _ => True) F m) : Eff.Keeps answer I F (RouteM.ofView m) :=
  Eff.Uses.keeps hI (hm.lift (B := NoUpgrade) fun _ _ h => by cases h)

/-- `shutdown` terminates on the clock of the surroundings. -/
theorem keeps_shutdown (hI : ∀ w c, NoUpgrade c → I w → I (answer w c).2) {time : σ → ℚ}
    (hc : Clock (fun w o => answer w (.op o)) time) (L : Linked) (T : Timeouts) (d : DomainPtr) :
    Eff.Keeps answer I Failure.IsExn (RouteM.ofView (Views.Domains.shutdown L T d)) := by
  refine Eff.Uses.keeps_of_triple hI ?_ (Views.Domains.shutdown_terminates hc L T d).lift
    fun _ _ => trivial
  have huses : Eff.Uses (fun _ => True) (fun _ => True) (Views.Domains.shutdown L T d) :=
    (Views.Domains.made_shutdown L T d).uses (fun _ _ => trivial) (fun _ _ => trivial) fun _ => trivial
  exact huses.lift (B := NoUpgrade) fun _ _ h => by cases h

theorem keeps_setResponse (hI : ∀ w c, NoUpgrade c → I w → I (answer w c).2) (L : Linked)
    (data : Json) (status : Status) : Eff.Keeps answer I F (setResponse L data status) :=
  keeps_ofView hI (.modify _)

namespace Middleware

variable {L : Linked} {httpConn : Bool} {location : List String} {request : Request}

theorem keeps_withMethods {routeFn : RouteFunction} {methods : List Verb}
    (h : Eff.Keeps answer I F (routeFn httpConn location request)) :
    Eff.Keeps answer I F (withMethods methods routeFn httpConn location request) := by
  refine .bind (.modify _) fun _ => ?_
  split_ifs
  · exact .pure ()
  · exact h
  · exact .modify _

theorem keeps_withUser (hI : ∀ w c, NoUpgrade c → I w → I (answer w c).2) {routeFn : RouteFunction}
    (h : Eff.Keeps answer I F (routeFn httpConn location request)) :
    Eff.Keeps answer I F (withUser L routeFn httpConn location request) := by
  refine .bind (keeps_getpwnam hI _) fun passwd => ?_
  split_ifs
  · exact keeps_setResponse hI L _ _
  · exact h

theorem keeps_withLibvirt (hI : ∀ w c, NoUpgrade c → I w → I (answer w c).2)
    (hF : ∀ e, F (.exn e)) {routeFn : User → RouteFunction}
    (h : ∀ conn, Eff.Keeps answer I F (routeFn conn httpConn location request)) :
    Eff.Keeps answer I F (withLibvirt L routeFn httpConn location request) := by
  refine keeps_withUser hI (.bind (keeps_poolGet hI _) fun res => ?_)
  cases res with
  | ok u => exact h _
  | error e =>
    show Eff.Keeps answer I F (if _ then _ else _)
    split_ifs
    · exact keeps_setResponse hI L _ _
    · exact .throw (hF e)

theorem keeps_withLibvirtDomain (hI : ∀ w c, NoUpgrade c → I w → I (answer w c).2)
    (hF : ∀ e, F (.exn e)) {routeFn : User → DomainPtr → RouteFunction}
    (h : ∀ conn d, Eff.Keeps answer I F (routeFn conn d httpConn location request)) :
    Eff.Keeps answer I F (withLibvirtDomain L routeFn httpConn location request) := by
  refine keeps_withLibvirt hI hF fun conn => ?_
  refine .bind (.tryCatch (G := F) (F := Failure.IsExn) ?_ fun e he => ?_) fun domain => ?_
  · exact .map _ (keeps_ofView hI (reads_domain conn _).ends.uses)
  · split_ifs
    · exact .pure _
    · cases e with
      | exn e => exact .throw (hF e)
      | nullDeref => exact he.elim
      | outOfFuel => exact he.elim
  · cases domain with
    | none => exact keeps_setResponse hI L _ _
    | some d => exact h conn d

end Middleware

end

end Webvirtd.Http
