import Webvirtd.App.Targets

/-!
# App.Routes — the route table of `app::app`, and `app::websocket` as a route function

`router_routes` lists the table in the order of the map, `routes_endpoints` by the endpoints of the
grammar.  `find_websocket` and `find_other` say which targets reach the websocket route: exactly
`/users/<user>/websocket/`.
-/

namespace Webvirtd.App

open Lib Virt Http Http.Middleware

/-- `app::append_trailing_slash`. -/
def appendTrailingSlash : RouteFunction := fun _ location _ => do
  let uri := capture location 0 ++ "/"
  Eff.modify fun r => r.set .location uri
  Eff.modify fun r => { r with result := .temporaryRedirect }

/-- `http_conn->upgrade()` on a pointer that may be null. -/
def upgrade (httpConn : Bool) : RouteM Unit :=
  if httpConn then Eff.call Cmd.upgrade else Eff.throw .nullDeref

/-- `app::websocket`. -/
def websocket (conn : User) : RouteFunction := fun httpConn _ _ => do
  let user ← RouteM.ofView (Virt.user conn)
  upgrade httpConn
  Eff.call (Cmd.websocketsAdd conn user)
  Eff.modify fun r => { r with result := .switchingProtocols }

variable (L : Linked) (T : Timeouts)

def websocketRoute : RouteFunction := withMethods [.get] (withLibvirt L websocket)

def hostRoute : RouteFunction :=
  withMethods [.get] (withLibvirt L fun conn _ _ _ => .ofView (Views.Host.show L conn))

def networksRoute : RouteFunction :=
  withMethods [.get] (withLibvirt L fun conn _ _ _ => .ofView (Views.Host.networks L conn))

def indexRoute : RouteFunction :=
  withMethods [.get] (withLibvirt L fun conn _ _ _ => .ofView (Views.Domains.index L conn))

def showRoute : RouteFunction :=
  withMethods [.get] (withLibvirtDomain L fun _ d _ _ _ => .ofView (Views.Domains.show L d))

def autostartRoute : RouteFunction :=
  withMethods [.post, .delete]
    (withLibvirtDomain L fun _ d _ _ request => .ofView (Views.Domains.autostart L d request))

def metadataRoute : RouteFunction :=
  withMethods [.post]
    (withLibvirtDomain L fun _ d _ _ request => .ofView (Views.Domains.metadata L d request))

def bootmenuRoute : RouteFunction :=
  withMethods [.post, .delete]
    (withLibvirtDomain L fun conn d _ _ request =>
      .ofView (Views.Domains.bootmenu L conn d request))

def startRoute : RouteFunction :=
  withMethods [.post] (withLibvirtDomain L fun _ d _ _ _ => .ofView (Views.Domains.start L d))

def shutdownRoute : RouteFunction :=
  withMethods [.post] (withLibvirtDomain L fun _ d _ _ _ => .ofView (Views.Domains.shutdown L T d))

/-- `router_` after the constructor of `app`. -/
def router : Router :=
  ((((((((((Router.mk []
    |>.route "^.+[^/]$" appendTrailingSlash)
    |>.route "^/users/([^/]+)/websocket/" (websocketRoute L))
    |>.route "^/users/([^/]+)/host/" (hostRoute L))
    |>.route "^/users/([^/]+)/host/networks/" (networksRoute L))
    |>.route "^/users/([^/]+)/domains/$" (indexRoute L))
    |>.route "^/users/([^/]+)/domains/([^/]+)/$" (showRoute L))
    |>.route "^/users/([^/]+)/domains/([^/]+)/autostart/$" (autostartRoute L))
    |>.route "^/users/([^/]+)/domains/([^/]+)/metadata/$" (metadataRoute L))
    |>.route "^/users/([^/]+)/domains/([^/]+)/bootmenu/$" (bootmenuRoute L))
    |>.route "^/users/([^/]+)/domains/([^/]+)/start/$" (startRoute L))
    |>.route "^/users/([^/]+)/domains/([^/]+)/shutdown/" (shutdownRoute L T)

theorem router_routes : (router L T).routes =
    [("^.+[^/]$", appendTrailingSlash),
      ("^/users/([^/]+)/domains/$", indexRoute L),
      ("^/users/([^/]+)/domains/([^/]+)/$", showRoute L),
      ("^/users/([^/]+)/domains/([^/]+)/autostart/$", autostartRoute L),
      ("^/users/([^/]+)/domains/([^/]+)/bootmenu/$", bootmenuRoute L),
      ("^/users/([^/]+)/domains/([^/]+)/metadata/$", metadataRoute L),
      ("^/users/([^/]+)/domains/([^/]+)/shutdown/", shutdownRoute L T),
      ("^/users/([^/]+)/domains/([^/]+)/start/$", startRoute L),
      ("^/users/([^/]+)/host/", hostRoute L),
      ("^/users/([^/]+)/host/networks/", networksRoute L),
      ("^/users/([^/]+)/websocket/", websocketRoute L)] := by
  rfl

def Endpoint.handler : Endpoint → RouteFunction
  | .redirect => appendTrailingSlash
  | .user .websocket => websocketRoute L
  | .user .host => hostRoute L
  | .user .networks => networksRoute L
  | .user .domains => indexRoute L
  | .domain .show => showRoute L
  | .domain .autostart => autostartRoute L
  | .domain .metadata => metadataRoute L
  | .domain .bootmenu => bootmenuRoute L
  | .domain .start => startRoute L
  | .domain .shutdown => shutdownRoute L T

def Endpoint.entry (e : Endpoint) : String × RouteFunction := (e.pattern, e.handler L T)

/-- The endpoints in the order of the map. -/
def endpoints : List Endpoint :=
  [.redirect, .user .domains, .domain .show, .domain .autostart, .domain .bootmenu,
    .domain .metadata, .domain .shutdown, .domain .start, .user .host, .user .networks,
    .user .websocket]

theorem routes_endpoints : (router L T).routes = endpoints.map (Endpoint.entry L T) :=
  router_routes L T

theorem mem_endpoints (e : Endpoint) : e ∈ endpoints := by
  cases e with
  | redirect => decide
  | user s => cases s <;> decide
  | domain a => cases a <;> decide

/-- In a table of endpoints, in whatever order, the one whose pattern matches the target is found. -/
theorem find_of_location {target : String} {rs : List (String × RouteFunction)}
    (hrs : ∀ r ∈ rs, ∃ e : Endpoint, r = e.entry L T) {e : Endpoint} {captures : List String}
    (hl : Router.location e.pattern target = some (target :: captures)) (he : e.entry L T ∈ rs) :
    Router.find target rs = some (target :: captures, e.handler L T) := by
  obtain ⟨captures', h, hcaptures⟩ := accepts_of_location e hl
  obtain rfl : captures = captures' := (List.cons_eq_cons.mp hcaptures).2
  induction rs with
  | nil => cases he
  | cons r rs ih =>
    obtain ⟨e₀, rfl⟩ := hrs r List.mem_cons_self
    unfold Endpoint.entry Router.find
    cases hl₀ : Router.location e₀.pattern target with
    | some m =>
      obtain ⟨captures₀, h₀, rfl⟩ := accepts_of_location e₀ hl₀
      obtain ⟨rfl, rfl⟩ := accepts_unique h h₀
      rfl
    | none =>
      have hne : e.entry L T ≠ e₀.entry L T := by
        intro heq
        have hpattern : e.pattern = e₀.pattern := congrArg Prod.fst heq
        rw [hpattern, hl₀] at hl
        cases hl
      have htail : e.entry L T ∈ rs := (List.mem_cons.mp he).resolve_left hne
      exact ih (fun r hr => hrs r (List.mem_cons_of_mem _ hr)) htail

/-! ## The targets of the websocket route -/

/-- `target` is `/users/<user>/websocket/`. -/
def WebsocketTarget (target : String) (user : User) : Prop :=
  user.toList ≠ [] ∧ '/' ∉ user.toList ∧ target = "/users/" ++ user ++ "/websocket/"

theorem accepts_websocket_iff {target : String} {captures : List String} :
    (Endpoint.user .websocket).Accepts target captures ↔
      ∃ user, WebsocketTarget target user ∧ captures = [user] := by
  have htext : ∀ user : String, "/users/" ++ user ++ "/" ++ UserRoute.websocket.suffix ++ "/" =
      "/users/" ++ user ++ "/websocket/" := by
    intro user
    simp only [String.append_assoc]
    rfl
  constructor
  · rintro ⟨user, ⟨hne, hslash⟩, rfl, ht⟩
    exact ⟨user, ⟨hne, hslash, ht.trans (htext user)⟩, rfl⟩
  · rintro ⟨user, ⟨hne, hslash, ht⟩, rfl⟩
    exact ⟨user, ⟨hne, hslash⟩, rfl, ht.trans (htext user).symm⟩

theorem location_websocket {target : String} {user : User} (ht : WebsocketTarget target user) :
    Router.location "^/users/([^/]+)/websocket/" target = some [target, user] :=
  (location_userRoute .websocket).mpr ⟨[user], accepts_websocket_iff.mpr ⟨user, ht, rfl⟩, rfl⟩

/-- Conversely only such targets match the pattern. -/
theorem websocketTarget_of_location {target : String} {m : List String}
    (h : Router.location "^/users/([^/]+)/websocket/" target = some m) :
    ∃ user, WebsocketTarget target user ∧ m = [target, user] := by
  obtain ⟨captures, haccepts, rfl⟩ := (location_userRoute .websocket).mp h
  obtain ⟨user, ht, rfl⟩ := accepts_websocket_iff.mp haccepts
  exact ⟨user, ht, rfl⟩

/-- Websocket targets reach the websocket route, with the user as first capture. -/
theorem find_websocket {target : String} {user : User} (ht : WebsocketTarget target user) :
    Router.find target (router L T).routes = some ([target, user], websocketRoute L) := by
  rw [routes_endpoints]
  refine find_of_location L T (e := .user .websocket) (fun r hr => ?_) (location_websocket ht)
    (List.mem_map_of_mem (mem_endpoints _))
  obtain ⟨e, -, he⟩ := List.mem_map.mp hr
  exact ⟨e, he.symm⟩

/-- The routes other than the websocket's. -/
def otherRoutes : List (String × RouteFunction) :=
  [("^.+[^/]$", appendTrailingSlash),
    ("^/users/([^/]+)/domains/$", indexRoute L),
    ("^/users/([^/]+)/domains/([^/]+)/$", showRoute L),
    ("^/users/([^/]+)/domains/([^/]+)/autostart/$", autostartRoute L),
    ("^/users/([^/]+)/domains/([^/]+)/bootmenu/$", bootmenuRoute L),
    ("^/users/([^/]+)/domains/([^/]+)/metadata/$", metadataRoute L),
    ("^/users/([^/]+)/domains/([^/]+)/shutdown/", shutdownRoute L T),
    ("^/users/([^/]+)/domains/([^/]+)/start/$", startRoute L),
    ("^/users/([^/]+)/host/", hostRoute L),
    ("^/users/([^/]+)/host/networks/", networksRoute L)]

theorem router_routes_append : (router L T).routes =
    otherRoutes L T ++ [("^/users/([^/]+)/websocket/", websocketRoute L)] := router_routes L T

/-- Other targets do not. -/
theorem find_other {target : String} (ht : ∀ user, ¬ WebsocketTarget target user)
    {m : List String} {fn : RouteFunction}
    (h : Router.find target (router L T).routes = some (m, fn)) :
    ∃ r ∈ otherRoutes L T, r.2 = fn ∧ Router.location r.1 target = some m := by
  have hw : Router.location "^/users/([^/]+)/websocket/" target = none := by
    cases hl : Router.location "^/users/([^/]+)/websocket/" target with
    | none => rfl
    | some m =>
      obtain ⟨user, hu, -⟩ := websocketTarget_of_location hl
      exact absurd hu (ht user)
  rw [router_routes_append] at h
  obtain ⟨r, hr, hfn, hloc⟩ := Router.exists_of_find h
  rcases List.mem_append.mp hr with hr | hr
  · exact ⟨r, hr, hfn, hloc⟩
  · obtain rfl := List.mem_singleton.mp hr
    rw [hw] at hloc
    cases hloc

/-- The other routes keep whatever commands other than an upgrade keep, and terminate. -/
theorem keeps_otherRoutes {σ : Type} {answer : σ → (c : Cmd) → Cmd.Res c × σ} {I : σ → Prop}
    (hI : ∀ w c, NoUpgrade c → I w → I (answer w c).2) {time : σ → ℚ}
    (hc : Clock (fun w o => answer w (.op o)) time) :
    ∀ r ∈ otherRoutes L T, ∀ httpConn location request,
      Eff.Keeps answer I Failure.IsExn (r.2 httpConn location request) := by
  have hF : ∀ e : Exn, Failure.IsExn (.exn e) := fun _ => trivial
  have hview : ∀ {m : ViewM Unit}, Ends m → Eff.Keeps answer I Failure.IsExn (RouteM.ofView m) :=
    fun hm => keeps_ofView hI hm.uses
  have hlibvirt : ∀ (view : User → Request → ViewM Unit) methods httpConn location request,
      (∀ conn, Ends (view conn request)) →
      Eff.Keeps answer I Failure.IsExn (withMethods methods (withLibvirt L fun conn _ _ request =>
        .ofView (view conn request)) httpConn location request) :=
    fun _ _ _ _ _ h => keeps_withMethods (keeps_withLibvirt hI hF fun conn => hview (h conn))
  have hdomain : ∀ (view : User → DomainPtr → Request → ViewM Unit) methods httpConn location request,
      (∀ conn d, Eff.Keeps answer I Failure.IsExn (RouteM.ofView (view conn d request))) →
      Eff.Keeps answer I Failure.IsExn (withMethods methods (withLibvirtDomain L fun conn d _ _ request =>
        .ofView (view conn d request)) httpConn location request) :=
    fun _ _ _ _ _ h => keeps_withMethods (keeps_withLibvirtDomain hI hF fun conn d => h conn d)
  unfold otherRoutes
  simp only [List.forall_mem_cons]
  refine ⟨fun _ _ _ => .bind (.modify _) fun _ => .modify _, ?_, ?_, ?_, ?_, ?_, ?_, ?_, ?_, ?_,
    fun r hr => absurd hr List.not_mem_nil⟩
  · exact fun _ _ _ => hlibvirt _ _ _ _ _ fun conn => (Views.Domains.reads_index L conn).ends
  · exact fun _ _ _ => hdomain _ _ _ _ _ fun _ d => hview (Views.Domains.reads_show L d).ends
  · exact fun _ _ request => hdomain _ _ _ _ _ fun _ d =>
      hview (Views.Domains.ends_autostart L d request)
  · exact fun _ _ request => hdomain _ _ _ _ _ fun conn d =>
      hview (Views.Domains.ends_bootmenu L conn d request)
  · exact fun _ _ request => hdomain _ _ _ _ _ fun _ d =>
      hview (Views.Domains.ends_metadata L d request)
  · exact fun _ _ _ => hdomain _ _ _ _ _ fun _ d => keeps_shutdown hI hc L T d
  · exact fun _ _ _ => hdomain _ _ _ _ _ fun _ d => hview (Views.Domains.ends_start L d)
  · exact fun _ _ _ => hlibvirt _ _ _ _ _ fun conn => (Views.Host.reads_show L conn).ends
  · exact fun _ _ _ => hlibvirt _ _ _ _ _ fun conn => (Views.Host.reads_networks L conn).ends

end Webvirtd.App
