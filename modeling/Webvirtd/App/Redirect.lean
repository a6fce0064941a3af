import Webvirtd.App.Grammar

/-!
# App.Redirect — the redirect to the target with a trailing slash

The pattern of the redirect and the slash that it appends are about the whole target, and so are all other
patterns: the router has no notion of a query.  `slashLaw_whole` is the law for a target as a whole; where the
target is a path and a query the law about the path holds only if nothing is redirected (`slashLaw_query_iff`).
-/

namespace Webvirtd.App

open Lib Virt Http Http.Middleware

variable (L : Linked) (T : Timeouts)

/-- The router finds the endpoint for the target, with the captures. -/
structure Endpoint.Serves (e : Endpoint) (target : String) (captures : List String) : Prop where
  location : Router.location e.pattern target = some (target :: captures)
  find : Router.find target (router L T).routes = some (target :: captures, e.handler L T)

/-- A path with its query, if there is one. -/
def targetOf (path : String) : Option String → String
  | none => path
  | some query => path ++ "?" ++ query

section

variable {σ : Type} (answer : σ → (c : Cmd) → Cmd.Res c × σ) (w : σ)

/-- The router answers the request with the redirect to `uri`. -/
structure RedirectsTo (httpConn : Bool) (r : Response) (request : Request) (uri : String) : Prop where
  serves : Endpoint.redirect.Serves L T request.target []
  response : ∃ r', (Router.run L (router L T) httpConn request).exec answer r w = (.ok (), r', w) ∧
    r'.result = .temporaryRedirect ∧ r'.field .location = some uri

/-- What is expected of the redirect of a path, with or without a query, to `uri`. -/
structure Slashed (path : String) (query : Option String) (uri : String) : Prop where
  bare : path.toList.getLast? ≠ some '/'
  uri_eq : uri = targetOf (path ++ "/") query
  settled : ∀ captures, ¬ Endpoint.redirect.Serves L T uri captures
  same : ∀ (e : Endpoint) captures, e.Serves L T (path ++ "/") captures → e.Serves L T uri captures

/-- Whatever the router redirects requests of the target to is as expected. -/
def SlashLaw (path : String) (query : Option String) : Prop :=
  ∀ httpConn r (request : Request) uri, request.target = targetOf path query →
    RedirectsTo L T answer w httpConn r request uri → Slashed L T path query uri

variable {L T answer w} {httpConn : Bool} {r : Response} {request : Request} {uri target : String}

theorem Endpoint.serves_of_location {e : Endpoint} {captures : List String}
    (h : Router.location e.pattern target = some (target :: captures)) :
    e.Serves L T target captures where
  location := h
  find := by
    obtain ⟨hrs, hmem⟩ := entries_of_perm (List.Perm.refl (router L T).routes)
    exact find_of_location L T hrs h (hmem e)

theorem redirect_serves (hlen : 2 ≤ target.toList.length) (hlast : target.toList.getLast? ≠ some '/')
    (hn : '\n' ∉ target.toList) (hr : '\r' ∉ target.toList) :
    Endpoint.redirect.Serves L T target [] :=
  Endpoint.serves_of_location ((location_endpoint hn hr .redirect).mpr ⟨[], ⟨rfl, hlen, hlast⟩, rfl⟩)

/-- Nothing that ends in a slash is redirected. -/
theorem not_redirect_of_slash (h : target.toList.getLast? = some '/') (captures : List String) :
    ¬ Endpoint.redirect.Serves L T target captures := by
  intro hs
  obtain ⟨captures', ⟨_, _, hlast⟩, _⟩ := accepts_of_location _ hs.location
  exact hlast h

theorem getLast?_append_slash (s : String) : (s ++ "/").toList.getLast? = some '/' := by
  rw [String.toList_append]
  exact List.getLast?_concat

theorem exec_appendTrailingSlash (httpConn : Bool) (request : Request) :
    (appendTrailingSlash httpConn [target] request).exec answer {} w =
      (.ok (), { ({} : Response).set .location (target ++ "/") with result := .temporaryRedirect }, w) := by
  rfl

/-- A target that the pattern matches is redirected to itself with a slash. -/
theorem redirectsTo_iff (hs : Endpoint.redirect.Serves L T request.target []) :
    RedirectsTo L T answer w httpConn r request uri ↔ uri = request.target ++ "/" := by
  have happend : (appendTrailingSlash httpConn [request.target] request).exec answer {} w = _ :=
    exec_appendTrailingSlash httpConn request
  have hrun : (Router.run L (router L T) httpConn request).exec answer r w =
      (.ok (), { ({} : Response).set .location (request.target ++ "/") with
        result := .temporaryRedirect }, w) := Router.run_of_ok hs.find happend
  have hfield : ({ ({} : Response).set .location (request.target ++ "/") with
      result := .temporaryRedirect } : Response).field .location = some (request.target ++ "/") :=
    Response.field_set_self {} .location (request.target ++ "/")
  constructor
  · rintro ⟨_, r', hexec, _, huri⟩
    rw [hrun] at hexec
    cases hexec
    rw [hfield] at huri
    exact (Option.some.inj huri).symm
  · rintro rfl
    exact ⟨hs, _, hrun, rfl, hfield⟩

/-- The law of the whole target. -/
theorem slashLaw_whole (target : String) : SlashLaw L T answer w target none := by
  rintro httpConn r request uri rfl h
  have huri := (redirectsTo_iff h.serves).mp h
  subst huri
  obtain ⟨_, ⟨_, _, hlast⟩, _⟩ := accepts_of_location _ h.serves.location
  exact
    { bare := hlast
      uri_eq := rfl
      settled := not_redirect_of_slash (getLast?_append_slash _)
      same := fun _ _ hs => hs }

/-! ## Queries -/

theorem toList_targetOf_query (path query : String) :
    (targetOf path (some query)).toList = path.toList ++ '?' :: query.toList := by
  simp only [targetOf, String.toList_append, List.append_assoc]
  rfl

theorem getLast?_targetOf_query {path query : String} :
    (targetOf path (some query)).toList.getLast? = some '/' ↔ query.toList.getLast? = some '/' := by
  rw [toList_targetOf_query, List.getLast?_append, List.getLast?_cons]
  cases query.toList.getLast? with
  | none => simp
  | some c => rfl

/-- The slash goes after the query, and not after the path. -/
theorem append_slash_ne (path query : String) :
    targetOf path (some query) ++ "/" ≠ targetOf (path ++ "/") (some query) := by
  intro h
  have hlist := congrArg String.toList h
  rw [String.toList_append, toList_targetOf_query, toList_targetOf_query, String.toList_append,
    List.append_assoc, List.append_assoc] at hlist
  have hhead := List.append_cancel_left hlist
  exact absurd (List.cons_eq_cons.mp hhead).1 (by decide)

/-- With a query the law of the path holds only where nothing is redirected. -/
theorem slashLaw_query_iff {path query : String} (hpath : path.toList ≠ [])
    (hn : '\n' ∉ (targetOf path (some query)).toList)
    (hr : '\r' ∉ (targetOf path (some query)).toList) :
    SlashLaw L T answer w path (some query) ↔ query.toList.getLast? = some '/' := by
  constructor
  · intro hlaw
    by_contra hlast
    have hlen : 2 ≤ (targetOf path (some query)).toList.length := by
      have := List.length_pos_iff.mpr hpath
      rw [toList_targetOf_query, List.length_append, List.length_cons]
      omega
    have hs : Endpoint.redirect.Serves L T (targetOf path (some query)) [] :=
      redirect_serves hlen (fun h => hlast (getLast?_targetOf_query.mp h)) hn hr
    have hslashed := hlaw false {} { method := .get, target := targetOf path (some query) } _ rfl
      ((redirectsTo_iff hs).mpr rfl)
    exact append_slash_ne path query hslashed.uri_eq
  · intro hlast httpConn r request uri htarget h
    have hs := h.serves
    rw [htarget] at hs
    exact absurd hs (not_redirect_of_slash (getLast?_targetOf_query.mpr hlast) [])

end

/-- What the router redirects ends in no slash, is redirected to itself with one, and is then served as the
route with the slash says and never redirected again.  It is the whole target that this is true of: of a path with
a query it is true exactly if the query ends in a slash, so that nothing is redirected. -/
theorem trailing_slash {σ : Type} (answer : σ → (c : Cmd) → Cmd.Res c × σ) (w : σ) :
    (∀ target, SlashLaw L T answer w target none) ∧
    ∀ path query, path.toList ≠ [] → '\n' ∉ (targetOf path (some query)).toList →
      '\r' ∉ (targetOf path (some query)).toList →
      (SlashLaw L T answer w path (some query) ↔ query.toList.getLast? = some '/') :=
  ⟨slashLaw_whole, fun _ _ hpath hn hr => slashLaw_query_iff hpath hn hr⟩

/-- The path of `/users/ann/domains/?x=1` ends in a slash. -/
theorem redirected_query :
    RedirectsTo plainLinked ⟨60, 15⟩ emptySurroundings.answer 0 true {}
      { method := .get, target := targetOf "/users/ann/domains/" (some "x=1") }
      "/users/ann/domains/?x=1/" ∧
    ¬ SlashLaw plainLinked ⟨60, 15⟩ emptySurroundings.answer 0 "/users/ann/domains/" (some "x=1") := by
  have hs : Endpoint.redirect.Serves plainLinked ⟨60, 15⟩ (targetOf "/users/ann/domains/" (some "x=1")) [] :=
    redirect_serves (by decide) (by decide) (by decide) (by decide)
  refine ⟨(redirectsTo_iff hs).mpr (by decide), fun hlaw => ?_⟩
  have hslash := (slashLaw_query_iff (by decide) (by decide) (by decide)).mp hlaw
  revert hslash
  decide

end Webvirtd.App
