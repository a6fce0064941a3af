import Webvirtd.App.Interruptions
import Webvirtd.App.Upgrade
import Webvirtd.Http.Interruption

/-!
# App.Retry — which interruptions of a request the client can see

An interruption of the first attempt is followed by a second attempt on the state that the first one
left.  That is harmless when the first attempt had changed nothing yet, or when its change leads the
second one to the same response.  It is not when a domain has been started, shut down, or given its new
title: the second attempt reports a failure, or no change.
-/

namespace Webvirtd.App

open Lib Virt Http Http.Middleware

variable {H : Libvirt} {L : Linked} {T : Timeouts} {request : Request} {r : Response}
  {w : LibvirtState} {n : ℕ}

/-- Status and body of the response to the request, and the state of libvirt afterwards.  The number
counts down to an interruption. -/
def outcome (H : Libvirt) (L : Linked) (T : Timeouts) (request : Request) (r : Response)
    (w : LibvirtState × Option ℕ) : Status × String × LibvirtState :=
  let res := (onRequest L T request).exec (inject H.serve cmdFault) r w
  (res.2.1.result, res.2.1.body, res.2.2.1)

/-- The libvirt calls of the first attempt. -/
def firstCalls (H : Libvirt) (L : Linked) (T : Timeouts) (request : Request) (w : LibvirtState) : ℕ :=
  match Router.find request.target (router L T).routes with
  | none => 0
  | some (location, fn) =>
    ((Router.attempt true location fn request 0).trace H.serve cmdFault {} w).length

/-- An interruption of call `n` makes no difference. -/
def Transparent (H : Libvirt) (L : Linked) (T : Timeouts) (request : Request) (r : Response)
    (w : LibvirtState) (n : ℕ) : Prop :=
  outcome H L T request r (w, none) = outcome H L T request r (w, some n)

def startPattern : String := "^/users/([^/]+)/domains/([^/]+)/start/$"

def shutdownPattern : String := "^/users/([^/]+)/domains/([^/]+)/shutdown/"

def metadataPattern : String := "^/users/([^/]+)/domains/([^/]+)/metadata/$"

/-- The request gives the domain another title, which libvirt takes as it is, and asks for nothing that
is not text. -/
def Retitles (L : Linked) (request : Request) (dom : DomainState) : Prop :=
  ∃ data t s, Views.parse L request.body = .ok data ∧
    Views.requested data "title" dom.title = .ok t ∧
    Views.requested data "description" dom.description = .ok s ∧
    t ≠ dom.title ∧ cStr t = t ∧ '\n' ∉ t.toList

/-- Before call `n` the route with the pattern has changed a domain in the state `dom`, in a way that its
second attempt notices. -/
def Unrepeatable (L : Linked) (request : Request) (dom : DomainState) (n : ℕ) (pattern : String) :
    Prop :=
  pattern = startPattern ∧ dom.id = none ∧ 2 ≤ n ∨
  pattern = shutdownPattern ∧ dom.id.isSome = true ∧ 2 ≤ n ∨
  pattern = metadataPattern ∧ Retitles L request dom ∧ 3 ≤ n

/-- The request is about a domain whose change an interruption of call `n` exposes. -/
def Exposed (L : Linked) (T : Timeouts) (request : Request) (w : LibvirtState) (n : ℕ) : Prop :=
  ∃ pattern location d dom,
    Router.routed request.target (router L T).routes = some (pattern, location) ∧
    w.lookup (capture location 1) (cStr (capture location 2)) = some d ∧ w.dom d = some dom ∧
    Unrepeatable L request dom n pattern

/-! ## The route functions stop -/

theorem stops_websocket (conn : User) (httpConn : Bool) (location : List String) (request : Request) :
    RouteM.Stops (websocket conn httpConn location request) := by
  refine .bind (stops_ofView (reads_user conn)) fun user => .bind ?_ fun _ => ?_
  · exact .ite (.call rfl) (.throw _)
  · exact .bind (.call rfl) fun _ => .modify _

theorem stops_router : ∀ route ∈ (router L T).routes, ∀ httpConn location request,
    RouteM.Stops (route.2 httpConn location request) := by
  have hlibvirt : ∀ (view : User → Request → ViewM Unit) methods httpConn location request,
      (∀ conn, Ends (view conn request)) →
      RouteM.Stops (withMethods methods (withLibvirt L fun conn _ _ request =>
        .ofView (view conn request)) httpConn location request) :=
    fun _ _ _ _ _ h => stops_withMethods (stops_withLibvirt fun conn => stops_ofView (h conn))
  have hdomain : ∀ (view : User → DomainPtr → Request → ViewM Unit) methods httpConn location request,
      (∀ conn d, RouteM.Stops (.ofView (view conn d request))) →
      RouteM.Stops (withMethods methods (withLibvirtDomain L fun conn d _ _ request =>
        .ofView (view conn d request)) httpConn location request) :=
    fun _ _ _ _ _ h => stops_withMethods (stops_withLibvirtDomain h)
  rw [router_routes]
  simp only [List.forall_mem_cons]
  refine ⟨?_, ?_, ?_, ?_, ?_, ?_, ?_, ?_, ?_, ?_, ?_, fun r hr => absurd hr List.not_mem_nil⟩
  · exact fun _ _ _ => .bind (.modify _) fun _ => .modify _
  · exact fun _ _ _ => hlibvirt _ _ _ _ _ fun conn => (Views.Domains.reads_index L conn).ends
  · exact fun _ _ _ => hdomain _ _ _ _ _ fun _ d => stops_ofView (Views.Domains.reads_show L d)
  · exact fun _ _ request => hdomain _ _ _ _ _ fun _ d =>
      stops_ofView (Views.Domains.ends_autostart L d request)
  · exact fun _ _ request => hdomain _ _ _ _ _ fun conn d =>
      stops_ofView (Views.Domains.ends_bootmenu L conn d request)
  · exact fun _ _ request => hdomain _ _ _ _ _ fun _ d =>
      stops_ofView (Views.Domains.ends_metadata L d request)
  · exact fun _ _ _ => hdomain _ _ _ _ _ fun _ d => stops_ofView (Views.Domains.made_shutdown L T d)
  · exact fun _ _ _ => hdomain _ _ _ _ _ fun _ d => stops_ofView (Views.Domains.ends_start L d)
  · exact fun _ _ _ => hlibvirt _ _ _ _ _ fun conn => (Views.Host.reads_show L conn).ends
  · exact fun _ _ _ => hlibvirt _ _ _ _ _ fun conn => (Views.Host.reads_networks L conn).ends
  · exact fun _ _ _ => stops_withMethods (stops_withLibvirt fun conn => stops_websocket conn _ _ _)

/-! ## The two runs -/

/-- What the client and libvirt are left with after a route function. -/
def report (L : Linked) (res : Except Failure Unit) (r : Response) (w : LibvirtState) :
    Status × String × LibvirtState :=
  ((Router.conclude L (res, r)).2.result, (Router.conclude L (res, r)).2.body, w)

section

variable {location : List String} {fn : RouteFunction} {ws : List LibvirtState}
  {res res' : Except Failure Unit} {r1 r2 : Response} {w1 w2 wn : LibvirtState}

/-- A `retry_error` of the route function itself leaves the state alone. -/
def Calm (res : Except Failure Unit) (w w' : LibvirtState) : Prop :=
  ∀ e, res = .error e → e.caughtBy .retryError = true → w' = w

theorem calm_ok (w w' : LibvirtState) : Calm (.ok ()) w w' := by
  intro e he
  cases he

theorem trace_attempt (httpConn : Bool) (k : ℕ) (r : Response) (w : LibvirtState) :
    (Router.attempt httpConn location fn request k).trace H.serve cmdFault r w =
      (fn (httpConn && k == 0) location request).trace H.serve cmdFault {} w := by
  unfold Router.attempt
  rw [Eff.trace_bind_ok (Eff.exec_modify H.serve _ r w)]
  rfl

theorem firstCalls_of_find
    (hf : Router.find request.target (router L T).routes = some (location, fn)) :
    firstCalls H L T request w = ((fn true location request).trace H.serve cmdFault {} w).length := by
  unfold firstCalls
  rw [hf]
  exact congrArg List.length (trace_attempt true 0 {} w)

/-- The outcomes of both runs, from what the route function does in the two states it is started in. -/
theorem outcomes (hf : Router.find request.target (router L T).routes = some (location, fn))
    (hfn : ∀ b b', fn b location request = fn b' location request)
    (hstops : RouteM.Stops (fn false location request))
    (h : RouteM.Plays H (fn false location request) {} w ws res r1 w1) (hcalm : Calm res w w1)
    (hwn : ws[n]? = some wn)
    (h' : (fn false location request).exec H.serve {} wn = (res', r2, w2)) (hcalm' : Calm res' wn w2) :
    outcome H L T request r (w, none) = report L res r1 w1 ∧
      outcome H L T request r (w, some n) = report L res' r2 w2 := by
  obtain ⟨hn, hget⟩ := List.getElem?_eq_some_iff.mp hwn
  subst hget
  have h1 := run_uninterrupted (L := L) (r := r) hf hfn h.exec hcalm
  have h2 := run_interrupted (L := L) (r := r) hf hfn hstops h.trace hn h' hcalm'
  unfold outcome onRequest
  rw [h1, h2]
  exact ⟨rfl, rfl⟩

/-- An interruption in the state of the start makes no difference. -/
theorem transparent_of_start
    (hf : Router.find request.target (router L T).routes = some (location, fn))
    (hfn : ∀ b b', fn b location request = fn b' location request)
    (hstops : RouteM.Stops (fn false location request))
    (h : RouteM.Plays H (fn false location request) {} w ws res r1 w1) (hcalm : Calm res w w1)
    (hw : ws[n]? = some w) : Transparent H L T request r w n := by
  obtain ⟨h1, h2⟩ := outcomes (r := r) hf hfn hstops h hcalm hw h.exec hcalm
  exact h1.trans h2.symm

theorem transparent_of_forall
    (hf : Router.find request.target (router L T).routes = some (location, fn))
    (hfn : ∀ b b', fn b location request = fn b' location request)
    (hstops : RouteM.Stops (fn false location request))
    (hn : n < ((fn false location request).trace H.serve cmdFault {} w).length)
    (h : RouteM.Plays H (fn false location request) {} w ws res r1 w1) (hcalm : Calm res w w1)
    (hws : ∀ x ∈ ws, x = w) : Transparent H L T request r w n := by
  rw [h.trace] at hn
  refine transparent_of_start hf hfn hstops h hcalm ?_
  rw [List.getElem?_eq_getElem hn]
  exact congrArg some (hws _ (List.getElem_mem hn))

theorem transparent_of_restartable
    (hf : Router.find request.target (router L T).routes = some (location, fn))
    (hfn : ∀ b b', fn b location request = fn b' location request)
    (hstops : RouteM.Stops (fn false location request))
    (hr : RouteM.Restartable H (fn false location request))
    (hn : n < ((fn false location request).trace H.serve cmdFault {} w).length) :
    Transparent H L T request r w n := by
  rcases hx : (fn false location request).exec H.serve {} w with ⟨res, r1, w1⟩
  refine transparent_of_forall hf hfn hstops hn ⟨hx, rfl⟩ (fun e he _ => ?_) (hr.interrupted {} w)
  rw [he] at hx
  exact hr.thrown {} w e r1 w1 hx

/-- A domain route that is interrupted has a domain, or only looked for it. -/
theorem domain_transparent_iff {methods : List Verb} {routeFn : User → DomainPtr → RouteFunction}
    {P : DomainPtr → DomainState → Prop}
    (hf : Router.find request.target (router L T).routes =
      some (location, withMethods methods (withLibvirtDomain L routeFn)))
    (hfn : ∀ b b', withMethods methods (withLibvirtDomain L routeFn) b location request =
      withMethods methods (withLibvirtDomain L routeFn) b' location request)
    (hstops : RouteM.Stops (withMethods methods (withLibvirtDomain L routeFn) false location request))
    (hn : n < ((withMethods methods (withLibvirtDomain L routeFn) false location request).trace H.serve
      cmdFault {} w).length)
    (h : ∀ d dom, Admitted H methods location request →
      w.lookup (capture location 1) (cStr (capture location 2)) = some d → w.dom d = some dom →
      (Transparent H L T request r w n ↔ ¬ P d dom)) :
    Transparent H L T request r w n ↔
      ¬ ∃ d dom, w.lookup (capture location 1) (cStr (capture location 2)) = some d ∧
        w.dom d = some dom ∧ P d dom := by
  have ha : Admitted H methods location request := by
    by_contra hna
    have hplays : ∃ res r', RouteM.Plays H
        (withMethods methods (withLibvirtDomain L routeFn) false location request) {} w [] res r' w :=
      exists_plays_of_not_admitted _ hna
    obtain ⟨res, r', h⟩ := hplays
    rw [h.trace] at hn
    exact absurd hn (Nat.not_lt_zero n)
  cases hl : w.lookup (capture location 1) (cStr (capture location 2)) with
  | none =>
    refine iff_of_true ?_ ?_
    · exact transparent_of_forall hf hfn hstops hn (plays_withLibvirtDomain_none ha hl) (calm_ok w w)
        fun x hx => List.mem_singleton.mp hx
    · rintro ⟨d, dom, hd, -⟩
      cases hd
  | some d =>
    obtain ⟨dom, hdom⟩ := exists_dom_of_lookup hl
    refine (h d dom ha hl hdom).trans (not_congr ⟨fun hP => ⟨d, dom, rfl, hdom, hP⟩, ?_⟩)
    rintro ⟨d', dom', hd', hdom', hP⟩
    obtain rfl : d = d' := Option.some.inj hd'
    obtain rfl : dom = dom' := Option.some.inj (hdom.symm.trans hdom')
    exact hP

/-- Before the first change of the state, or after. -/
theorem getElem?_replicate_append {a x : LibvirtState} {k : ℕ}
    (h : (List.replicate k a ++ ws)[n]? = some x) : n < k ∧ x = a ∨ k ≤ n ∧ x ∈ ws := by
  by_cases hlt : n < k
  · rw [List.getElem?_append_left (by simpa using hlt)] at h
    exact .inl ⟨hlt, List.eq_of_mem_replicate (List.mem_of_getElem? h)⟩
  · have hle : k ≤ n := Nat.not_lt.mp hlt
    rw [List.getElem?_append_right (by simpa using hle)] at h
    exact .inr ⟨hle, List.mem_of_getElem? h⟩

/-! ## `start` and `shutdown` -/

/-- A route that changes its domain with the first call of its view, and ends with another status when the
domain is so already, is not transparent after that call. -/
theorem transparent_iff_of_once {methods : List Verb} {routeFn : User → DomainPtr → RouteFunction}
    {d : DomainPtr} {k : ℕ}
    (hf : Router.find request.target (router L T).routes =
      some (location, withMethods methods (withLibvirtDomain L routeFn)))
    (hfn : ∀ b b', withMethods methods (withLibvirtDomain L routeFn) b location request =
      withMethods methods (withLibvirtDomain L routeFn) b' location request)
    (hstops : RouteM.Stops (withMethods methods (withLibvirtDomain L routeFn) false location request))
    (hn : n < ((withMethods methods (withLibvirtDomain L routeFn) false location request).trace H.serve
      cmdFault {} w).length)
    (ha : Admitted H methods location request)
    (hd : w.lookup (capture location 1) (cStr (capture location 2)) = some d)
    (hd1 : w1.lookup (capture location 1) (cStr (capture location 2)) = some d)
    (h1 : RouteM.Plays H (routeFn (capture location 1) d false location request)
      (({} : Response).set .allow (allow methods)) w (w :: List.replicate k w1) (.ok ()) r1 w1)
    (h2 : RouteM.Plays H (routeFn (capture location 1) d false location request)
      (({} : Response).set .allow (allow methods)) w1 [w1] (.ok ()) r2 w1)
    (hne : r1.result ≠ r2.result) :
    Transparent H L T request r w n ↔ ¬ 2 ≤ n := by
  have hrun := plays_withLibvirtDomain (L := L) ha hd h1
  have hagain := plays_withLibvirtDomain (L := L) ha hd1 h2
  rw [hrun.trace] at hn
  have hget := List.getElem?_eq_getElem hn
  rcases getElem?_replicate_append (k := 2) hget with ⟨hlt, hx⟩ | ⟨hle, hx⟩
  · rw [hx] at hget
    refine iff_of_true ?_ (Nat.not_le.mpr hlt)
    exact transparent_of_start hf hfn hstops hrun (calm_ok w w1) hget
  · rw [List.eq_of_mem_replicate hx] at hget
    refine iff_of_false (fun h => ?_) (not_not_intro hle)
    obtain ⟨ho1, ho2⟩ := outcomes (r := r) hf hfn hstops hrun (calm_ok w w1) hget hagain.exec
      (calm_ok w1 w1)
    unfold Transparent at h
    rw [ho1, ho2] at h
    exact hne (Prod.mk.inj h).1

theorem start_transparent_iff
    (hf : Router.find request.target (router L T).routes = some (location, startRoute L))
    (hn : n < ((startRoute L false location request).trace H.serve cmdFault {} w).length) :
    Transparent H L T request r w n ↔
      ¬ ∃ d dom, w.lookup (capture location 1) (cStr (capture location 2)) = some d ∧
        w.dom d = some dom ∧ dom.id = none ∧ 2 ≤ n := by
  have hstops : RouteM.Stops (startRoute L false location request) :=
    stops_withMethods (stops_withLibvirtDomain fun _ d => stops_ofView (Views.Domains.ends_start L d))
  refine domain_transparent_iff hf (fun _ _ => rfl) hstops hn fun d dom ha hl hdom => ?_
  cases hid : dom.id with
  | some id =>
    have hactive : dom.id.isSome = true := by rw [hid]; rfl
    refine iff_of_true ?_ fun h => by cases h.1
    refine transparent_of_forall hf (fun _ _ => rfl) hstops hn (plays_withLibvirtDomain ha hl
      (plays_ofView (Views.plays_start_active hdom hactive))) (calm_ok w w) ?_
    simp
  | none =>
    have hdom1 : (w.activate d dom).dom d = some { dom with id := some w.nextId } := dom_setDom hdom _
    have hl1 := (lookup_activate hdom (capture location 1) (cStr (capture location 2))).trans hl
    obtain ⟨j, h1⟩ := Views.plays_start_inactive (H := H) (L := L)
      (r := ({} : Response).set .allow (allow [.post])) hdom hid
    have h2 := Views.plays_start_active (H := H) (L := L)
      (r := ({} : Response).set .allow (allow [.post])) hdom1 rfl
    have hiff := transparent_iff_of_once (r := r) hf (fun _ _ => rfl) hstops hn ha hl hl1
      (plays_ofView h1) (plays_ofView h2) (by intro h; cases h)
    rw [hiff]
    simp

theorem shutdown_transparent_iff
    (hf : Router.find request.target (router L T).routes = some (location, shutdownRoute L T))
    (hn : n < ((shutdownRoute L T false location request).trace H.serve cmdFault {} w).length) :
    Transparent H L T request r w n ↔
      ¬ ∃ d dom, w.lookup (capture location 1) (cStr (capture location 2)) = some d ∧
        w.dom d = some dom ∧ dom.id.isSome = true ∧ 2 ≤ n := by
  have hstops : RouteM.Stops (shutdownRoute L T false location request) :=
    stops_withMethods (stops_withLibvirtDomain fun _ d =>
      stops_ofView (Views.Domains.made_shutdown L T d))
  refine domain_transparent_iff hf (fun _ _ => rfl) hstops hn fun d dom ha hl hdom => ?_
  cases hid : dom.id with
  | none =>
    refine iff_of_true ?_ fun h => by cases h.1
    refine transparent_of_forall hf (fun _ _ => rfl) hstops hn (plays_withLibvirtDomain ha hl
      (plays_ofView (Views.plays_shutdown_inactive hdom hid))) (calm_ok w w) ?_
    simp
  | some id =>
    have hactive : dom.id.isSome = true := by rw [hid]; rfl
    have hdom1 : (w.deactivate d dom).dom d = some { dom with id := none } := dom_setDom hdom _
    have hl1 := (lookup_deactivate hdom (capture location 1) (cStr (capture location 2))).trans hl
    obtain ⟨j, h1⟩ := Views.plays_shutdown_active (H := H) (L := L) (T := T)
      (r := ({} : Response).set .allow (allow [.post])) hdom hactive
    have h2 := Views.plays_shutdown_inactive (H := H) (L := L) (T := T)
      (r := ({} : Response).set .allow (allow [.post])) hdom1 rfl
    have hiff := transparent_iff_of_once (r := r) hf (fun _ _ => rfl) hstops hn ha hl hl1
      (plays_ofView h1) (plays_ofView h2) (by intro h; cases h)
    rw [hiff]
    simp

/-! ## `metadata` -/

/-- A member more makes the text of an object longer. -/
def Lengthens (L : Linked) : Prop :=
  ∀ ms k v, Json.lookup k ms = none →
    (L.stringify (.obj ms)).length < (L.stringify (.obj (Json.insert k v ms))).length

/-- A response that reports the title has another body than one that does not. -/
theorem metadataResponse_ne (hL : Lengthens L) (dom : DomainState) (s t : String) (r : Response) :
    (Views.metadataResponse L (Views.described dom s (Json.empty.set "title" (.str t))) r).body ≠
      (Views.metadataResponse L (Views.described dom s Json.empty) r).body := by
  have hbody : ∀ out, (Views.metadataResponse L out r).body = r.body ++ L.stringify out := by
    intro out
    unfold Views.metadataResponse
    split_ifs
    · rfl
    · rfl
  rw [hbody, hbody]
  intro h
  have htext := (String.append_right_inj _).mp h
  unfold Views.described at htext
  split_ifs at htext
  · have hlt := hL [] "title" (.str t) rfl
    exact absurd (congrArg String.length htext).symm (ne_of_lt hlt)
  · have hlt := hL [("description", .str s)] "title" (.str t) rfl
    exact absurd (congrArg String.length htext).symm (ne_of_lt hlt)

/-- The response that the view of an admitted request starts from. -/
abbrev admittedResponse : Response := ({} : Response).set .allow (allow [.post])

theorem stops_metadataRoute : RouteM.Stops (metadataRoute L false location request) :=
  stops_withMethods (stops_withLibvirtDomain fun _ d =>
    stops_ofView (Views.Domains.ends_metadata L d request))

theorem calm_requested {data : Json} {key current : String} {e : Exn}
    (h : Views.requested data key current = .error e) : Calm (.error (.exn e)) w w1 := by
  intro e' he hc
  obtain rfl : .exn e = e' := Except.error.inj he
  have hcls : ExnClass.retryError.catches e.cls = true := hc
  rw [Views.requested_error h] at hcls
  cases hcls

section

variable {d : DomainPtr} {dom : DomainState} {data : Json} {s t : String}

/-- The metadata view on a domain that has the title. -/
theorem exec_metadataRoute_same (ha : Admitted H [.post] location request)
    (hl : w.lookup (capture location 1) (cStr (capture location 2)) = some d)
    (hdom : w.dom d = some dom) (hp : Views.parse L request.body = .ok data)
    (ht : Views.requested data "title" dom.title = .ok dom.title)
    (h : ViewM.Plays H (Views.describe L d data Json.empty) admittedResponse w ws res r1 w1) :
    RouteM.Plays H (metadataRoute L false location request) {} w (w :: w :: ws) res r1 w1 := by
  have hset : ViewM.Plays H (Views.Domains.replaceMetadata d .title "title" dom.title dom.title
      Json.empty) admittedResponse w [] (.ok Json.empty) admittedResponse w :=
    Views.plays_replaceMetadata_same Json.empty
  exact plays_withLibvirtDomain ha hl (plays_ofView (Views.plays_metadata hp hdom ht hset h))

/-- And on one that has another. -/
theorem exec_metadataRoute_ne (ha : Admitted H [.post] location request)
    (hl : w.lookup (capture location 1) (cStr (capture location 2)) = some d)
    (hdom : w.dom d = some dom) (hp : Views.parse L request.body = .ok data)
    (ht : Views.requested data "title" dom.title = .ok t) (hne : t ≠ dom.title)
    (h : ViewM.Plays H (Views.describe L d data (Json.empty.set "title" (.str t))) admittedResponse
      (Views.retitle w d dom t) ws res r1 w1) :
    RouteM.Plays H (metadataRoute L false location request) {} w (w :: w :: w :: ws) res r1 w1 := by
  have hset : ViewM.Plays H (Views.Domains.replaceMetadata d .title "title" dom.title t
      Json.empty) admittedResponse w [w] (.ok (Json.empty.set "title" (.str t))) admittedResponse
      (Views.retitle w d dom t) := by
    rw [← Views.call_setTitle (H := H) hdom t]
    exact Views.plays_replaceMetadata_ne hne Json.empty
  exact plays_withLibvirtDomain ha hl (plays_ofView (Views.plays_metadata hp hdom ht hset h))

/-- `describe` makes its calls in one state, and does not throw a `retry_error` of its own. -/
theorem describe_calm (hdom : w.dom d = some dom) (data out : Json) :
    ∃ ws res r1 w1, ViewM.Plays H (Views.describe L d data out) admittedResponse w ws res r1 w1 ∧
      (∀ x ∈ ws, x = w) ∧ ∀ w w', Calm res w w' := by
  cases hs : Views.requested data "description" dom.description with
  | error e =>
    exact ⟨_, _, _, _, Views.plays_describe_error hdom hs, by simp, fun w w' => calm_requested hs⟩
  | ok s =>
    obtain ⟨ws, w2, hws, h⟩ := Views.exists_plays_describe (H := H) (L := L) hdom hs
    exact ⟨ws, _, _, w2, h out _, hws, fun w w' => calm_ok w w'⟩

/-- Without a new title the first attempt makes all its calls in one state. -/
theorem transparent_of_title_same
    (hf : Router.find request.target (router L T).routes = some (location, metadataRoute L))
    (hn : n < ((metadataRoute L false location request).trace H.serve cmdFault {} w).length)
    (ha : Admitted H [.post] location request)
    (hl : w.lookup (capture location 1) (cStr (capture location 2)) = some d)
    (hdom : w.dom d = some dom) (hp : Views.parse L request.body = .ok data)
    (ht : Views.requested data "title" dom.title = .ok dom.title) :
    Transparent H L T request r w n := by
  obtain ⟨ws, res, r1, w1, h, hws, hcalm⟩ := describe_calm (H := H) (L := L) hdom data Json.empty
  refine transparent_of_forall hf (fun _ _ => rfl) stops_metadataRoute hn
    (exec_metadataRoute_same ha hl hdom hp ht h) (hcalm w w1) ?_
  simpa using hws

/-- With a new title, a second attempt after it has been set starts from the state with that title. -/
theorem transparent_iff_of_title
    (hf : Router.find request.target (router L T).routes = some (location, metadataRoute L))
    (hn : n < ((metadataRoute L false location request).trace H.serve cmdFault {} w).length)
    (hrun : RouteM.Plays H (metadataRoute L false location request) {} w (w :: w :: w :: ws) res r1 w1)
    (hcalm : Calm res w w1) (hws : ∀ x ∈ ws, x = wn)
    (h2 : (metadataRoute L false location request).exec H.serve {} wn = (res', r2, w2))
    (hcalm' : Calm res' wn w2) :
    Transparent H L T request r w n ↔ (3 ≤ n → report L res r1 w1 = report L res' r2 w2) := by
  have hlen : n < (List.replicate 3 w ++ ws).length := by
    rw [hrun.trace] at hn
    exact hn
  have hget := List.getElem?_eq_getElem hlen
  rcases getElem?_replicate_append (k := 3) hget with ⟨hlt, hx⟩ | ⟨hle, hx⟩
  · rw [hx] at hget
    refine iff_of_true ?_ fun hle => absurd hle (Nat.not_le.mpr hlt)
    exact transparent_of_start hf (fun _ _ => rfl) stops_metadataRoute hrun hcalm hget
  · rw [hws _ hx] at hget
    obtain ⟨ho1, ho2⟩ := outcomes (r := r) hf (fun _ _ => rfl) stops_metadataRoute hrun hcalm hget h2
      hcalm'
    unfold Transparent
    rw [ho1, ho2]
    exact ⟨fun h _ => h, fun h => h hle⟩

/-- A title that the second attempt does not find is set and reported again. -/
theorem transparent_of_title_ne {dom1 : DomainState}
    (hf : Router.find request.target (router L T).routes = some (location, metadataRoute L))
    (hn : n < ((metadataRoute L false location request).trace H.serve cmdFault {} w).length)
    (ha : Admitted H [.post] location request)
    (hl : w.lookup (capture location 1) (cStr (capture location 2)) = some d)
    (hdom : w.dom d = some dom) (hp : Views.parse L request.body = .ok data)
    (ht : Views.requested data "title" dom.title = .ok t) (hne : t ≠ dom.title)
    (hl1 : (Views.retitle w d dom t).lookup (capture location 1) (cStr (capture location 2)) = some d)
    (hdom1 : (Views.retitle w d dom t).dom d = some dom1) (hne1 : t ≠ dom1.title)
    (hagain : Views.retitle (Views.retitle w d dom t) d dom1 t = Views.retitle w d dom t) :
    Transparent H L T request r w n := by
  have ht1 : Views.requested data "title" dom1.title = .ok t := Views.requested_of_ne ht hne _
  obtain ⟨ws, res, r1, w1, h, hws, hcalm⟩ :=
    describe_calm (H := H) (L := L) hdom1 data (Json.empty.set "title" (.str t))
  have hrun := exec_metadataRoute_ne ha hl hdom hp ht hne h
  rw [← hagain] at h
  have hsecond := exec_metadataRoute_ne ha hl1 hdom1 hp ht1 hne1 h
  exact (transparent_iff_of_title hf hn hrun (hcalm _ _) hws hsecond.exec (hcalm _ _)).mpr fun _ => rfl

/-- A title that it finds is left out of its response, if there is one about the metadata at all. -/
theorem transparent_iff_of_title_eq (hL : Lengthens L) {dom1 : DomainState}
    (hf : Router.find request.target (router L T).routes = some (location, metadataRoute L))
    (hn : n < ((metadataRoute L false location request).trace H.serve cmdFault {} w).length)
    (ha : Admitted H [.post] location request)
    (hl : w.lookup (capture location 1) (cStr (capture location 2)) = some d)
    (hdom : w.dom d = some dom) (hp : Views.parse L request.body = .ok data)
    (ht : Views.requested data "title" dom.title = .ok t) (hne : t ≠ dom.title)
    (hl1 : (Views.retitle w d dom t).lookup (capture location 1) (cStr (capture location 2)) = some d)
    (hdom1 : (Views.retitle w d dom t).dom d = some dom1) (heq : t = dom1.title) :
    Transparent H L T request r w n ↔
      ¬ ((∃ s, Views.requested data "description" dom1.description = .ok s) ∧ 3 ≤ n) := by
  have ht1 : Views.requested data "title" dom1.title = .ok dom1.title := by
    rw [← heq]
    exact Views.requested_of_ne ht hne _
  cases hs : Views.requested data "description" dom1.description with
  | error e =>
    have h : ∀ out, ViewM.Plays H (Views.describe L d data out) admittedResponse
        (Views.retitle w d dom t) [Views.retitle w d dom t] (.error (.exn e)) admittedResponse
        (Views.retitle w d dom t) := fun out => Views.plays_describe_error hdom1 hs
    have hrun := exec_metadataRoute_ne ha hl hdom hp ht hne (h _)
    have hsecond := exec_metadataRoute_same ha hl1 hdom1 hp ht1 (h _)
    refine iff_of_true ?_ ?_
    · refine (transparent_iff_of_title hf hn hrun (calm_requested hs) ?_ hsecond.exec
        (calm_requested hs)).mpr fun _ => rfl
      exact fun x hx => List.mem_singleton.mp hx
    · rintro ⟨⟨s, hs'⟩, -⟩
      cases hs'
  | ok s =>
    obtain ⟨ws, w2, hws, h⟩ := Views.exists_plays_describe (H := H) (L := L) hdom1 hs
    have hrun := exec_metadataRoute_ne ha hl hdom hp ht hne (h _ _)
    have hsecond := exec_metadataRoute_same ha hl1 hdom1 hp ht1 (h _ _)
    rw [transparent_iff_of_title hf hn hrun (calm_ok _ _) hws hsecond.exec (calm_ok _ _)]
    have hbody := metadataResponse_ne hL dom1 s t admittedResponse
    constructor
    · rintro h ⟨-, hle⟩
      exact hbody (Prod.mk.inj (Prod.mk.inj (h hle)).2).1
    · exact fun h hle => absurd ⟨⟨s, rfl⟩, hle⟩ h

/-- A title that is requested: the exception is one that libvirt stores as it is. -/
theorem transparent_iff_of_requested (hL : Lengthens L)
    (hf : Router.find request.target (router L T).routes = some (location, metadataRoute L))
    (hn : n < ((metadataRoute L false location request).trace H.serve cmdFault {} w).length)
    (ha : Admitted H [.post] location request)
    (hl : w.lookup (capture location 1) (cStr (capture location 2)) = some d)
    (hdom : w.dom d = some dom) (hp : Views.parse L request.body = .ok data)
    (ht : Views.requested data "title" dom.title = .ok t) :
    Transparent H L T request r w n ↔ ¬ (Retitles L request dom ∧ 3 ≤ n) := by
  have hretitles : Retitles L request dom ↔
      (∃ s, Views.requested data "description" dom.description = .ok s) ∧ t ≠ dom.title ∧
        cStr t = t ∧ '\n' ∉ t.toList := by
    constructor
    · rintro ⟨data', t', s, hp', ht', hs, h⟩
      obtain rfl : data = data' := Except.ok.inj (hp.symm.trans hp')
      obtain rfl : t = t' := Except.ok.inj (ht.symm.trans ht')
      exact ⟨⟨s, hs⟩, h⟩
    · rintro ⟨⟨s, hs⟩, h⟩
      exact ⟨data, t, s, hp, ht, hs, h⟩
  rw [hretitles]
  by_cases hsame : t = dom.title
  · refine iff_of_true ?_ fun h => h.1.2.1 hsame
    rw [hsame] at ht
    exact transparent_of_title_same hf hn ha hl hdom hp ht
  · obtain ⟨dom1, hdom1, hdesc, htitle, hagain⟩ := Views.dom_retitle hdom t
    have hl1 : (Views.retitle w d dom t).lookup (capture location 1) (cStr (capture location 2)) =
        some d := (Views.lookup_retitle hdom t _ _).trans hl
    by_cases hfound : t = dom1.title
    · have hstored : cStr t = t ∧ '\n' ∉ t.toList := by
        rw [htitle] at hfound
        split_ifs at hfound with hline
        · exact absurd hfound hsame
        · rw [← hfound] at hline
          exact ⟨hfound.symm, hline⟩
      rw [transparent_iff_of_title_eq hL hf hn ha hl hdom hp ht hsame hl1 hdom1 hfound, hdesc]
      exact not_congr ⟨fun h => ⟨⟨h.1, hsame, hstored⟩, h.2⟩, fun h => ⟨h.1.1, h.2⟩⟩
    · refine iff_of_true ?_ ?_
      · exact transparent_of_title_ne hf hn ha hl hdom hp ht hsame hl1 hdom1 hfound hagain
      · rintro ⟨⟨-, -, hc, hline⟩, -⟩
        rw [htitle, hc, if_neg hline] at hfound
        exact hfound rfl

end

/-- `metadata` is not transparent once the title is set, if libvirt stores it as it is and the request
is answered with what it changed. -/
theorem metadata_transparent_iff (hL : Lengthens L)
    (hf : Router.find request.target (router L T).routes = some (location, metadataRoute L))
    (hn : n < ((metadataRoute L false location request).trace H.serve cmdFault {} w).length) :
    Transparent H L T request r w n ↔
      ¬ ∃ d dom, w.lookup (capture location 1) (cStr (capture location 2)) = some d ∧
        w.dom d = some dom ∧ Retitles L request dom ∧ 3 ≤ n := by
  refine domain_transparent_iff hf (fun _ _ => rfl) stops_metadataRoute hn fun d dom ha hl hdom => ?_
  cases hp : Views.parse L request.body with
  | error e =>
    refine iff_of_true ?_ ?_
    · refine transparent_of_forall hf (fun _ _ => rfl) stops_metadataRoute hn
        (plays_withLibvirtDomain ha hl (plays_ofView (Views.plays_metadata_invalid hp)))
        (calm_ok w w) ?_
      simp
    · rintro ⟨⟨data, t, s, hp', -⟩, -⟩
      rw [hp] at hp'
      cases hp'
  | ok data =>
    cases ht : Views.requested data "title" dom.title with
    | error e =>
      refine iff_of_true ?_ ?_
      · refine transparent_of_forall hf (fun _ _ => rfl) stops_metadataRoute hn
          (plays_withLibvirtDomain ha hl (plays_ofView (Views.plays_metadata_title_error hp hdom ht)))
          (calm_requested ht) ?_
        simp
      · rintro ⟨⟨data', t, s, hp', ht', -⟩, -⟩
        obtain rfl : data = data' := Except.ok.inj (hp.symm.trans hp')
        rw [ht] at ht'
        cases ht'
    | ok t => exact transparent_iff_of_requested hL hf hn ha hl hdom hp ht

end

/-! ## All routes -/

section

variable {location : List String} {pattern : String}

theorem exposed_iff
    (hrouted : Router.routed request.target (router L T).routes = some (pattern, location)) :
    Exposed L T request w n ↔
      ∃ d dom, w.lookup (capture location 1) (cStr (capture location 2)) = some d ∧
        w.dom d = some dom ∧ Unrepeatable L request dom n pattern := by
  constructor
  · rintro ⟨pattern', location', d, dom, hrouted', h⟩
    obtain ⟨rfl, rfl⟩ := Prod.mk.inj (Option.some.inj (hrouted.symm.trans hrouted'))
    exact ⟨d, dom, h⟩
  · rintro ⟨d, dom, h⟩
    exact ⟨pattern, location, d, dom, hrouted, h⟩

/-- Only three patterns are about changes that a second attempt notices. -/
theorem not_exposed
    (hrouted : Router.routed request.target (router L T).routes = some (pattern, location))
    (hp : pattern ≠ startPattern ∧ pattern ≠ shutdownPattern ∧ pattern ≠ metadataPattern) :
    ¬ Exposed L T request w n := by
  rw [exposed_iff hrouted]
  rintro ⟨d, dom, -, -, ⟨h, -⟩ | ⟨h, -⟩ | ⟨h, -⟩⟩
  · exact hp.1 h
  · exact hp.2.1 h
  · exact hp.2.2 h

/-- The read-only views with a connection can be started again. -/
theorem restartable_libvirtRoute {view : User → ViewM Unit} (h : ∀ conn, Reads (view conn))
    (methods : List Verb) :
    RouteM.Restartable H (withMethods methods (withLibvirt L fun conn _ _ _ => .ofView (view conn))
      false location request) :=
  restartable_withMethods (restartable_withLibvirt fun conn =>
    restartable_ofView (Views.Reads.restartable (h conn)))

theorem restartable_domainRoute {view : User → DomainPtr → Request → ViewM Unit}
    (h : ∀ conn d, Eff.Restartable H.answer opFault (view conn d request)) (methods : List Verb) :
    RouteM.Restartable H (withMethods methods
      (withLibvirtDomain L fun conn d _ _ request => .ofView (view conn d request)) false location
      request) :=
  restartable_withMethods (restartable_withLibvirtDomain fun conn d => restartable_ofView (h conn d))

/-- The websocket route makes no libvirt call. -/
theorem trace_websocketRoute :
    (websocketRoute L true location request).trace H.serve cmdFault {} w = [] := by
  have hplays : ∃ res r', RouteM.Plays H (websocketRoute L true location request) {} w [] res r' w := by
    by_cases ha : Admitted H [.get] location request
    · have huser : RouteM.Plays H (.ofView (Virt.user (capture location 1)))
          (({} : Response).set .allow (allow [.get])) w [] (.ok (capture location 1))
          (({} : Response).set .allow (allow [.get])) w :=
        plays_ofView (Eff.Plays.call (c := Op.user (capture location 1)) rfl _ w)
      have hend : RouteM.Plays H (do
          upgrade true
          Eff.call (Cmd.websocketsAdd (capture location 1) (capture location 1))
          Eff.modify fun r => { r with result := .switchingProtocols })
          (({} : Response).set .allow (allow [.get])) w [] (.ok ())
          { ({} : Response).set .allow (allow [.get]) with result := .switchingProtocols } w :=
        Eff.Plays.bind_nil (Eff.Plays.call (c := Cmd.upgrade) rfl _ w) <|
          Eff.Plays.bind_nil (Eff.Plays.call (c := Cmd.websocketsAdd _ _) rfl _ w) <|
            Eff.Plays.modify _ _ w
      exact ⟨_, _, plays_withLibvirt ha (Eff.Plays.bind_nil huser hend)⟩
    · exact exists_plays_of_not_admitted _ ha
  obtain ⟨res, r', h⟩ := hplays
  exact h.trace

/-- An interruption makes no difference unless it comes after a change that the second attempt notices. -/
theorem retry_transparent_iff (hL : Lengthens L) (hn : n < firstCalls H L T request w) :
    Transparent H L T request r w n ↔ ¬ Exposed L T request w n := by
  rcases Router.find_cases request.target (router L T).routes with hf | ⟨route, hmem, location, hf, hr⟩
  · unfold firstCalls at hn
    rw [hf] at hn
    exact absurd hn (Nat.not_lt_zero n)
  rw [firstCalls_of_find hf] at hn
  have hstops := stops_router route hmem false location request
  -- a route that can be started again
  have hrestartable : (∀ b b', route.2 b location request = route.2 b' location request) →
      RouteM.Restartable H (route.2 false location request) →
      route.1 ≠ startPattern ∧ route.1 ≠ shutdownPattern ∧ route.1 ≠ metadataPattern →
      (Transparent H L T request r w n ↔ ¬ Exposed L T request w n) := by
    intro hfn hrs hp
    rw [hfn true false] at hn
    exact iff_of_true (transparent_of_restartable hf hfn hstops hrs hn) (not_exposed hr hp)
  have hpatterns : ∀ {pattern}, pattern ∉ [startPattern, shutdownPattern, metadataPattern] →
      pattern ≠ startPattern ∧ pattern ≠ shutdownPattern ∧ pattern ≠ metadataPattern := by
    intro pattern h
    simpa using h
  rw [router_routes] at hmem
  simp only [List.mem_cons, List.not_mem_nil, or_false] at hmem
  rcases hmem with rfl | rfl | rfl | rfl | rfl | rfl | rfl | rfl | rfl | rfl | rfl
  · refine hrestartable (fun _ _ => rfl) ?_ (hpatterns (by dsimp only; decide))
    have huses : Eff.Uses Cmd.ReadOnly Failure.IsExn (appendTrailingSlash false location request) :=
      .bind (.modify _) fun _ => .modify _
    exact huses.restartable fun w _ hc => serve_of_readOnly hc w
  · exact hrestartable (fun _ _ => rfl)
      (restartable_libvirtRoute (fun conn => Views.Domains.reads_index L conn) _)
      (hpatterns (by dsimp only; decide))
  · exact hrestartable (fun _ _ => rfl)
      (restartable_domainRoute (fun _ d => Views.Reads.restartable (Views.Domains.reads_show L d)) _)
      (hpatterns (by dsimp only; decide))
  · exact hrestartable (fun _ _ => rfl)
      (restartable_domainRoute (fun _ _ => Views.restartable_autostart request) _)
      (hpatterns (by dsimp only; decide))
  · exact hrestartable (fun _ _ => rfl)
      (restartable_domainRoute (fun conn _ => Views.restartable_bootmenu conn request) _)
      (hpatterns (by dsimp only; decide))
  · rw [metadata_transparent_iff hL hf hn, exposed_iff hr]
    simp [Unrepeatable, startPattern, shutdownPattern, metadataPattern]
  · rw [shutdown_transparent_iff hf hn, exposed_iff hr]
    simp [Unrepeatable, startPattern, shutdownPattern, metadataPattern]
  · rw [start_transparent_iff hf hn, exposed_iff hr]
    simp [Unrepeatable, startPattern, shutdownPattern, metadataPattern]
  · exact hrestartable (fun _ _ => rfl)
      (restartable_libvirtRoute (fun conn => Views.Host.reads_show L conn) _) (hpatterns (by dsimp only; decide))
  · exact hrestartable (fun _ _ => rfl)
      (restartable_libvirtRoute (fun conn => Views.Host.reads_networks L conn) _)
      (hpatterns (by dsimp only; decide))
  · rw [trace_websocketRoute] at hn
    exact absurd hn (Nat.not_lt_zero n)

end

/-! ## Two interrupted requests -/

/-- A JSON document with a title. -/
def titleBody : String := "\x7b\"title\":\"new\"\x7d"

/-- Linked libraries that write JSON, and read one document. -/
def writingLinked : Linked :=
  { plainLinked with
    stringify := fun j => j.write ++ "\n"
    parseJson := fun s =>
      if s = titleBody then some (.obj [("title", .str "new")]) else none }

/-- The one user is ann, libvirt tells nothing but the states of domains, and defines none. -/
def annLibvirt : Libvirt where
  getpwnam user := decide (user = "ann")
  poolGet _ := .ok ()
  look _
    | .virConnectGetCapabilities _ => none
    | .virConnectGetHostname _ => none
    | .virConnectGetLibVersion _ => none
    | .virConnectGetMaxVcpus _ _ => (-1 : ℤ)
    | .virConnectGetSysinfo _ => none
    | .virConnectGetType _ => none
    | .virConnectGetURI _ => none
    | .virConnectGetVersion _ => none
    | .virConnectIsEncrypted _ => (-1 : ℤ)
    | .virConnectIsSecure _ => (-1 : ℤ)
    | .virConnectListAllDomains _ => []
    | .virConnectListAllNetworks _ => []
    | .virDomainLookupByName _ _ => none
    | .virDomainCreate _ => (-1 : ℤ)
    | .virDomainGetState _ => none
    | .virDomainGetID _ => (-1 : ℤ)
    | .virDomainGetName _ => none
    | .virDomainGetAutostart _ => none
    | .virDomainSetAutostart _ _ => (-1 : ℤ)
    | .virDomainGetMetadata _ _ => ""
    | .virDomainSetMetadata _ _ _ => (-1 : ℤ)
    | .virDomainGetXMLDesc _ => none
    | .virDomainDefineXML _ _ => none
    | .virDomainGetBlockInfo _ _ => ⟨0, 0, 0⟩
    | .virDomainShutdown _ => (-1 : ℤ)
    | .virNetworkGetXMLDesc _ => none
  define w _ _ := (none, w)
  uninitialised := 0
  now := 0

/-- The domain vm of ann is off. -/
def annDomains : LibvirtState := { domains := [{ conn := "ann", name := "vm" }] }

def startRequest : Request := { method := .post, target := "/users/ann/domains/vm/start/" }

def titleRequest : Request :=
  { method := .post, target := "/users/ann/domains/vm/metadata/", body := titleBody }

theorem lengthens_writingLinked : Lengthens writingLinked := by
  intro ms k v h
  have hlt := Json.length_write_insert h v
  show (Json.write _ ++ "\n").length < (Json.write _ ++ "\n").length
  rw [String.length_append, String.length_append]
  omega

theorem find_startRequest : Router.find startRequest.target (router L T).routes =
    some (["/users/ann/domains/vm/start/", "ann", "vm"], startRoute L) := by
  rw [router_routes]
  rfl

theorem find_titleRequest : Router.find titleRequest.target (router L T).routes =
    some (["/users/ann/domains/vm/metadata/", "ann", "vm"], metadataRoute L) := by
  rw [router_routes]
  rfl

/-- An interruption after `virDomainCreate`: the domain is started, and the response says that it could
not be. -/
theorem started_twice :
    2 < firstCalls annLibvirt writingLinked ⟨60, 15⟩ startRequest annDomains ∧
      ¬ Transparent annLibvirt writingLinked ⟨60, 15⟩ startRequest {} annDomains 2 := by
  have hcalls : ((startRoute writingLinked false ["/users/ann/domains/vm/start/", "ann", "vm"]
      startRequest).trace annLibvirt.serve cmdFault {} annDomains).length = 7 := by rfl
  constructor
  · rw [firstCalls_of_find find_startRequest]
    show 2 < ((startRoute writingLinked false _ startRequest).trace annLibvirt.serve cmdFault {}
      annDomains).length
    rw [hcalls]
    omega
  · rw [start_transparent_iff find_startRequest (by rw [hcalls]; omega)]
    exact not_not_intro ⟨0, _, rfl, rfl, rfl, le_refl 2⟩

theorem retry_transparent_iff_title :
    3 < firstCalls annLibvirt writingLinked ⟨60, 15⟩ titleRequest annDomains ∧
      (Transparent annLibvirt writingLinked ⟨60, 15⟩ titleRequest {} annDomains 3 ↔
        ¬ Exposed writingLinked ⟨60, 15⟩ titleRequest annDomains 3) := by
  have hcalls : 3 < firstCalls annLibvirt writingLinked ⟨60, 15⟩ titleRequest annDomains := by
    have hlength : ((metadataRoute writingLinked true ["/users/ann/domains/vm/metadata/", "ann", "vm"]
        titleRequest).trace annLibvirt.serve cmdFault {} annDomains).length = 4 := by rfl
    rw [firstCalls_of_find find_titleRequest, hlength]
    omega
  exact ⟨hcalls, retry_transparent_iff lengthens_writingLinked hcalls⟩

end Webvirtd.App
