import Webvirtd.App.Responses
import Webvirtd.App.Retry
import Webvirtd.Lib.Faults

/-!
# App.Disconnections — a connection to libvirt that closes again and again

Each interruption costs one attempt.  A request that reads, or that writes the same once more, is answered as if
nothing had happened as long as there are at most five of them, one in each attempt, at any of its libvirt calls; from
six on it is answered with an internal server error, and libvirt is left as it was (`disconnections`).
-/

namespace Webvirtd

open Lib Virt Http Http.Middleware

/-! ## The attempts -/

namespace Http

section

variable {H : Libvirt} {request : Request} {location : List String} {fn : RouteFunction} {w : LibvirtState}
  {ns : List ℕ}

/-- Each countdown ends at one of the calls of an attempt. -/
def Hits (H : Libvirt) (request : Request) (location : List String) (fn : RouteFunction) (w : LibvirtState)
    (ns : List ℕ) : Prop :=
  ∀ n ∈ ns, n < ((fn false location request).trace H.serve cmdFault {} w).length

theorem exec_attempt_hit (hfn : ∀ b b', fn b location request = fn b' location request)
    (hstops : RouteM.Stops (fn false location request)) (hr : RouteM.Restartable H (fn false location request))
    (httpConn : Bool) (i : ℕ) (r : Response) {n : ℕ}
    (hn : n < ((fn false location request).trace H.serve cmdFault {} w).length) (ns : List ℕ) :
    ∃ r', (Router.attempt httpConn location fn request i).exec (injectAll H.serve cmdFault) r (w, n :: ns) =
      (.error (.exn interrupted), r', w, ns) := by
  obtain ⟨r', hexec⟩ := Eff.exec_injectAll_of_lt hstops hn ns
  rw [hr.interrupted {} w _ (List.getElem_mem hn)] at hexec
  refine ⟨r', ?_⟩
  rw [Router.exec_attempt, hfn _ false]
  exact hexec

/-- As many attempts as there are interruptions, if there are not too many. -/
theorem exec_retry_hits (hfn : ∀ b b', fn b location request = fn b' location request)
    (hstops : RouteM.Stops (fn false location request)) (hr : RouteM.Restartable H (fn false location request))
    (httpConn : Bool) (hns : Hits H request location fn w ns) {budget : ℕ} (hle : ns.length ≤ budget) (i : ℕ)
    (r : Response) :
    ∃ r', (retry (Router.attempt httpConn location fn request) budget i).exec (injectAll H.serve cmdFault) r
        (w, ns) =
      (retry (Router.attempt httpConn location fn request) (budget - ns.length) (i + ns.length)).exec
        (injectAll H.serve cmdFault) r' (w, []) := by
  induction ns generalizing budget i r with
  | nil => exact ⟨r, rfl⟩
  | cons n ns ih =>
    obtain ⟨r', hattempt⟩ :=
      exec_attempt_hit hfn hstops hr httpConn i r (hns n List.mem_cons_self) ns
    cases budget with
    | zero => exact absurd hle (Nat.not_succ_le_zero _)
    | succ budget =>
      have hrest : Hits H request location fn w ns := fun n hn => hns n (List.mem_cons_of_mem _ hn)
      obtain ⟨r'', hih⟩ := ih hrest (Nat.le_of_succ_le_succ hle) (i + 1) r'
      refine ⟨r'', ?_⟩
      rw [retry_of_retryError rfl hattempt, hih, List.length_cons]
      congr 2
      · omega
      · omega

/-- With more of them the budget is used up. -/
theorem exec_retry_spent (hfn : ∀ b b', fn b location request = fn b' location request)
    (hstops : RouteM.Stops (fn false location request)) (hr : RouteM.Restartable H (fn false location request))
    (httpConn : Bool) (hns : Hits H request location fn w ns) {budget : ℕ} (hlt : budget < ns.length) (i : ℕ)
    (r : Response) :
    ∃ r' ns', (retry (Router.attempt httpConn location fn request) budget i).exec (injectAll H.serve cmdFault) r
        (w, ns) = (.error (.exn ⟨.domainError, interrupted.what⟩), r', w, ns') := by
  induction budget generalizing ns i r with
  | zero =>
    cases ns with
    | nil => exact absurd hlt (Nat.not_lt_zero _)
    | cons n ns =>
      obtain ⟨r', hattempt⟩ := exec_attempt_hit hfn hstops hr httpConn i r (hns n List.mem_cons_self) ns
      refine ⟨r', ns, ?_⟩
      rw [retry, Eff.exec_tryCatch, hattempt]
      rfl
  | succ budget ih =>
    cases ns with
    | nil => exact absurd hlt (Nat.not_lt_zero _)
    | cons n ns =>
      obtain ⟨r', hattempt⟩ := exec_attempt_hit hfn hstops hr httpConn i r (hns n List.mem_cons_self) ns
      rw [retry_of_retryError rfl hattempt]
      exact ih (fun n hn => hns n (List.mem_cons_of_mem _ hn)) (Nat.lt_of_succ_lt_succ hlt) (i + 1) r'

end

end Http

namespace App

/-! ## Which routes can be started again -/

/-- A request that changes nothing, or that changes it to the same a second time. -/
def Endpoint.repeatable : Endpoint → Bool
  | .user .websocket => false
  | .domain .metadata => false
  | .domain .start => false
  | .domain .shutdown => false
  | _ => true

variable {H : Libvirt} {L : Linked} {T : Timeouts} {request : Request} {location : List String} {w : LibvirtState}

theorem Endpoint.restartable {e : Endpoint} (he : e.repeatable = true) :
    RouteM.Restartable H (e.handler L T false location request) := by
  cases e with
  | redirect =>
    have huses : Eff.Uses Cmd.ReadOnly Failure.IsExn (appendTrailingSlash false location request) :=
      .bind (.modify _) fun _ => .modify _
    exact huses.restartable fun w _ hc => serve_of_readOnly hc w
  | user s =>
    cases s with
    | websocket => cases he
    | host => exact restartable_libvirtRoute (fun conn => Views.Host.reads_show L conn) _
    | networks => exact restartable_libvirtRoute (fun conn => Views.Host.reads_networks L conn) _
    | domains => exact restartable_libvirtRoute (fun conn => Views.Domains.reads_index L conn) _
  | domain a =>
    cases a with
    | «show» =>
      exact restartable_domainRoute (fun _ d => Views.Reads.restartable (Views.Domains.reads_show L d)) _
    | autostart => exact restartable_domainRoute (fun _ _ => Views.restartable_autostart request) _
    | bootmenu => exact restartable_domainRoute (fun conn _ => Views.restartable_bootmenu conn request) _
    | metadata => cases he
    | start => cases he
    | shutdown => cases he

/-- None of them looks at the connection. -/
theorem Endpoint.handler_eq (L : Linked) (T : Timeouts) (location : List String) (request : Request) {e : Endpoint}
    (he : e.repeatable = true) (b b' : Bool) :
    e.handler L T b location request = e.handler L T b' location request := by
  cases e with
  | redirect => rfl
  | user s =>
    cases s with
    | websocket => cases he
    | _ => rfl
  | domain a => cases a <;> rfl

/-- What an attempt leaves that is interrupted can still be answered with one document. -/
theorem body_attempt {e : Endpoint} {httpConn : Bool} {i : ℕ} {r r' : Response} {σ : Type} {w w' : σ}
    {answer : σ → (c : Cmd) → Cmd.Res c × σ} {x : Failure}
    (h : (Router.attempt httpConn location (e.handler L T) request i).exec answer r w = (.error x, r', w')) :
    r'.body = "" := by
  have hmem : e.entry L T ∈ (router L T).routes := by
    rw [routes_endpoints]
    exact List.mem_map_of_mem (mem_endpoints e)
  obtain ⟨user, hanswers⟩ :=
    routes_answer L T (answering_oneDocument L) _ hmem (httpConn && i == 0) location request
  rw [Router.exec_attempt] at h
  have hends : Eff.Ends _ _ (((e.handler L T (httpConn && i == 0) location request).exec answer {} w).1,
      ((e.handler L T (httpConn && i == 0) location request).exec answer {} w).2.1) :=
    hanswers.exec ⟨rfl, by decide⟩ w
  rw [h] at hends
  exact hends.1

/-- And so can what the last of the attempts leaves. -/
theorem body_retry {e : Endpoint} {httpConn : Bool} {budget i : ℕ} {r r' : Response} {σ : Type} {w w' : σ}
    {answer : σ → (c : Cmd) → Cmd.Res c × σ} {x : Failure}
    (h : (retry (Router.attempt httpConn location (e.handler L T) request) budget i).exec answer r w =
      (.error x, r', w')) : r'.body = "" := by
  induction budget generalizing i r w with
  | zero =>
    rcases ha : (Router.attempt httpConn location (e.handler L T) request i).exec answer r w with ⟨y | u, r1, w1⟩
    · have hbody := body_attempt ha
      rw [retry, Eff.exec_tryCatch, ha] at h
      cases y with
      | exn y =>
        by_cases hc : ExnClass.retryError.catches y.cls = true
        · simp only [hc, if_true] at h
          obtain ⟨-, h⟩ := Prod.mk.inj h
          exact (Prod.mk.inj h).1 ▸ hbody
        · simp only [hc] at h
          obtain ⟨-, h⟩ := Prod.mk.inj h
          exact (Prod.mk.inj h).1 ▸ hbody
      | nullDeref =>
        obtain ⟨-, h⟩ := Prod.mk.inj h
        exact (Prod.mk.inj h).1 ▸ hbody
      | outOfFuel =>
        obtain ⟨-, h⟩ := Prod.mk.inj h
        exact (Prod.mk.inj h).1 ▸ hbody
    · rw [retry_of_ok ha] at h
      cases h
  | succ budget ih =>
    rcases ha : (Router.attempt httpConn location (e.handler L T) request i).exec answer r w with ⟨y | u, r1, w1⟩
    · cases hc : y.caughtBy .retryError with
      | true =>
        rw [retry_of_caught hc ha] at h
        exact ih h
      | false =>
        rw [retry_of_error hc ha] at h
        obtain ⟨-, h⟩ := Prod.mk.inj h
        exact (Prod.mk.inj h).1 ▸ body_attempt ha
    · rw [retry_of_ok ha] at h
      cases h

/-! ## What the client sees -/

/-- Status and body of the response, and the state of libvirt afterwards, when the connection closes `ns.length`
times. -/
def disrupted (H : Libvirt) (L : Linked) (T : Timeouts) (request : Request) (w : LibvirtState) (ns : List ℕ) :
    Status × String × LibvirtState :=
  let res := (onRequest L T request).exec (injectAll H.serve cmdFault) {} (w, ns)
  (res.2.1.result, res.2.1.body, res.2.2.1)

/-- How `run` ends, once its route is found. -/
theorem exec_onRequest {σ : Type} (answer : σ → (c : Cmd) → Cmd.Res c × σ) {fn : RouteFunction}
    (hf : Router.find request.target (router L T).routes = some (location, fn)) (r : Response) (w : σ) :
    ∃ r0, ∀ {res : Except Failure Unit} {r' : Response} {w' : σ},
      (retry (Router.attempt true location fn request) 5 0).exec answer r0 w = (res, r', w') →
      (onRequest L T request).exec answer r w =
        ((Router.conclude L (res, r')).1, (Router.conclude L (res, r')).2, w') := by
  refine ⟨{ r.set .contentType "application/json" with result := .ok }, fun {res r' w'} hretry => ?_⟩
  unfold onRequest Router.run
  rw [Eff.exec_bind_ok answer (Eff.exec_modify answer _ r w), hf]
  show Eff.exec answer (Eff.tryCatch _ _) _ _ = _
  rw [Eff.exec_tryCatch, hretry]
  cases res with
  | ok u => rfl
  | error e =>
    cases e with
    | exn e => rfl
    | nullDeref => rfl
    | outOfFuel => rfl

theorem disrupted_nil : disrupted H L T request w [] = outcome H L T request {} (w, none) := by
  unfold disrupted outcome
  rw [Eff.exec_injectAll_nil, Eff.exec_inject_none]

/-- **Disconnections.**  A repeatable request survives five of them, wherever they come, and no more. -/
theorem disconnections {e : Endpoint} (he : e.repeatable = true)
    (hf : Router.find request.target (router L T).routes = some (location, e.handler L T)) {ns : List ℕ}
    (hns : ∀ n ∈ ns, n < firstCalls H L T request w) :
    disrupted H L T request w ns =
      if ns.length ≤ 5 then outcome H L T request {} (w, none)
      else (.internalServerError, L.stringify (Json.error "libvirt connection closed"), w) := by
  have hfn := Endpoint.handler_eq L T location request he
  have hr : RouteM.Restartable H (e.handler L T false location request) := e.restartable he
  have hmem : e.entry L T ∈ (router L T).routes := by
    rw [routes_endpoints]
    exact List.mem_map_of_mem (mem_endpoints e)
  have hstops : RouteM.Stops (e.handler L T false location request) :=
    stops_router _ hmem false location request
  have hhits : Hits H request location (e.handler L T) w ns := by
    intro n hn
    have hlt := hns n hn
    rw [firstCalls_of_find hf, hfn true false] at hlt
    exact hlt
  obtain ⟨r0, hrun⟩ := exec_onRequest (injectAll H.serve cmdFault) hf {} (w, ns)
  by_cases hle : ns.length ≤ 5
  · rw [if_pos hle]
    obtain ⟨r1, hretry⟩ := exec_retry_hits hfn hstops hr true hhits hle 0 r0
    rcases hx : (e.handler L T false location request).exec H.serve {} w with ⟨res, r', w'⟩
    have hcalm : Calm res w w' := by
      intro x hres _
      rw [hres] at hx
      exact hr.thrown {} w x r' w' hx
    obtain ⟨res', hlast, hres⟩ : ∃ res', (retry (Router.attempt true location (e.handler L T) request)
        (5 - ns.length) (0 + ns.length)).exec H.serve r1 w = (res', r', w') ∧
        Router.conclude L (res', r') = Router.conclude L (res, r') :=
      Router.exec_retry hfn hx hcalm (5 - ns.length) (0 + ns.length) r1
    have hplain := run_uninterrupted (L := L) (r := {}) hf hfn hx hcalm
    have hwhole := hrun (hretry.trans (Eff.exec_injectAll_nil _ r1 w))
    rw [hlast, hres] at hwhole
    unfold disrupted outcome
    rw [hwhole]
    unfold onRequest
    rw [hplain]
  · rw [if_neg hle]
    obtain ⟨r1, ns', hretry⟩ := exec_retry_spent hfn hstops hr true hhits (Nat.lt_of_not_le hle) 0 r0
    have hbody : r1.body = "" := body_retry hretry
    unfold disrupted
    rw [hrun hretry]
    show (_, (r1.setResponse _ _).body, w) = _
    rw [body_setResponse hbody]
    rfl

def autostartRequest : Request := { method := .post, target := "/users/ann/domains/vm/autostart/" }

theorem find_autostartRequest : Router.find autostartRequest.target (router L T).routes =
    some ([autostartRequest.target, "ann", "vm"], (Endpoint.domain .autostart).handler L T) := by
  rw [router_routes]
  rfl

/-- Five interruptions, at the lookup and at `virDomainSetAutostart`, and one more. -/
theorem disconnections_autostart :
    disrupted annLibvirt writingLinked ⟨60, 15⟩ autostartRequest annDomains [1, 0, 1, 0, 1] =
        outcome annLibvirt writingLinked ⟨60, 15⟩ autostartRequest {} (annDomains, none) ∧
      disrupted annLibvirt writingLinked ⟨60, 15⟩ autostartRequest annDomains [1, 0, 1, 0, 1, 0] =
        (.internalServerError, writingLinked.stringify (Json.error "libvirt connection closed"), annDomains) := by
  have hcalls : firstCalls annLibvirt writingLinked ⟨60, 15⟩ autostartRequest annDomains = 2 := by
    rw [firstCalls_of_find find_autostartRequest]
    rfl
  refine ⟨?_, ?_⟩
  · exact disconnections (e := .domain .autostart) rfl find_autostartRequest (by rw [hcalls]; decide)
  · exact disconnections (e := .domain .autostart) rfl find_autostartRequest (by rw [hcalls]; decide)

end App

end Webvirtd
