import Webvirtd.App.Routes
import Webvirtd.Http.Connection

/-!
# App.Upgrade — which requests upgrade the connection, and which are treated as upgraded

The request handler of the app upgrades the connection when routing, the system user and the pool say
so (`UpgradeRequested`).  `process_request` looks at the headers alone.
-/

namespace Webvirtd.App

open Lib Virt Http Http.Middleware

/-- `on_request` of the app. -/
def onRequest (L : Linked) (T : Timeouts) (request : Request) : RouteM Unit :=
  Router.run L (router L T) true request

/-- A `GET` of `/users/<user>/websocket/` for a user that exists and whose connection the pool returns. -/
def UpgradeRequested {σ : Type} (S : Surroundings σ) (request : Request) (w : σ) : Prop :=
  ∃ user, WebsocketTarget request.target user ∧ request.method = .get ∧
    (S.answer w (.getpwnam (cStr user))).1 = true ∧
    (S.answer (S.answer w (.getpwnam (cStr user))).2 (.poolGet user)).1 = .ok ()

theorem websocketTarget_unique {target : String} {user user' : User}
    (h : WebsocketTarget target user) (h' : WebsocketTarget target user') : user = user' := by
  have hloc := (location_websocket h).symm.trans (location_websocket h')
  simpa using hloc

section

variable {σ : Type} (S : Surroundings σ) (L : Linked) (T : Timeouts) (request : Request) (w : σ)

theorem upgradeRequested_iff {user : User} (ht : WebsocketTarget request.target user) :
    UpgradeRequested S request w ↔ request.method = .get ∧
      (S.answer w (.getpwnam (cStr user))).1 = true ∧
      (S.answer (S.answer w (.getpwnam (cStr user))).2 (.poolGet user)).1 = .ok () := by
  constructor
  · rintro ⟨user', ht', h⟩
    obtain rfl := websocketTarget_unique ht ht'
    exact h
  · exact fun h => ⟨user, ht, h⟩

/-- What the websocket route does with a fresh connection. -/
theorem exec_websocketRoute {user : User} (ht : WebsocketTarget request.target user) (r : Response) :
    (∃ r' k w', (websocketRoute L true [request.target, user] request).exec S.serve r ({}, w) =
      (.ok (), r', k, w') ∧ k.Consistent ∧ (k.upgrade = true ↔ UpgradeRequested S request w)) ∨
    ∃ e r' w', (websocketRoute L true [request.target, user] request).exec S.serve r ({}, w) =
      (.error (.exn e), r', {}, w') ∧ e.cls ≠ .retryError ∧ ¬ UpgradeRequested S request w := by
  have hfresh : ∀ {r' : Response} {w' : σ}, ¬ UpgradeRequested S request w →
      ∃ r'' k w'', ((.ok (), r', {}, w') : Except Failure Unit × Response × Http.Connection × σ) =
        (.ok (), r'', k, w'') ∧ k.Consistent ∧ (k.upgrade = true ↔ UpgradeRequested S request w) :=
    fun hno => ⟨_, _, _, rfl, ⟨rfl, rfl⟩, nofun, fun h => absurd h hno⟩
  have hreq := upgradeRequested_iff S request w ht
  unfold websocketRoute
  rw [exec_withMethods]
  split_ifs with hopt hget
  · exact .inl (hfresh fun h => by rw [(hreq.mp h).1] at hopt; cases hopt)
  · rw [exec_withLibvirt]
    have hmethod : request.method = .get := by simpa using hget
    show _ ∨ _
    cases huser : (S.answer w (.getpwnam (cStr user))).1 with
    | false =>
      have hserve : (S.serve ({}, w) (.getpwnam (cStr (capture [request.target, user] 1)))).1 =
        false := huser
      simp only [hserve]
      exact .inl (hfresh fun h => by rw [(hreq.mp h).2.1] at huser; cases huser)
    | true =>
      have hserve : (S.serve ({}, w) (.getpwnam (cStr (capture [request.target, user] 1)))).1 =
        true := huser
      simp only [hserve, if_true]
      cases hpool : (S.answer (S.answer w (.getpwnam (cStr user))).2 (.poolGet user)).1 with
      | ok u =>
        have hserve' : (S.serve (S.serve ({}, w)
          (.getpwnam (cStr (capture [request.target, user] 1)))).2
          (.poolGet (capture [request.target, user] 1))).1 = .ok () := hpool
        simp only [hserve']
        exact .inl ⟨_, _, _, rfl, ⟨rfl, rfl⟩,
          fun _ => hreq.mpr ⟨hmethod, huser, hpool⟩, fun _ => rfl⟩
      | error e =>
        have hserve' : (S.serve (S.serve ({}, w)
          (.getpwnam (cStr (capture [request.target, user] 1)))).2
          (.poolGet (capture [request.target, user] 1))).1 = .error e := hpool
        have hno : ¬ UpgradeRequested S request w := fun h => by
          rw [(hreq.mp h).2.2] at hpool
          cases hpool
        simp only [hserve']
        split_ifs with he
        · exact .inl (hfresh hno)
        · refine .inr ⟨e, _, _, rfl, fun hcls => he ?_, hno⟩
          rw [hcls]
          rfl
  · exact .inl (hfresh fun h => hget (by rw [(hreq.mp h).1]; exact List.mem_singleton.mpr rfl))

/-- The request handler always returns.  It leaves a consistent connection, upgraded exactly when that
was requested. -/
theorem onRequest_upgrade (r : Response) :
    ∃ r' k w', (onRequest L T request).exec S.serve r ({}, w) = (.ok (), r', k, w') ∧
      k.Consistent ∧ (k.upgrade = true ↔ UpgradeRequested S request w) := by
  by_cases hws : ∃ user, WebsocketTarget request.target user
  · obtain ⟨user, ht⟩ := hws
    have hf := find_websocket L T ht
    rcases exec_websocketRoute S L request w ht {} with ⟨r', k, w', h, hk⟩ | ⟨e, r', w', h, he, hno⟩
    · exact ⟨r', k, w', Router.run_of_ok hf h, hk⟩
    · refine ⟨_, {}, w', Router.run_of_exn hf he h, ⟨rfl, rfl⟩, nofun, fun h' => ?_⟩
      exact absurd h' hno
  · have hno : ¬ UpgradeRequested S request w := fun ⟨user, ht, _⟩ => hws ⟨user, ht⟩
    -- the other routes leave the connection as it was
    have hI : ∀ (w : Http.Connection × σ) c, NoUpgrade c → w.1 = {} → (S.serve w c).2.1 = {} :=
      fun w c hc hw => (serve_noUpgrade S w hc).trans hw
    have hkeeps : Eff.Keeps S.serve (fun w => w.1 = {}) (fun _ => False) (onRequest L T request) := by
      refine Router.keeps_run hI fun location fn hf b => ?_
      obtain ⟨route, hmem, rfl, -⟩ := find_other L T (fun user h => hws ⟨user, h⟩) hf
      exact keeps_otherRoutes L T hI (serve_clock S) route hmem b location request
    rcases hx : (onRequest L T request).exec S.serve r ({}, w) with ⟨res, r', k, w'⟩
    have hres := hkeeps r ({}, w) rfl
    rw [hx] at hres
    cases res with
    | error e => exact (hres.2 e rfl).1.elim
    | ok u =>
      obtain rfl : k = {} := hres.1 u rfl
      exact ⟨r', {}, w', rfl, ⟨rfl, rfl⟩, nofun, fun h => absurd h hno⟩

end

/-- The decisions of the connection agree exactly on the requests whose headers ask for an upgrade if
and only if the handler performs one. -/
theorem upgrade_agreement_iff {σ : Type} (L : Linked) (T : Timeouts) (S : Surroundings σ)
    (request : Request) (w : σ) :
    Agreement (processRequest L S (onRequest L T) request w) ↔
      (L.isUpgrade request = true ↔ UpgradeRequested S request w) := by
  obtain ⟨r, k, w', h, hk, hup⟩ := onRequest_upgrade S L T request w (prepared L request)
  rw [processRequest_of_ok h, agreement_iff hk, hup]

/-- Linked libraries for concrete requests: `isUpgrade` is right for header values of one token. -/
def plainLinked : Linked where
  isUpgrade request := decide (11 ≤ request.version) && decide (request.method = .get) &&
    request.fields.contains ("Connection", "Upgrade") &&
    request.fields.contains ("Upgrade", "websocket")
  beastVersion := "Boost.Beast"
  stringify _ := "\x7b\x7d"
  parseJson _ := none
  loadXml _ := []
  saveXml _ := ""
  strerror _ := "Connection refused"

/-- Surroundings without users and without libvirt, whose state is the time. -/
def emptySurroundings : Surroundings ℚ where
  answer w
    | .getpwnam _ => (false, w)
    | .poolGet _ => (.error ⟨.runtimeError, "error: Connection refused\n"⟩, w)
    | .upgrade => ((), w)
    | .websocketsAdd _ _ => ((), w)
    | .op (.libvirt _) => (.error ⟨.retryError, "libvirt connection closed"⟩, w)
    | .op (.user _) => ("", w)
    | .op .uninitialised => ((0 : ℤ), w)
    | .op .now => (w, w)
    | .op (.sleepFor ms) => ((), w + ms / 1000)
  time w := w
  clock :=
    { mono := fun w o => by
        cases o with
        | sleepFor ms =>
          show w ≤ w + ms / 1000
          have h : (0 : ℚ) ≤ ms / 1000 := by positivity
          linarith
        | _ => exact le_refl w
      now := fun w => ⟨le_refl w, le_refl w⟩
      sleep := fun w ms => le_refl _ }

/-- An upgrade asked of the websocket route for a user who does not exist: `websock_` is null when it
is run. -/
theorem upgrade_disagreement_unknownUser :
    ¬ Agreement (processRequest plainLinked emptySurroundings (onRequest plainLinked ⟨60, 15⟩)
      { method := .get, target := "/users/ghost/websocket/",
        fields := [("Connection", "Upgrade"), ("Upgrade", "websocket")] } 0) := by
  intro h
  have hrun : processRequest plainLinked emptySurroundings (onRequest plainLinked ⟨60, 15⟩)
      { method := .get, target := "/users/ghost/websocket/",
        fields := [("Connection", "Upgrade"), ("Upgrade", "websocket")] } 0 =
      ⟨.ok .runWebsock, {}, 0⟩ := by rfl
  rw [hrun] at h
  have hnull := h.websock rfl
  cases hnull

end Webvirtd.App
