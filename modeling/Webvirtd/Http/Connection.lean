import Webvirtd.Http.Router

/-!
# Http.Connection — `http::connection`: upgrades and `process_request`

The surroundings of a request are arbitrary: they answer the commands of the handler as they like.
What is modelled of the connection is the flag `upgrade_`, whether `websock_` points to something, and
whether `socket_` still is the accepted socket or was moved from.
-/

namespace Webvirtd.Http

open Lib Virt

/-- What answers the commands of a request handler; its clock advances. -/
structure Surroundings (σ : Type) where
  answer : σ → (c : Cmd) → Cmd.Res c × σ
  time : σ → ℚ
  clock : Clock (fun w o => answer w (.op o)) time

/-- The members of `http::connection` that a request handler can change. -/
structure Connection where
  upgrade : Bool := false
  websock : Bool := false
  socket : Bool := true
  deriving DecidableEq, Repr

/-- `connection::upgrade`: `socket_` is moved into a new websocket. -/
def Connection.doUpgrade (_ : Connection) : Connection :=
  { upgrade := true, websock := true, socket := false }

/-- The surroundings of a handler that holds the connection. -/
def Surroundings.serve {σ : Type} (S : Surroundings σ) (w : Connection × σ) :
    (c : Cmd) → Cmd.Res c × Connection × σ
  | .upgrade => ((), w.1.doUpgrade, (S.answer w.2 .upgrade).2)
  | .getpwnam user =>
    ((S.answer w.2 (.getpwnam user)).1, w.1, (S.answer w.2 (.getpwnam user)).2)
  | .poolGet user => ((S.answer w.2 (.poolGet user)).1, w.1, (S.answer w.2 (.poolGet user)).2)
  | .websocketsAdd conn user => ((), w.1, (S.answer w.2 (.websocketsAdd conn user)).2)
  | .op o => ((S.answer w.2 (.op o)).1, w.1, (S.answer w.2 (.op o)).2)

/-- The two ways on from the request handler. -/
inductive Branch
  /-- `websock_->run()` -/
  | runWebsock
  /-- `async_write(socket_, response_)` -/
  | writeResponse (response : Response)
  deriving DecidableEq, Repr

/-- What `process_request` came to: its branch, unless the handler did not return, and the connection. -/
structure Processed (σ : Type) where
  branch : Except Failure Branch
  connection : Connection
  world : σ

/-- `connection::process_request`; `onRequest` is the handler set by `on_request`. -/
def processRequest {σ : Type} (L : Linked) (S : Surroundings σ) (onRequest : Request → RouteM Unit)
    (request : Request) (w : σ) : Processed σ :=
  let response : Response := { version := request.version }
  let response := response.closeAfter.set .contentType "text/plain"
  let response := response.set .server L.beastVersion
  match (onRequest request).exec S.serve response ({}, w) with
  | (.error e, _, k, w) => ⟨.error e, k, w⟩
  | (.ok (), response, k, w) =>
    let response := response.setContentLength response.body.utf8ByteSize
    ⟨.ok (if L.isUpgrade request then .runWebsock else .writeResponse response), k, w⟩

/-- The response that `process_request` hands to the handler. -/
def prepared (L : Linked) (request : Request) : Response :=
  (({ version := request.version } : Response).closeAfter.set .contentType "text/plain").set .server
    L.beastVersion

/-- The two decisions of the connection agree: it goes on as a websocket if and only if it was
upgraded, so that neither a null `websock_` is dereferenced nor a `socket_` that was moved from
written. -/
structure Agreement {σ : Type} (p : Processed σ) : Prop where
  agree : p.branch = .ok .runWebsock ↔ p.connection.upgrade = true
  websock : p.branch = .ok .runWebsock → p.connection.websock = true
  socket : ∀ response, p.branch = .ok (.writeResponse response) → p.connection.socket = true

/-- `upgrade_`, `websock_` and `socket_` change together. -/
def Connection.Consistent (k : Connection) : Prop := k.websock = k.upgrade ∧ k.socket = !k.upgrade

section

variable {σ : Type} (S : Surroundings σ)

theorem serve_clock : Clock (fun w o => S.serve w (.op o)) fun w => S.time w.2 where
  mono w o := S.clock.mono w.2 o
  now w := S.clock.now w.2
  sleep w ms := S.clock.sleep w.2 ms

theorem serve_noUpgrade (w : Connection × σ) {c : Cmd} (hc : NoUpgrade c) :
    (S.serve w c).2.1 = w.1 := by
  cases c with
  | upgrade => exact absurd rfl hc
  | _ => rfl

variable {S} {L : Linked} {onRequest : Request → RouteM Unit} {request : Request} {w : σ}

/-- A handler that returns: the branch depends on the headers alone. -/
theorem processRequest_of_ok {r : Response} {k : Connection} {w' : σ}
    (h : (onRequest request).exec S.serve (prepared L request) ({}, w) = (.ok (), r, k, w')) :
    processRequest L S onRequest request w =
      ⟨.ok (if L.isUpgrade request then .runWebsock
        else .writeResponse (r.setContentLength r.body.utf8ByteSize)), k, w'⟩ := by
  unfold prepared at h
  unfold processRequest
  simp only [h]

theorem processRequest_of_error {r : Response} {k : Connection} {w' : σ} {e : Failure}
    (h : (onRequest request).exec S.serve (prepared L request) ({}, w) = (.error e, r, k, w')) :
    processRequest L S onRequest request w = ⟨.error e, k, w'⟩ := by
  unfold prepared at h
  unfold processRequest
  simp only [h]

/-- After a handler that returns on a consistent connection, the decisions agree exactly when the
headers ask for what the handler did. -/
theorem agreement_iff {r : Response} {k : Connection} (hk : k.Consistent) (w' : σ) :
    Agreement (⟨.ok (if L.isUpgrade request then .runWebsock else .writeResponse r), k, w'⟩ :
      Processed σ) ↔ (L.isUpgrade request = true ↔ k.upgrade = true) := by
  obtain ⟨hwebsock, hsocket⟩ := hk
  cases hu : L.isUpgrade request with
  | true =>
    constructor
    · intro h
      exact ⟨fun _ => h.agree.mp rfl, fun _ => rfl⟩
    · intro h
      have hup : k.upgrade = true := h.mp rfl
      refine ⟨⟨fun _ => hup, fun _ => rfl⟩, fun _ => hwebsock.trans hup, fun r' hr => ?_⟩
      cases hr
  | false =>
    constructor
    · intro h
      refine ⟨nofun, fun hup => ?_⟩
      have := h.agree.mpr hup
      cases this
    · intro h
      have hup : k.upgrade = false := by
        cases hk : k.upgrade with
        | false => rfl
        | true => exact absurd (h.mpr hk) (by simp)
      refine ⟨⟨nofun, fun h' => ?_⟩, nofun, fun r' _ => ?_⟩
      · rw [hup] at h'
        cases h'
      · rw [hsocket, hup]
        rfl

end

end Webvirtd.Http
