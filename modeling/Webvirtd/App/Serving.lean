import Webvirtd.App.Grammar
import Webvirtd.App.Hypervisor
import Webvirtd.App.Upgrade
import Webvirtd.Http.Interruption

/-!
# App.Serving — the answers of the request handler, route by route

On a hypervisor that keeps to its documentation the handler answers what the inventory answers, and leaves the
inventory that the request makes (`Serves`).  The ruling is read off the handler's run: what the pool and libvirt
answered, and the guests when it ended.
-/

namespace Webvirtd.App

open Lib Virt Http Http.Middleware Views

section

variable {σ : Type} (H : Hypervisor σ) (L : Linked) (T : Timeouts)

/-! ## Answers -/

/-- The handler of the app as a service: how it ends, and the response. -/
def serveRequest : Service σ Request (Except Failure Unit × Response) := fun s request =>
  let x := (onRequest L T request).exec H.answer (prepared L request) s
  ((x.1, x.2.1), x.2.2)

def Reply.body (reply : Reply) : String :=
  match reply.document with
  | some document => L.stringify document.json
  | none => ""

/-- The handler returns, with the status and the document of the reply where this says something. -/
def Shows (x : Except Failure Unit × Response) (reply : Option Reply) : Prop :=
  x.1 = .ok () ∧ ∀ r, reply = some r → x.2.result = r.status ∧ x.2.body = r.body L

/-- The request is answered as `x` says, and leaves the inventory of `x`. -/
structure Serves (s : σ) (request : Request) (x : Option Reply × Inventory) : Prop where
  shows : Shows L (serveRequest H L T s request).1 x.1
  leaves : H.inventory (serveRequest H L T s request).2 = x.2

end

section

variable {σ : Type} {H : Hypervisor σ} {L : Linked} {T : Timeouts} {request : Request} {location : List String}
  {fn : RouteFunction} {r r' : Response} {s s' : σ} {res : Except Failure Unit} {es : List CmdEvent}
  {user : User} {name : String} {row : Row}

section

variable (hH : Documented H L) (hrow : (H.inventory s).row (capture location 1) (cStr (capture location 2)) = some row)

include hH hrow

omit hH hrow

end

end

end Webvirtd.App
