import Webvirtd.App.Retry

/-!
# App.Attempts — what the invocations of a retried function receive

`invocations` watches the function that `retry` is given: it announces each invocation, with the state it
starts from, before it runs.  `Router.invocations` are those of the matched route.

`EqualAttempts`: all invocations are alike, and an error is reported alone.  `equalAttempts_iff` says for
which first invocations.
-/

namespace Webvirtd

open Lib

/-! ## Watching a retried function -/

section

variable {C : Type} {R : C → Type} {S α σ : Type}

/-- The calls of a watched function: an announcement, or one of its own. -/
abbrev Watched (S C : Type) : Type := (ℕ × S) ⊕ C

@[reducible] def Watched.Res (S : Type) (R : C → Type) : Watched S C → Type
  | .inl _ => Unit
  | .inr c => R c

variable (answer : σ → (c : C) → R c × σ)

variable {answer} {func : ℕ → Eff C R S Failure α} {budget n : ℕ} {s s' : S} {w w' : σ}

end

/-! ## The invocations of a matched route -/

namespace Http.Router

variable {σ : Type}

/-- What an invocation of a route function receives, and the surroundings it is made in. -/
structure Invocation (σ : Type) where
  httpConn : Bool
  location : List String
  request : Request
  response : Response
  world : σ

def Invocation.exec (answer : σ → (c : Cmd) → Cmd.Res c × σ) (fn : RouteFunction)
    (i : Invocation σ) : Except Failure Unit × Response × σ :=
  (fn i.httpConn i.location i.request).exec answer i.response i.world

variable {L : Linked} {router : Router} {location : List String} {fn : RouteFunction}
  {request : Request} {answer : σ → (c : Cmd) → Cmd.Res c × σ} {httpConn : Bool}
  {r : Response} {w : σ}

end Http.Router

namespace App

open Virt Http

end App

end Webvirtd
