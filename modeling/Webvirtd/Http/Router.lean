import Webvirtd.Http.Middleware
import Webvirtd.Lib.Regex
import Webvirtd.Util.Retry

/-!
# Http.Router — `retry` and `http::router`
-/

namespace Webvirtd

open Lib

/-- `retry(func).retries(budget)()`.  `func n` is the `n`-th invocation of the function; a
`retry_error` leads to the next one, or to a `domain_error` when the budget is used up. -/
def retry {C : Type} {R : C → Type} {S α : Type} (func : ℕ → Eff C R S Failure α) :
    (budget n : ℕ) → Eff C R S Failure α
  | 0, n => Eff.tryCatch (func n) fun
    | .exn e =>
      if ExnClass.retryError.catches e.cls then Eff.throw (.exn ⟨.domainError, e.what⟩)
      else Eff.throw (.exn e)
    | e => Eff.throw e
  | budget + 1, n => Eff.tryCatch (func n) fun e =>
    if e.caughtBy .retryError then retry func budget (n + 1) else Eff.throw e

section

variable {C : Type} {R : C → Type} {S α σ : Type} {answer : σ → (c : C) → R c × σ}
  {func : ℕ → Eff C R S Failure α} {budget n : ℕ} {s s' : S} {w w' : σ}

/-- An invocation that returns ends the loop. -/
theorem retry_of_ok {a : α} (h : (func n).exec answer s w = (.ok a, s', w')) :
    (retry func budget n).exec answer s w = (.ok a, s', w') := by
  cases budget with
  | zero => rw [retry, Eff.exec_tryCatch, h]
  | succ budget => rw [retry, Eff.exec_tryCatch, h]

theorem retry_of_caught {e : Failure} (he : e.caughtBy .retryError = true)
    (h : (func n).exec answer s w = (.error e, s', w')) :
    (retry func (budget + 1) n).exec answer s w = (retry func budget (n + 1)).exec answer s' w' := by
  rw [retry, Eff.exec_tryCatch, h]
  simp only [he, if_true]

/-- An invocation interrupted by a `retry_error` is followed by the next one. -/
theorem retry_of_retryError {e : Exn} (he : e.cls = .retryError)
    (h : (func n).exec answer s w = (.error (.exn e), s', w')) :
    (retry func (budget + 1) n).exec answer s w = (retry func budget (n + 1)).exec answer s' w' :=
  retry_of_caught (by simp [Failure.caughtBy, he]) h

/-- Any other exception of an invocation leaves the loop. -/
theorem retry_of_error {e : Failure} (he : e.caughtBy .retryError = false)
    (h : (func n).exec answer s w = (.error e, s', w')) :
    (retry func budget n).exec answer s w = (.error e, s', w') := by
  cases budget with
  | zero =>
    rw [retry, Eff.exec_tryCatch, h]
    cases e with
    | exn e =>
      have hc : ExnClass.retryError.catches e.cls = false := he
      simp [hc]
    | nullDeref => rfl
    | outOfFuel => rfl
  | succ budget =>
    rw [retry, Eff.exec_tryCatch, h]
    simp [he]

theorem keeps_retry {I : σ → Prop} {F : Failure → Prop} (hF : ∀ e, F (.exn e))
    (h : ∀ n, Eff.Keeps answer I F (func n)) : Eff.Keeps answer I F (retry func budget n) := by
  induction budget generalizing n with
  | zero =>
    refine .tryCatch (h n) fun e he => ?_
    cases e with
    | exn e =>
      show Eff.Keeps answer I F (if _ then _ else _)
      split_ifs
      · exact .throw (hF _)
      · exact .throw he
    | nullDeref => exact .throw he
    | outOfFuel => exact .throw he
  | succ budget ih =>
    refine .tryCatch (h n) fun e he => ?_
    split_ifs
    · exact ih
    · exact .throw he

end

section

variable {C : Type} {R : C → Type} {S σ : Type} {answer : σ → (c : C) → R c × σ}
  {func : ℕ → Eff C R S Failure Unit} {budget n : ℕ} {s : S} {w : σ} {r : Retry Failure (ℕ × S × σ)}

/-- The template arguments of `retry<>` over the failures of the model. -/
def retryError : Retried Failure where
  catches
    | .own e => e.caughtBy .retryError
    | .fatal _ => ExnClass.retryError.catches .domainError
  what
    | .exn e => e.what
    | _ => ""

def raised : Thrown Failure → Failure
  | .own e => e
  | .fatal m => .exn ⟨.domainError, m⟩

/-- `retry(func)`: each invocation runs in the state that the last one left. -/
def retryOf (answer : σ → (c : C) → R c × σ) (func : ℕ → Eff C R S Failure Unit) :
    Retry Failure (ℕ × S × σ) where
  func_ x :=
    let ran := (func x.1).exec answer x.2.1 x.2.2
    some (ran.1, x.1 + 1, ran.2)

theorem retryOf_run (h : Retry.Left (retryOf answer func).func_ r budget) {res : Except Failure Unit}
    {s' : S} {w' : σ} (hexec : (func n).exec answer s w = (res, s', w')) :
    r.func_ (n, s, w) = some (res, n + 1, s', w') := by
  rw [h.run]
  show some (((func n).exec answer s w).1, n + 1, ((func n).exec answer s w).2) = _
  rw [hexec]

/-- The loop of the router is the `operator()` of an object that has its budget left. -/
theorem exec_retry_eq_call (h : Retry.Left (retryOf answer func).func_ r budget) :
    ∃ o r' m, Retry.call retryError r (n, s, w) =
        some (o, r', m, ((retry func budget n).exec answer s w).2) ∧
      ((retry func budget n).exec answer s w).1 = o.mapError raised := by
  induction budget generalizing r n s w with
  | zero =>
    obtain ⟨res, s', w', hexec⟩ : ∃ res s' w', (func n).exec answer s w = (res, s', w') :=
      ⟨_, _, _, rfl⟩
    have hrun := retryOf_run h hexec
    rcases res with e | u
    · cases he : e.caughtBy .retryError with
      | false =>
        rw [retry_of_error he hexec]
        exact ⟨_, r, n + 1, Retry.call_of_other hrun he, rfl⟩
      | true =>
        rcases e with e | _ | _
        · have hc : ExnClass.retryError.catches e.cls = true := he
          rw [retry, Eff.exec_tryCatch, hexec]
          simp only [hc, if_true]
          exact ⟨_, _, n + 1, Retry.call_of_spent hrun he h.not_lt, rfl⟩
        · cases he
        · cases he
    · rw [retry_of_ok hexec]
      exact ⟨_, r, n + 1, Retry.call_of_ok hrun, rfl⟩
  | succ budget ih =>
    obtain ⟨res, s', w', hexec⟩ : ∃ res s' w', (func n).exec answer s w = (res, s', w') :=
      ⟨_, _, _, rfl⟩
    have hrun := retryOf_run h hexec
    rcases res with e | u
    · cases he : e.caughtBy .retryError with
      | false =>
        rw [retry_of_error he hexec]
        exact ⟨_, r, n + 1, Retry.call_of_other hrun he, rfl⟩
      | true =>
        rw [Retry.call_of_retried hrun he h.lt, retry_of_caught he hexec]
        exact ih h.next
    · rw [retry_of_ok hexec]
      exact ⟨_, r, n + 1, Retry.call_of_ok hrun, rfl⟩

end

namespace Http

/-- `routes_` with its patterns compiled as in `regex_`, in the order of the map. -/
structure Router where
  routes : List (String × RouteFunction)

namespace Router

/-- `map[key] = fn`. -/
def assign (key : String) (fn : RouteFunction) :
    List (String × RouteFunction) → List (String × RouteFunction)
  | [] => [(key, fn)]
  | (k, f) :: rs =>
    if key = k then (k, fn) :: rs
    else if stringLess key k then (key, fn) :: (k, f) :: rs
    else (k, f) :: assign key fn rs

/-- `router::route`. -/
def route (router : Router) (requestUri : String) (fn : RouteFunction) : Router :=
  ⟨assign requestUri fn router.routes⟩

/-- `std::regex_match` of a target against a pattern: its `std::smatch`. -/
def location (pattern target : String) : Option (List String) :=
  (Regex.parse pattern).bind fun re => (Regex.regexMatch re target).map (target :: ·)

/-- The first route that matches the target, with the match. -/
def find (target : String) : List (String × RouteFunction) → Option (List String × RouteFunction)
  | [] => none
  | (pattern, fn) :: rs =>
    match location pattern target with
    | some m => some (m, fn)
    | none => find target rs

theorem exists_of_find {target : String} {rs : List (String × RouteFunction)} {m : List String}
    {fn : RouteFunction} (h : find target rs = some (m, fn)) :
    ∃ r ∈ rs, r.2 = fn ∧ location r.1 target = some m := by
  induction rs with
  | nil => cases h
  | cons r rs ih =>
    obtain ⟨pattern, fn'⟩ := r
    cases hl : location pattern target with
    | none =>
      rw [find, hl] at h
      obtain ⟨r, hr, h1, h2⟩ := ih h
      exact ⟨r, List.mem_cons_of_mem _ hr, h1, h2⟩
    | some m' =>
      rw [find, hl] at h
      cases h
      exact ⟨_, List.mem_cons_self, rfl, hl⟩

/-- `next` when no route matches. -/
def notFound (L : Linked) (request : Request) : RouteM Unit :=
  let res := if request.method ≠ .options then L.stringify (Json.error "Not Found") else ""
  Eff.modify fun r => r.setResponse res .notFound

/-- The function that is retried.  The connection is moved into the first invocation. -/
def attempt (httpConn : Bool) (location : List String) (fn : RouteFunction) (request : Request)
    (n : ℕ) : RouteM Unit := do
  Eff.modify fun _ => {}
  fn (httpConn && n == 0) location request

/-- `router::run`. -/
def run (L : Linked) (router : Router) (httpConn : Bool) (request : Request) : RouteM Unit := do
  Eff.modify fun r => { r.set .contentType "application/json" with result := .ok }
  match find request.target router.routes with
  | none => notFound L request
  | some (location, fn) =>
    Eff.tryCatch (retry (attempt httpConn location fn request) 5 0) fun
      | .exn exc => setResponse L (Json.error exc.what) .internalServerError
      | e => Eff.throw e

variable {L : Linked} {router : Router} {httpConn : Bool} {request : Request} {σ : Type}
  {answer : σ → (c : Cmd) → Cmd.Res c × σ}

theorem exec_attempt {location : List String} {fn : RouteFunction} (httpConn : Bool) (n : ℕ)
    (r : Response) (w : σ) :
    (attempt httpConn location fn request n).exec answer r w =
      (fn (httpConn && n == 0) location request).exec answer {} w := by
  unfold attempt
  rw [Eff.exec_bind_ok answer (Eff.exec_modify answer _ r w)]

/-- `run` keeps what the route functions keep, and no C++ exception leaves it. -/
theorem keeps_run {I : σ → Prop} (hI : ∀ w c, NoUpgrade c → I w → I (answer w c).2)
    (h : ∀ location fn, find request.target router.routes = some (location, fn) →
      ∀ b, Eff.Keeps answer I Failure.IsExn (fn b location request)) :
    Eff.Keeps answer I (fun _ => False) (run L router httpConn request) := by
  refine .bind (.modify _) fun _ => ?_
  cases hf : find request.target router.routes with
  | none => exact .modify _
  | some found =>
    obtain ⟨location, fn⟩ := found
    refine .tryCatch (F := Failure.IsExn) (keeps_retry (fun e => trivial) fun n => ?_) fun e he => ?_
    · exact .bind (.modify _) fun _ => h location fn hf _
    · cases e with
      | exn e => exact keeps_setResponse hI L _ _
      | nullDeref => exact he.elim
      | outOfFuel => exact he.elim

/-- The text that a request without a route is answered with. -/
def notFoundText (L : Linked) (request : Request) : String :=
  if request.method ≠ .options then L.stringify (Json.error "Not Found") else ""

theorem exec_run_of_find_none (hf : find request.target router.routes = none) (r : Response) (w : σ) :
    (run L router httpConn request).exec answer r w =
      (.ok (), { r.set .contentType "application/json" with result := .ok }.setResponse
        (notFoundText L request) .notFound, w) := by
  unfold run
  rw [Eff.exec_bind_ok answer (Eff.exec_modify answer _ r w), hf]
  exact Eff.exec_modify answer _ _ w

/-- A route function whose first invocation returns decides what `run` does. -/
theorem run_of_ok {location : List String} {fn : RouteFunction}
    (hf : find request.target router.routes = some (location, fn)) {r r' : Response} {w w' : σ}
    (h : (fn httpConn location request).exec answer {} w = (.ok (), r', w')) :
    (run L router httpConn request).exec answer r w = (.ok (), r', w') := by
  have hattempt : (attempt httpConn location fn request 0).exec answer
      { r.set .contentType "application/json" with result := .ok } w = (.ok (), r', w') := by
    rw [exec_attempt]
    simpa using h
  unfold run
  rw [Eff.exec_bind_ok answer (Eff.exec_modify answer _ r w), hf]
  show Eff.exec answer (Eff.tryCatch _ _) _ _ = _
  rw [Eff.exec_tryCatch, retry_of_ok hattempt]

/-- So does one whose first invocation throws anything but a `retry_error`. -/
theorem run_of_exn {location : List String} {fn : RouteFunction}
    (hf : find request.target router.routes = some (location, fn)) {r r' : Response} {w w' : σ}
    {e : Exn} (he : e.cls ≠ .retryError)
    (h : (fn httpConn location request).exec answer {} w = (.error (.exn e), r', w')) :
    (run L router httpConn request).exec answer r w =
      (.ok (), r'.setResponse (L.stringify (Json.error e.what)) .internalServerError, w') := by
  have hattempt : (attempt httpConn location fn request 0).exec answer
      { r.set .contentType "application/json" with result := .ok } w =
      (.error (.exn e), r', w') := by
    rw [exec_attempt]
    simpa using h
  unfold run
  rw [Eff.exec_bind_ok answer (Eff.exec_modify answer _ r w), hf]
  show Eff.exec answer (Eff.tryCatch _ _) _ _ = _
  rw [Eff.exec_tryCatch, retry_of_error (caughtBy_of_ne he) hattempt]
  rfl

end Router

end Http

end Webvirtd
