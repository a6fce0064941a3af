import Webvirtd.App.Upgrade

/-!
# App.Grammar — what the router does with a target

The route table meets the grammar of its targets: whatever the order in which it is searched, the endpoint
that accepts the target is found, with the captures that the grammar says.
-/

namespace Webvirtd.App

open Lib Virt Http Http.Middleware

variable (L : Linked) (T : Timeouts)

section

variable {L T} {target : String}

theorem location_isSome_iff (hn : '\n' ∉ target.toList) (hr : '\r' ∉ target.toList) (e : Endpoint) :
    (Router.location e.pattern target).isSome ↔ ∃ captures, e.Accepts target captures := by
  rw [Option.isSome_iff_exists]
  constructor
  · rintro ⟨m, hm⟩
    obtain ⟨captures, h, -⟩ := (location_endpoint hn hr e).mp hm
    exact ⟨captures, h⟩
  · rintro ⟨captures, h⟩
    exact ⟨_, (location_endpoint hn hr e).mpr ⟨captures, h, rfl⟩⟩

/-- In a table of endpoints, in whatever order, the one that accepts the target is found. -/
theorem find_of_accepts (hn : '\n' ∉ target.toList) (hr : '\r' ∉ target.toList)
    {rs : List (String × RouteFunction)} (hrs : ∀ r ∈ rs, ∃ e : Endpoint, r = e.entry L T)
    {e : Endpoint} {captures : List String} (h : e.Accepts target captures)
    (he : e.entry L T ∈ rs) :
    Router.find target rs = some (target :: captures, e.handler L T) :=
  find_of_location L T hrs ((location_endpoint hn hr e).mpr ⟨captures, h, rfl⟩) he

/-- What is found is an endpoint that accepts the target. -/
theorem accepts_of_find (hn : '\n' ∉ target.toList) (hr : '\r' ∉ target.toList)
    {rs : List (String × RouteFunction)} (hrs : ∀ r ∈ rs, ∃ e : Endpoint, r = e.entry L T)
    {m : List String} {fn : RouteFunction} (h : Router.find target rs = some (m, fn)) :
    ∃ (e : Endpoint) (captures : List String), e.Accepts target captures ∧
      m = target :: captures ∧ fn = e.handler L T := by
  obtain ⟨r, hmem, hfn, hl⟩ := Router.exists_of_find h
  obtain ⟨e, rfl⟩ := hrs r hmem
  obtain ⟨captures, hacc, rfl⟩ := (location_endpoint hn hr e).mp hl
  exact ⟨e, captures, hacc, rfl, hfn.symm⟩

theorem entries_of_perm {rs : List (String × RouteFunction)} (h : rs.Perm (router L T).routes) :
    (∀ r ∈ rs, ∃ e : Endpoint, r = e.entry L T) ∧ ∀ e : Endpoint, e.entry L T ∈ rs := by
  rw [routes_endpoints] at h
  constructor
  · intro r hr
    obtain ⟨e, -, he⟩ := List.mem_map.mp (h.mem_iff.mp hr)
    exact ⟨e, he.symm⟩
  · intro e
    exact h.mem_iff.mpr (List.mem_map_of_mem (mem_endpoints e))

end

/-- The patterns match what the grammar accepts, with the captures that it says, and no two of them the
same target.  In whatever order the table is searched, the handler of the endpoint that accepts the
target is called with these captures, and what no endpoint accepts is not found. -/
theorem routing_grammar (target : String) (hn : '\n' ∉ target.toList) (hr : '\r' ∉ target.toList) :
    (∀ (e : Endpoint) m, Router.location e.pattern target = some m ↔
      ∃ captures, e.Accepts target captures ∧ m = target :: captures) ∧
    (∀ e e' : Endpoint, (Router.location e.pattern target).isSome →
      (Router.location e'.pattern target).isSome → e = e') ∧
    ∀ rs, rs.Perm (router L T).routes →
      (∀ (e : Endpoint) captures, e.Accepts target captures →
        Router.find target rs = some (target :: captures, e.handler L T)) ∧
      (∀ m fn, Router.find target rs = some (m, fn) →
        ∃ (e : Endpoint) (captures : List String), e.Accepts target captures ∧
          m = target :: captures ∧ fn = e.handler L T) ∧
      ((∀ (e : Endpoint) captures, ¬ e.Accepts target captures) →
        ∀ (request : Request), request.target = target → ∀ (httpConn : Bool) {σ : Type}
          (answer : σ → (c : Cmd) → Cmd.Res c × σ) (r : Response) (w : σ),
          ∃ r' : Response, (Router.run L ⟨rs⟩ httpConn request).exec answer r w = (.ok (), r', w) ∧
            r'.result = .notFound) := by
  refine ⟨fun e m => location_endpoint hn hr e, fun e e' he he' => ?_, fun rs hperm => ?_⟩
  · obtain ⟨captures, h⟩ := (location_isSome_iff hn hr e).mp he
    obtain ⟨captures', h'⟩ := (location_isSome_iff hn hr e').mp he'
    exact (accepts_unique h h').1
  · obtain ⟨hrs, hmem⟩ := entries_of_perm hperm
    refine ⟨fun e captures h => find_of_accepts hn hr hrs h (hmem e),
      fun m fn h => accepts_of_find hn hr hrs h, ?_⟩
    rintro hnone request rfl httpConn σ answer r w
    have hfind : Router.find request.target rs = none := by
      cases hf : Router.find request.target rs with
      | none => rfl
      | some found =>
        obtain ⟨e, captures, h, -⟩ := accepts_of_find hn hr hrs hf
        exact absurd h (hnone e captures)
    exact ⟨_, Router.exec_run_of_find_none hfind r w, rfl⟩

theorem routing_grammar_start :
    Router.find "/users/ann/domains/vm/start/" (router plainLinked ⟨60, 15⟩).routes =
      some (["/users/ann/domains/vm/start/", "ann", "vm"], startRoute plainLinked) := by
  have hdispatch := (routing_grammar plainLinked ⟨60, 15⟩ "/users/ann/domains/vm/start/" (by decide)
    (by decide)).2.2 _ (List.Perm.refl _)
  exact hdispatch.1 (.domain .start) ["ann", "vm"] ⟨"ann", "vm", ⟨by decide, by decide⟩,
    ⟨by decide, by decide⟩, rfl, by decide⟩

end Webvirtd.App
