import Webvirtd.App.Answers
import Webvirtd.App.Grammar

/-!
# App.Responses — the responses that are written

A response carries at most one document (`one_document`): whatever the outcomes of the attempts, the
body is appended to once.  The fields that `process_request` sets only reach the client on the path that
calls no handler (`envelope_iff`), since every attempt starts from a default constructed response.
-/

namespace Webvirtd

open Lib Virt Http

namespace Http

section

variable {σ : Type} {S : Surroundings σ} {L : Linked} {P Q : Response → Prop}

/-- What is written is what the handler left, with the length of its body. -/
theorem exists_of_writes {onRequest : Request → RouteM Unit} {request : Request} {w : σ}
    {response : Response}
    (h : (processRequest L S onRequest request w).branch = .ok (.writeResponse response)) :
    ∃ r x, (onRequest request).exec S.serve (prepared L request) ({}, w) = (.ok (), r, x) ∧
      response = r.setContentLength r.body.utf8ByteSize := by
  have hexec : ∀ x, (onRequest request).exec S.serve (prepared L request) ({}, w) = x →
      ∃ r y, x = (.ok (), r, y) ∧ response = r.setContentLength r.body.utf8ByteSize := by
    rintro ⟨e | u, r, k, w'⟩ hx
    · rw [processRequest_of_error hx] at h
      cases h
    · rw [processRequest_of_ok hx] at h
      refine ⟨r, (k, w'), rfl, ?_⟩
      by_cases hu : L.isUpgrade request = true
      · rw [if_pos hu] at h
        cases h
      · rw [if_neg hu] at h
        cases h
        rfl
  exact hexec _ rfl

/-- Whatever route is called, the response is answered. -/
theorem Router.answers_of_routes (h : Views.Answering L P Q) (P₀ : Response → Prop)
    (hstart : ∀ r, P₀ r → P { r.set .contentType "application/json" with result := .ok })
    (hblank : ∀ r, P r → Q (r.setResponse "" .notFound)) {router : Router}
    (hroutes : ∀ entry ∈ router.routes, ∀ httpConn location request, ∃ user,
      RouteAnswers user P Q (entry.2 httpConn location request))
    (httpConn : Bool) (request : Request) :
    Eff.Ensures (fun _ => True) P₀ (run L router httpConn request) (fun _ => Q) fun _ => P := by
  refine (answers_run h hblank fun location fn hf b => ?_).conseq (fun _ h => h) hstart
    (fun _ _ h => h) fun _ _ h => h
  obtain ⟨entry, hmem, rfl, -⟩ := exists_of_find hf
  obtain ⟨user, hanswers⟩ := hroutes entry hmem b location request
  exact hanswers.conseq (fun _ _ => trivial) (fun _ h => h) (fun _ _ h => h) fun _ _ h => h

end

end Http

namespace App

/-! ## One document -/

/-- The body is empty or one document, and for an error it names nothing but its detail. -/
structure OneDocument (L : Linked) (r : Response) : Prop where
  body : r.body = "" ∨ ∃ document, r.body = L.stringify document
  error : 400 ≤ r.result.code →
    r.body = "" ∨ ∃ text, r.body = L.stringify (.obj [("detail", .str text)])

theorem routes_answer (L : Linked) (T : Timeouts) {P Q : Response → Prop} (h : Views.Answering L P Q) :
    ∀ entry ∈ (router L T).routes, ∀ httpConn location request, ∃ user,
      RouteAnswers user P Q (entry.2 httpConn location request) :=
  fun entry hmem httpConn location request => ⟨_, answers_route h entry hmem httpConn location request⟩

theorem code_ok : Status.ok.code < 400 := by decide

theorem oneDocument_of_blank (L : Linked) {r : Response} (h : r.body = "") : OneDocument L r :=
  ⟨.inl h, fun _ => .inl h⟩

/-- A blank body is appended to. -/
theorem body_setResponse {r : Response} (h : r.body = "") (data : String) (st : Status) :
    (r.setResponse data st).body = data := by
  show r.body ++ data = data
  rw [h, String.empty_append]

theorem answering_oneDocument (L : Linked) :
    Views.Answering L (fun r => r.body = "" ∧ r.result.code < 400) (OneDocument L) where
  fresh := ⟨rfl, by decide⟩
  lt _ h := h.2
  status _ _ hst h := ⟨h.1, hst⟩
  allow _ _ h := h
  location _ _ h := h
  unanswered _ h := oneDocument_of_blank L h.1
  refuse _ h := oneDocument_of_blank L h.1
  document r data st hst h :=
    ⟨.inr ⟨data, body_setResponse h.1 _ _⟩, fun h400 => absurd h400 (Nat.not_le_of_lt hst)⟩
  error r text st h :=
    ⟨.inr ⟨_, body_setResponse h.1 _ _⟩, fun _ => .inr ⟨text, body_setResponse h.1 _ _⟩⟩

theorem closeAfter_body (r : Response) : r.closeAfter.body = r.body := by
  unfold Response.closeAfter
  split_ifs <;> rfl

/-- Whatever is answered, and whatever is thrown on the way, in whichever attempts, the response carries
at most one document. -/
theorem one_document {σ : Type} (L : Linked) (T : Timeouts) (S : Surroundings σ) (request : Request)
    (w : σ) (response : Response)
    (h : (processRequest L S (onRequest L T) request w).branch = .ok (.writeResponse response)) :
    OneDocument L response := by
  obtain ⟨r, x, hexec, rfl⟩ := exists_of_writes h
  have hans := Router.answers_of_routes (answering_oneDocument L) (fun r => r.body = "")
    (fun r hr => ⟨hr, code_ok⟩) (fun r hr => oneDocument_of_blank L (body_setResponse hr.1 _ _))
    (routes_answer L T (answering_oneDocument L)) true request
  have hone : OneDocument L r := hans.of_exec_ok (closeAfter_body _) hexec
  exact ⟨hone.body, hone.error⟩

theorem one_document_unknownUser : ∃ response,
    (processRequest plainLinked emptySurroundings (onRequest plainLinked ⟨60, 15⟩)
      { method := .get, target := "/users/ghost/host/" } 0).branch = .ok (.writeResponse response) ∧
      OneDocument plainLinked response :=
  ⟨_, rfl, one_document plainLinked ⟨60, 15⟩ emptySurroundings
    { method := .get, target := "/users/ghost/host/" } 0 _ rfl⟩

/-! ## The envelope -/

/-- The response as `process_request` and `router::run` mean to send it. -/
structure Envelope (L : Linked) (request : Request) (r : Response) : Prop where
  version : r.version = request.version
  /-- What `keep_alive(false)` leaves; before HTTP/1.1 no field says the same. -/
  connection : r.field .connection = if request.version < 11 then none else some "close"
  server : r.field .server = some L.beastVersion
  contentType : r.field .contentType = some "application/json"
  contentLength : r.field .contentLength = some (toString r.body.utf8ByteSize)

theorem answering_noServer (L : Linked) :
    Views.Answering L (fun r => r.field .server = none ∧ r.result.code < 400)
      fun r => r.field .server = none where
  fresh := ⟨rfl, by decide⟩
  lt _ h := h.2
  status _ _ hst h := ⟨h.1, hst⟩
  allow r v h := ⟨(Response.field_set_of_ne (by decide) r v).trans h.1, h.2⟩
  location r v h := ⟨(Response.field_set_of_ne (by decide) r v).trans h.1, h.2⟩
  unanswered _ h := h.1
  refuse _ h := h.1
  document r data st _ h := (Response.field_setResponse (by decide) r _ st).trans h.1
  error r text st h := (Response.field_setResponse (by decide) r _ st).trans h.1

theorem version_closeAfter (r : Response) : r.closeAfter.version = r.version := by
  unfold Response.closeAfter
  split_ifs <;> rfl

theorem connection_closeAfter (r : Response) :
    r.closeAfter.field .connection = if r.version < 11 then none else some "close" := by
  unfold Response.closeAfter
  split_ifs
  · exact Response.field_erase_self r _
  · exact Response.field_set_self r _ _

/-- The response of the path that calls no handler. -/
theorem envelope_notFound (L : Linked) (request : Request) {r r' : Response} {text : String}
    (hr : r = { (prepared L request).set .contentType "application/json" with result := .ok })
    (hr' : r' = r.setResponse text .notFound) :
    Envelope L request (r'.setContentLength r'.body.utf8ByteSize) := by
  have hfields : ∀ f : Field, .contentLength ≠ f →
      (r'.setContentLength r'.body.utf8ByteSize).field f =
        ((prepared L request).set .contentType "application/json").field f := by
    intro f hf
    subst hr hr'
    exact (Response.field_set_of_ne hf _ _).trans (Response.field_setResponse hf _ _ _)
  have hversion : r'.version = (prepared L request).version := by
    subst hr hr'
    rfl
  constructor
  · exact hversion.trans (version_closeAfter _)
  · rw [hfields .connection (by decide), Response.field_set_of_ne (by decide)]
    unfold prepared
    rw [Response.field_set_of_ne (by decide), Response.field_set_of_ne (by decide),
      connection_closeAfter]
  · rw [hfields .server (by decide), Response.field_set_of_ne (by decide)]
    exact Response.field_set_self _ _ _
  · rw [hfields .contentType (by decide), Response.field_set_self]
  · exact Response.field_set_self _ _ _

theorem find_eq_none_iff {target : String} {rs : List (String × RouteFunction)} :
    Router.find target rs = none ↔ ∀ entry ∈ rs, Router.location entry.1 target = none := by
  induction rs with
  | nil => exact ⟨fun _ entry h => absurd h List.not_mem_nil, fun _ => rfl⟩
  | cons entry rs ih =>
    rw [List.forall_mem_cons, Router.find, ← ih]
    cases Router.location entry.1 target with
    | none => exact ⟨fun h => ⟨rfl, h⟩, fun h => h.2⟩
    | some m => exact ⟨fun h => (by cases h), fun h => (by cases h.1)⟩

/-- A response has the envelope exactly when no pattern of the route table matches the target: every
attempt at a handler starts from a default constructed response, which loses the fields. -/
theorem envelope_iff {σ : Type} (L : Linked) (T : Timeouts) (S : Surroundings σ) (request : Request)
    (w : σ) (response : Response)
    (h : (processRequest L S (onRequest L T) request w).branch = .ok (.writeResponse response)) :
    Envelope L request response ↔
      ∀ entry ∈ (router L T).routes, Router.location entry.1 request.target = none := by
  obtain ⟨r, x, hexec, rfl⟩ := exists_of_writes h
  rw [← find_eq_none_iff]
  cases hf : Router.find request.target (router L T).routes with
  | none =>
    refine iff_of_true ?_ rfl
    unfold onRequest at hexec
    rw [Router.exec_run_of_find_none hf] at hexec
    cases hexec
    exact envelope_notFound L request rfl rfl
  | some found =>
    refine iff_of_false (fun henv => ?_) (Option.some_ne_none _)
    obtain ⟨location, fn⟩ := found
    obtain ⟨entry, hmem, rfl, -⟩ := Router.exists_of_find hf
    have hroute := fun b => answers_route (answering_noServer L) entry hmem b location request
    unfold onRequest at hexec
    have hnone : r.field .server = none :=
      (Router.answers_run_of_find (answering_noServer L) hf hroute).of_exec_ok trivial hexec
    have hserver := (Response.field_set_of_ne (by decide) r _).symm.trans henv.server
    rw [hnone] at hserver
    cases hserver

theorem envelope_unrouted : ∃ response,
    (processRequest plainLinked emptySurroundings (onRequest plainLinked ⟨60, 15⟩)
      { method := .get, target := "/" } 0).branch = .ok (.writeResponse response) ∧
      Envelope plainLinked { method := .get, target := "/" } response :=
  ⟨_, rfl, (envelope_iff plainLinked ⟨60, 15⟩ emptySurroundings { method := .get, target := "/" } 0 _
    rfl).mpr (find_eq_none_iff.mp rfl)⟩

/-- A redirect does not name the server. -/
theorem envelope_lost : ∃ response,
    (processRequest plainLinked emptySurroundings (onRequest plainLinked ⟨60, 15⟩)
      { method := .get, target := "/users/ann/host" } 0).branch = .ok (.writeResponse response) ∧
      ¬ Envelope plainLinked { method := .get, target := "/users/ann/host" } response := by
  refine ⟨_, rfl, fun h => ?_⟩
  have hserver := h.server
  cases hserver

end App

end Webvirtd
