import Webvirtd.App.Requests
import Webvirtd.App.Retry

/-!
# App.Metadata — what a metadata request does to the stored title and description

`MetadataStore` is what libvirt promises about the two texts: they are read as they are stored, and a write stores
the C string or fails.  The view reads and writes the title, then converts the description of the request: a
description without a text (`HalfWritten`) ends the request between the two writes.
-/

namespace Webvirtd.App

open Lib Virt Http Http.Middleware Views

section

variable {σ : Type}

/-- The operations on the metadata of `d` read and write `stored`. -/
structure MetadataStore (answer : σ → (o : Op) → Op.Res o × σ) (d : DomainPtr) (stored : σ → MetadataType → String) :
    Prop where
  get : ∀ w t, (answer w (.libvirt (.virDomainGetMetadata d t))).1 = .ok (stored w t)
  get_keeps : ∀ w t, stored (answer w (.libvirt (.virDomainGetMetadata d t))).2 = stored w
  set_returns : ∀ w t m, ∃ rc : ℤ, (answer w (.libvirt (.virDomainSetMetadata d t m))).1 = .ok rc
  set : ∀ w t m, (answer w (.libvirt (.virDomainSetMetadata d t m))).1 = .ok (0 : ℤ) →
    stored (answer w (.libvirt (.virDomainSetMetadata d t m))).2 = Function.update (stored w) t m
  set_fails : ∀ w t m, (answer w (.libvirt (.virDomainSetMetadata d t m))).1 ≠ .ok (0 : ℤ) →
    stored (answer w (.libvirt (.virDomainSetMetadata d t m))).2 = stored w

variable {answer : σ → (o : Op) → Op.Res o × σ} {d : DomainPtr} {stored : σ → MetadataType → String}
  {r r' : Response} {w w' : σ} {L : Linked} {request : Request} {data : Json} {e : Exn}

/-- The call of `if (value != current)`, with its answer. -/
def writes (answer : σ → (o : Op) → Op.Res o × σ) (d : DomainPtr) (type : MetadataType) (current value : String)
    (w : σ) : List OpEvent :=
  if value = current then []
  else [⟨.libvirt (.virDomainSetMetadata d type (cStr value)),
    (answer w (.libvirt (.virDomainSetMetadata d type (cStr value)))).1⟩]

/-- The surroundings after it. -/
def written (answer : σ → (o : Op) → Op.Res o × σ) (d : DomainPtr) (type : MetadataType) (current value : String)
    (w : σ) : σ :=
  if value = current then w else (answer w (.libvirt (.virDomainSetMetadata d type (cStr value)))).2

/-- The response after it. -/
def reported (key current value : String) (output : Json) : Json :=
  if value = current then output else output.set key (.str value)

theorem makes_get (hs : MetadataStore answer d stored) (type : MetadataType) (w : σ) :
    Eff.Makes answer (Domain.metadata d type) r w
      [⟨.libvirt (.virDomainGetMetadata d type), .ok (stored w type)⟩] (.ok (stored w type)) r
      (answer w (.libvirt (.virDomainGetMetadata d type))).2 := makes_perform (hs.get w type)

theorem makes_replaceMetadata {type : MetadataType} {key current value : String} (output : Json)
    (hreturns : value ≠ current →
      ∃ rc : ℤ, (answer w (.libvirt (.virDomainSetMetadata d type (cStr value)))).1 = .ok rc) :
    Eff.Makes answer (Domains.replaceMetadata d type key current value output) r w
      (writes answer d type current value w) (.ok (reported key current value output)) r
      (written answer d type current value w) := by
  unfold Domains.replaceMetadata writes written reported
  by_cases heq : value = current
  · rw [if_neg (not_not_intro heq), if_pos heq, if_pos heq, if_pos heq]
    exact .pure _ r w
  · rw [if_pos heq, if_neg heq, if_neg heq, if_neg heq]
    obtain ⟨rc, hrc⟩ := hreturns heq
    have hset : Eff.Makes answer (Domain.setMetadata d type value) r w _ _ r _ :=
      (makes_perform hrc).bind_last (.pure (rc == 0) r _)
    rw [hrc]
    exact hset.bind_last (.pure _ r _)

theorem makes_requested {key current value : String} (h : requested data key current = .ok value) :
    Eff.Makes answer (ofExcept ((data.getD key (.str current)).bind Json.asString)) r w [] (.ok value) r w :=
  makes_ofExcept h

theorem makes_requested_error {key current : String} (h : requested data key current = .error e) :
    Eff.Makes answer (ofExcept ((data.getD key (.str current)).bind Json.asString)) r w [] (.error (.exn e)) r w :=
  makes_ofExcept_error h

theorem makes_metadata_invalid (hp : parse L request.body = .error e) :
    Eff.Makes answer (Domains.metadata L d request) r w [] (.ok ())
      (r.setResponse (L.stringify (Json.error "Invalid JSON input")) .badRequest) w := by
  unfold Domains.metadata
  rw [hp]
  exact .modify _ r w

/-- A conversion of the title that throws ends the request before any write. -/
theorem makes_metadata_title_error (hs : MetadataStore answer d stored) (hp : parse L request.body = .ok data)
    (ht : requested data "title" (stored w .title) = .error e) :
    Eff.Makes answer (Domains.metadata L d request) r w
      [⟨.libvirt (.virDomainGetMetadata d .title), .ok (stored w .title)⟩] (.error (.exn e)) r
      (answer w (.libvirt (.virDomainGetMetadata d .title))).2 := by
  unfold Domains.metadata
  rw [hp]
  exact (makes_get hs .title w).bind_last (makes_requested_error ht).bind_error

/-- After the title the request goes on with the description. -/
theorem makes_metadata (hs : MetadataStore answer d stored) (hp : parse L request.body = .ok data) {title : String}
    (ht : requested data "title" (stored w .title) = .ok title) {es : List OpEvent} {x : Except Failure Unit}
    (h : Eff.Makes answer (describe L d data (reported "title" (stored w .title) title Json.empty)) r
      (written answer d .title (stored w .title) title (answer w (.libvirt (.virDomainGetMetadata d .title))).2)
      es x r' w') :
    Eff.Makes answer (Domains.metadata L d request) r w
      ([⟨.libvirt (.virDomainGetMetadata d .title), .ok (stored w .title)⟩] ++
        (writes answer d .title (stored w .title) title (answer w (.libvirt (.virDomainGetMetadata d .title))).2 ++ es))
      x r' w' := by
  unfold Domains.metadata
  rw [hp]
  exact (makes_get hs .title w).bind ((makes_requested ht).bind_nil
    ((makes_replaceMetadata _ fun _ => hs.set_returns _ _ _).bind h))

theorem makes_describe_error (hs : MetadataStore answer d stored) (output : Json)
    (hd : requested data "description" (stored w .description) = .error e) :
    Eff.Makes answer (describe L d data output) r w
      [⟨.libvirt (.virDomainGetMetadata d .description), .ok (stored w .description)⟩] (.error (.exn e)) r
      (answer w (.libvirt (.virDomainGetMetadata d .description))).2 :=
  (makes_get hs .description w).bind_last (makes_requested_error hd).bind_error

theorem makes_describe (hs : MetadataStore answer d stored) (output : Json) {desc : String}
    (hd : requested data "description" (stored w .description) = .ok desc) :
    Eff.Makes answer (describe L d data output) r w
      ([⟨.libvirt (.virDomainGetMetadata d .description), .ok (stored w .description)⟩] ++
        writes answer d .description (stored w .description) desc
          (answer w (.libvirt (.virDomainGetMetadata d .description))).2)
      (.ok ()) (metadataResponse L (reported "description" (stored w .description) desc output) r)
      (written answer d .description (stored w .description) desc
        (answer w (.libvirt (.virDomainGetMetadata d .description))).2) := by
  have hend : ∀ (out : Json) (w : σ), Eff.Makes answer (do
      if out.isEmpty then Eff.modify fun r => { r with result := .notModified }
      let r ← Eff.get
      respond L out r.result) r w [] (.ok ()) (metadataResponse L out r) w := by
    intro out w
    have hrespond : ∀ r, Eff.Makes answer (do let r ← Eff.get; respond L out r.result) r w [] (.ok ())
        (r.setResponse (L.stringify out) r.result) w := fun r => (Eff.Makes.get r w).bind_nil (.modify _ r w)
    unfold metadataResponse
    split_ifs
    · exact (Eff.Makes.modify _ r w).bind_nil (hrespond _)
    · exact hrespond r
  unfold describe
  exact (makes_get hs .description w).bind ((makes_requested hd).bind_nil
    ((makes_replaceMetadata _ fun _ => hs.set_returns _ _ _).bind_last (hend _ _)))

theorem result_metadataResponse (hr : r.result = .ok) (output : Json) :
    (metadataResponse L output r).result = if output.isEmpty then .notModified else .ok := by
  unfold metadataResponse
  split_ifs
  · rfl
  · exact hr

/-! ## The stored texts -/

/-- What is stored after the title stays when its write failed, or stored what there was. -/
theorem stored_written_eq_iff (hs : MetadataStore answer d stored) (type : MetadataType) (current value : String)
    (w : σ) : stored (written answer d type current value w) = stored w ↔
      ¬ (value ≠ current ∧ cStr value ≠ stored w type ∧
        (answer w (.libvirt (.virDomainSetMetadata d type (cStr value)))).1 = .ok (0 : ℤ)) := by
  unfold written
  by_cases heq : value = current
  · rw [if_pos heq]
    simp [heq]
  · rw [if_neg heq]
    by_cases hok : (answer w (.libvirt (.virDomainSetMetadata d type (cStr value)))).1 = .ok (0 : ℤ)
    · rw [hs.set w type (cStr value) hok]
      simp only [Function.update_eq_self_iff, heq, hok, ne_eq, not_false_eq_true, true_and, and_true, not_not]
    · rw [hs.set_fails w type (cStr value) hok]
      simp [hok]

/-! ## Between the two writes -/

/-- The body has a title that is new and is accepted, and a description that is not a text. -/
def HalfWritten (L : Linked) (body current : String) (accepts : String → Prop) : Prop :=
  ∃ ms v title u, parse L body = .ok (.obj ms) ∧
    Json.lookup "title" ms = some v ∧ v.asString = .ok title ∧ title ≠ current ∧ cStr title ≠ current ∧
    accepts (cStr title) ∧ Json.lookup "description" ms = some u ∧ (u.isArray = true ∨ u.isObject = true)

theorem asString_error_iff (v : Json) : (∃ e, v.asString = .error e) ↔ v.isArray = true ∨ v.isObject = true := by
  cases v <;> simp [Json.asString, Json.isArray, Json.isObject, Json.logicError]

theorem not_halfWritten_of_title {current : String} {accepts : String → Prop} (hp : parse L request.body = .ok data)
    (ht : requested data "title" current = .error e) : ¬ HalfWritten L request.body current accepts := by
  rintro ⟨ms, v, title, u, hparse, hv, htitle, -⟩
  rw [hp] at hparse
  cases hparse
  rw [requested_obj, hv, Option.getD_some, htitle] at ht
  cases ht

theorem not_halfWritten_of_description {current current' desc : String} {accepts : String → Prop}
    (hp : parse L request.body = .ok data) (hd : requested data "description" current' = .ok desc) :
    ¬ HalfWritten L request.body current accepts := by
  rintro ⟨ms, v, title, u, hparse, -, -, -, -, -, hu, hkind⟩
  rw [hp] at hparse
  cases hparse
  rw [requested_obj, hu, Option.getD_some] at hd
  obtain ⟨e, he⟩ := (asString_error_iff u).mpr hkind
  rw [he] at hd
  cases hd

theorem halfWritten_iff {current current' title : String} {accepts : String → Prop}
    (hp : parse L request.body = .ok data) (ht : requested data "title" current = .ok title)
    (hd : requested data "description" current' = .error e) :
    HalfWritten L request.body current accepts ↔ title ≠ current ∧ cStr title ≠ current ∧ accepts (cStr title) := by
  constructor
  · rintro ⟨ms, v, title', u, hparse, hv, htitle, hne, hcne, hacc, -⟩
    rw [hp] at hparse
    cases hparse
    rw [requested_obj, hv, Option.getD_some, htitle] at ht
    cases ht
    exact ⟨hne, hcne, hacc⟩
  · rintro ⟨hne, hcne, hacc⟩
    cases data with
    | null => cases hd
    | obj ms =>
      rw [requested_obj] at ht hd
      cases hv : Json.lookup "title" ms with
      | none =>
        rw [hv] at ht
        exact absurd (Except.ok.inj ht).symm hne
      | some v =>
        cases hu : Json.lookup "description" ms with
        | none =>
          rw [hu] at hd
          cases hd
        | some u =>
          rw [hv] at ht
          rw [hu] at hd
          exact ⟨ms, v, title, u, hp, hv, ht, hne, hcne, hacc, hu, (asString_error_iff u).mp ⟨e, hd⟩⟩
    | _ => cases ht

end

/-! ## A state of libvirt -/

/-- The texts of a domain; one that does not exist has none. -/
def storedText (d : DomainPtr) (w : LibvirtState) (type : MetadataType) : String :=
  ((w.dom d).map fun dom => dom.metadata type).getD ""

theorem metadataStore_libvirt (H : Libvirt) (d : DomainPtr) :
    MetadataStore (ops H.serve) d (storedText d) := by
  have hset : ∀ w t (m : String), H.call w (.virDomainSetMetadata d t m) = ((-1 : ℤ), w) ∨
      ∃ dom, w.dom d = some dom ∧
        H.call w (.virDomainSetMetadata d t m) = ((0 : ℤ), w.setDom d (dom.setMetadata m t)) := by
    intro w t m
    cases hd : w.dom d with
    | none => simp [Libvirt.call, hd]
    | some dom =>
      by_cases hline : t = .title ∧ '\n' ∈ m.toList
      · simp [Libvirt.call, hd, hline]
      · exact .inr ⟨dom, rfl, by simp [Libvirt.call, hd, hline]⟩
  have hcall : ∀ w t (m : String), ops H.serve w (.libvirt (.virDomainSetMetadata d t m)) =
      (.ok (H.call w (.virDomainSetMetadata d t m)).1, (H.call w (.virDomainSetMetadata d t m)).2) :=
    fun _ _ _ => rfl
  refine ⟨fun _ _ => rfl, fun _ _ => rfl, fun w t m => ⟨_, rfl⟩, fun w t m hok => ?_, fun w t m hfails => ?_⟩
  · rw [hcall] at hok ⊢
    rcases hset w t m with h | ⟨dom, hd, h⟩
    · rw [h] at hok
      cases hok
    · rw [h]
      funext t'
      unfold storedText
      rw [dom_setDom hd, hd]
      cases t <;> cases t' <;> rfl
  · rw [hcall] at hfails ⊢
    rcases hset w t m with h | ⟨dom, hd, h⟩
    · rw [h]
    · rw [h] at hfails
      exact absurd rfl hfails

theorem reaches_libvirt {H : Libvirt} {location : List String} {d : DomainPtr} {w : LibvirtState}
    (huser : H.getpwnam (cStr (capture location 1)) = true) (hpool : H.poolGet (capture location 1) = .ok ())
    (hd : w.lookup (capture location 1) (cStr (capture location 2)) = some d) :
    Reaches H.serve location d w w := by
  refine ⟨huser, hpool, ?_⟩
  show (Except.ok (w.lookup (capture location 1) (cStr (capture location 2))), w) = _
  rw [hd]

/-! ## The request -/

section

variable {σ : Type} {answer : σ → (c : Cmd) → Cmd.Res c × σ} {d : DomainPtr} {stored : σ → MetadataType → String}
  {r : Response} {w w' : σ} {L : Linked} {T : Timeouts} {request : Request} {httpConn : Bool}
  {location : List String}

theorem makes_metadataRoute (hf : Router.find request.target (router L T).routes = some (location, metadataRoute L))
    (hpost : request.method = .post) (hreach : Reaches answer location d w w') {es : List OpEvent} {r' : Response}
    {w'' : σ} (h : Eff.Makes (ops answer) (Domains.metadata L d request) (Response.set {} .allow (allow [.post])) w'
      es (.ok ()) r' w'') :
    Eff.Makes answer (Router.run L (router L T) httpConn request) r w (domainCalls location d ++ es.map ofOp)
      (.ok ()) r' w'' := by
  refine makes_run hf ?_
  refine makes_domainRoute (fun _ d request => Domains.metadata L d request) ?_ ?_ hreach h
  · rw [hpost]
    decide
  · rw [hpost]
    exact List.mem_singleton_self _

theorem makes_metadataRoute_error
    (hf : Router.find request.target (router L T).routes = some (location, metadataRoute L))
    (hpost : request.method = .post) (hreach : Reaches answer location d w w') {es : List OpEvent} {r' : Response}
    {w'' : σ} {e : Exn} (he : e.cls = .jsonLogicError)
    (h : Eff.Makes (ops answer) (Domains.metadata L d request) (Response.set {} .allow (allow [.post])) w'
      es (.error (.exn e)) r' w'') :
    Eff.Makes answer (Router.run L (router L T) httpConn request) r w (domainCalls location d ++ es.map ofOp)
      (.ok ()) (r'.setResponse (L.stringify (Json.error e.what)) .internalServerError) w'' := by
  refine makes_run_exn hf (by rw [he]; decide) ?_
  refine makes_domainRoute (fun _ d request => Domains.metadata L d request) ?_ ?_ hreach h
  · rw [hpost]
    decide
  · rw [hpost]
    exact List.mem_singleton_self _

/-- A metadata request that ends with an error status has left both texts as they were, exactly when its body does not
make it write the title and then throw. -/
theorem metadata_unchanged_iff
    (hf : Router.find request.target (router L T).routes = some (location, metadataRoute L))
    (hpost : request.method = .post) (hreach : Reaches answer location d w w')
    (hs : MetadataStore (ops answer) d stored) (hkept : stored w' = stored w) :
    (400 ≤ ((Router.run L (router L T) httpConn request).exec answer r w).2.1.result.code →
        stored ((Router.run L (router L T) httpConn request).exec answer r w).2.2 = stored w) ↔
      ¬ HalfWritten L request.body (stored w .title) fun title =>
        (ops answer (ops answer w' (.libvirt (.virDomainGetMetadata d .title))).2
          (.libvirt (.virDomainSetMetadata d .title title))).1 = .ok (0 : ℤ) := by
  rw [← hkept]
  cases hp : parse L request.body with
  | error e =>
    rw [(makes_metadataRoute hf hpost hreach (makes_metadata_invalid hp)).exec]
    refine iff_of_true (fun _ => rfl) ?_
    rintro ⟨ms, v, title, u, hparse, -⟩
    rw [hp] at hparse
    cases hparse
  | ok data =>
    cases ht : requested data "title" (stored w' .title) with
    | error e =>
      rw [(makes_metadataRoute_error hf hpost hreach (requested_error ht)
        (makes_metadata_title_error hs hp ht)).exec]
      exact iff_of_true (fun _ => hs.get_keeps w' .title) (not_halfWritten_of_title hp ht)
    | ok title =>
      have hstored := stored_written_eq_iff hs .title (stored w' .title) title
        (ops answer w' (.libvirt (.virDomainGetMetadata d .title))).2
      rw [hs.get_keeps] at hstored
      cases hd : requested data "description" (stored (written (ops answer) d .title (stored w' .title) title
          (ops answer w' (.libvirt (.virDomainGetMetadata d .title))).2) .description) with
      | error e =>
        rw [(makes_metadataRoute_error hf hpost hreach (requested_error hd)
          (makes_metadata hs hp ht (makes_describe_error hs _ hd))).exec, halfWritten_iff hp ht hd, ← hstored]
        dsimp only
        rw [hs.get_keeps]
        exact ⟨fun h => h (show 400 ≤ Status.code .internalServerError by decide), fun h _ => h⟩
      | ok desc =>
        rw [(makes_metadataRoute hf hpost hreach (makes_metadata hs hp ht (makes_describe hs _ hd))).exec]
        refine iff_of_true (fun hcode => ?_) (not_halfWritten_of_description hp hd)
        rw [result_metadataResponse rfl] at hcode
        split_ifs at hcode
        · exact absurd hcode (by decide)
        · exact absurd hcode (by decide)

end

/-! A title, and a description that is a list. -/

def halfBody : String := "\x7b\"title\":\"new\",\"description\":[]\x7d"

def halfLinked : Linked :=
  { writingLinked with
    parseJson := fun s => if s = halfBody then some (.obj [("description", .arr []), ("title", .str "new")]) else none }

def halfRequest : Request := { method := .post, target := "/users/ann/domains/vm/metadata/", body := halfBody }

theorem find_halfRequest : Router.find halfRequest.target (router halfLinked T).routes =
    some (["/users/ann/domains/vm/metadata/", "ann", "vm"], metadataRoute halfLinked) :=
  find_titleRequest

theorem metadata_unchanged_iff_half :
    (400 ≤ ((Router.run halfLinked (router halfLinked ⟨60, 15⟩) true halfRequest).exec annLibvirt.serve {}
        annDomains).2.1.result.code →
      storedText 0 ((Router.run halfLinked (router halfLinked ⟨60, 15⟩) true halfRequest).exec annLibvirt.serve {}
        annDomains).2.2 = storedText 0 annDomains) ↔
      ¬ HalfWritten halfLinked halfRequest.body (storedText 0 annDomains .title) fun title =>
        (ops annLibvirt.serve (ops annLibvirt.serve annDomains (.libvirt (.virDomainGetMetadata 0 .title))).2
          (.libvirt (.virDomainSetMetadata 0 .title title))).1 = .ok (0 : ℤ) :=
  metadata_unchanged_iff find_halfRequest rfl (reaches_libvirt rfl rfl rfl) (metadataStore_libvirt _ 0) rfl

/-- The answer is an internal server error, and the title has been replaced. -/
theorem half_written :
    ((Router.run halfLinked (router halfLinked ⟨60, 15⟩) true halfRequest).exec annLibvirt.serve {}
        annDomains).2.1.result = .internalServerError ∧
      storedText 0 annDomains .title = "" ∧
      storedText 0 ((Router.run halfLinked (router halfLinked ⟨60, 15⟩) true halfRequest).exec annLibvirt.serve {}
        annDomains).2.2 .title = "new" := by
  have hs := metadataStore_libvirt annLibvirt 0
  have hd : requested (.obj [("description", .arr []), ("title", .str "new")]) "description"
      (storedText 0 (annDomains.setDom 0 { conn := "ann", name := "vm", title := "new" }) .description) =
      .error ⟨.jsonLogicError, "Type is not convertible to string"⟩ := rfl
  have hview : Eff.Makes (ops annLibvirt.serve) (Domains.metadata halfLinked 0 halfRequest)
      (Response.set {} .allow (allow [.post])) annDomains _ _ _ _ :=
    makes_metadata hs rfl rfl (makes_describe_error hs _ hd)
  rw [(makes_metadataRoute_error find_halfRequest rfl (reaches_libvirt rfl rfl rfl) rfl hview).exec]
  exact ⟨rfl, rfl, rfl⟩

end Webvirtd.App
