import Webvirtd.App.Updates
import Webvirtd.Views.Answers

/-!
# App.Acknowledgement — what a successful answer of a view says about its calls

A view that changes a domain makes its calls, puts a document together (`Mutation.document`) and answers with it.
`Acknowledges` is the contract: an answer of success means that every change was reported to be made, and the
document shows the values that were set.  `Acknowledges.document` and
`acknowledges_of_document` reduce it to the documents; then it is one inversion for each view.
-/

namespace Webvirtd.App

open Lib Virt Http Http.Middleware Views

/-- A call that changes a domain returned what it returns on success. -/
def Succeeded : OpEvent → Prop
  | ⟨.libvirt (.virDomainCreate _), x⟩ => x = .ok (0 : ℤ)
  | ⟨.libvirt (.virDomainSetAutostart _ _), x⟩ => x = .ok (0 : ℤ)
  | ⟨.libvirt (.virDomainSetMetadata _ _ _), x⟩ => x = .ok (0 : ℤ)
  | ⟨.libvirt (.virDomainDefineXML _ _), x⟩ => ∃ d, x = .ok (some d)
  | ⟨.libvirt (.virDomainShutdown _), x⟩ => x = .ok (0 : ℤ)
  | _ => True

theorem succeeded_of_readOnly {e : OpEvent} (h : e.1.ReadOnly) : Succeeded e := by
  obtain ⟨o, x⟩ := e
  cases o with
  | libvirt c =>
    cases c with
    | virDomainCreate d => cases h
    | virDomainSetAutostart d enabled => cases h
    | virDomainSetMetadata d type value => cases h
    | virDomainDefineXML conn xml => cases h
    | virDomainShutdown d => cases h
    | _ => trivial
  | _ => trivial

/-- The views that change a domain. -/
inductive Mutation
  | autostart | bootmenu | metadata | start | shutdown

/-- The member of the body for a text. -/
def metadataKey : MetadataType → String
  | .title => "title"
  | .description => "description"

/-- `metadata` on one of the two texts. -/
def replaceText (d : DomainPtr) (type : MetadataType) (data output : Json) : ViewM Json := do
  let current ← Domain.metadata d type
  let value ← ofExcept ((data.getD (metadataKey type) (.str current)).bind Json.asString)
  Domains.replaceMetadata d type (metadataKey type) current value output

namespace Mutation

def view (T : Timeouts) (conn : User) (d : DomainPtr) (request : Request) : Mutation → Linked → ViewM Unit
  | .autostart, L => Domains.autostart L d request
  | .bootmenu, L => Domains.bootmenu L conn d request
  | .metadata, L => Domains.metadata L d request
  | .start, L => Domains.start L d
  | .shutdown, L => Domains.shutdown L T d

/-- A view up to its answer: the document, and the status. -/
def document (T : Timeouts) (conn : User) (d : DomainPtr) (request : Request) :
    Mutation → Linked → ViewM (Json × Status)
  | .autostart, _ => do
    let enabled := request.method == .post
    Domain.setAutostart d enabled
    return (Json.empty.set "autostart" (.bool enabled), .ok)
  | .bootmenu, L => do
    let doc ← Domain.xmlDocument d L
    let doc := Domains.setOs (Domains.setBootmenu (if request.method = .post then "yes" else "no")) doc
    match ← perform (.virDomainDefineXML conn (cStr (L.saveXml doc))) with
    | none => return (Json.error "Unable to replace domain XML", .internalServerError)
    | some _ => return (Json.ofNode (Domains.osOf doc), .ok)
  | .metadata, L => do
    match parse L request.body with
    | .error _ => return (Json.error "Invalid JSON input", .badRequest)
    | .ok data =>
      let output ← replaceText d .title data Json.empty
      let output ← replaceText d .description data output
      if output.isEmpty then Eff.modify fun r => { r with result := .notModified }
      let r ← Eff.get
      return (output, r.result)
  | .start, _ => do
    if !(← Domain.start d) then return (Json.error "Unable to start domain", .badRequest)
    else return (← Data.simpleDomain d, .created)
  | .shutdown, _ => do
    let ok ← Eff.tryCatch (some <$> Domain.shutdown d T) fun e =>
      if e.caughtBy .outOfRange then pure none else Eff.throw e
    match ok with
    | none => return (Json.error "Shutdown operation timed out", .gatewayTimeout)
    | some false => return (Json.error "Unable to shutdown domain", .badRequest)
    | some true => return (← Data.simpleDomain d, .ok)

variable {T : Timeouts} {conn : User} {d : DomainPtr} {request : Request}

theorem view_eq (m : Mutation) (L : Linked) :
    m.view T conn d request L = m.document T conn d request L >>= fun a => respond L a.1 a.2 := by
  cases m with
  | autostart => simp only [view, document, Domains.autostart, bind_assoc, pure_bind]
  | bootmenu =>
    simp only [view, document, Domains.bootmenu, bind_assoc]
    congr 1
    funext doc
    congr 1
    funext redefined
    cases redefined with
    | none => exact (pure_bind _ _).symm
    | some _ => exact (pure_bind _ _).symm
  | metadata =>
    simp only [view, document, Domains.metadata]
    cases parse L request.body with
    | error e => exact (pure_bind _ _).symm
    | ok data =>
      simp only [replaceText, metadataKey, bind_assoc]
      congr 1
      funext currentTitle
      congr 1
      funext title
      congr 1
      funext output
      congr 1
      funext currentDesc
      congr 1
      funext desc
      congr 1
      funext output
      split_ifs
      · simp only [bind_assoc, pure_bind]
      · simp only [bind_assoc, pure_bind]
  | start =>
    simp only [view, document, Domains.start, bind_assoc]
    congr 1
    funext started
    cases started with
    | false => exact (pure_bind _ _).symm
    | true =>
      show _ = (_ >>= fun j => pure (j, Status.created)) >>= _
      rw [bind_assoc]
      rfl
  | shutdown =>
    simp only [view, document, Domains.shutdown, bind_assoc]
    congr 1
    funext ok
    cases ok with
    | none => exact (pure_bind _ _).symm
    | some shut =>
      cases shut with
      | false => exact (pure_bind _ _).symm
      | true =>
        show _ = (_ >>= fun j => pure (j, Status.ok)) >>= _
        rw [bind_assoc]
        rfl

/-- The document does not depend on how JSON is written. -/
theorem document_stringify (m : Mutation) (L : Linked) (stringify : Json → String) :
    m.document T conn d request { L with stringify := stringify } = m.document T conn d request L := by
  cases m with
  | bootmenu =>
    show _ >>= _ = _ >>= _
    congr 1
    funext doc
    show _ >>= _ = _ >>= _
    congr 1
    funext redefined
    cases redefined with
    | none => rfl
    | some _ => rfl
  | _ => rfl

/-- The values of the document are ones that were set. -/
def Reports (L : Linked) (conn : User) (d : DomainPtr) (es : List OpEvent) : Mutation → Json → Prop
  | .autostart, j => ∃ b, j = .obj [("autostart", .bool b)] ∧ Called es (.virDomainSetAutostart d b)
  | .bootmenu, j =>
    ∃ doc, j = Json.ofNode (Domains.osOf doc) ∧ Called es (.virDomainDefineXML conn (cStr (L.saveXml doc)))
  | .metadata, j => ∃ out, j = .obj out ∧ ∀ k v, Json.lookup k out = some v →
    ∃ type s, k = metadataKey type ∧ v = .str s ∧ Called es (.virDomainSetMetadata d type s)
  | .start, _ => True
  | .shutdown, _ => True

section

variable {σ : Type} (answer : σ → (o : Op) → Op.Res o × σ) (L : Linked) (T : Timeouts) (conn : User) (d : DomainPtr)
  (request : Request) (r : Response) (w : σ)

/-- If the view answers with success then its changes were made, and the body is the text of a document with the
values that were set, however JSON is written. -/
def Acknowledges (m : Mutation) : Prop :=
  let ended := (m.view T conn d request L).exec answer r w
  let es := (m.view T conn d request L).events answer r w
  ended.1 = .ok () → ended.2.1.result = .ok ∨ ended.2.1.result = .created →
    (∀ e ∈ es, Succeeded e) ∧
      ∃ j, m.Reports L conn d es j ∧ ∀ stringify : Json → String,
        ((m.view T conn d request { L with stringify := stringify }).exec answer r w).2.1.body = stringify j

/-- What `metadata` reads of one of the texts, and what it makes of it. -/
structure Replaces (data : Json) (type : MetadataType) (w : σ) (current value : String) (w' : σ) : Prop where
  get : (answer w (.libvirt (.virDomainGetMetadata d type))).1 = .ok current
  asked : requested data (metadataKey type) current = .ok value
  returns : value ≠ current → ∃ rc : ℤ, (answer (answer w (.libvirt (.virDomainGetMetadata d type))).2
    (.libvirt (.virDomainSetMetadata d type (cStr value)))).1 = .ok rc
  after : w' = written answer d type current value (answer w (.libvirt (.virDomainGetMetadata d type))).2

/-- A text that differs is a C string, and its write succeeds. -/
def Stores (type : MetadataType) (w : σ) (current value : String) : Prop :=
  value ≠ current → cStr value = value ∧ (answer (answer w (.libvirt (.virDomainGetMetadata d type))).2
    (.libvirt (.virDomainSetMetadata d type (cStr value)))).1 = .ok (0 : ℤ)

/-- The calls whose results a view does not look at succeed. -/
def Obeyed : Mutation → Prop
  | .autostart => ∀ rc : ℤ,
    (answer w (.libvirt (.virDomainSetAutostart d (request.method == .post)))).1 = .ok rc → rc = 0
  | .metadata => ∀ data title title' w1 desc desc' w2, parse L request.body = .ok data →
    Replaces answer d data .title w title title' w1 → Replaces answer d data .description w1 desc desc' w2 →
      Stores answer d .title w title title' ∧ Stores answer d .description w1 desc desc'
  | _ => True

end

section

variable {σ : Type} {answer : σ → (o : Op) → Op.Res o × σ} {L : Linked} {r r' : Response} {w w' : σ}
  {es : List OpEvent} {j : Json} {st : Status} {m : Mutation}

theorem makes_view (h : Eff.Makes answer (m.document T conn d request L) r w es (.ok (j, st)) r' w')
    (stringify : Json → String) :
    Eff.Makes answer (m.view T conn d request { L with stringify := stringify }) r w es (.ok ())
      (r'.setResponse (stringify j) st) w' := by
  rw [view_eq, document_stringify]
  exact h.bind_last (.modify _ r' w')

/-- The contract, read off a document of success. -/
theorem Acknowledges.document (h : Acknowledges answer L T conn d request r w m)
    (hm : Eff.Makes answer (m.document T conn d request L) r w es (.ok (j, st)) r' w') (hr : r'.body = "")
    (hst : st = .ok ∨ st = .created) : (∀ e ∈ es, Succeeded e) ∧ m.Reports L conn d es j := by
  have hview : Eff.Makes answer (m.view T conn d request L) r w _ _ _ _ := makes_view hm L.stringify
  unfold Acknowledges at h
  rw [hview.exec, hview.events] at h
  obtain ⟨hes, j', hj', htext⟩ := h rfl hst
  refine ⟨hes, ?_⟩
  -- a way to write JSON that tells the two documents apart
  classical
  have heq := htext fun x => if x = j' then "a" else "b"
  rw [(makes_view hm _).exec] at heq
  have heq : r'.body ++ (if j = j' then "a" else "b") = if j' = j' then "a" else "b" := heq
  rw [hr, String.empty_append, if_pos rfl] at heq
  by_cases hj : j = j'
  · rw [hj]
    exact hj'
  · rw [if_neg hj] at heq
    exact absurd heq (by decide)

/-- A view keeps the contract if its documents of success do, and come to an empty body. -/
theorem acknowledges_of_document
    (h : ∀ es j st r' w', Eff.Makes answer (m.document T conn d request L) r w es (.ok (j, st)) r' w' →
      r'.body = "" ∧ (st = .ok ∨ st = .created → (∀ e ∈ es, Succeeded e) ∧ m.Reports L conn d es j)) :
    Acknowledges answer L T conn d request r w m := by
  intro hok hst
  have hm : Eff.Makes answer (m.document T conn d request L) r w _ _ _ _ := Eff.makes_events _ r w
  rcases hx : (m.document T conn d request L).exec answer r w with ⟨e | ⟨j, st⟩, r', w'⟩
  · rw [hx] at hm
    have hview := hm.bind_error (f := fun a => respond L a.1 a.2)
    rw [← view_eq] at hview
    rw [hview.exec] at hok
    cases hok
  · rw [hx] at hm
    have hview : Eff.Makes answer (m.view T conn d request L) r w _ _ _ _ := makes_view hm L.stringify
    rw [hview.exec] at hst
    rw [hview.events]
    obtain ⟨hbody, hdoc⟩ := h _ j st r' w' hm
    obtain ⟨hes, hj⟩ := hdoc hst
    refine ⟨hes, j, hj, fun stringify => ?_⟩
    rw [(makes_view hm stringify).exec]
    show r'.body ++ stringify j = stringify j
    rw [hbody, String.empty_append]

/-! ## The documents -/

theorem makes_setAutostart_iff {enabled : Bool} :
    Eff.Makes answer (Domain.setAutostart d enabled) r w es (.ok ()) r' w' ↔
      ∃ rc : ℤ, (answer w (.libvirt (.virDomainSetAutostart d enabled))).1 = .ok rc ∧
        es = [⟨.libvirt (.virDomainSetAutostart d enabled), .ok rc⟩] ∧ r' = r ∧
        w' = (answer w (.libvirt (.virDomainSetAutostart d enabled))).2 := by
  constructor
  · intro h
    obtain ⟨rc, r1, w1, es1, es2, rfl, hcall, hrest⟩ := h.bind_inv
    obtain ⟨hrc, rfl, rfl, rfl⟩ := makes_perform_inv hcall
    obtain ⟨rfl, -, rfl, rfl⟩ := hrest.pure_inv
    exact ⟨rc, hrc, List.append_nil _, rfl, rfl⟩
  · rintro ⟨rc, hrc, rfl, rfl, rfl⟩
    exact (makes_perform hrc).bind_last (.pure () _ _)

theorem acknowledges_autostart (hr : r.body = "") :
    Acknowledges answer L T conn d request r w .autostart ↔ Obeyed answer L d request w .autostart := by
  have hinv : ∀ {es j st r' w'}, Eff.Makes answer (document T conn d request .autostart L) r w es (.ok (j, st)) r' w' →
      ∃ rc : ℤ, (answer w (.libvirt (.virDomainSetAutostart d (request.method == .post)))).1 = .ok rc ∧
        es = [⟨.libvirt (.virDomainSetAutostart d (request.method == .post)), .ok rc⟩] ∧ r' = r ∧
        j = Json.empty.set "autostart" (.bool (request.method == .post)) := by
    intro es j st r' w' h
    obtain ⟨x, r1, w1, es1, es2, rfl, hset, hrest⟩ := h.bind_inv
    obtain ⟨rc, hrc, rfl, rfl, rfl⟩ := makes_setAutostart_iff.mp hset
    obtain ⟨rfl, hx, rfl, rfl⟩ := hrest.pure_inv
    cases hx
    exact ⟨rc, hrc, List.append_nil _, rfl, rfl⟩
  constructor
  · intro h rc hrc
    have hmakes : Eff.Makes answer (document T conn d request .autostart L) r w _ _ _ _ :=
      (makes_setAutostart_iff.mpr ⟨rc, hrc, rfl, rfl, rfl⟩).bind_last (.pure _ _ _)
    obtain ⟨hes, -⟩ := h.document hmakes hr (.inl rfl)
    exact Except.ok.inj (hes _ (List.mem_singleton_self _))
  · refine fun h => acknowledges_of_document fun es j st r' w' hm => ?_
    obtain ⟨rc, hrc, rfl, rfl, rfl⟩ := hinv hm
    refine ⟨hr, fun _ => ⟨fun e he => ?_, _, rfl, _, List.mem_singleton_self _, rfl⟩⟩
    rw [List.mem_singleton.mp he, h rc hrc]
    exact rfl

/-- Calls that only read need no success. -/
theorem succeeded_of_uses {α : Type} {F : Failure → Prop} {x : ViewM α} {y : Except Failure α}
    (hx : Eff.Uses Op.ReadOnly F x) (h : Eff.Makes answer x r w es y r' w') : ∀ e ∈ es, Succeeded e :=
  fun e he => succeeded_of_readOnly (h.of_uses hx e he)

/-- The document of `start` and `shutdown`. -/
theorem makes_simpleDomain_inv {status : Status}
    (h : Eff.Makes answer (do return (← Data.simpleDomain d, status)) r w es (.ok (j, st)) r' w') :
    r' = r ∧ ∀ e ∈ es, Succeeded e := by
  obtain ⟨j', r1, w1, es1, es2, rfl, hdoc, hpure⟩ := h.bind_inv
  obtain ⟨rfl, -, rfl, rfl⟩ := hpure.pure_inv
  rw [List.append_nil]
  exact ⟨(Data.fetches_simpleDomain d _).of_exec_ok rfl hdoc.exec,
    succeeded_of_uses (Data.reads_simpleDomain d).uses hdoc⟩

theorem acknowledges_start (hr : r.body = "") : Acknowledges answer L T conn d request r w .start := by
  refine acknowledges_of_document fun es j st r' w' h => ?_
  obtain ⟨started, r1, w1, es1, es2, rfl, hstart, hrest⟩ := h.bind_inv
  obtain ⟨rc, r2, w2, es3, es4, rfl, hcall, hpure⟩ := hstart.bind_inv
  obtain ⟨hrc, rfl, rfl, rfl⟩ := makes_perform_inv hcall
  obtain ⟨rfl, hstarted, rfl, rfl⟩ := hpure.pure_inv
  rw [List.append_nil]
  by_cases h0 : rc = (0 : ℤ)
  · subst h0
    obtain rfl : started = true := Except.ok.inj hstarted
    obtain ⟨rfl, hread⟩ := makes_simpleDomain_inv hrest
    refine ⟨hr, fun _ => ⟨fun e he => ?_, trivial⟩⟩
    rcases List.mem_append.mp he with he | he
    · rw [List.mem_singleton.mp he]
      exact rfl
    · exact hread e he
  · obtain rfl : started = false := (Except.ok.inj hstarted).trans (beq_false_of_ne h0)
    obtain ⟨rfl, hx, rfl, rfl⟩ := hrest.pure_inv
    cases hx
    exact ⟨hr, by simp⟩

theorem acknowledges_bootmenu (hr : r.body = "") : Acknowledges answer L T conn d request r w .bootmenu := by
  refine acknowledges_of_document fun es j st r' w' h => ?_
  obtain ⟨doc, r1, w1, es1, es2, rfl, hdoc, hrest⟩ := h.bind_inv
  obtain rfl : r1 = r := (fetches_xmlDocument d L _).of_exec_ok rfl hdoc.exec
  have hread := succeeded_of_uses (reads_xmlDocument d L).uses hdoc
  obtain ⟨redefined, r2, w2, es3, es4, rfl, hcall, hend⟩ := hrest.bind_inv
  obtain ⟨-, rfl, rfl, rfl⟩ := makes_perform_inv hcall
  cases redefined with
  | none =>
    obtain ⟨rfl, hx, rfl, rfl⟩ := hend.pure_inv
    cases hx
    exact ⟨hr, by simp⟩
  | some d' =>
    obtain ⟨rfl, hx, rfl, rfl⟩ := hend.pure_inv
    cases hx
    refine ⟨hr, fun _ => ⟨fun e he => ?_, _, rfl, _, List.mem_append_right _ (List.mem_singleton_self _), rfl⟩⟩
    rcases List.mem_append.mp he with he | he
    · exact hread e he
    · rw [List.mem_singleton.mp he]
      exact ⟨d', rfl⟩

/-- A shutdown that is done was accepted. -/
theorem makes_shutdown_inv (h : Eff.Makes answer (Domain.shutdown d T) r w es (.ok true) r' w') :
    ∀ e ∈ es, Succeeded e := by
  obtain ⟨rc, r1, w1, es1, es2, rfl, hcall, hrest⟩ := h.bind_inv
  obtain ⟨-, rfl, rfl, rfl⟩ := makes_perform_inv hcall
  by_cases h0 : rc = (0 : ℤ)
  · subst h0
    have hpoll : ∀ targets timeout start what fuel old, ViewM.MadeOf (fun c => c.writes = false) (fun _ => True)
        (Domain.poll d targets timeout start what fuel old) := made_poll rfl
    have hnow : ViewM.MadeOf (fun c => c.writes = false) (fun _ => True) Virt.now := .leaf (.ask .now nofun)
    have hloops : ViewM.MadeOf (fun c => c.writes = false) (fun _ => True) (do
        let start ← Virt.now
        let state ← Domain.poll d [stateShutdown, stateShutoff] T.shutdown start
          (toString T.shutdown ++ " second timeout exceeded") (pollBound T.shutdown) 0
        let start ← Virt.now
        let _ ← Domain.poll d [stateShutoff] T.shutoff start "15 second shutdown timeout exceeded"
          (pollBound T.shutoff) state
        return true) :=
      .bind hnow fun _ => .bind (hpoll _ _ _ _ _ _) fun _ => .bind hnow fun _ => .bind (hpoll _ _ _ _ _ _) fun _ =>
        .pure true
    have hrest := succeeded_of_uses (ViewM.MadeOf.readOnly hloops fun _ => trivial) hrest
    intro e he
    rcases List.mem_append.mp he with he | he
    · rw [List.mem_singleton.mp he]
      exact rfl
    · exact hrest e he
  · have hrefused : Eff.Makes answer (if rc != (0 : ℤ) then pure false else _) _ _ _ _ _ _ := hrest
    rw [if_pos (bne_iff_ne.mpr h0)] at hrefused
    obtain ⟨-, hx, -, -⟩ := hrefused.pure_inv
    cases hx

theorem acknowledges_shutdown (hr : r.body = "") : Acknowledges answer L T conn d request r w .shutdown := by
  refine acknowledges_of_document fun es j st r' w' h => ?_
  obtain ⟨ok, r1, w1, es1, es2, rfl, htry, hend⟩ := h.bind_inv
  obtain rfl : r1 = r := by
    have hframes : Eff.Frames Op.Unbound (fun _ => True) (Eff.tryCatch (some <$> Domain.shutdown d T) fun e =>
        if e.caughtBy .outOfRange then pure none else Eff.throw e) :=
      .tryCatch (.map some (frames_shutdown d T)) fun e _ => .ite (.pure none) (.throw trivial)
    exact (hframes _).of_exec_ok rfl htry.exec
  match ok with
  | none =>
    obtain ⟨rfl, hx, rfl, rfl⟩ := hend.pure_inv
    cases hx
    exact ⟨hr, by simp⟩
  | some false =>
    obtain ⟨rfl, hx, rfl, rfl⟩ := hend.pure_inv
    cases hx
    exact ⟨hr, by simp⟩
  | some true =>
    obtain ⟨rfl, hread⟩ := makes_simpleDomain_inv hend
    refine ⟨hr, fun _ => ⟨fun e he => ?_, trivial⟩⟩
    rcases List.mem_append.mp he with he | he
    · rcases htry.tryCatch_inv with hmap | ⟨e', r3, w3, es4, es5, rfl, -, hhandler⟩
      · obtain ⟨b, r3, w3, es4, es5, rfl, hshutdown, hsome⟩ := hmap.bind_inv
        obtain ⟨rfl, hb, rfl, rfl⟩ := hsome.pure_inv
        cases hb
        rw [List.append_nil] at he
        exact makes_shutdown_inv hshutdown e he
      · -- the handler gives no result
        split_ifs at hhandler
        · obtain ⟨-, hx, -, -⟩ := hhandler.pure_inv
          cases hx
        · cases hhandler.exec
    · exact hread e he

theorem makes_replaceMetadata_inv {type : MetadataType} {key current value : String} {output output' : Json}
    (h : Eff.Makes answer (Domains.replaceMetadata d type key current value output) r w es (.ok output') r' w') :
    (value ≠ current → ∃ rc : ℤ, (answer w (.libvirt (.virDomainSetMetadata d type (cStr value)))).1 = .ok rc) ∧
      es = writes answer d type current value w ∧ output' = reported key current value output ∧ r' = r ∧
        w' = written answer d type current value w := by
  have hreturns : value ≠ current →
      ∃ rc : ℤ, (answer w (.libvirt (.virDomainSetMetadata d type (cStr value)))).1 = .ok rc := by
    intro hne
    unfold Domains.replaceMetadata at h
    rw [if_pos hne] at h
    obtain ⟨b, r1, w1, es1, es2, rfl, hset, hend⟩ := h.bind_inv
    obtain ⟨rc, r2, w2, es3, es4, rfl, hcall, hpure⟩ := hset.bind_inv
    exact ⟨rc, (makes_perform_inv hcall).1⟩
  obtain ⟨hes, hout, hr, hw⟩ := (makes_replaceMetadata output hreturns).unique h
  exact ⟨hreturns, hes, Except.ok.inj hout, hr, hw⟩

theorem makes_replaceText_iff {type : MetadataType} {data output output' : Json} :
    Eff.Makes answer (replaceText d type data output) r w es (.ok output') r' w' ↔
      ∃ current value, Replaces answer d data type w current value w' ∧
        es = ⟨.libvirt (.virDomainGetMetadata d type), .ok current⟩ ::
          writes answer d type current value (answer w (.libvirt (.virDomainGetMetadata d type))).2 ∧
        output' = reported (metadataKey type) current value output ∧ r' = r := by
  constructor
  · intro h
    obtain ⟨current, r1, w1, es1, es2, rfl, hget, hrest⟩ := h.bind_inv
    obtain ⟨hcurrent, rfl, rfl, rfl⟩ := makes_perform_inv hget
    obtain ⟨value, r2, w2, es3, es4, rfl, hasked, hreplace⟩ := hrest.bind_inv
    obtain ⟨hvalue, rfl, rfl, rfl⟩ := makes_ofExcept_inv hasked
    obtain ⟨hreturns, rfl, rfl, rfl, rfl⟩ := makes_replaceMetadata_inv hreplace
    exact ⟨current, value, ⟨hcurrent, hvalue, hreturns, rfl⟩, rfl, rfl, rfl⟩
  · rintro ⟨current, value, ⟨hcurrent, hvalue, hreturns, rfl⟩, rfl, rfl, rfl⟩
    have hget : Eff.Makes answer (Domain.metadata d type) r' w _ _ _ _ := makes_perform hcurrent
    exact hget.bind ((makes_requested hvalue).bind_nil (makes_replaceMetadata _ hreturns))

theorem called_append {es' : List OpEvent} {c : Call} : Called (es ++ es') c ↔ Called es c ∨ Called es' c := by
  unfold Called
  simp only [List.mem_append, or_and_right, exists_or]

/-- The calls of `metadata` on one of the texts. -/
def textCalls (answer : σ → (o : Op) → Op.Res o × σ) (d : DomainPtr) (type : MetadataType) (w : σ)
    (current value : String) : List OpEvent :=
  ⟨.libvirt (.virDomainGetMetadata d type), .ok current⟩ ::
    writes answer d type current value (answer w (.libvirt (.virDomainGetMetadata d type))).2

theorem called_textCalls {type type' : MetadataType} {current value s : String}
    (h : Called (textCalls answer d type w current value) (.virDomainSetMetadata d type' s)) :
    type' = type ∧ s = cStr value := by
  obtain ⟨e, he, hcall⟩ := h
  unfold textCalls writes at he
  split_ifs at he
  · rw [List.mem_singleton.mp he] at hcall
    cases hcall
  · simp only [List.mem_cons, List.not_mem_nil, or_false] at he
    rcases he with rfl | rfl
    · cases hcall
    · cases hcall
      exact ⟨rfl, rfl⟩

theorem called_of_ne {type : MetadataType} {current value : String} (h : value ≠ current) :
    Called (textCalls answer d type w current value) (.virDomainSetMetadata d type (cStr value)) := by
  unfold textCalls writes
  rw [if_neg h]
  exact ⟨_, List.mem_cons_of_mem _ (List.mem_singleton_self _), rfl⟩

theorem succeeded_textCalls {type : MetadataType} {current value : String} :
    (∀ e ∈ textCalls answer d type w current value, Succeeded e) ↔ (value ≠ current →
      (answer (answer w (.libvirt (.virDomainGetMetadata d type))).2
        (.libvirt (.virDomainSetMetadata d type (cStr value)))).1 = .ok (0 : ℤ)) := by
  unfold textCalls writes
  rw [List.forall_mem_cons]
  by_cases heq : value = current
  · rw [if_pos heq]
    exact iff_of_true ⟨trivial, fun e he => absurd he List.not_mem_nil⟩ fun h => absurd heq h
  · rw [if_neg heq, List.forall_mem_singleton]
    exact ⟨fun h _ => h.2, fun h => ⟨trivial, h heq⟩⟩

theorem makes_output {output : Json} (r : Response) (w : σ) :
    Eff.Makes answer (do
      if output.isEmpty then Eff.modify fun r => { r with result := .notModified }
      let r ← Eff.get
      return (output, r.result) : ViewM (Json × Status)) r w []
      (.ok (output, if output.isEmpty then .notModified else r.result))
      (if output.isEmpty then { r with result := .notModified } else r) w := by
  have hend : ∀ r : Response, Eff.Makes answer (do
      let r ← Eff.get
      return (output, r.result) : ViewM (Json × Status)) r w [] (.ok (output, r.result)) r w :=
    fun r => (Eff.Makes.get r w).bind_nil (.pure _ r w)
  split_ifs
  · exact (Eff.Makes.modify _ r w).bind_nil (hend _)
  · exact hend r

theorem makes_metadata_iff {data : Json} (hp : parse L request.body = .ok data) :
    Eff.Makes answer (document T conn d request .metadata L) r w es (.ok (j, st)) r' w' ↔
      ∃ title title' w1 desc desc', Replaces answer d data .title w title title' w1 ∧
        Replaces answer d data .description w1 desc desc' w' ∧
        es = textCalls answer d .title w title title' ++ textCalls answer d .description w1 desc desc' ∧
        j = reported "description" desc desc' (reported "title" title title' Json.empty) ∧
        st = (if j.isEmpty then .notModified else r.result) ∧
        r' = if j.isEmpty then { r with result := .notModified } else r := by
  simp only [document, hp]
  constructor
  · intro h
    obtain ⟨output, r1, w1, es1, es2, rfl, htitle, hrest⟩ := h.bind_inv
    obtain ⟨title, title', hreplaces, rfl, rfl, rfl⟩ := makes_replaceText_iff.mp htitle
    obtain ⟨output, r2, w2, es3, es4, rfl, hdesc, hend⟩ := hrest.bind_inv
    obtain ⟨desc, desc', hreplaces', rfl, rfl, rfl⟩ := makes_replaceText_iff.mp hdesc
    obtain ⟨rfl, hj, rfl, rfl⟩ := (makes_output _ _).unique hend
    cases hj
    rw [List.append_nil]
    exact ⟨title, title', w1, desc, desc', hreplaces, hreplaces', rfl, rfl, rfl, rfl⟩
  · rintro ⟨title, title', w1, desc, desc', hreplaces, hreplaces', rfl, rfl, rfl, rfl⟩
    exact (makes_replaceText_iff.mpr ⟨title, title', hreplaces, rfl, rfl, rfl⟩).bind
      ((makes_replaceText_iff.mpr ⟨desc, desc', hreplaces', rfl, rfl, rfl⟩).bind_last (makes_output _ _))

/-- What the contract says of the two texts. -/
theorem Acknowledges.stores (h : Acknowledges answer L T conn d request r w .metadata) (hr : r.body = "")
    (hok : r.result = .ok) : Obeyed answer L d request w .metadata := by
  intro data title title' w1 desc desc' w2 hp htitle hdesc
  obtain ⟨out, hout, hnil, hlookup⟩ := lookup_reported title title' desc desc'
  have hmakes : Eff.Makes answer (Mutation.document T conn d request .metadata L) r w _ _ _ _ :=
    (makes_metadata_iff hp).mpr ⟨title, title', w1, desc, desc', htitle, hdesc, rfl, rfl, rfl, rfl⟩
  by_cases hsame : title' = title ∧ desc' = desc
  · exact ⟨fun hne => absurd hsame.1 hne, fun hne => absurd hsame.2 hne⟩
  have hfull : ¬ (Json.obj out).isEmpty = true := fun h => hsame (hnil.mp (isEmpty_obj.mp h))
  rw [hout, if_neg hfull, if_neg hfull] at hmakes
  obtain ⟨hes, out', hout', hvalues⟩ := h.document hmakes hr (.inl hok)
  cases hout'
  have hset : ∀ k s, Json.lookup k out = some (.str s) →
      k = "title" ∧ s = cStr title' ∨ k = "description" ∧ s = cStr desc' := by
    intro k s hl
    obtain ⟨type, s', rfl, hs, hcalled⟩ := hvalues k (.str s) hl
    cases hs
    rcases called_append.mp hcalled with hcalled | hcalled
    · obtain ⟨rfl, hs⟩ := called_textCalls hcalled
      exact .inl ⟨rfl, hs⟩
    · obtain ⟨rfl, hs⟩ := called_textCalls hcalled
      exact .inr ⟨rfl, hs⟩
  have hes1 : ∀ e ∈ textCalls answer d .title w title title', Succeeded e :=
    fun e he => hes e (List.mem_append_left _ he)
  have hes2 : ∀ e ∈ textCalls answer d .description w1 desc desc', Succeeded e :=
    fun e he => hes e (List.mem_append_right _ he)
  refine ⟨fun hne => ⟨?_, succeeded_textCalls.mp hes1 hne⟩, fun hne => ⟨?_, succeeded_textCalls.mp hes2 hne⟩⟩
  · rcases hset "title" title' ((hlookup _ _).mpr (.inl ⟨rfl, hne, rfl⟩)) with ⟨-, hs⟩ | ⟨hk, -⟩
    · exact hs.symm
    · exact absurd hk (by decide)
  · rcases hset "description" desc' ((hlookup _ _).mpr (.inr ⟨rfl, hne, rfl⟩)) with ⟨hk, -⟩ | ⟨-, hs⟩
    · exact absurd hk (by decide)
    · exact hs.symm

/-- The calls of one text set the value that differs, when it is stored. -/
theorem Stores.called {type : MetadataType} {current value : String} (h : Stores answer d type w current value)
    (hne : value ≠ current) :
    Called (textCalls answer d type w current value) (.virDomainSetMetadata d type value) := by
  have hcalled : Called (textCalls answer d type w current value) _ := called_of_ne hne
  rwa [(h hne).1] at hcalled

theorem acknowledges_metadata (hr : r.body = "") (hok : r.result = .ok) :
    Acknowledges answer L T conn d request r w .metadata ↔ Obeyed answer L d request w .metadata := by
  refine ⟨fun h => h.stores hr hok, fun h => acknowledges_of_document fun es j st r' w' hm => ?_⟩
  cases hp : parse L request.body with
  | error e =>
    simp only [document, hp] at hm
    obtain ⟨-, hx, rfl, -⟩ := hm.pure_inv
    cases hx
    exact ⟨hr, by simp⟩
  | ok data =>
    obtain ⟨title, title', w1, desc, desc', htitle, hdesc, rfl, rfl, -, rfl⟩ := (makes_metadata_iff hp).mp hm
    obtain ⟨hstores, hstores'⟩ := h data title title' w1 desc desc' w' hp htitle hdesc
    obtain ⟨out, hout, -, hlookup⟩ := lookup_reported title title' desc desc'
    refine ⟨?_, fun _ => ⟨fun e he => ?_, out, hout, fun k v hl => ?_⟩⟩
    · split_ifs
      · exact hr
      · exact hr
    · rcases List.mem_append.mp he with he | he
      · exact succeeded_textCalls.mpr (fun hne => (hstores hne).2) e he
      · exact succeeded_textCalls.mpr (fun hne => (hstores' hne).2) e he
    · rcases (hlookup k v).mp hl with ⟨rfl, hne, rfl⟩ | ⟨rfl, hne, rfl⟩
      · exact ⟨.title, title', rfl, rfl, called_append.mpr (.inl (hstores.called hne))⟩
      · exact ⟨.description, desc', rfl, rfl, called_append.mpr (.inr (hstores'.called hne))⟩

/-- A view keeps the contract exactly when the calls succeed whose results it does not look at: `virDomainSetAutostart`,
and the writes of `metadata`, of texts without a NUL. -/
theorem acknowledges_iff (methods : String) (m : Mutation) :
    Acknowledges answer L T conn d request (Response.set {} .allow methods) w m ↔ Obeyed answer L d request w m := by
  cases m with
  | autostart => exact acknowledges_autostart rfl
  | bootmenu => exact iff_of_true (acknowledges_bootmenu rfl) trivial
  | metadata => exact acknowledges_metadata rfl rfl
  | start => exact iff_of_true (acknowledges_start rfl) trivial
  | shutdown => exact iff_of_true (acknowledges_shutdown rfl) trivial

end

/-- Every libvirt call fails. -/
def failing (w : Unit) : (o : Op) → Op.Res o × Unit
  | .libvirt c => (.ok c.failed, w)
  | .user conn => (conn, w)
  | .uninitialised => ((0 : ℤ), w)
  | .now => ((0 : ℚ), w)
  | .sleepFor _ => ((), w)

/-- `virDomainSetAutostart` fails, and the answer is a success. -/
theorem autostart_not_set :
    ¬ Acknowledges failing plainLinked ⟨60, 15⟩ "ann" 0
      { method := .post, target := "/users/ann/domains/vm/autostart/" } (Response.set {} .allow (allow [.post, .delete]))
      () .autostart := by
  intro h
  obtain ⟨hes, -⟩ := h rfl (.inl rfl)
  have hset : Succeeded ⟨.libvirt (.virDomainSetAutostart 0 true), .ok (-1 : ℤ)⟩ := hes _ (List.mem_singleton_self _)
  exact absurd (Except.ok.inj hset) (by decide)

end Mutation

end Webvirtd.App
