import Webvirtd.Virt.LibvirtState

/-!
# App.Interruptions — where the views call libvirt, and what they have done by then
-/

namespace Webvirtd.Views

open Lib Virt Http

section

variable {H : Libvirt} {L : Linked} {T : Timeouts} {r : Response} {w : LibvirtState} {d : DomainPtr}
  {dom : DomainState}

/-- `virDomainGetState` of a domain that exists. -/
def stateOf (dom : DomainState) : ℤ := if dom.id.isSome then 1 else stateShutoff

theorem plays_getState (hd : w.dom d = some dom) (old : ℤ) :
    ViewM.Plays H (Domain.getState d old) r w [w] (.ok (stateOf dom)) r w :=
  plays_call rfl (by simp [Libvirt.call, hd, stateOf])

/-- Five calls. -/
theorem plays_simpleDomain (hd : w.dom d = some dom) :
    ∃ j, ViewM.Plays H (Data.simpleDomain d) r w (List.replicate 5 w) (.ok j) r w := by
  have hid : ViewM.Plays H (Domain.id d) r w [w] _ r w := plays_perform (.virDomainGetID d)
  have hname : ViewM.Plays H (Domain.name d) r w [w] (.ok dom.name) r w :=
    plays_call rfl (by simp [Libvirt.call, hd, fromCString])
  have htitle : ViewM.Plays H (Domain.title d) r w [w] _ r w :=
    plays_perform (.virDomainGetMetadata d .title)
  have hdescription : ViewM.Plays H (Domain.description d) r w [w] _ r w :=
    plays_perform (.virDomainGetMetadata d .description)
  have hstate : ViewM.Plays H (Domain.state d) r w [w] (.ok (stateOf dom)) r w :=
    Eff.Plays.bind (Eff.Plays.call (c := Op.uninitialised) rfl r w) (plays_getState hd _)
  obtain ⟨text, htext⟩ : ∃ text, stateString (stateOf dom) = .ok text := by
    unfold stateOf
    split_ifs
    · exact ⟨_, rfl⟩
    · exact ⟨_, rfl⟩
  have hstring : ViewM.Plays H (ofExcept (stateString (stateOf dom))) r w [] (.ok text) r w := by
    rw [htext]
    exact Eff.Plays.pure text r w
  unfold Data.simpleDomain
  exact ⟨_, Eff.Plays.bind hid <| Eff.Plays.bind hname <| Eff.Plays.bind htitle <|
    Eff.Plays.bind hdescription <| Eff.Plays.bind hstate <| Eff.Plays.bind hstring <|
    Eff.Plays.pure _ _ _⟩

theorem plays_respond (data : Json) (status : Status) :
    ViewM.Plays H (respond L data status) r w [] (.ok ()) (r.setResponse (L.stringify data) status) w :=
  Eff.Plays.modify _ _ _

/-! ## `start` -/

theorem plays_start_active (hd : w.dom d = some dom) (ha : dom.id.isSome = true) :
    ViewM.Plays H (Domains.start L d) r w [w] (.ok ())
      (r.setResponse (L.stringify (Json.error "Unable to start domain")) .badRequest) w := by
  have hstart : ViewM.Plays H (Domain.start d) r w [w] (.ok false) r w :=
    plays_call (by simp [Libvirt.call, hd, ha]) (by simp [Libvirt.call, hd, ha])
  exact Eff.Plays.bind hstart (plays_respond _ _)

theorem plays_start_inactive (hd : w.dom d = some dom) (ha : dom.id = none) :
    ∃ j, ViewM.Plays H (Domains.start L d) r w (w :: List.replicate 5 (w.activate d dom)) (.ok ())
      (r.setResponse (L.stringify j) .created) (w.activate d dom) := by
  have hstart : ViewM.Plays H (Domain.start d) r w [w] (.ok true) r (w.activate d dom) :=
    plays_call (by simp [Libvirt.call, hd, ha]) (by simp [Libvirt.call, hd, ha])
  have hdom : (w.activate d dom).dom d = some { dom with id := some w.nextId } := dom_setDom hd _
  obtain ⟨j, hj⟩ := plays_simpleDomain (H := H) (r := r) hdom
  exact ⟨j, Eff.Plays.bind hstart (Eff.Plays.bind hj (plays_respond j .created))⟩

/-! ## `shutdown` -/

/-- The loop ends with its first look at the state. -/
theorem plays_poll (hd : w.dom d = some dom) {targets : List ℤ}
    (hs : Domain.inTargets targets (stateOf dom) = true) (timeout start : ℚ) (what : String)
    (fuel : ℕ) (old : ℤ) :
    ViewM.Plays H (Domain.poll d targets timeout start what fuel old) r w [w]
      (.ok (stateOf dom)) r w := by
  cases fuel with
  | zero =>
    refine Eff.Plays.bind (plays_getState hd old) ?_
    rw [if_pos hs]
    exact Eff.Plays.pure _ _ _
  | succ fuel =>
    refine Eff.Plays.bind (plays_getState hd old) ?_
    rw [if_pos hs]
    exact Eff.Plays.pure _ _ _

theorem plays_shutdown_inactive (hd : w.dom d = some dom) (ha : dom.id = none) :
    ViewM.Plays H (Domains.shutdown L T d) r w [w] (.ok ())
      (r.setResponse (L.stringify (Json.error "Unable to shutdown domain")) .badRequest) w := by
  have hshutdown : ViewM.Plays H (Domain.shutdown d T) r w [w] (.ok false) r w :=
    plays_call (by simp [Libvirt.call, hd, ha]) (by simp [Libvirt.call, hd, ha])
  exact Eff.Plays.bind (Eff.Plays.tryCatch (Eff.Plays.map some hshutdown)) (plays_respond _ _)

theorem plays_shutdown_active (hd : w.dom d = some dom) (ha : dom.id.isSome = true) :
    ∃ j, ViewM.Plays H (Domains.shutdown L T d) r w (w :: List.replicate 7 (w.deactivate d dom))
      (.ok ()) (r.setResponse (L.stringify j) .ok) (w.deactivate d dom) := by
  have hdom : (w.deactivate d dom).dom d = some { dom with id := none } := dom_setDom hd _
  have hcall : H.call w (.virDomainShutdown d) = (0, w.deactivate d dom) := by
    simp [Libvirt.call, hd, ha]
  have hshutdown : ViewM.Plays H (Domain.shutdown d T) r w
      [w, w.deactivate d dom, w.deactivate d dom] (.ok true) r (w.deactivate d dom) := by
    have h := plays_perform (H := H) (r := r) (w := w) (.virDomainShutdown d)
    rw [hcall] at h
    have hnow : ViewM.Plays H Virt.now r (w.deactivate d dom) [] (.ok H.now) r (w.deactivate d dom) :=
      Eff.Plays.call (c := Op.now) rfl _ _
    exact Eff.Plays.bind h <| Eff.Plays.bind hnow <| Eff.Plays.bind (plays_poll hdom rfl _ _ _ _ _) <|
      Eff.Plays.bind hnow <| Eff.Plays.bind (plays_poll hdom rfl _ _ _ _ _) <| Eff.Plays.pure _ _ _
  obtain ⟨j, hj⟩ := plays_simpleDomain (H := H) (r := r) hdom
  exact ⟨j, Eff.Plays.bind (Eff.Plays.tryCatch (Eff.Plays.map some hshutdown))
    (Eff.Plays.bind hj (plays_respond j .ok))⟩

/-! ## `metadata` -/

theorem plays_replaceMetadata_same {type : MetadataType} {key value : String} (output : Json) :
    ViewM.Plays H (Domains.replaceMetadata d type key value value output) r w [] (.ok output) r w := by
  unfold Domains.replaceMetadata
  rw [if_neg (not_not_intro rfl)]
  exact Eff.Plays.pure _ _ _

theorem plays_replaceMetadata_ne {type : MetadataType} {key current value : String}
    (hne : value ≠ current) (output : Json) :
    ViewM.Plays H (Domains.replaceMetadata d type key current value output) r w [w]
      (.ok (output.set key (.str value))) r
      (H.call w (.virDomainSetMetadata d type (cStr value))).2 := by
  unfold Domains.replaceMetadata
  rw [if_pos hne]
  have hset : ViewM.Plays H (Domain.setMetadata d type value) r w [w] (.ok _) r
      (H.call w (.virDomainSetMetadata d type (cStr value))).2 := plays_call rfl rfl
  exact Eff.Plays.bind hset (Eff.Plays.pure _ _ _)

/-- `data.get(key, current).asString()`. -/
def requested (data : Json) (key current : String) : Except Exn String :=
  (data.getD key (.str current)).bind Json.asString

theorem requested_obj (ms : Members) (key current : String) :
    requested (.obj ms) key current = ((Json.lookup key ms).getD (.str current)).asString := rfl

/-- A value other than the current one is in the request. -/
theorem requested_of_ne {data : Json} {key current value : String}
    (h : requested data key current = .ok value) (hne : value ≠ current) (current' : String) :
    requested data key current' = .ok value := by
  cases data with
  | null => exact absurd (Except.ok.inj h).symm hne
  | obj ms =>
    rw [requested_obj] at h ⊢
    cases hl : Json.lookup key ms with
    | none =>
      rw [hl] at h
      exact absurd (Except.ok.inj h).symm hne
    | some v =>
      rw [hl] at h
      exact h
  | _ => cases h

theorem requested_error {data : Json} {key current : String} {e : Exn}
    (h : requested data key current = .error e) : e.cls = .jsonLogicError := by
  have hstring : ∀ v : Json, v.asString = .error e → e.cls = .jsonLogicError := by
    intro v hv
    cases v with
    | arr xs => cases hv; rfl
    | obj ms => cases hv; rfl
    | _ => cases hv
  cases data with
  | null => exact hstring (.str current) h
  | obj ms => exact hstring _ ((requested_obj ms key current).symm.trans h)
  | _ => cases h; rfl

theorem plays_currentMetadata (hd : w.dom d = some dom) (type : MetadataType) :
    ViewM.Plays H (Domain.metadata d type) r w [w] (.ok (dom.metadata type)) r w := by
  have h := plays_perform (H := H) (r := r) (w := w) (.virDomainGetMetadata d type)
  have hv : H.call w (.virDomainGetMetadata d type) = (dom.metadata type, w) := by
    simp [Libvirt.call, hd]
  rwa [hv] at h

/-- The end of `metadata`. -/
def metadataResponse (L : Linked) (output : Json) (r : Response) : Response :=
  let r := if output.isEmpty then { r with result := .notModified } else r
  r.setResponse (L.stringify output) r.result

/-- `metadata` after the title. -/
def describe (L : Linked) (d : DomainPtr) (data output : Json) : ViewM Unit := do
  let currentDesc ← Domain.metadata d .description
  let desc ← ofExcept ((data.getD "description" (.str currentDesc)).bind Json.asString)
  let output ← Domains.replaceMetadata d .description "description" currentDesc desc output
  if output.isEmpty then Eff.modify fun r => { r with result := .notModified }
  let r ← Eff.get
  respond L output r.result

section

variable {request : Request} {data : Json} {t s : String} {e : Exn} {out out' : Json}
  {ws ws' : List LibvirtState} {w1 w2 : LibvirtState} {r' : Response}
  {res : Except Failure Unit}

theorem plays_metadata_invalid {e : Exn} (hp : parse L request.body = .error e) :
    ViewM.Plays H (Domains.metadata L d request) r w [] (.ok ())
      (r.setResponse (L.stringify (Json.error "Invalid JSON input")) .badRequest) w := by
  unfold Domains.metadata
  rw [hp]
  exact plays_respond _ _

theorem plays_requested {key current v : String} (h : requested data key current = .ok v) :
    ViewM.Plays H (ofExcept ((data.getD key (.str current)).bind Json.asString)) r w [] (.ok v) r w := by
  have h : (data.getD key (.str current)).bind Json.asString = .ok v := h
  rw [h]
  exact Eff.Plays.pure v r w

theorem plays_requested_error {key current : String} (h : requested data key current = .error e) :
    ViewM.Plays H (ofExcept ((data.getD key (.str current)).bind Json.asString)) r w []
      (.error (.exn e)) r w := by
  have h : (data.getD key (.str current)).bind Json.asString = .error e := h
  rw [h]
  exact Eff.Plays.throw _ r w

theorem plays_metadata_title_error (hp : parse L request.body = .ok data) (hd : w.dom d = some dom)
    (ht : requested data "title" dom.title = .error e) :
    ViewM.Plays H (Domains.metadata L d request) r w [w] (.error (.exn e)) r w := by
  have htitle : ViewM.Plays H (Domain.metadata d .title) r w [w] (.ok dom.title) r w :=
    plays_currentMetadata hd .title
  unfold Domains.metadata
  rw [hp]
  exact Eff.Plays.bind_last htitle (plays_requested_error ht).bind_error

theorem plays_metadata (hp : parse L request.body = .ok data) (hd : w.dom d = some dom)
    (ht : requested data "title" dom.title = .ok t)
    (h1 : ViewM.Plays H (Domains.replaceMetadata d .title "title" dom.title t Json.empty) r w ws
      (.ok out) r w1)
    (h2 : ViewM.Plays H (describe L d data out) r w1 ws' res r' w2) :
    ViewM.Plays H (Domains.metadata L d request) r w (w :: (ws ++ ws')) res r' w2 := by
  have htitle : ViewM.Plays H (Domain.metadata d .title) r w [w] (.ok dom.title) r w :=
    plays_currentMetadata hd .title
  unfold Domains.metadata
  rw [hp]
  exact Eff.Plays.bind htitle (Eff.Plays.bind_nil (plays_requested ht) (Eff.Plays.bind h1 h2))

theorem plays_describe_error (hd : w.dom d = some dom)
    (hs : requested data "description" dom.description = .error e) :
    ViewM.Plays H (describe L d data out) r w [w] (.error (.exn e)) r w := by
  have hdesc : ViewM.Plays H (Domain.metadata d .description) r w [w] (.ok dom.description) r w :=
    plays_currentMetadata hd .description
  exact Eff.Plays.bind_last hdesc (plays_requested_error hs).bind_error

theorem plays_describe (hd : w.dom d = some dom)
    (hs : requested data "description" dom.description = .ok s)
    (h2 : ViewM.Plays H
      (Domains.replaceMetadata d .description "description" dom.description s out) r w ws
      (.ok out') r w2) :
    ViewM.Plays H (describe L d data out) r w (w :: ws) (.ok ()) (metadataResponse L out' r) w2 := by
  have hdesc : ViewM.Plays H (Domain.metadata d .description) r w [w] (.ok dom.description) r w :=
    plays_currentMetadata hd .description
  have hrespond : ∀ r, ViewM.Plays H (do let r ← Eff.get; respond L out' r.result) r w2 [] (.ok ())
      (r.setResponse (L.stringify out') r.result) w2 :=
    fun r => Eff.Plays.bind (Eff.Plays.get r w2) (plays_respond out' r.result)
  have hend : ViewM.Plays H (do
      if out'.isEmpty then Eff.modify fun r => { r with result := .notModified }
      let r ← Eff.get
      respond L out' r.result) r w2 [] (.ok ()) (metadataResponse L out' r) w2 := by
    unfold metadataResponse
    split_ifs
    · exact Eff.Plays.bind (Eff.Plays.modify _ r w2) (hrespond _)
    · exact hrespond r
  unfold describe
  refine Eff.Plays.bind hdesc (Eff.Plays.bind_nil (plays_requested hs) ?_)
  exact Eff.Plays.bind_last h2 hend

/-- The output with the description, when that is a new one. -/
def described (dom : DomainState) (s : String) (output : Json) : Json :=
  if s = dom.description then output else output.set "description" (.str s)

/-- `describe` makes its calls in the state of its start, and what it does to the state does not depend
on the output so far. -/
theorem exists_plays_describe (hd : w.dom d = some dom)
    (hs : requested data "description" dom.description = .ok s) :
    ∃ ws w2, (∀ w' ∈ ws, w' = w) ∧ ∀ out r, ViewM.Plays H (describe L d data out) r w ws (.ok ())
      (metadataResponse L (described dom s out) r) w2 := by
  by_cases hsame : s = dom.description
  · subst hsame
    refine ⟨[w], w, by simp, fun out r => ?_⟩
    have h := plays_describe (L := L) (r := r) hd hs (plays_replaceMetadata_same (H := H) out)
    unfold described
    rw [if_pos rfl]
    exact h
  · refine ⟨[w, w], (H.call w (.virDomainSetMetadata d .description (cStr s))).2, by simp,
      fun out r => ?_⟩
    have h := plays_describe (L := L) (r := r) hd hs (plays_replaceMetadata_ne (H := H) hsame out)
    unfold described
    rw [if_neg hsame]
    exact h

end

/-! ## The title -/

section

variable {t : String}

/-- The state after `virDomainSetMetadata` of a title. -/
def retitle (w : LibvirtState) (d : DomainPtr) (dom : DomainState) (t : String) : LibvirtState :=
  if '\n' ∈ (cStr t).toList then w else w.setDom d { dom with title := cStr t }

theorem call_setTitle (hd : w.dom d = some dom) (t : String) :
    (H.call w (.virDomainSetMetadata d .title (cStr t))).2 = retitle w d dom t := by
  unfold retitle
  simp only [Libvirt.call, hd, true_and]
  split_ifs
  · rfl
  · rfl

theorem lookup_retitle (hd : w.dom d = some dom) (t : String) (conn : User) (name : String) :
    (retitle w d dom t).lookup conn name = w.lookup conn name := by
  unfold retitle
  split_ifs
  · rfl
  · exact lookup_setDom hd { dom with title := cStr t } rfl rfl conn name

/-- The domain keeps its description, and setting the title again changes nothing. -/
theorem dom_retitle (hd : w.dom d = some dom) (t : String) :
    ∃ dom1, (retitle w d dom t).dom d = some dom1 ∧ dom1.description = dom.description ∧
      dom1.title = (if '\n' ∈ (cStr t).toList then dom.title else cStr t) ∧
      retitle (retitle w d dom t) d dom1 t = retitle w d dom t := by
  unfold retitle
  split_ifs with hline
  · exact ⟨dom, hd, rfl, rfl, rfl⟩
  · exact ⟨_, dom_setDom hd _, rfl, rfl, setDom_setDom _ _⟩

end

/-! ## The views that can be started again -/

theorem restartable_perform (c : Call) : Eff.Restartable H.answer opFault (perform c) := by
  refine ⟨fun r w => ?_, fun r w e r' w' h => ?_⟩
  · rw [(plays_perform (H := H) (r := r) (w := w) c).trace]
    exact fun w' hw => List.mem_singleton.mp hw
  · rw [(plays_perform (H := H) (r := r) (w := w) c).exec] at h
    cases h

theorem Reads.restartable {α : Type} {m : ViewM α} (hm : Reads m) :
    Eff.Restartable H.answer opFault m :=
  hm.uses.restartable fun w _ ho => answer_of_readOnly ho w

theorem restartable_autostart (request : Request) :
    Eff.Restartable H.answer opFault (Domains.autostart L d request) := by
  have hset : Eff.Restartable H.answer opFault
      (Domain.setAutostart d (request.method == .post)) :=
    (restartable_perform _).andThen fun _ r w => ⟨_, _, Eff.Plays.pure () r w⟩
  exact hset.andThen fun _ r w => ⟨_, _, plays_respond _ _⟩

theorem restartable_bootmenu (conn : User) (request : Request) :
    Eff.Restartable H.answer opFault (Domains.bootmenu L conn d request) := by
  refine .bind (fun w _ ho => answer_of_readOnly ho w) (reads_xmlDocument d L).uses fun doc => ?_
  refine (restartable_perform _).andThen fun redefined r w => ?_
  cases redefined with
  | none => exact ⟨_, _, plays_respond _ _⟩
  | some _ => exact ⟨_, _, plays_respond _ _⟩

end

end Webvirtd.Views
