import Webvirtd.App.Metadata
import Webvirtd.Util.Members

/-!
# App.Updates — metadata requests whose writes succeed

The texts of the request, where it has them, are stored and reported; the same request once more finds nothing to
write.
-/

namespace Webvirtd.App

open Lib Virt Http Http.Middleware Views

/-- The text that the body asks for, or the one there is. -/
def newText (ms : Members) (key current : String) : String :=
  match Json.lookup key ms with
  | some v => v.asString.toOption.getD ""
  | none => current

/-- The member `key` of the body, when present, is a scalar, and its text has no NUL. -/
def ScalarMember (ms : Members) (key : String) : Prop :=
  ∀ v, Json.lookup key ms = some v → ∃ s, v.asString = .ok s ∧ Char.ofNat 0 ∉ s.toList

/-- The texts `after` a metadata request with the members `ms`, and the response to it. -/
structure Updated (L : Linked) (ms : Members) (before after : MetadataType → String) (r : Response) : Prop where
  title : after .title = newText ms "title" (before .title)
  description : after .description = newText ms "description" (before .description)
  body : ∃ out, r.body = L.stringify (.obj out) ∧ ∀ k v, Json.lookup k out = some v ↔
    k = "title" ∧ after .title ≠ before .title ∧ v = .str (after .title) ∨
      k = "description" ∧ after .description ≠ before .description ∧ v = .str (after .description)
  unchanged : after = before → r.result = .notModified
  changed : after ≠ before → r.result = .ok

section

variable {σ : Type} {answer : σ → (o : Op) → Op.Res o × σ} {d : DomainPtr} {stored : σ → MetadataType → String}
  {w : σ} {ms : Members} {key : String}

theorem cStr_eq_self {s : String} (h : Char.ofNat 0 ∉ s.toList) : cStr s = s := by
  unfold cStr
  rw [List.takeWhile_eq_self_iff.mpr fun c hc => by
    have hne : c ≠ Char.ofNat 0 := fun heq => h (heq ▸ hc)
    simpa using hne]
  exact String.ofList_toList

theorem requested_newText (h : ScalarMember ms key) (current : String) :
    requested (.obj ms) key current = .ok (newText ms key current) := by
  rw [requested_obj]
  unfold newText
  cases hl : Json.lookup key ms with
  | none => rfl
  | some v =>
    obtain ⟨s, hs, -⟩ := h v hl
    dsimp only
    rw [Option.getD_some, hs]
    rfl

/-- A text that is asked for replaces any, and passes as a C string. -/
theorem newText_cases (h : ScalarMember ms key) (current : String) :
    newText ms key current = current ∨ cStr (newText ms key current) = newText ms key current := by
  unfold newText
  cases hl : Json.lookup key ms with
  | none => exact .inl rfl
  | some v =>
    obtain ⟨s, hs, hnul⟩ := h v hl
    dsimp only
    rw [hs]
    exact .inr (cStr_eq_self hnul)

theorem newText_newText (ms : Members) (key current : String) :
    newText ms key (newText ms key current) = newText ms key current := by
  unfold newText
  cases Json.lookup key ms with
  | none => rfl
  | some v => rfl

/-- A text that is read and written is replaced, and the other one is not. -/
theorem stored_written (hs : MetadataStore answer d stored)
    (hok : ∀ w t m, (answer w (.libvirt (.virDomainSetMetadata d t m))).1 = .ok (0 : ℤ)) (type : MetadataType)
    {value : String} (hv : value = stored w type ∨ cStr value = value) :
    stored (written answer d type (stored w type) value (answer w (.libvirt (.virDomainGetMetadata d type))).2) =
      Function.update (stored w) type value := by
  unfold written
  split_ifs with heq
  · rw [heq, Function.update_eq_self, hs.get_keeps]
  · rw [hs.set _ type (cStr value) (hok _ type (cStr value)), hv.resolve_left heq, hs.get_keeps]

theorem writes_eq_nil (type : MetadataType) (value : String) (w : σ) : writes answer d type value value w = [] :=
  if_pos rfl

/-! ## The output -/

theorem isEmpty_obj {out : Members} : (Json.obj out).isEmpty = true ↔ out = [] := by
  cases out <;> simp [Json.isEmpty]

theorem reported_obj (key current value : String) (out : Members) :
    ∃ out', reported key current value (.obj out) = .obj out' ∧ (out' = [] ↔ value = current ∧ out = []) ∧
      ∀ k, Json.lookup k out' = if key = k ∧ value ≠ current then some (.str value) else Json.lookup k out := by
  unfold reported
  by_cases heq : value = current
  · rw [if_pos heq]
    exact ⟨out, rfl, by simp [heq], fun k => by rw [if_neg fun h => h.2 heq]⟩
  · rw [if_neg heq]
    refine ⟨_, rfl, iff_of_false (fun hnil => ?_) fun h => heq h.1, fun k => ?_⟩
    · have hl := Json.lookup_insert_self key (.str value) out
      rw [hnil] at hl
      cases hl
    · rw [Json.lookup_insert]
      simp only [heq, ne_eq, not_false_eq_true, and_true]

/-- The members of the output after both fields. -/
theorem lookup_reported (t t' s s' : String) :
    ∃ out, reported "description" s s' (reported "title" t t' Json.empty) = .obj out ∧
      (out = [] ↔ t' = t ∧ s' = s) ∧ ∀ k v, Json.lookup k out = some v ↔
        k = "title" ∧ t' ≠ t ∧ v = .str t' ∨ k = "description" ∧ s' ≠ s ∧ v = .str s' := by
  obtain ⟨out1, h1, hnil1, hl1⟩ := reported_obj "title" t t' []
  obtain ⟨out2, h2, hnil2, hl2⟩ := reported_obj "description" s s' out1
  have hempty : reported "title" t t' Json.empty = .obj out1 := h1
  refine ⟨out2, by rw [hempty, h2], ?_, fun k v => ?_⟩
  · rw [hnil2, hnil1]
    tauto
  · rw [hl2, hl1, Json.lookup]
    by_cases hd : "description" = k
    · subst hd
      simp only [true_and, show ¬ "title" = "description" by decide, show ¬ "description" = "title" by decide,
        false_and, if_false, false_or]
      split_ifs with hne
      · simp [hne, eq_comm]
      · simp [hne]
    · by_cases ht : "title" = k
      · subst ht
        simp only [true_and, hd, false_and, if_false, or_false, show ¬ "title" = "description" by decide]
        split_ifs with hne
        · simp [hne, eq_comm]
        · simp [hne]
      · simp [hd, ht, Ne.symm hd, Ne.symm ht]

/-! ## The view -/

theorem readOnly_writes (type : MetadataType) {current value : String} (h : value = current) (w : σ) :
    ∀ e ∈ writes answer d type current value w, e.1.ReadOnly := by
  subst h
  rw [writes_eq_nil]
  exact fun e he => absurd he List.not_mem_nil

/-- The texts after the view are the new ones. -/
theorem updated_metadataResponse {L : Linked} {before after : MetadataType → String} {r : Response} {out : Members}
    (htitle : after .title = newText ms "title" (before .title))
    (hdesc : after .description = newText ms "description" (before .description))
    (hnil : out = [] ↔ after .title = before .title ∧ after .description = before .description)
    (hout : ∀ k v, Json.lookup k out = some v ↔
      k = "title" ∧ after .title ≠ before .title ∧ v = .str (after .title) ∨
        k = "description" ∧ after .description ≠ before .description ∧ v = .str (after .description))
    (hr : r.result = .ok) (hbody : r.body = "") :
    Updated L ms before after (metadataResponse L (.obj out) r) := by
  have hempty : (Json.obj out).isEmpty = true ↔ after = before := by
    rw [isEmpty_obj, hnil]
    constructor
    · rintro ⟨h1, h2⟩
      funext t
      cases t with
      | title => exact h1
      | description => exact h2
    · rintro rfl
      exact ⟨rfl, rfl⟩
  refine ⟨htitle, hdesc, ⟨out, ?_, hout⟩, fun h => ?_, fun h => ?_⟩
  · unfold metadataResponse
    split_ifs
    · show r.body ++ _ = _
      rw [hbody, String.empty_append]
    · show r.body ++ _ = _
      rw [hbody, String.empty_append]
  · rw [result_metadataResponse hr, if_pos (hempty.mpr h)]
  · rw [result_metadataResponse hr, if_neg fun h' => h (hempty.mp h')]

/-- When all writes succeed the view updates the texts, and writes nothing if that changes nothing. -/
theorem makes_updated {L : Linked} {request : Request} {r : Response} (hs : MetadataStore answer d stored)
    (hok : ∀ w t m, (answer w (.libvirt (.virDomainSetMetadata d t m))).1 = .ok (0 : ℤ))
    (hp : parse L request.body = .ok (.obj ms)) (ht : ScalarMember ms "title") (hd : ScalarMember ms "description")
    (hr : r.result = .ok) (hbody : r.body = "") (w : σ) :
    ∃ es r' w', Eff.Makes answer (Domains.metadata L d request) r w es (.ok ()) r' w' ∧
      Updated L ms (stored w) (stored w') r' ∧ (stored w' = stored w → ∀ e ∈ es, e.1.ReadOnly) := by
  set title := newText ms "title" (stored w .title) with htitle
  set w2 := written answer d .title (stored w .title) title
    (answer w (.libvirt (.virDomainGetMetadata d .title))).2 with hw2
  have h2 : stored w2 = Function.update (stored w) .title title := stored_written hs hok .title (newText_cases ht _)
  set desc := newText ms "description" (stored w2 .description) with hdesc
  set w4 := written answer d .description (stored w2 .description) desc
    (answer w2 (.libvirt (.virDomainGetMetadata d .description))).2 with hw4
  have h4 : stored w4 = Function.update (stored w2) .description desc :=
    stored_written hs hok .description (newText_cases hd _)
  have hkeep : stored w2 .description = stored w .description := by
    rw [h2]
    exact Function.update_of_ne (by decide) _ _
  have hlast : stored w4 .title = title ∧ stored w4 .description = desc := by
    rw [h4, h2]
    exact ⟨Function.update_of_ne (by decide) _ _ |>.trans (Function.update_self _ _ _), Function.update_self _ _ _⟩
  have hmakes := makes_metadata (r := r) hs hp (requested_newText ht _)
    (makes_describe hs (reported "title" (stored w .title) title Json.empty) (requested_newText hd _))
  obtain ⟨out, hout, hnil, hlookup⟩ := lookup_reported (stored w .title) title (stored w2 .description) desc
  rw [hout] at hmakes
  refine ⟨_, _, _, hmakes, ?_, fun hsame e he => ?_⟩
  · refine updated_metadataResponse ?_ ?_ ?_ ?_ hr hbody
    · exact hlast.1
    · rw [hlast.2, hdesc, hkeep]
    · rw [hlast.1, hlast.2, hnil, hkeep]
    · rw [hlast.1, hlast.2, ← hkeep]
      exact hlookup
  · have hsameTitle : title = stored w .title := hlast.1.symm.trans (congrFun hsame .title)
    have hsameDesc : desc = stored w2 .description := by
      rw [hkeep]
      exact hlast.2.symm.trans (congrFun hsame .description)
    rcases List.mem_append.mp he with he | he
    · rw [List.mem_singleton.mp he]
      rfl
    rcases List.mem_append.mp he with he | he
    · exact readOnly_writes .title hsameTitle _ e he
    rcases List.mem_append.mp he with he | he
    · rw [List.mem_singleton.mp he]
      rfl
    · exact readOnly_writes .description hsameDesc _ e he

end

/-! ## The request, twice -/

section

variable {σ : Type} {answer : σ → (c : Cmd) → Cmd.Res c × σ} {d : DomainPtr} {stored : σ → MetadataType → String}
  {r : Response} {w w' : σ} {L : Linked} {T : Timeouts} {request : Request}
  {location : List String} {ms : Members}

theorem Updated.unique {before after after' : MetadataType → String} {r r' : Response}
    (h : Updated L ms before after r) (h' : Updated L ms after after' r') : after' = after := by
  funext t
  cases t with
  | title => rw [h'.title, h.title, newText_newText]
  | description => rw [h'.description, h.description, newText_newText]

theorem readOnly_domainCalls : ∀ e ∈ domainCalls location d, e.1.ReadOnly := by
  intro e he
  simp only [domainCalls, List.mem_cons, List.not_mem_nil, or_false] at he
  rcases he with rfl | rfl | rfl
  · trivial
  · trivial
  · rfl

theorem makes_updatedRoute (httpConn : Bool)
    (hf : Router.find request.target (router L T).routes = some (location, metadataRoute L))
    (hpost : request.method = .post) (hs : MetadataStore (ops answer) d stored)
    (hok : ∀ w t m, (ops answer w (.libvirt (.virDomainSetMetadata d t m))).1 = .ok (0 : ℤ))
    (hp : parse L request.body = .ok (.obj ms)) (ht : ScalarMember ms "title") (hd : ScalarMember ms "description")
    (hreach : Reaches answer location d w w') :
    ∃ es r' w'', Eff.Makes answer (Router.run L (router L T) httpConn request) r w es (.ok ()) r' w'' ∧
      Updated L ms (stored w') (stored w'') r' ∧ (stored w'' = stored w' → ∀ e ∈ es, e.1.ReadOnly) := by
  obtain ⟨es, r', w'', hmakes, hupdated, hread⟩ :=
    makes_updated (L := L) (r := Response.set {} .allow (allow [.post])) hs hok hp ht hd rfl rfl w'
  refine ⟨_, r', w'', makes_metadataRoute hf hpost hreach hmakes, hupdated, fun hsame e he => ?_⟩
  rcases List.mem_append.mp he with he | he
  · exact readOnly_domainCalls e he
  · obtain ⟨e', he', rfl⟩ := List.mem_map.mp he
    exact hread hsame e' he'

/-- A metadata request with texts for the title and the description, all of whose writes succeed, updates them and
reports what it has changed.  Once more, it writes nothing. -/
theorem metadata_updates (httpConn : Bool)
    (hf : Router.find request.target (router L T).routes = some (location, metadataRoute L))
    (hpost : request.method = .post) (hreach : Reaches answer location d w w')
    (hs : MetadataStore (ops answer) d stored) (hkept : stored w' = stored w)
    (hok : ∀ w t m, (ops answer w (.libvirt (.virDomainSetMetadata d t m))).1 = .ok (0 : ℤ))
    (hp : parse L request.body = .ok (.obj ms)) (ht : ScalarMember ms "title")
    (hd : ScalarMember ms "description") :
    let first := (Router.run L (router L T) httpConn request).exec answer r w
    Updated L ms (stored w) (stored first.2.2) first.2.1 ∧
      ∀ r2 w2', Reaches answer location d first.2.2 w2' → stored w2' = stored first.2.2 →
        ((Router.run L (router L T) httpConn request).exec answer r2 first.2.2).2.1.result = .notModified ∧
          stored ((Router.run L (router L T) httpConn request).exec answer r2 first.2.2).2.2 = stored first.2.2 ∧
          ∀ e ∈ (Router.run L (router L T) httpConn request).events answer r2 first.2.2, e.1.ReadOnly := by
  obtain ⟨es, r1, w1, hmakes, hupdated, -⟩ :=
    makes_updatedRoute (r := r) httpConn hf hpost hs hok hp ht hd hreach
  rw [hkept] at hupdated
  dsimp only
  rw [hmakes.exec]
  refine ⟨hupdated, fun r2 w2' hreach2 hkept2 => ?_⟩
  obtain ⟨es2, r2', w2, hmakes2, hupdated2, hread⟩ :=
    makes_updatedRoute (r := r2) httpConn hf hpost hs hok hp ht hd hreach2
  rw [hkept2] at hupdated2 hread
  have hsame : stored w2 = stored w1 := hupdated.unique hupdated2
  rw [hmakes2.exec, hmakes2.events]
  exact ⟨hupdated2.unchanged hsame, hsame, hread hsame⟩

end

/-! The title of a domain that stores all that it is given. -/

/-- The two texts are the state, and everything else is as for ann. -/
def storingTexts (texts : MetadataType → String) : (c : Cmd) → Cmd.Res c × (MetadataType → String)
  | .op (.libvirt (.virDomainGetMetadata _ t)) => (.ok (texts t), texts)
  | .op (.libvirt (.virDomainSetMetadata _ t m)) => (.ok (0 : ℤ), Function.update texts t m)
  | c => ((annLibvirt.serve annDomains c).1, texts)

theorem metadataStore_storingTexts (d : DomainPtr) : MetadataStore (ops storingTexts) d (fun texts => texts) where
  get _ _ := rfl
  get_keeps _ _ := rfl
  set_returns _ _ _ := ⟨0, rfl⟩
  set _ _ _ _ := rfl
  set_fails _ _ _ h := absurd rfl h

theorem scalarMember_titleRequest (key : String) : ScalarMember [("title", .str "new")] key := by
  intro v hv
  rw [Json.lookup] at hv
  split_ifs at hv
  · obtain rfl := Option.some.inj hv
    exact ⟨"new", rfl, by decide⟩
  · cases hv

theorem metadata_updates_title :
    let first := (Router.run writingLinked (router writingLinked ⟨60, 15⟩) true titleRequest).exec storingTexts {}
      fun _ => "old"
    Updated writingLinked [("title", .str "new")] (fun _ => "old") first.2.2 first.2.1 ∧
      ((Router.run writingLinked (router writingLinked ⟨60, 15⟩) true titleRequest).exec storingTexts {}
        first.2.2).2.1.result = .notModified := by
  have hreach : ∀ texts, Reaches storingTexts ["/users/ann/domains/vm/metadata/", "ann", "vm"] 0 texts texts :=
    fun _ => ⟨rfl, rfl, rfl⟩
  have hupdates := metadata_updates (r := {}) (T := ⟨60, 15⟩) (L := writingLinked) true find_titleRequest rfl
    (hreach fun _ => "old") (metadataStore_storingTexts 0) rfl (fun _ _ _ => rfl) rfl
    (scalarMember_titleRequest "title") (scalarMember_titleRequest "description")
  dsimp only at hupdates ⊢
  exact ⟨hupdates.1, (hupdates.2 {} _ (hreach _) rfl).1⟩

end Webvirtd.App
